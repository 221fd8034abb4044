import Formulary.Inquiry
import Formulary.Proofs.Decision

/-! # What an inquiry asks

A body is an inquiry if it is an object in which each of the three fields is a text, null or absent.
Any other body is refused with one entry for each thing that is wrong with it. An inquiry is a
formula as soon as its symbol is one of the catalog, or there is none to look for.
-/

namespace Formulary
set_option autoImplicit false

namespace Inquiry

/-! ## Bodies -/

/-- A field holds a text; one that is absent or null holds none. -/
def Carries (fields : List (Text × Json)) (x : Field) : Option Text → Prop
  | none => Json.field? fields x.name = none ∨ Json.field? fields x.name = some .null
  | some t => Json.field? fields x.name = some (.str t)

/-- A field holds a value that is neither a text nor null. -/
structure Offends (fields : List (Text × Json)) (x : Field) (v : Json) : Prop where
  held : Json.field? fields x.name = some v
  notNull : v ≠ .null
  notText : ∀ t, v ≠ .str t

/-- What a body says: the texts of its three fields. -/
structure Says (fields : List (Text × Json)) (q : Inquiry) : Prop where
  left : Carries fields .left q.left?
  symbol : Carries fields .operator q.symbol?
  right : Carries fields .right q.right?

/-- One entry of a refusal: its code, the place in the body, the message and the value there. -/
def entry (code : Text) (place : List Text) (message : Text) (input : Json) : Json :=
  .object [("type", .str code), ("loc", .list (.str "body" :: place.map .str)),
    ("msg", .str message), ("input", input)]

/-- The entries that a body is refused with. -/
inductive Refused : Option Json → List Json → Prop where
  | empty : Refused none [entry "missing" [] "Field required" .null]
  | notObject {v : Json} (h : ∀ fields, v ≠ .object fields) :
    Refused (some v) [entry "model_attributes_type" []
      "Input should be a valid dictionary or object to extract fields from" v]
  /-- One entry for each field at fault, in the order of the formula. -/
  | fields {fields : List (Text × Json)} {offending : List (Field × Json)} (hne : offending ≠ [])
      (order : (offending.map (·.1)).Sublist Field.all)
      (h : ∀ x v, (x, v) ∈ offending ↔ Offends fields x v) :
    Refused (some (.object fields)) (offending.map fun o =>
      entry "string_type" [o.1.name] "Input should be a valid string" o.2)

section Fields

variable (fields : List (Text × Json)) (x : Field)

theorem fieldIssue?_cases :
    (∃ t?, Carries fields x t? ∧ fieldIssue? fields x.name = none ∧
      fieldText? fields x.name = t?) ∨
    ∃ v, Offends fields x v ∧
      fieldIssue? fields x.name = some ⟨⟨[.field x.name], .notString⟩, v⟩ := by
  unfold fieldIssue? fieldText?
  cases h : Json.field? fields x.name with
  | none => exact .inl ⟨none, .inl h, rfl, rfl⟩
  | some v =>
    cases v with
    | null => exact .inl ⟨none, .inr h, rfl, rfl⟩
    | str t => exact .inl ⟨some t, h, rfl, rfl⟩
    | bool b => exact .inr ⟨_, ⟨h, nofun, nofun⟩, rfl⟩
    | int i => exact .inr ⟨_, ⟨h, nofun, nofun⟩, rfl⟩
    | float y => exact .inr ⟨_, ⟨h, nofun, nofun⟩, rfl⟩
    | list items => exact .inr ⟨_, ⟨h, nofun, nofun⟩, rfl⟩
    | object fs => exact .inr ⟨_, ⟨h, nofun, nofun⟩, rfl⟩

variable {fields x}

theorem Carries.not_offends {t? : Option Text} (h : Carries fields x t?) (v : Json) :
    ¬ Offends fields x v := by
  rintro ⟨hv, hnull, htext⟩
  cases t? with
  | none =>
    rcases h with h | h
    · rw [h] at hv
      cases hv
    · rw [h] at hv
      cases hv
      exact hnull rfl
  | some t =>
    rw [Carries] at h
    rw [h] at hv
    cases hv
    exact htext t rfl

theorem Carries.fieldText? {t? : Option Text} (h : Carries fields x t?) :
    fieldText? fields x.name = t? := by
  unfold Inquiry.fieldText?
  cases t? with
  | none =>
    rcases h with h | h
    · rw [h]
    · rw [h]
  | some t =>
    rw [Carries] at h
    rw [h]

theorem Carries.fieldIssue? {t? : Option Text} (h : Carries fields x t?) :
    fieldIssue? fields x.name = none := by
  rcases fieldIssue?_cases fields x with ⟨-, -, hi, -⟩ | ⟨v, hv, -⟩
  · exact hi
  · exact absurd hv (h.not_offends v)

end Fields

theorem Says.ofBody {fields : List (Text × Json)} {q : Inquiry} (h : Says fields q) :
    ofBody (some (.object fields)) = .ok q := by
  have hnone : fieldNames.filterMap (fieldIssue? fields) = [] := by
    rw [List.filterMap_eq_nil_iff]
    intro name hname
    simp only [fieldNames, List.mem_cons, List.not_mem_nil, or_false] at hname
    rcases hname with rfl | rfl | rfl
    · exact h.left.fieldIssue?
    · exact h.symbol.fieldIssue?
    · exact h.right.fieldIssue?
  simp only [Inquiry.ofBody, hnone]
  rw [show fieldText? fields "left_side" = q.left? from h.left.fieldText?,
    show fieldText? fields "operator" = q.symbol? from h.symbol.fieldText?,
    show fieldText? fields "right_side" = q.right? from h.right.fieldText?]

/-- The fields at fault, with their values. -/
def offending (fields : List (Text × Json)) : List (Field × Json) :=
  Field.all.filterMap fun x => (fieldIssue? fields x.name).map fun i => (x, i.input)

theorem mem_offending (fields : List (Text × Json)) (x : Field) (v : Json) :
    (x, v) ∈ offending fields ↔ Offends fields x v := by
  have hall : x ∈ Field.all := by cases x <;> simp [Field.all]
  simp only [offending, List.mem_filterMap, Option.map_eq_some_iff, Prod.mk.injEq]
  constructor
  · rintro ⟨y, -, i, hi, rfl, rfl⟩
    rcases fieldIssue?_cases fields y with ⟨-, -, hn, -⟩ | ⟨w, hw, hs⟩
    · rw [hn] at hi
      cases hi
    · rw [hs] at hi
      cases hi
      exact hw
  · intro h
    rcases fieldIssue?_cases fields x with ⟨t?, ht, -⟩ | ⟨w, hw, hs⟩
    · exact absurd h (ht.not_offends v)
    · have he : w = v := Option.some.inj (hw.held.symm.trans h.held)
      exact ⟨x, hall, _, hs, rfl, he⟩

theorem offending_order (fields : List (Text × Json)) :
    ((offending fields).map (·.1)).Sublist Field.all := by
  have hmap : (offending fields).map (·.1) =
      Field.all.filter fun x => (fieldIssue? fields x.name).isSome := by
    rw [offending, List.map_filterMap, ← List.filterMap_eq_filter]
    apply List.filterMap_congr
    intro x _
    cases hi : fieldIssue? fields x.name <;> simp [Option.guard, hi]
  rw [hmap]
  exact List.filter_sublist

theorem issues_eq (fields : List (Text × Json)) :
    (fieldNames.filterMap (fieldIssue? fields)).map InputIssue.toJson =
      (offending fields).map fun o =>
        entry "string_type" [o.1.name] "Input should be a valid string" o.2 := by
  have hnames : fieldNames = Field.all.map Field.name := rfl
  rw [hnames, List.filterMap_map, List.map_filterMap, offending, List.map_filterMap]
  apply List.filterMap_congr
  intro x _
  rcases fieldIssue?_cases fields x with ⟨-, -, hn, -⟩ | ⟨v, -, hs⟩
  · simp [hn]
  · simp only [Function.comp_apply, hs, Option.map_some]
    rfl

/-- A body is an inquiry, or is refused with the entries of its issues. -/
theorem ofBody_cases (body? : Option Json) :
    (∃ fields q, body? = some (.object fields) ∧ Says fields q ∧ ofBody body? = .ok q) ∨
      ∃ issues, ofBody body? = .error issues ∧ Refused body? (issues.map InputIssue.toJson) := by
  cases body? with
  | none => exact .inr ⟨_, rfl, .empty⟩
  | some v =>
    cases v with
    | object fields =>
      cases hi : fieldNames.filterMap (fieldIssue? fields) with
      | nil =>
        have carried : ∀ x ∈ Field.all, ∃ t?, Carries fields x t? := by
          intro x hx
          rcases fieldIssue?_cases fields x with ⟨t?, ht, -⟩ | ⟨v, -, hs⟩
          · exact ⟨t?, ht⟩
          · have hn := List.filterMap_eq_nil_iff.mp hi x.name (List.mem_map_of_mem hx)
            rw [hs] at hn
            cases hn
        obtain ⟨l?, hl⟩ := carried .left (by simp [Field.all])
        obtain ⟨s?, hs⟩ := carried .operator (by simp [Field.all])
        obtain ⟨r?, hr⟩ := carried .right (by simp [Field.all])
        have h : Says fields ⟨l?, s?, r?⟩ := ⟨hl, hs, hr⟩
        exact .inl ⟨fields, _, rfl, h, h.ofBody⟩
      | cons i rest =>
        refine .inr ⟨i :: rest, by simp only [ofBody, hi], ?_⟩
        have hne : offending fields ≠ [] := by
          intro he
          have hmap := issues_eq fields
          rw [hi, he] at hmap
          cases hmap
        rw [← hi, issues_eq]
        exact .fields hne (offending_order fields) (mem_offending fields)
    | null => exact .inr ⟨_, rfl, .notObject nofun⟩
    | bool b => exact .inr ⟨_, rfl, .notObject nofun⟩
    | int i => exact .inr ⟨_, rfl, .notObject nofun⟩
    | float y => exact .inr ⟨_, rfl, .notObject nofun⟩
    | str t => exact .inr ⟨_, rfl, .notObject nofun⟩
    | list items => exact .inr ⟨_, rfl, .notObject nofun⟩

/-! ## Symbols -/

/-- The formula of an inquiry: its sides as they are, and the operator that has its symbol. -/
inductive Resolved (c : Catalog) (q : Inquiry) : Formula → Prop where
  | noOperator (h : q.symbol? = none ∨ q.symbol? = some []) :
    Resolved c q ⟨q.left?, none, q.right?⟩
  | operator {op : Operator} (hm : op ∈ c.operators) (hs : q.symbol? = some op.symbol)
      (hne : op.symbol ≠ []) :
    Resolved c q ⟨q.left?, some op, q.right?⟩

/-- The symbol is not empty, and no operator has it. -/
structure Unknown (c : Catalog) (q : Inquiry) (symbol : Text) : Prop where
  given : q.symbol? = some symbol
  filled : symbol ≠ []
  absent : ∀ op ∈ c.operators, op.symbol ≠ symbol

theorem Resolved.resolve {c : Catalog} {q : Inquiry} {f : Formula} (h : Resolved c q f) :
    q.resolve c = .ok f := by
  cases h with
  | noOperator h =>
    have hf : q.symbol?.filter (!·.isEmpty) = none := by
      rcases h with h | h <;> rw [h] <;> rfl
    simp only [Inquiry.resolve, hf]
  | @operator op hm hs hne =>
    have hf : q.symbol?.filter (!·.isEmpty) = some op.symbol := by simp [hs, hne]
    have ho : c.operator? op.symbol = some op := (c.operator?_eq_some _ _).mpr ⟨hm, rfl⟩
    simp only [Inquiry.resolve, hf, ho]

theorem Unknown.resolve {c : Catalog} {q : Inquiry} {symbol : Text} (h : Unknown c q symbol) :
    q.resolve c = .error ⟨symbol⟩ := by
  have hf : q.symbol?.filter (!·.isEmpty) = some symbol := by simp [h.given, h.filled]
  have ho : c.operator? symbol = none := by
    rw [Option.eq_none_iff_forall_ne_some]
    intro op hop
    obtain ⟨hm, hs⟩ := (c.operator?_eq_some _ _).mp hop
    exact h.absent op hm hs
  simp only [Inquiry.resolve, hf, ho]

theorem resolve_cases (c : Catalog) (q : Inquiry) :
    (∃ f, Resolved c q f ∧ q.resolve c = .ok f) ∨
      ∃ symbol, Unknown c q symbol ∧ q.resolve c = .error ⟨symbol⟩ := by
  by_cases hempty : q.symbol? = none ∨ q.symbol? = some []
  · have h : Resolved c q _ := .noOperator hempty
    exact .inl ⟨_, h, h.resolve⟩
  · obtain ⟨symbol, hs⟩ := Option.ne_none_iff_exists'.mp (not_or.mp hempty).1
    have hne : symbol ≠ [] := fun h => hempty (.inr (by rw [hs, h]))
    by_cases hm : ∃ op ∈ c.operators, op.symbol = symbol
    · obtain ⟨op, hm, rfl⟩ := hm
      have h : Resolved c q _ := .operator hm hs hne
      exact .inl ⟨_, h, h.resolve⟩
    · have h : Unknown c q symbol := ⟨hs, hne, fun op hop he => hm ⟨op, hop, he⟩⟩
      exact .inr ⟨symbol, h, h.resolve⟩

end Inquiry

end Formulary
