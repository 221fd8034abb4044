import Formulary.Catalog.Source
import Formulary.Proofs.Reading

/-! # What reading a document lets pass

A document of the wrong shape is refused, with two exceptions. A value that counts as nothing passes
for an absent one, whatever its kind, where a document or its variables are asked for; where the
operators are asked for, it does not. And the key of a group is looked at once for each name of the
group, so that a group without names passes under any key.
-/

namespace Formulary
set_option autoImplicit false

open ValueLike

namespace Layer

variable {α : Type}

def IsMap (x : Layer α) : Prop := ∃ entries, x = .map entries

def IsList (x : Layer α) : Prop := (∃ items, x = .list items) ∨ ∃ first second, x = .pair first second

/-- False, a zero or something empty. Null and the empty map are not among them. -/
inductive Hollow : Layer α → Prop where
  | bool : Hollow (.bool false)
  | int : Hollow (.int 0)
  | float {negative : Bool} {exponent : Int} : Hollow (.float (.finite negative 0 exponent))
  | str : Hollow (.str [])
  | bytes : Hollow (.bytes [])
  | list : Hollow (.list [])
  | set : Hollow (.set [])

theorem Hollow.isNothing {x : Layer α} (h : x.Hollow) : x.isNothing = true := by
  cases h <;> rfl

theorem isNothing_iff {x : Layer α} (hn : x ≠ .null) (hm : ¬ x.IsMap) :
    x.isNothing = true ↔ x.Hollow := by
  refine ⟨fun h => ?_, Hollow.isNothing⟩
  cases x with
  | null => exact absurd rfl hn
  | map entries => exact absurd ⟨entries, rfl⟩ hm
  | bool b =>
    cases b with
    | false => exact .bool
    | true => cases h
  | int i =>
    obtain rfl : i = 0 := by simpa [isNothing] using h
    exact .int
  | float x =>
    cases x with
    | finite negative m e =>
      cases m with
      | zero => exact .float
      | succ m => cases h
    | _ => cases h
  | str t =>
    obtain rfl : t = [] := by simpa [isNothing] using h
    exact .str
  | bytes bs =>
    obtain rfl : bs = [] := by simpa [isNothing] using h
    exact .bytes
  | list items =>
    obtain rfl : items = [] := by simpa [isNothing] using h
    exact .list
  | set items =>
    obtain rfl : items = [] := by simpa [isNothing] using h
    exact .set
  | _ => cases h

end Layer

namespace Catalog

def empty : Catalog := ⟨[], [], rfl⟩

variable {α : Type} [ValueLike α]

/-! ## Parts of the wrong kind -/

/-- The entries of a map without those of a text key. -/
def without (entries : List (α × α)) (name : Text) : List (α × α) :=
  entries.filter fun e => !isText e.1 name

theorem lookup?_without_self (entries : List (α × α)) (name : Text) :
    lookup? (without entries name) name = none := by
  simp [lookup?, without]

theorem isText_unique {v : α} {name other : Text} (h : isText v name = true) (hne : name ≠ other) :
    isText v other = false := by
  unfold isText at *
  split at h
  · rename_i t ht
    obtain rfl := beq_iff_eq.mp h
    simp [hne]
  · cases h

theorem lookup?_without_ne (entries : List (α × α)) {name other : Text} (h : name ≠ other) :
    lookup? (without entries name) other = lookup? entries other := by
  have hp : ∀ e : α × α, (!isText e.1 name && isText e.1 other) = isText e.1 other := by
    intro e
    cases hn : isText e.1 name with
    | false => rfl
    | true => simp [isText_unique hn h]
  simp only [lookup?, without, List.find?_filter, Bool.decide_and, Bool.decide_eq_true, hp]

theorem ofDocument_map {d : α} {entries : List (α × α)} (h : layer d = .map entries) :
    ofDocument d = ofEntries entries := by
  simp only [ofDocument, h]

theorem ofEntries_congr {entries entries' : List (α × α)}
    (hv : readVariables (lookup? entries "variables") = readVariables (lookup? entries' "variables"))
    (ho : lookup? entries "operators" = lookup? entries' "operators") :
    ofEntries entries = ofEntries entries' := by
  unfold ofEntries readParts
  rw [hv, ho]

theorem readVariables_hollow {w : α} (h : (layer w).Hollow) :
    readVariables (some w) = readVariables (none : Option α) := by
  have he : entriesIn w = .ok [] := by
    unfold entriesIn
    split
    · rename_i entries hl
      rw [hl] at h
      cases h
    · rw [if_pos h.isNothing]
  simp only [readVariables, Option.elim_some, Option.elim_none, he]

theorem readVariables_misshapen {w : α} (hn : layer w ≠ .null) (hm : ¬ (layer w).IsMap)
    (hh : ¬ (layer w).Hollow) :
    readVariables (some w) = .error (.fault (.noEntries (layer w).kind)) := by
  have he : entriesIn w = .error (.fault (.noEntries (layer w).kind)) := by
    unfold entriesIn
    split
    · rename_i entries hl
      exact absurd ⟨entries, hl⟩ hm
    · rw [if_neg (mt (Layer.isNothing_iff hn hm).mp hh)]
  simp only [readVariables, Option.elim_some, he]
  rfl

theorem readOperators_misshapen {w : α} (hn : layer w ≠ .null) (hl : ¬ (layer w).IsList) :
    readOperators (some w) = .error (.fault (.notList "operators" (layer w).kind)) := by
  have he : itemsIn "operators" w = .error (.fault (.notList "operators" (layer w).kind)) := by
    unfold itemsIn
    split
    · exact absurd ‹_› hn
    · exact absurd (.inl ⟨_, ‹_›⟩) hl
    · exact absurd (.inr ⟨_, _, ‹_›⟩) hl
    · rfl
  simp only [readOperators, itemsAt, he]
  rfl

/-- Operators of the wrong kind are reported unless the variables have stopped the reading. -/
theorem ofEntries_operators {entries : List (α × α)} {w : α}
    (ho : lookup? entries "operators" = some w) (hn : layer w ≠ .null)
    (hl : ¬ (layer w).IsList) :
    ∃ m : Halt Malformation, ofEntries entries = .error (m.map .malformed) ∧
      ((∃ vs, readVariables (lookup? entries "variables") = .ok vs) →
        m = .fault (.notList "operators" (layer w).kind)) ∧
      ∀ m', readVariables (lookup? entries "variables") = .error m' → m = m' := by
  have hr := readOperators_misshapen hn hl
  unfold ofEntries readParts
  rw [ho, hr]
  cases readVariables (lookup? entries "variables") with
  | error m =>
    refine ⟨m, rfl, ?_, ?_⟩
    · rintro ⟨vs, hvs⟩
      cases hvs
    · intro m' hm'
      cases hm'
      rfl
  | ok vs => exact ⟨_, rfl, fun _ => rfl, fun m' hm' => by cases hm'⟩

theorem ofYaml_misshapen {h : Yaml.Host} {text : Text} {v : Yaml.Value}
    (hv : Yaml.read h text = .ok v) (hn : layer v ≠ .null) (hm : ¬ (layer v).IsMap) :
    ((layer v).Hollow → ofYaml h text = .ok empty) ∧
      (¬ (layer v).Hollow → ofYaml h text = .error (.catalog (.document .notMap))) := by
  have hlayer : v.layer = layer v := rfl
  have hnothing := Layer.isNothing_iff hn hm
  constructor
  · intro hh
    simp only [ofYaml, hv, hlayer, hnothing.mpr hh, if_true]
    rfl
  · intro hh
    have hd : ofDocument v = .error (.fault .notMap) := by
      unfold ofDocument
      split
      · rename_i entries hl
        exact absurd ⟨entries, hl⟩ hm
      · rfl
    simp only [ofYaml, hv, hlayer, if_neg (mt hnothing.mp hh), hd]
    rfl

/-- A value that is neither null nor of the kind that is expected stops the reading of a document,
except that a hollow one passes: for a document it is the empty catalog, and in place of the
variables it is as good as none. In place of the operators nothing passes. -/
theorem misshapen_outcome (h : Yaml.Host) (text : Text) (d : α) :
    (∀ v, Yaml.read h text = .ok v → layer v ≠ .null → ¬ (layer v).IsMap →
      ((layer v).Hollow → ofYaml h text = .ok empty) ∧
      (¬ (layer v).Hollow → ofYaml h text = .error (.catalog (.document .notMap)))) ∧
    (∀ entries w, layer d = .map entries → lookup? entries "variables" = some w →
      layer w ≠ .null → ¬ (layer w).IsMap →
        ((layer w).Hollow → ofDocument d = ofEntries (without entries "variables")) ∧
        (¬ (layer w).Hollow →
          ofDocument d = .error (.fault (.malformed (.noEntries (layer w).kind))))) ∧
    (∀ entries w, layer d = .map entries → lookup? entries "operators" = some w →
      layer w ≠ .null → ¬ (layer w).IsList →
        ∃ m : Halt Malformation, ofDocument d = .error (m.map .malformed) ∧
          ((∃ vs, readVariables (lookup? entries "variables") = .ok vs) →
            m = .fault (.notList "operators" (layer w).kind)) ∧
          ∀ m', readVariables (lookup? entries "variables") = .error m' → m = m') := by
  refine ⟨fun v hv => ofYaml_misshapen hv, ?_, ?_⟩
  · intro entries w hd hw hn hm
    rw [ofDocument_map hd]
    constructor
    · intro hh
      apply ofEntries_congr
      · rw [hw, lookup?_without_self, readVariables_hollow hh]
      · rw [lookup?_without_ne entries (by decide)]
    · intro hh
      simp only [ofEntries, readParts, hw, readVariables_misshapen hn hm hh]
      rfl
  · intro entries w hd hw hn hl
    rw [ofDocument_map hd]
    exact ofEntries_operators hw hn hl

theorem falseVariables_outcome :
    ofDocument (.object [("variables", .bool false), ("operators", .bool false)] : Json) =
        .error (.fault (.malformed (.notList "operators" .bool))) ∧
      ofDocument (.object [("variables", .bool false)] : Json) =
        ofEntries (without [(Json.str "variables", Json.bool false)] "variables") := by
  constructor
  · obtain ⟨m, hm, hop, -⟩ := (misshapen_outcome Yaml.Host.least ""
      (.object [("variables", .bool false), ("operators", .bool false)] : Json)).2.2
      _ (.bool false) rfl rfl (fun h => by cases h)
      (by
        rintro (⟨items, h⟩ | ⟨first, second, h⟩)
        · cases h
        · cases h)
    rw [hm, hop ⟨[], rfl⟩]
    rfl
  · exact ((misshapen_outcome Yaml.Host.least "" (.object [("variables", .bool false)] : Json)).2.1
      _ (.bool false) rfl rfl (fun h => by cases h) (by rintro ⟨entries, h⟩; cases h)).1 .bool

/-- A list without items is no map, as a document and as variables. -/
theorem emptyList_read_as_none :
    ((Yaml.read Yaml.Host.least "[]").toOption.map fun v => (layer v).kind) = some .list ∧
    ofYaml Yaml.Host.least "[]" = .ok empty ∧
    ofDocument (.object [("variables", .list [])] : Json) = .ok empty := by
  decide +kernel

/-! ## Groups without names -/

def IsTypeKey (k : α) : Prop := layer k = .str "int" ∨ layer k = .str "string"

/-- A key that has a text, and nothing under it. -/
structure Idle (g : α × α) : Prop where
  key : ∃ t, text? g.1 = some t
  names : layer g.2 = .null ∨ layer g.2 = .list []

/-- The groups of variables of a document. -/
def Groups (d : α) (groups : List (α × α)) : Prop :=
  ∃ entries w, layer d = .map entries ∧ lookup? entries "variables" = some w ∧
    layer w = .map groups

/-- Two documents with the same operators. -/
def SameOperators (d d' : α) : Prop :=
  optionalField d "operators" = optionalField d' "operators"

theorem itemsIn_eq_nil (place : Text) (v : α) :
    itemsIn place v = .ok [] ↔ layer v = .null ∨ layer v = .list [] := by
  unfold itemsIn
  split <;> simp_all

theorem readGroup_idle {g : α × α} (h : Idle g) : readGroup g = .ok [] := by
  obtain ⟨t, ht⟩ := h.key
  have hn := (itemsIn_eq_nil ("variables." ++ t) g.2).mpr h.names
  simp only [readGroup, (textOf_eq_ok _ _).mpr ht, hn, bind, Except.bind]
  rfl

/-- Names under a key are declared with the type that the key names. -/
theorem idle_of_readGroup {g : α × α} {vs : List Variable} (h : readGroup g = .ok vs)
    (hk : ¬ IsTypeKey g.1) (hd : ∀ v ∈ vs, v.type.isDeclarable = true) : Idle g := by
  simp only [readGroup, bind_eq_ok, textOf_eq_ok, mapM_eq_ok, readVariable_eq_ok] at h
  obtain ⟨t, ht, names, hn, hvs⟩ := h
  refine ⟨⟨t, ht⟩, (itemsIn_eq_nil ("variables." ++ t) g.2).mp ?_⟩
  cases hvs with
  | nil => exact hn
  | @cons _ v _ vs hv _ =>
    have htype := (OperandType.isDeclarable_iff _).mp (hd v (List.mem_cons_self ..))
    refine absurd ?_ hk
    rcases htype with hi | hs
    · exact .inl (by rw [hv.2, hi]; rfl)
    · exact .inr (by rw [hv.2, hs]; rfl)

theorem readVariables_groups {w : α} {groups : List (α × α)} (h : layer w = .map groups) :
    readVariables (some w) = (groups.mapM readGroup).map List.flatten := by
  have he : entriesIn w = .ok groups := by simp only [entriesIn, h]
  simp only [readVariables, Option.elim_some, he]
  rfl

theorem flatten_idle (before after : List (α × α)) {g : α × α} (h : Idle g) :
    ((before ++ g :: after).mapM readGroup).map List.flatten =
      ((before ++ after).mapM readGroup).map List.flatten := by
  rw [List.mapM_append, List.mapM_append, List.mapM_cons, readGroup_idle h]
  cases before.mapM readGroup with
  | error m => rfl
  | ok xs =>
    cases after.mapM readGroup with
    | error m => rfl
    | ok ys => simp [bind, Except.bind, pure, Except.pure, Except.map]

theorem Groups.idle_of_ok {d : α} {groups : List (α × α)} {c : Catalog} (hg : Groups d groups)
    (h : ofDocument d = .ok c) {g : α × α} (hm : g ∈ groups) (hk : ¬ IsTypeKey g.1) : Idle g := by
  obtain ⟨entries, w, hd, hw, hl⟩ := hg
  rw [ofDocument_map hd, ofEntries_eq_ok, hw, readVariables_groups hl] at h
  cases hr : groups.mapM readGroup with
  | error m =>
    rw [hr] at h
    cases h.1
  | ok parts =>
    obtain ⟨vs, hvs, hread⟩ := forall₂_exists_right ((mapM_eq_ok _ _ _).mp hr) hm
    rw [hr] at h
    have hall : parts.flatten = c.declared := Except.ok.inj h.1
    refine idle_of_readGroup hread hk fun v hv => c.declarable.types v ?_
    rw [← hall]
    exact List.mem_flatten.mpr ⟨vs, hvs, hv⟩

/-- A group under a key that names no type is refused, unless nothing stands under the key. Then
the document is read as the one without the group. -/
theorem unknown_key_outcome {d : α} {before after : List (α × α)} {g : α × α}
    (hg : Groups d (before ++ g :: after)) (hk : ¬ IsTypeKey g.1) :
    (¬ Idle g → ∃ fault, ofDocument d = .error fault) ∧
    (Idle g → ∀ d', Groups d' (before ++ after) → SameOperators d d' →
      ofDocument d = ofDocument d') := by
  constructor
  · intro hi
    cases h : ofDocument d with
    | error fault => exact ⟨fault, rfl⟩
    | ok c => exact absurd (hg.idle_of_ok h (List.mem_append_right _ (List.mem_cons_self ..)) hk) hi
  · intro hi d' hg' ho
    obtain ⟨entries, w, hd, hw, hl⟩ := hg
    obtain ⟨entries', w', hd', hw', hl'⟩ := hg'
    simp only [SameOperators, optionalField, hd, hd'] at ho
    rw [ofDocument_map hd, ofDocument_map hd']
    refine ofEntries_congr ?_ ho
    rw [hw, hw', readVariables_groups hl, readVariables_groups hl', flatten_idle before after hi]

/-- Variables with one group of integers and one under another key. -/
def misnamed (key : Text) (names : Json) : Json :=
  .object [("variables", .object [("int", .list [.str "a"]), (key, names)])]

theorem groups_misnamed (key : Text) (names : Json) :
    Groups (misnamed key names)
      ([(.str "int", .list [.str "a"])] ++ (Json.str key, names) :: []) :=
  ⟨_, _, rfl, rfl, rfl⟩

theorem misnamed_outcome :
    (∃ fault, ofDocument (misnamed "float" (.list [.str "b"])) = .error fault) ∧
      ofDocument (misnamed "float" (.list [])) =
        ofDocument (.object [("variables", .object [("int", .list [.str "a"])])] : Json) := by
  have hk : ¬ IsTypeKey (Json.str "float") := by
    rintro (h | h)
    · exact absurd (Layer.str.inj h) (by decide)
    · exact absurd (Layer.str.inj h) (by decide)
  constructor
  · refine (unknown_key_outcome (groups_misnamed "float" (.list [.str "b"])) hk).1 fun h => ?_
    rcases h.names with hn | hn
    · cases hn
    · cases hn
  · refine (unknown_key_outcome (groups_misnamed "float" (.list [])) hk).2 ⟨⟨_, rfl⟩, .inr rfl⟩ _ ?_ rfl
    exact ⟨_, _, rfl, rfl, rfl⟩

theorem misnamed_accepted :
    (ofDocument (misnamed "float" (.list []))).isOk = true ∧
      (ofDocument (misnamed "invalid" .null)).isOk = true := by
  decide +kernel

end Catalog

end Formulary
