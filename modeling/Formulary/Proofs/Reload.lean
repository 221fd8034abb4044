import Formulary.CommandLine.Listing
import Formulary.Proofs.RoundTrip
import Formulary.Proofs.Yaml.Building

/-! # Reading back a written catalog

A catalog is written as YAML and read again. All that the way through the text can change are names
and symbols: each comes back as `reread` says, which is itself unless a next-line character stands
in it between single quotes.
-/

namespace Formulary
set_option autoImplicit false

namespace Yaml
open Lexer ValueLike

/-! ## Texts that come back -/

theorem notMem_of_allowsPlain {t : Text} (h : allowsPlain t = true) : nextLine ∉ t := by
  intro ht
  have hb : t.any isTextBreak = true := List.any_eq_true.mpr ⟨nextLine, ht, by decide⟩
  simp [allowsPlain, hb] at h

theorem style_single_iff (t : Text) :
    Style.of false t = .single ↔ Style.of false t ≠ .plain ∧ allowsSingle t = true := by
  unfold Style.of
  split
  · simp
  · cases allowsSingle t <;> simp

/-- A text is lost exactly if it holds a next-line character and nothing in it asks for escapes. -/
theorem reread_eq_self (t : Text) :
    reread t = t ↔ ¬ (nextLine ∈ t ∧ allowsSingle t = true) := by
  by_cases ht : nextLine ∈ t
  · have hp : Style.of false t ≠ .plain := fun h => notMem_of_allowsPlain (plain_style h).2.1 ht
    by_cases ha : allowsSingle t = true
    · have hs : Style.of false t = .single := (style_single_iff t).mpr ⟨hp, ha⟩
      rw [reread, if_pos hs]
      exact iff_of_false (fun h => notMem_refolded [] t (h.symm ▸ ht)) fun h => h ⟨ht, ha⟩
    · have hs : Style.of false t ≠ .single := fun h => ha ((style_single_iff t).mp h).2
      rw [reread, if_neg hs]
      exact iff_of_true rfl fun h => ha h.2
  · have hr : refolded [] t = t := refolded_eq List.not_mem_nil ht
    rw [reread, hr, ite_self]
    exact iff_of_true rfl fun h => ht h.1

example : reread "a\x85b" = "a b" := by decide +kernel

theorem reread_typeName (t : OperandType) : reread t.name = t.name := by
  rw [reread_eq_self]
  rintro ⟨h, -⟩
  revert h
  cases t <;> decide

/-! ## What a value shows to a reader -/

/-- An entry of a value stands for a field. -/
def ShowsField (e : Value × Value) (f : Text × Json) : Prop :=
  layer e.1 = .str f.1 ∧ Shows e.2 f.2

theorem Shows.text {v : Value} {t : Text} (h : Shows v (.str t)) : layer v = .str (reread t) := by
  cases h with
  | str h => exact h

theorem Shows.items {v : Value} {js : List Json} (h : Shows v (.list js)) :
    ∃ vs, layer v = .list vs ∧ List.Forall₂ Shows vs js := by
  cases h with
  | @list _ vs _ h hl hs => exact ⟨vs, h, List.forall₂_iff_zip.mpr ⟨hl, hs _⟩⟩

theorem Shows.entries {v : Value} {fs : List (Text × Json)} (h : Shows v (.object fs)) :
    ∃ es, layer v = .map es ∧ List.Forall₂ ShowsField es fs := by
  cases h with
  | @object _ es _ h hl hk hs =>
    exact ⟨es, h, List.forall₂_iff_zip.mpr ⟨hl, fun hp => ⟨hk _ hp, hs _ hp⟩⟩⟩

theorem lookup?_shows {es : List (Value × Value)} {fs : List (Text × Json)}
    (h : List.Forall₂ ShowsField es fs) (name : Text) {j : Json}
    (hj : Json.field? fs name = some j) : ∃ v, lookup? es name = some v ∧ Shows v j := by
  induction h with
  | nil => cases hj
  | @cons e f es fs hf _ ih =>
    have hk : isText e.1 name = (f.1 == name) := by rw [isText, hf.1]
    obtain ⟨k, x⟩ := f
    rw [Json.field?, List.lookup_cons, Bool.beq_comm] at hj
    rw [lookup?, List.find?_cons, hk]
    cases hkn : k == name with
    | true =>
      rw [hkn, Option.some.injEq] at hj
      subst hj
      exact ⟨e.2, rfl, hf.2⟩
    | false =>
      rw [hkn] at hj
      exact ih hj

theorem Shows.field {v : Value} {fs : List (Text × Json)} (h : Shows v (.object fs)) (name : Text)
    {j : Json} (hj : Json.field? fs name = some j) :
    ∃ w, Catalog.optionalField v name = some w ∧ Shows w j := by
  obtain ⟨es, hes, hfs⟩ := h.entries
  rw [Catalog.optionalField, hes]
  exact lookup?_shows hfs name hj

end Yaml

/-! ## Catalogs through their text -/

/-- A variable with its name as it comes back. -/
def Variable.reread (v : Variable) : Variable := ⟨Yaml.Lexer.reread v.name, v.type⟩

/-- An operator with its symbol as it comes back. -/
def Operator.reread (op : Operator) : Operator := ⟨Yaml.Lexer.reread op.symbol, op.pairs⟩

namespace Catalog
open Yaml ValueLike

theorem readPair_shows {v : Value} {p : TypePair} (h : Shows v p.toJson) : readPair v = .ok p := by
  obtain ⟨l, hl, hls⟩ := h.field "left" rfl
  obtain ⟨r, hr, hrs⟩ := h.field "right" rfl
  refine (readPair_eq_ok v p).mpr ⟨l, r, hl, ?_, hr, ?_⟩
  · rw [hls.text, reread_typeName]
  · rw [hrs.text, reread_typeName]

theorem readOperator_shows {v : Value} {op : Operator} (h : Shows v op.toJson) :
    readOperator v = .ok op.reread := by
  obtain ⟨s, hs, hss⟩ := h.field "symbol" rfl
  obtain ⟨w, hw, hws⟩ := h.field "valid_types" rfl
  obtain ⟨items, hi, hpairs⟩ := hws.items
  refine (readOperator_eq_ok v _).mpr ⟨s, items, hs, ?_, ?_, ?_⟩
  · exact text?_str hss.text
  · rw [hw, itemsAt, itemsIn, hi]
  · rw [List.forall₂_map_right_iff] at hpairs
    exact hpairs.imp fun _ _ => readPair_shows

theorem readOperators_shows {w : Value} {ops : List Operator}
    (h : Shows w (.list (ops.map Operator.toJson))) :
    readOperators (some w) = .ok (ops.map Operator.reread) := by
  obtain ⟨items, hi, hops⟩ := h.items
  rw [readOperators, itemsAt, itemsIn, hi]
  refine (mapM_eq_ok _ _ _).mpr ?_
  rw [List.forall₂_map_right_iff] at hops ⊢
  exact hops.imp fun _ _ => readOperator_shows

theorem readGroup_shows {e : Value × Value} {t : OperandType} {names : List Text}
    (h : ShowsField e (t.name, .list (names.map .str))) :
    readGroup e = .ok (names.map fun name => ⟨Lexer.reread name, t⟩) := by
  obtain ⟨items, hi, hnames⟩ := h.2.items
  have hplace : textOf e.1 = .ok t.name := (textOf_eq_ok _ _).mpr (text?_str h.1)
  rw [readGroup, hplace]
  show (itemsIn _ e.2 >>= fun names => names.mapM (readVariable e.1)) = _
  rw [itemsIn, hi]
  refine (mapM_eq_ok _ _ _).mpr ?_
  rw [List.forall₂_map_right_iff] at hnames ⊢
  exact hnames.imp fun x name hx => (readVariable_eq_ok _ _ _).mpr ⟨text?_str hx.text, h.1⟩

theorem namesOf_reread (c : Catalog) (t : OperandType) :
    ((c.namesOf t).map fun name => (⟨Lexer.reread name, t⟩ : Variable)) =
      (c.declared.filter (·.type = t)).map Variable.reread := by
  rw [namesOf, List.map_map]
  refine List.map_congr_left fun v hv => ?_
  have ht : v.type = t := by simpa using (List.mem_filter.mp hv).2
  rw [Function.comp_apply, Variable.reread, ht]

theorem readVariables_shows {w : Value} {c : Catalog}
    (h : Shows w (.object (OperandType.declarable.map fun t =>
      (t.name, .list ((c.namesOf t).map .str))))) :
    readVariables (some w) = .ok (c.grouped.map Variable.reread) := by
  obtain ⟨es, hes, hfs⟩ := h.entries
  have hgroups : es.mapM readGroup = .ok (OperandType.declarable.map fun t =>
      (c.declared.filter (·.type = t)).map Variable.reread) := by
    refine (mapM_eq_ok _ _ _).mpr ?_
    rw [List.forall₂_map_right_iff] at hfs ⊢
    refine hfs.imp fun e t he => ?_
    rw [readGroup_shows he, namesOf_reread]
  rw [readVariables, Option.elim, entriesIn, hes]
  show (es.mapM readGroup >>= fun groups => pure groups.flatten) = _
  rw [hgroups]
  show Except.ok ((c.declared.filter _).map _ ++ ((c.declared.filter _).map _ ++ [])) = _
  rw [List.append_nil, grouped, List.map_append]

theorem ofDocument_shows {v : Value} {c : Catalog} (h : Shows v c.document) :
    ofDocument v = (make (c.grouped.map Variable.reread)
      (c.operators.map Operator.reread)).mapError fun o => .fault (.offence o) := by
  obtain ⟨es, hes, hfs⟩ := h.entries
  obtain ⟨w, hw, hws⟩ := lookup?_shows hfs "variables" rfl
  obtain ⟨x, hx, hxs⟩ := lookup?_shows hfs "operators" rfl
  have hparts : readParts es =
      .ok (c.grouped.map Variable.reread, c.operators.map Operator.reread) := by
    rw [readParts_eq_ok, hw, hx]
    exact ⟨readVariables_shows hws, readOperators_shows hxs⟩
  rw [ofDocument, hes]
  show ofEntries es = _
  rw [ofEntries, hparts]

/-! ## Catalogs can be written -/

theorem isKey_typeName (t : OperandType) : Lexer.IsKey t.name := by
  cases t <;> decide +kernel

theorem writable_fields {n : Nat} {k l : Text} {v w : Json} (hk : Lexer.IsKey k) (hl : Lexer.IsKey l)
    (hne : k ≠ l) (hv : Writable n v) (hw : Writable n w) :
    Writable (n + 1) (.object [(k, v), (l, w)]) := by
  refine .object (List.cons_ne_nil _ _) ?_ ?_ ?_
  · rw [List.forall_mem_cons, List.forall_mem_singleton]
    exact ⟨hk, hl⟩
  · exact List.nodup_cons.mpr ⟨fun h => hne (List.mem_singleton.mp h), List.nodup_singleton l⟩
  · rw [List.forall_mem_cons, List.forall_mem_singleton]
    exact ⟨hv, hw⟩

theorem writable_pair (p : TypePair) : Writable 1 p.toJson :=
  writable_fields (by decide +kernel) (by decide +kernel) (by decide) (.str 0 _) (.str 0 _)

theorem writable_operator (op : Operator) : Writable 3 op.toJson := by
  have hpairs : Writable 2 (.list (op.pairs.map TypePair.toJson)) :=
    .list (List.forall_mem_map.mpr fun p _ => writable_pair p)
  exact writable_fields (by decide +kernel) (by decide +kernel) (by decide) (.str 2 _) hpairs

theorem writable_document (c : Catalog) : Writable 5 c.document := by
  have hnames : ∀ t, Writable 3 (.list ((c.namesOf t).map .str)) := fun t =>
    .list (List.forall_mem_map.mpr fun name _ => .str 2 name)
  have hvars : Writable 4 (.object (OperandType.declarable.map fun t =>
      (t.name, .list ((c.namesOf t).map .str)))) :=
    writable_fields (isKey_typeName .int) (isKey_typeName .string) (by decide) (hnames .int)
      (hnames .string)
  have hops : Writable 4 (.list (c.operators.map Operator.toJson)) :=
    .list (List.forall_mem_map.mpr fun op _ => writable_operator op)
  exact writable_fields (by decide +kernel) (by decide +kernel) (by decide) hvars hops

/-- The text of a catalog is always read, and the catalog is put together again from the names and
symbols as they come back. -/
theorem ofYaml_write (h : Host) (c : Catalog) (j : Nat) :
    ofYaml h (Yaml.write c.documentFields ++ List.replicate j (.char '\n')) =
      (make (c.grouped.map Variable.reread) (c.operators.map Operator.reread)).mapError fun o =>
        .catalog (.document (.offence o)) := by
  have hroom : 5 ≤ h.room .collections := Nat.le_trans (by decide) (h.ample .collections)
  obtain ⟨v, hv, hs⟩ := read_write h c.writable_document (by decide) hroom j
  obtain ⟨es, hes, hfs⟩ := hs.entries
  have hsome : v.layer.isNothing = false := by
    have hlen := hfs.length_eq
    cases es with
    | nil => cases hlen
    | cons e es =>
      have h : v.layer = .map (e :: es) := hes
      rw [h]
      rfl
  rw [ofYaml, hv]
  show Except.mapError _ (if v.layer.isNothing then _ else _) = _
  rw [hsome, if_neg Bool.false_ne_true, ofDocument_shows hs]
  cases make (c.grouped.map Variable.reread) (c.operators.map Operator.reread) <;> rfl

theorem ofYaml_write_eq_ok (h : Host) (c : Catalog) (j : Nat) (c' : Catalog) :
    ofYaml h (Yaml.write c.documentFields ++ List.replicate j (.char '\n')) = .ok c' ↔
      c'.declared = c.grouped.map Variable.reread ∧
        c'.operators = c.operators.map Operator.reread := by
  have hm := make_eq_ok (c.grouped.map Variable.reread) (c.operators.map Operator.reread) c'
  rw [ofYaml_write]
  constructor
  · intro h
    cases hk : make (c.grouped.map Variable.reread) (c.operators.map Operator.reread) with
    | error o => simp [hk, Except.mapError] at h
    | ok x =>
      simp only [hk, Except.mapError, Except.ok.injEq] at h
      exact (hm.mp (by rw [hk, h])).2.2
  · rintro ⟨hd, ho⟩
    rw [hm.mpr ⟨hd ▸ c'.declarable, ho ▸ c'.listable, hd, ho⟩]
    rfl

/-! ## Catalogs that come back -/

/-- The names and symbols of a catalog. -/
def texts (c : Catalog) : List Text := c.declared.map (·.name) ++ c.operators.map (·.symbol)

theorem variable_reread_eq_self (v : Variable) :
    v.reread = v ↔ Lexer.reread v.name = v.name := by
  rw [Variable.reread, Variable.mk.injEq]
  exact and_iff_left rfl

theorem operator_reread_eq_self (op : Operator) :
    op.reread = op ↔ Lexer.reread op.symbol = op.symbol := by
  rw [Operator.reread, Operator.mk.injEq]
  exact and_iff_left rfl

theorem map_eq_self {α : Type} (f : α → α) (xs : List α) :
    xs.map f = xs ↔ ∀ x ∈ xs, f x = x := by
  nth_rewrite 2 [← List.map_id xs]
  exact List.map_inj_left

/-- Nothing is changed on the way exactly if no text of the catalog is lost. -/
theorem reread_eq_self_iff (c : Catalog) :
    (c.grouped.map Variable.reread = c.grouped ∧ c.operators.map Operator.reread = c.operators) ↔
      ∀ t ∈ c.texts, ¬ (nextLine ∈ t ∧ allowsSingle t = true) := by
  simp only [texts, List.forall_mem_append, List.forall_mem_map, ← reread_eq_self,
    ← variable_reread_eq_self, ← operator_reread_eq_self, map_eq_self, c.grouped_perm.mem_iff]

/-- A text is read as a catalog with the operators of the given one and with its variables by
type. -/
def ReadsBack (h : Host) (c : Catalog) (t : Text) : Prop :=
  ∃ c', ofYaml h t = .ok c' ∧ c'.operators = c.operators ∧
    c'.declared = c.declared.filter (·.type = .int) ++ c.declared.filter (·.type = .string)

theorem readsBack_write (h : Host) (c : Catalog) (j : Nat) :
    c.ReadsBack h (Yaml.write c.documentFields ++ List.replicate j (.char '\n')) ↔
      ∀ t ∈ c.texts, ¬ (nextLine ∈ t ∧ allowsSingle t = true) := by
  rw [← reread_eq_self_iff]
  constructor
  · rintro ⟨c', hc', ho, hd⟩
    obtain ⟨hd', ho'⟩ := (c.ofYaml_write_eq_ok h j c').mp hc'
    exact ⟨hd'.symm.trans hd, ho'.symm.trans ho⟩
  · rintro ⟨hd, ho⟩
    exact ⟨c.regrouped, (c.ofYaml_write_eq_ok h j _).mpr ⟨hd.symm, ho.symm⟩, rfl, rfl⟩

/-- The text of a catalog, and the line that is printed for it, are read back as that catalog
exactly if none of its names and symbols holds a next-line character and can stand between single
quotes. -/
theorem text_readsBack (h : Host) (c : Catalog) :
    (c.ReadsBack h (CommandLine.Listing.text .yaml c) ↔
      ∀ t ∈ c.texts, ¬ (nextLine ∈ t ∧ allowsSingle t = true)) ∧
    (c.ReadsBack h (CommandLine.Output.line (CommandLine.Listing.text .yaml c)) ↔
      ∀ t ∈ c.texts, ¬ (nextLine ∈ t ∧ allowsSingle t = true)) := by
  have hw := c.readsBack_write h 0
  rw [List.replicate_zero, List.append_nil] at hw
  exact ⟨hw, c.readsBack_write h 1⟩

end Catalog
end Formulary
