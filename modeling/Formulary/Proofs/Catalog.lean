import Formulary.Catalog.Basic
import Mathlib.Data.List.Nodup

/-! # What a catalog holds

The scan for offences keeps the names it has passed; without its bookkeeping it says that every type
can be declared, that names and symbols occur once, and that every operator has pairs. From this the
questions that are asked of a catalog are questions of membership.
-/

namespace Formulary
set_option autoImplicit false

namespace OperandType

theorem isDeclarable_iff (t : OperandType) : t.isDeclarable = true ↔ t = .int ∨ t = .string := by
  cases t <;> simp [isDeclarable]

theorem isDeclarable_iff_ne (t : OperandType) : t.isDeclarable = true ↔ t ≠ .invalid := by
  cases t <;> simp [isDeclarable]

theorem mem_declarable (t : OperandType) : t ∈ declarable ↔ t.isDeclarable = true := by
  cases t <;> simp [isDeclarable, declarable]

end OperandType

namespace Catalog

/-! ## Two lists without an offence -/

/-- Variables that can be declared together. -/
structure Declarable (vs : List Variable) : Prop where
  types : ∀ v ∈ vs, v.type.isDeclarable = true
  names : (vs.map (·.name)).Nodup

/-- An operator that a catalog can list. -/
structure Usable (op : Operator) : Prop where
  pairs : op.pairs ≠ []
  types : ∀ p ∈ op.pairs, p.left.isDeclarable = true ∧ p.right.isDeclarable = true

/-- Operators that can be listed together. -/
structure Listable (ops : List Operator) : Prop where
  usable : ∀ op ∈ ops, Usable op
  symbols : (ops.map (·.symbol)).Nodup

/-- Texts that occur once and not among those seen before. -/
def Fresh (seen texts : List Text) : Prop := texts.Nodup ∧ ∀ t ∈ texts, t ∉ seen

theorem fresh_nil (seen : List Text) : Fresh seen [] := ⟨List.nodup_nil, by simp⟩

theorem fresh_cons (seen texts : List Text) (t : Text) :
    Fresh seen (t :: texts) ↔ t ∉ seen ∧ Fresh (t :: seen) texts := by
  unfold Fresh
  rw [List.nodup_cons, List.forall_mem_cons]
  constructor
  · rintro ⟨⟨ht, hn⟩, hs, hseen⟩
    refine ⟨hs, hn, fun u hu hm => ?_⟩
    rcases List.mem_cons.mp hm with rfl | hm
    · exact ht hu
    · exact hseen u hu hm
  · rintro ⟨hs, hn, hseen⟩
    refine ⟨⟨fun ht => hseen t ht (List.mem_cons_self ..), hn⟩, hs, fun u hu hm => ?_⟩
    exact hseen u hu (List.mem_cons_of_mem _ hm)

theorem variableOffence?_eq_none (seen : List Text) (vs : List Variable) :
    variableOffence? seen vs = none ↔
      (∀ v ∈ vs, v.type.isDeclarable = true) ∧ Fresh seen (vs.map (·.name)) := by
  induction vs generalizing seen with
  | nil => simp [variableOffence?, fresh_nil]
  | cons v vs ih =>
    rw [List.map_cons, fresh_cons, List.forall_mem_cons, variableOffence?]
    by_cases ht : v.type.isDeclarable = true
    · by_cases hs : v.name ∈ seen
      · simp [ht, hs]
      · simp [ht, hs, ih]
    · simp [ht]

theorem usable_iff (op : Operator) :
    Usable op ↔ op.pairs.isEmpty = false ∧
      (op.pairs.any fun p => !(p.left.isDeclarable && p.right.isDeclarable)) = false := by
  constructor
  · intro h
    refine ⟨by simpa using h.pairs, ?_⟩
    rw [List.any_eq_false]
    intro p hp
    simp [h.types p hp]
  · rintro ⟨hp, ht⟩
    refine ⟨by simpa using hp, fun p hm => ?_⟩
    simpa using List.any_eq_false.mp ht p hm

theorem operatorOffence?_eq_none (seen : List Text) (ops : List Operator) :
    operatorOffence? seen ops = none ↔
      (∀ op ∈ ops, Usable op) ∧ Fresh seen (ops.map (·.symbol)) := by
  induction ops generalizing seen with
  | nil => simp [operatorOffence?, fresh_nil]
  | cons op ops ih =>
    rw [List.map_cons, fresh_cons, List.forall_mem_cons, operatorOffence?, usable_iff]
    by_cases hs : op.symbol ∈ seen
    · simp [hs]
    · rw [if_neg (by simpa using hs)]
      cases op.pairs.isEmpty with
      | true => simp
      | false =>
        cases op.pairs.any fun p => !(p.left.isDeclarable && p.right.isDeclarable) with
        | true => simp
        | false => simp [hs, ih]

theorem declarable_iff (vs : List Variable) : Declarable vs ↔ variableOffence? [] vs = none := by
  rw [variableOffence?_eq_none]
  constructor
  · intro hd
    exact ⟨hd.types, hd.names, by simp⟩
  · rintro ⟨ht, hn, -⟩
    exact ⟨ht, hn⟩

theorem listable_iff (ops : List Operator) : Listable ops ↔ operatorOffence? [] ops = none := by
  rw [operatorOffence?_eq_none]
  constructor
  · intro hl
    exact ⟨hl.usable, hl.symbols, by simp⟩
  · rintro ⟨hu, hs, -⟩
    exact ⟨hu, hs⟩

theorem offence?_eq_none (vs : List Variable) (ops : List Operator) :
    offence? vs ops = none ↔ Declarable vs ∧ Listable ops := by
  rw [offence?, Option.or_eq_none_iff, declarable_iff, listable_iff]

/-- A catalog is made from two lists exactly if neither has an offence, and it holds them. -/
theorem make_eq_ok (vs : List Variable) (ops : List Operator) (c : Catalog) :
    make vs ops = .ok c ↔ Declarable vs ∧ Listable ops ∧ c.declared = vs ∧ c.operators = ops := by
  rw [← and_assoc, ← offence?_eq_none]
  unfold make
  split
  · rename_i h
    rw [Except.ok.injEq]
    constructor
    · rintro rfl
      exact ⟨h, rfl, rfl⟩
    · rintro ⟨-, rfl, rfl⟩
      rfl
  · rename_i e h
    simp [h]

theorem exists_make (vs : List Variable) (ops : List Operator) :
    (∃ c, make vs ops = .ok c) ↔ Declarable vs ∧ Listable ops := by
  constructor
  · rintro ⟨c, hc⟩
    obtain ⟨hd, hl, -, -⟩ := (make_eq_ok vs ops c).mp hc
    exact ⟨hd, hl⟩
  · rintro ⟨hd, hl⟩
    have hsound := (offence?_eq_none vs ops).mpr ⟨hd, hl⟩
    exact ⟨⟨vs, ops, hsound⟩, (make_eq_ok vs ops _).mpr ⟨hd, hl, rfl, rfl⟩⟩

theorem declarable (c : Catalog) : Declarable c.declared := ((offence?_eq_none _ _).mp c.sound).1

theorem type_ne_invalid {c : Catalog} {v : Variable} (h : v ∈ c.declared) : v.type ≠ .invalid :=
  (OperandType.isDeclarable_iff_ne v.type).mp (c.declarable.types v h)

theorem listable (c : Catalog) : Listable c.operators := ((offence?_eq_none _ _).mp c.sound).2

/-! ## Questions -/

/-- Where a key occurs once, the first item of a key is the only one. -/
theorem find?_key {α : Type} (key : α → Text) {xs : List α} (h : (xs.map key).Nodup) (k : Text)
    (x : α) : xs.find? (key · == k) = some x ↔ x ∈ xs ∧ key x = k := by
  constructor
  · intro hf
    exact ⟨List.mem_of_find?_eq_some hf, by simpa using List.find?_some hf⟩
  · rintro ⟨hx, rfl⟩
    obtain ⟨y, hy⟩ : ∃ y, xs.find? (key · == key x) = some y :=
      Option.isSome_iff_exists.mp (List.find?_isSome.mpr ⟨x, hx, by simp⟩)
    have hk : key y = key x := by simpa using List.find?_some hy
    rw [hy, List.inj_on_of_nodup_map h (List.mem_of_find?_eq_some hy) hx hk]

theorem typeOf?_eq_some (c : Catalog) (name : Text) (t : OperandType) :
    c.typeOf? name = some t ↔ ⟨name, t⟩ ∈ c.declared := by
  rw [typeOf?, Option.map_eq_some_iff]
  constructor
  · rintro ⟨v, hv, rfl⟩
    obtain ⟨hm, rfl⟩ := (find?_key Variable.name c.declarable.names name v).mp hv
    exact hm
  · intro hm
    exact ⟨⟨name, t⟩, (find?_key Variable.name c.declarable.names name _).mpr ⟨hm, rfl⟩, rfl⟩

theorem isVariable_iff (c : Catalog) (name : Text) :
    c.isVariable name = true ↔ ∃ t, ⟨name, t⟩ ∈ c.declared := by
  rw [isVariable, Option.isSome_iff_exists]
  exact exists_congr fun t => c.typeOf?_eq_some name t

theorem operator?_eq_some (c : Catalog) (symbol : Text) (op : Operator) :
    c.operator? symbol = some op ↔ op ∈ c.operators ∧ op.symbol = symbol :=
  find?_key Operator.symbol c.listable.symbols symbol op

end Catalog

end Formulary
