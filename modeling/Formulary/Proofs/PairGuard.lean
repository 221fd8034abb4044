import Formulary.Proofs.GuardList
import Formulary.Proofs.Operand
import Mathlib.Data.Set.Finite.Basic

/-! # Where the guard for pairs counts

The guard for pairs is the last of the six, and it has the last word exactly where an operator
admits two types one by one and not together. On the right every catalog has an operand of either
type, and on the left some catalog declares a variable of any type that can be declared. So no guard
in front hides such a clash, and among the operators of a catalog the guard for pairs does nothing
only for those whose pairs are all the combinations of their types on the left with those on the
right.
-/

namespace Formulary
set_option autoImplicit false

/-! ## Operators with a clash -/

namespace Operator

/-- Two types that an operator admits one by one and not together. -/
structure Clash (op : Operator) (l r : OperandType) : Prop where
  left : op.admitsLeft l = true
  right : op.admitsRight r = true
  apart : op.admits l r = false

/-- The pairs are all combinations of a type on the left with a type on the right. -/
def IsProduct (op : Operator) : Prop :=
  ∀ l r, ⟨l, r⟩ ∈ op.pairs ↔ l ∈ op.pairs.map (·.left) ∧ r ∈ op.pairs.map (·.right)

variable {op : Operator}

theorem clash_iff (l r : OperandType) : op.Clash l r ↔
    (∃ p ∈ op.pairs, p.left = l) ∧ (∃ p ∈ op.pairs, p.right = r) ∧ ⟨l, r⟩ ∉ op.pairs := by
  rw [← admitsLeft_iff, ← admitsRight_iff, ← admits_iff, Bool.not_eq_true]
  constructor
  · intro h
    exact ⟨h.left, h.right, h.apart⟩
  · rintro ⟨hl, hr, h⟩
    exact ⟨hl, hr, h⟩

theorem isProduct_iff : op.IsProduct ↔ ∀ p ∈ op.pairs, ∀ q ∈ op.pairs,
    ⟨p.left, q.right⟩ ∈ op.pairs := by
  simp only [IsProduct, List.mem_map]
  constructor
  · intro h p hp q hq
    exact (h p.left q.right).mpr ⟨⟨p, hp, rfl⟩, ⟨q, hq, rfl⟩⟩
  · intro h l r
    constructor
    · intro hp
      exact ⟨⟨_, hp, rfl⟩, ⟨_, hp, rfl⟩⟩
    · rintro ⟨⟨p, hp, rfl⟩, ⟨q, hq, rfl⟩⟩
      exact h p hp q hq

instance (op : Operator) : Decidable op.IsProduct := decidable_of_iff _ isProduct_iff.symm

theorem isProduct_of_single {p : TypePair} (h : op.pairs = [p]) : op.IsProduct := by
  rw [isProduct_iff, h]
  intro q hq q' hq'
  rw [List.mem_singleton] at hq hq' ⊢
  rw [hq, hq']

theorem IsProduct.not_clash (h : op.IsProduct) (l r : OperandType) : ¬ op.Clash l r := by
  intro hc
  obtain ⟨⟨p, hp, rfl⟩, ⟨q, hq, rfl⟩, hn⟩ := (clash_iff l r).mp hc
  exact hn (isProduct_iff.mp h p hp q hq)

/-- In an operator that a catalog can list, two types that clash can be declared. Elsewhere the only
clashes may be those of `invalid`. -/
theorem exists_clash (hu : Catalog.Usable op) (h : ¬ op.IsProduct) :
    ∃ l r, l.isDeclarable = true ∧ r.isDeclarable = true ∧ op.Clash l r := by
  rw [isProduct_iff] at h
  push Not at h
  obtain ⟨p, hp, q, hq, hn⟩ := h
  have hc : op.Clash p.left q.right := (clash_iff _ _).mpr ⟨⟨p, hp, rfl⟩, ⟨q, hq, rfl⟩, hn⟩
  exact ⟨p.left, q.right, (hu.types p hp).1, (hu.types q hq).2, hc⟩

end Operator

/-! ## Operands of every type -/

namespace Operand

theorem inQuotes_injective : Function.Injective inQuotes := by
  intro s s' h
  exact List.append_cancel_right (List.cons.inj h).2

/-- Some text in quotes is the name of no variable, since there are only finitely many names. -/
theorem exists_inQuotes_undeclared (c : Catalog) : ∃ s, ∀ t, ⟨inQuotes s, t⟩ ∉ c.declared := by
  have hchar : Nonempty CodePoint := ⟨.char '"'⟩
  have hinf : (Set.range inQuotes).Infinite := Set.infinite_range_of_injective inQuotes_injective
  obtain ⟨_, ⟨s, rfl⟩, hs⟩ := hinf.exists_notMem_finset (c.declared.map (·.name)).toFinset
  refine ⟨s, fun t ht => hs ?_⟩
  exact List.mem_toFinset.mpr (List.mem_map_of_mem ht)

theorem exists_classified (c : Catalog) {t : OperandType} (ht : t.isDeclarable = true) :
    ∃ raw, raw ≠ [] ∧ classify c (some raw) = t := by
  rcases (OperandType.isDeclarable_iff t).mp ht with rfl | rfl
  · have hn : IsNumber "0" := by decide
    refine ⟨"0", hn.1, ?_⟩
    rw [classify_eq_byRules, byRules, if_pos hn]
  · -- not every text in quotes will do: one that is declared `int` is an integer
    obtain ⟨s, hs⟩ := exists_inQuotes_undeclared c
    refine ⟨inQuotes s, List.cons_ne_nil _ _, ?_⟩
    rw [classify_inQuotes, if_neg (hs .int)]

end Operand

/-- Any variable that can be declared can be declared alone, beside the operators of any catalog. -/
theorem Catalog.exists_declaring (c : Catalog) {v : Variable} (hv : v.type.isDeclarable = true) :
    ∃ c' : Catalog, c'.operators = c.operators ∧ v ∈ c'.declared := by
  have hd : Declarable [v] := ⟨List.forall_mem_singleton.mpr hv, List.nodup_singleton _⟩
  have hsound := (offence?_eq_none [v] c.operators).mpr ⟨hd, c.listable⟩
  exact ⟨⟨[v], c.operators, hsound⟩, rfl, List.mem_singleton_self v⟩

/-! ## The last guard -/

namespace Checker
open Guard

/-- The built-in guards without the one for pairs. -/
def withoutPair : List Guard := builtIn.filter fun g => g.id ≠ operatorTypePair.id

theorem builtIn_eq : builtIn = withoutPair ++ [operatorTypePair] := rfl

/-- The verdict is that two types are admitted one by one and not together. -/
def Incompatible (c : Catalog) (f : Formula) : Prop :=
  ∃ e, checkFormula c f = .ok (.rejected e) ∧ e.kind = .operatorIncompatibleTypes

/-- Of the rows of the table only one has this kind, and it asks for types that clash. -/
theorem incompatible_iff (c : Catalog) (f : Formula) :
    Incompatible c f ↔ ∃ (s : Operands) (op : Operator) (l r : OperandType),
      f = s.formula op ∧ s.Typed c l r ∧ op.Clash l r := by
  constructor
  · rintro ⟨e, he, hk⟩
    have hrow : Decided c f (.rejected e) := (decided_iff he _).mpr rfl
    cases hrow with
    | incomplete => cases hk
    | leftUndeclared => cases hk
    | rightUntyped => cases hk
    | leftRefused => cases hk
    | rightRefused => cases hk
    | pairRefused s op ht hl hr hn =>
      refine ⟨s, op, _, _, rfl, ht, (Operator.clash_iff _ _).mpr ⟨hl, hr, ?_⟩⟩
      exact fun hp => hn _ hp ⟨rfl, rfl⟩
  · rintro ⟨s, op, l, r, rfl, ht, hc⟩
    obtain ⟨hl, hr, hn⟩ := (Operator.clash_iff l r).mp hc
    rw [pair_iff] at hn
    refine ⟨_, checkFormula_of_decided (.pairRefused s op ht hl hr ?_), rfl⟩
    exact fun p hp he => hn ⟨p, hp, he⟩

theorem Incompatible.accepted_withoutPair {c : Catalog} {f : Formula} (h : Incompatible c f) :
    check withoutPair ⟨f, c⟩ = .ok .accepted := by
  obtain ⟨s, op, l, r, rfl, ht, hc⟩ := (incompatible_iff c f).mp h
  obtain ⟨hl, hr, -⟩ := (Operator.clash_iff l r).mp hc
  exact check_of_pass (passes_right op ht hl hr)

/-- The guard for pairs changes the verdict only where it gives its own. -/
theorem check_withoutPair {c : Catalog} {f : Formula} (h : ¬ Incompatible c f) :
    check withoutPair ⟨f, c⟩ = checkFormula c f := by
  by_cases hp : Passes ⟨f, c⟩ withoutPair
  swap
  · rw [checkFormula, builtIn_eq, check_append hp]
  cases hpair : operatorTypePair.check ⟨f, c⟩ with
  | error e =>
    -- an absent operator is found before it is asked for
    have hstop : checkFormula c f = .error e := check_of_stop hp hpair []
    obtain ⟨v, hv⟩ := exists_decided c f
    rw [checkFormula_of_decided hv] at hstop
    cases hstop
  | ok r? =>
    cases r? with
    | none => rw [check_of_pass hp, checkFormula, builtIn_eq, check_of_pass (hp.snoc hpair)]
    | some r =>
      have hkind : r.kind = operatorTypePair.kind := kind_of_reject (by simp [builtIn]) hpair
      exact absurd ⟨r, check_of_reject hp hpair [], hkind⟩ h

/-! ## Operators that the guard counts for -/

/-- In a given catalog it comes down to the variables on the left: on the right there is an operand
of every type. -/
theorem exists_incompatible_iff (c : Catalog) (op : Operator) :
    (∃ left right, Incompatible c ⟨some left, some op, some right⟩) ↔
      ∃ v ∈ c.declared, v.name ≠ [] ∧ ∃ r, r.isDeclarable = true ∧ op.Clash v.type r := by
  constructor
  · rintro ⟨left, right, h⟩
    obtain ⟨s, op', l, r, hf, ht, hc⟩ := (incompatible_iff c _).mp h
    cases hf
    have hr := (OperandType.isDeclarable_iff_ne r).mpr ht.valid
    exact ⟨_, ht.declared, s.left_ne, r, hr, hc⟩
  · rintro ⟨v, hv, hname, r, hr, hc⟩
    obtain ⟨right, hne, hright⟩ := Operand.exists_classified c hr
    have ht : Operands.Typed ⟨v.name, right, hname, hne⟩ c v.type r :=
      ⟨hv, hright, (OperandType.isDeclarable_iff_ne r).mp hr⟩
    exact ⟨v.name, right, (incompatible_iff c _).mpr ⟨_, op, _, r, rfl, ht, hc⟩⟩

theorem exists_incompatible (c : Catalog) {op : Operator} {l r : OperandType}
    (hl : l.isDeclarable = true) (hr : r.isDeclarable = true) (h : op.Clash l r) :
    ∃ (c' : Catalog) (left right : Text), c'.operators = c.operators ∧
      Incompatible c' ⟨some left, some op, some right⟩ := by
  have hname : ("n" : Text) ≠ [] := by decide
  obtain ⟨c', hops, hv⟩ := c.exists_declaring (v := ⟨"n", l⟩) hl
  obtain ⟨left, right, hi⟩ := (exists_incompatible_iff c' op).mpr ⟨_, hv, hname, r, hr, h⟩
  exact ⟨c', left, right, hops, hi⟩

theorem not_incompatible {op : Operator} (h : op.IsProduct) {c : Catalog} {f : Formula}
    (hf : f.operator? = some op) : ¬ Incompatible c f := by
  intro hi
  obtain ⟨s, op', l, r, rfl, -, hc⟩ := (incompatible_iff c f).mp hi
  cases hf
  exact h.not_clash l r hc

/-- An operator is rejected as incompatible, between some operands under some catalog, exactly if it
admits two types that can be declared one by one and not together. So the guard for pairs can be
left out for an operator with one pair, and for one whose pairs are all combinations of its types.
For any other operator of a catalog it cannot: under a catalog of the same operators, it rejects a
formula that all the other guards accept. -/
theorem pair_guard_needed (op : Operator) :
    ((∃ (c : Catalog) (left right : Text), Incompatible c ⟨some left, some op, some right⟩) ↔
      ∃ l ∈ OperandType.declarable, ∃ r ∈ OperandType.declarable,
        op.admitsLeft l = true ∧ op.admitsRight r = true ∧ op.admits l r = false) ∧
    ((∃ p, op.pairs = [p]) ∨ op.IsProduct → ∀ (c : Catalog) (f : Formula),
      f.operator? = some op →
        ¬ Incompatible c f ∧ check withoutPair ⟨f, c⟩ = checkFormula c f) ∧
    (∀ c : Catalog, op ∈ c.operators → ¬ ((∃ p, op.pairs = [p]) ∨ op.IsProduct) →
      ∃ (c' : Catalog) (left right : Text), c'.operators = c.operators ∧
        Incompatible c' ⟨some left, some op, some right⟩ ∧
        check withoutPair ⟨⟨some left, some op, some right⟩, c'⟩ = .ok .accepted) := by
  refine ⟨⟨?_, ?_⟩, ?_, ?_⟩
  · rintro ⟨c, left, right, h⟩
    obtain ⟨v, hv, -, r, hr, hc⟩ := (exists_incompatible_iff c op).mp ⟨left, right, h⟩
    exact ⟨v.type, (OperandType.mem_declarable _).mpr (c.declarable.types v hv), r,
      (OperandType.mem_declarable r).mpr hr, hc.left, hc.right, hc.apart⟩
  · rintro ⟨l, hl, r, hr, hc⟩
    rw [OperandType.mem_declarable] at hl hr
    obtain ⟨c, left, right, -, h⟩ :=
      exists_incompatible .builtIn hl hr ⟨hc.1, hc.2.1, hc.2.2⟩
    exact ⟨c, left, right, h⟩
  · intro h c f hf
    have hproduct : op.IsProduct := h.elim (fun ⟨_, hp⟩ => Operator.isProduct_of_single hp) id
    have hn := not_incompatible hproduct (c := c) hf
    exact ⟨hn, check_withoutPair hn⟩
  · intro c hop h
    obtain ⟨l, r, hl, hr, hc⟩ :=
      Operator.exists_clash (c.listable.usable op hop) (not_or.mp h).2
    obtain ⟨c', left, right, hops, hi⟩ := exists_incompatible c hl hr hc
    exact ⟨c', left, right, hops, hi, hi.accepted_withoutPair⟩

/-- Of the built-in operators `=` needs the guard and `≥` does not. Nor does an operator that fails to
be a product only by a pair that mentions `invalid`. -/
theorem equality_needs_pair_guard :
    ⟨"=", [⟨.int, .int⟩, ⟨.string, .string⟩]⟩ ∈ Catalog.builtIn.operators ∧
    ¬ Operator.IsProduct ⟨"=", [⟨.int, .int⟩, ⟨.string, .string⟩]⟩ ∧
    (∃ (c : Catalog) (left right : Text), c.operators = Catalog.builtIn.operators ∧
      Incompatible c
        ⟨some left, some ⟨"=", [⟨.int, .int⟩, ⟨.string, .string⟩]⟩, some right⟩) ∧
    (∀ (c : Catalog) (f : Formula), f.operator? = some ⟨"≥", [⟨.int, .int⟩]⟩ →
      check withoutPair ⟨f, c⟩ = checkFormula c f) ∧
    ¬ Operator.IsProduct ⟨"~", [⟨.int, .int⟩, ⟨.invalid, .invalid⟩]⟩ ∧
    ¬ ∃ (c : Catalog) (left right : Text), Incompatible c
      ⟨some left, some ⟨"~", [⟨.int, .int⟩, ⟨.invalid, .invalid⟩]⟩, some right⟩ := by
  have hmem : ⟨"=", [⟨.int, .int⟩, ⟨.string, .string⟩]⟩ ∈ Catalog.builtIn.operators := by
    decide +kernel
  have hproduct : ¬ Operator.IsProduct ⟨"=", [⟨.int, .int⟩, ⟨.string, .string⟩]⟩ := by decide
  refine ⟨hmem, hproduct, ?_, ?_, by decide, ?_⟩
  · obtain ⟨c, left, right, hops, hi, -⟩ :=
      (pair_guard_needed _).2.2 .builtIn hmem (by simp [hproduct])
    exact ⟨c, left, right, hops, hi⟩
  · intro c f hf
    exact ((pair_guard_needed _).2.1 (.inl ⟨_, rfl⟩) c f hf).2
  · rw [(pair_guard_needed _).1]
    decide

end Checker

end Formulary
