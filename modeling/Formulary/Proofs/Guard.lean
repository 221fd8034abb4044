import Formulary.Checker
import Formulary.Proofs.Catalog

/-! # What the guards let pass

The condition under which each of the six guards passes a context, and what a list of guards does
with a context: those in front that pass are skipped, the first that rejects decides.
-/

namespace Formulary
set_option autoImplicit false

namespace Operator

theorem admitsLeft_iff (op : Operator) (t : OperandType) :
    op.admitsLeft t = true ↔ ∃ p ∈ op.pairs, p.left = t := by
  simp [admitsLeft]

theorem admitsRight_iff (op : Operator) (t : OperandType) :
    op.admitsRight t = true ↔ ∃ p ∈ op.pairs, p.right = t := by
  simp [admitsRight]

theorem admits_iff (op : Operator) (l r : OperandType) :
    op.admits l r = true ↔ ⟨l, r⟩ ∈ op.pairs := by
  rw [admits, List.any_eq_true]
  constructor
  · rintro ⟨⟨pl, pr⟩, hp, he⟩
    simp only [Bool.and_eq_true, decide_eq_true_eq] at he
    obtain ⟨rfl, rfl⟩ := he
    exact hp
  · intro hp
    exact ⟨⟨l, r⟩, hp, by simp⟩

end Operator

namespace Formula

theorem isFilled_iff (side? : Option Text) :
    isFilled side? = true ↔ ∃ t, side? = some t ∧ t ≠ [] := by
  cases side? <;> simp [isFilled]

theorem isComplete_iff (f : Formula) :
    f.isComplete = true ↔ ∃ l op r, f = ⟨some l, some op, some r⟩ ∧ l ≠ [] ∧ r ≠ [] := by
  rw [isComplete, Bool.and_eq_true, Bool.and_eq_true, isFilled_iff, isFilled_iff,
    Option.isSome_iff_exists]
  constructor
  · rintro ⟨⟨⟨l, hl, hl'⟩, op, hop⟩, r, hr, hr'⟩
    refine ⟨l, op, r, ?_, hl', hr'⟩
    rw [← hl, ← hop, ← hr]
  · rintro ⟨l, op, r, rfl, hl, hr⟩
    exact ⟨⟨⟨l, rfl, hl⟩, op, rfl⟩, r, rfl, hr⟩

end Formula

/-! ## Single guards -/

namespace Guard

theorem passing_eq_pass (ok : Bool) (r : Rejection) : passing ok r = .ok none ↔ ok = true := by
  cases ok <;> simp [passing]

theorem passing_of_not {ok : Bool} (r : Rejection) (h : ¬ ok = true) :
    passing ok r = .ok (some r) := by
  rw [Bool.not_eq_true] at h
  subst h
  rfl

theorem completeness_pass (x : Context) :
    completeness.check x = .ok none ↔ x.formula.isComplete = true :=
  passing_eq_pass _ _

theorem leftIsVariable_pass (x : Context) :
    leftIsVariable.check x = .ok none ↔ ∃ t, ⟨x.leftText, t⟩ ∈ x.catalog.declared := by
  rw [← Catalog.isVariable_iff]
  exact passing_eq_pass _ _

theorem rightClassifiable_pass (x : Context) :
    rightClassifiable.check x = .ok none ↔ x.rightType ≠ .invalid := by
  rw [← decide_eq_true_iff (p := x.rightType ≠ .invalid)]
  exact passing_eq_pass _ _

section Operator

variable {x : Context} {op : Operator} (hop : x.formula.operator? = some op)
include hop

theorem operatorLeftType_pass :
    operatorLeftType.check x = .ok none ↔ ∃ p ∈ op.pairs, p.left = x.leftType := by
  simp only [operatorLeftType, hop]
  rw [passing_eq_pass, Operator.admitsLeft_iff]

theorem operatorRightType_pass :
    operatorRightType.check x = .ok none ↔ ∃ p ∈ op.pairs, p.right = x.rightType := by
  simp only [operatorRightType, hop]
  rw [passing_eq_pass, Operator.admitsRight_iff]

theorem operatorTypePair_pass :
    operatorTypePair.check x = .ok none ↔ ⟨x.leftType, x.rightType⟩ ∈ op.pairs := by
  simp only [operatorTypePair, hop]
  rw [passing_eq_pass, Operator.admits_iff]

end Operator

end Guard

/-! ## Lists of guards -/

namespace Checker

/-- All guards of a list pass a context. -/
def Passes (x : Context) (guards : List Guard) : Prop := ∀ g ∈ guards, g.check x = .ok none

theorem Passes.nil (x : Context) : Passes x [] := List.forall_mem_nil _

theorem Passes.snoc {x : Context} {guards : List Guard} {g : Guard} (h : Passes x guards)
    (hg : g.check x = .ok none) : Passes x (guards ++ [g]) :=
  List.forall_mem_append.mpr ⟨h, List.forall_mem_singleton.mpr hg⟩

theorem firstRejection_append {x : Context} {pre : List Guard} (h : Passes x pre)
    (rest : List Guard) : firstRejection x (pre ++ rest) = firstRejection x rest := by
  induction pre with
  | nil => rfl
  | cons g pre ih =>
    rw [List.cons_append, firstRejection, h g (List.mem_cons_self ..)]
    exact ih fun g' hg' => h g' (List.mem_cons_of_mem _ hg')

theorem run_of_pass {x : Context} {guards : List Guard} (h : Passes x guards) :
    run guards x = .ok (.accepted, []) := by
  have hf := firstRejection_append h []
  rw [List.append_nil] at hf
  rw [run, hf]
  rfl

theorem run_of_reject {x : Context} {pre : List Guard} {g : Guard} {r : Rejection}
    (h : Passes x pre) (hg : g.check x = .ok (some r)) (rest : List Guard) :
    run (pre ++ g :: rest) x = .ok (.rejected r, [rejectionEntry g r]) := by
  rw [run, firstRejection_append h, firstRejection, hg]
  rfl

theorem run_of_stop {x : Context} {pre : List Guard} {g : Guard} {e : AbsentOperator}
    (h : Passes x pre) (hg : g.check x = .error e) (rest : List Guard) :
    run (pre ++ g :: rest) x = .error e := by
  rw [run, firstRejection_append h, firstRejection, hg]
  rfl

theorem check_of_pass {x : Context} {guards : List Guard} (h : Passes x guards) :
    check guards x = .ok .accepted := by
  rw [check, run_of_pass h]
  rfl

theorem check_of_reject {x : Context} {pre : List Guard} {g : Guard} {r : Rejection}
    (h : Passes x pre) (hg : g.check x = .ok (some r)) (rest : List Guard) :
    check (pre ++ g :: rest) x = .ok (.rejected r) := by
  rw [check, run_of_reject h hg]
  rfl

theorem check_of_stop {x : Context} {pre : List Guard} {g : Guard} {e : AbsentOperator}
    (h : Passes x pre) (hg : g.check x = .error e) (rest : List Guard) :
    check (pre ++ g :: rest) x = .error e := by
  rw [check, run_of_stop h hg]
  rfl

theorem exists_run {x : Context} {guards : List Guard} {v : Verdict}
    (h : check guards x = .ok v) : ∃ log, run guards x = .ok (v, log) := by
  rw [check] at h
  cases hr : run guards x with
  | error e =>
    rw [hr] at h
    cases h
  | ok out =>
    rw [hr] at h
    cases h
    exact ⟨out.2, rfl⟩

end Checker

end Formulary
