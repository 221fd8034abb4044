import Formulary.Proofs.Guard

/-! # The decision table of a formula

The table has a row for each way in which a formula can fail and one for the formula that does not.
A row says of the fields, the declarations and the pairs themselves when it applies, and writes out
the verdict. Exactly one row applies, and its verdict is the one that the built-in guards give. In
particular no guard ever asks something of an absent operator.
-/

namespace Formulary
set_option autoImplicit false

/-! ## The table -/

/-- The fields of a formula. -/
inductive Field where
  | left
  | operator
  | right
deriving DecidableEq, Repr

namespace Field

def name : Field → Text
  | .left => "left_side"
  | .operator => "operator"
  | .right => "right_side"

/-- The fields in the order of the formula. -/
def all : List Field := [.left, .operator, .right]

end Field

/-- A side that is empty is as absent as one that is not given. -/
def Formula.Lacks (f : Formula) : Field → Prop
  | .left => f.left? = none ∨ f.left? = some []
  | .operator => f.operator? = none
  | .right => f.right? = none ∨ f.right? = some []

instance (f : Formula) : DecidablePred f.Lacks
  | .left => inferInstanceAs (Decidable (_ ∨ _))
  | .operator => inferInstanceAs (Decidable (_ = _))
  | .right => inferInstanceAs (Decidable (_ ∨ _))

/-- Two operands of which neither is empty. -/
structure Operands where
  left : Text
  right : Text
  left_ne : left ≠ []
  right_ne : right ≠ []

/-- The formula of an operator between two operands. -/
def Operands.formula (s : Operands) (op : Operator) : Formula :=
  ⟨some s.left, some op, some s.right⟩

/-- The left operand is declared with a type, the right one is a literal or declared with one. -/
structure Operands.Typed (s : Operands) (c : Catalog) (l r : OperandType) : Prop where
  declared : ⟨s.left, l⟩ ∈ c.declared
  classified : Operand.classify c (some s.right) = r
  valid : r ≠ .invalid

/-! ### What the rows say -/

namespace Rejection

def incomplete (f : Formula) : Rejection :=
  ⟨.missingField, "All fields are required.",
    [("missing", .list ((Field.all.filter (f.Lacks ·)).map fun x => .str x.name))]⟩

def leftUndeclared (left : Text) : Rejection :=
  ⟨.leftNotVariable, "Left side must be a variable.", [("left_side", .str left)]⟩

def rightUntyped (right : Text) : Rejection :=
  ⟨.rightInvalidType, "Right side must be a variable, an integer or a string.",
    [("right_side", .str right)]⟩

def leftRefused (symbol left : Text) (l : OperandType) : Rejection :=
  ⟨.operatorLeftTypeMismatch,
    "Invalid type for operator " ++ symbol ++ ": can’t be applied to value " ++ left ++
      " of type " ++ l.name ++ " on the left side.",
    [("operator", .str symbol), ("left_side", .str left), ("left_type", .str l.name)]⟩

def rightRefused (symbol right : Text) (r : OperandType) : Rejection :=
  ⟨.operatorRightTypeMismatch,
    "Invalid type for operator " ++ symbol ++ ": can’t be applied to value " ++ right ++
      " of type " ++ r.name ++ " on the right side.",
    [("operator", .str symbol), ("right_side", .str right), ("right_type", .str r.name)]⟩

def pairRefused (symbol left : Text) (l : OperandType) (right : Text) (r : OperandType) :
    Rejection :=
  ⟨.operatorIncompatibleTypes,
    "Incompatible types for operator " ++ symbol ++ ": can't be applied to a value " ++ left ++
      " of type " ++ l.name ++ " on the left side and a value " ++ right ++ " of type " ++
      r.name ++ " on the right side.",
    [("operator", .str symbol), ("left_side", .str left), ("left_type", .str l.name),
     ("right_side", .str right), ("right_type", .str r.name)]⟩

end Rejection

/-! ### When they apply -/

/-- The rows of the table: the verdict that a formula has under a catalog. -/
inductive Decided (c : Catalog) : Formula → Verdict → Prop where
  | incomplete {f : Formula} (h : ∃ x, f.Lacks x) : Decided c f (.rejected (.incomplete f))
  | leftUndeclared (s : Operands) (op : Operator) (h : ∀ t, ⟨s.left, t⟩ ∉ c.declared) :
    Decided c (s.formula op) (.rejected (.leftUndeclared s.left))
  | rightUntyped (s : Operands) (op : Operator) {l : OperandType} (hl : ⟨s.left, l⟩ ∈ c.declared)
      (hr : Operand.classify c (some s.right) = .invalid) :
    Decided c (s.formula op) (.rejected (.rightUntyped s.right))
  | leftRefused (s : Operands) (op : Operator) {l r : OperandType} (ht : s.Typed c l r)
      (h : ∀ p ∈ op.pairs, p.left ≠ l) :
    Decided c (s.formula op) (.rejected (.leftRefused op.symbol s.left l))
  | rightRefused (s : Operands) (op : Operator) {l r : OperandType} (ht : s.Typed c l r)
      (hl : ∃ p ∈ op.pairs, p.left = l) (h : ∀ p ∈ op.pairs, p.right ≠ r) :
    Decided c (s.formula op) (.rejected (.rightRefused op.symbol s.right r))
  | pairRefused (s : Operands) (op : Operator) {l r : OperandType} (ht : s.Typed c l r)
      (hl : ∃ p ∈ op.pairs, p.left = l) (hr : ∃ p ∈ op.pairs, p.right = r)
      (h : ∀ p ∈ op.pairs, ¬ (p.left = l ∧ p.right = r)) :
    Decided c (s.formula op) (.rejected (.pairRefused op.symbol s.left l s.right r))
  | accepted (s : Operands) (op : Operator) {l r : OperandType} (ht : s.Typed c l r)
      (h : ∃ p ∈ op.pairs, p.left = l ∧ p.right = r) :
    Decided c (s.formula op) .accepted

/-! ## Absent fields -/

namespace Formula

theorem isFilled_eq (side? : Option Text) :
    isFilled side? = !decide (side? = none ∨ side? = some []) := by
  cases side? with
  | none => rfl
  | some t => cases t <;> simp [isFilled]

/-- The two ways of telling what is absent agree. -/
theorem presence_eq (f : Formula) :
    f.presence = Field.all.map fun x => (x.name, !decide (f.Lacks x)) := by
  have ho : f.operator?.isSome = !decide (f.operator? = none) := by cases f.operator? <;> simp
  rw [presence, isFilled_eq, isFilled_eq, ho]
  rfl

theorem missing_eq (f : Formula) : f.missing = (Field.all.filter (f.Lacks ·)).map Field.name := by
  rw [missing, presence_eq, List.filter_map, List.map_map]
  simp only [Function.comp_def, Bool.not_not]

theorem lacks_or_operands (f : Formula) :
    (∃ x, f.Lacks x) ∨ ∃ (s : Operands) (op : Operator), f = s.formula op := by
  obtain ⟨left?, operator?, right?⟩ := f
  by_cases hl : left? = none ∨ left? = some []
  · exact .inl ⟨.left, hl⟩
  by_cases hr : right? = none ∨ right? = some []
  · exact .inl ⟨.right, hr⟩
  cases operator? with
  | none => exact .inl ⟨.operator, rfl⟩
  | some op =>
    obtain ⟨l, rfl⟩ := Option.ne_none_iff_exists'.mp (not_or.mp hl).1
    obtain ⟨r, rfl⟩ := Option.ne_none_iff_exists'.mp (not_or.mp hr).1
    exact .inr ⟨⟨l, r, fun h => hl (.inr (by rw [h])), fun h => hr (.inr (by rw [h]))⟩, op, rfl⟩

theorem isComplete_formula (s : Operands) (op : Operator) : (s.formula op).isComplete = true :=
  (isComplete_iff _).mpr ⟨s.left, op, s.right, rfl, s.left_ne, s.right_ne⟩

theorem not_isComplete_of_lacks {f : Formula} (h : ∃ x, f.Lacks x) : ¬ f.isComplete = true := by
  intro hc
  obtain ⟨l, op, r, rfl, hl, hr⟩ := (isComplete_iff f).mp hc
  obtain ⟨x, hx⟩ := h
  cases x <;> simp [Lacks, hl, hr] at hx

end Formula

/-! ## Every row is what the guards say -/

namespace Operands

variable {s : Operands} {c : Catalog} {l r : OperandType}

theorem leftType_eq (op : Operator) (h : ⟨s.left, l⟩ ∈ c.declared) :
    Context.leftType ⟨s.formula op, c⟩ = l := by
  have ht := (c.typeOf?_eq_some s.left l).mpr h
  simp [Context.leftType, formula, ht]

theorem Typed.rightType_eq (h : s.Typed c l r) (op : Operator) :
    Context.rightType ⟨s.formula op, c⟩ = r := h.classified

theorem formula_inj {s s' : Operands} {op op' : Operator} (h : s.formula op = s'.formula op') :
    s = s' ∧ op = op' := by
  cases s
  cases s'
  simp only [formula, Formula.mk.injEq, Option.some.injEq] at h
  simp [h]

/-- Operands have at most one type each. -/
theorem Typed.unique {l' r' : OperandType} (h : s.Typed c l r) (h' : s.Typed c l' r') :
    l = l' ∧ r = r' := by
  have hl := (c.typeOf?_eq_some s.left l).mpr h.declared
  have hl' := (c.typeOf?_eq_some s.left l').mpr h'.declared
  exact ⟨Option.some.inj (hl.symm.trans hl'), h.classified.symm.trans h'.classified⟩

end Operands

namespace Guard

theorem pair_iff (op : Operator) (l r : OperandType) :
    ⟨l, r⟩ ∈ op.pairs ↔ ∃ p ∈ op.pairs, p.left = l ∧ p.right = r := by
  constructor
  · intro h
    exact ⟨_, h, rfl, rfl⟩
  · rintro ⟨p, hp, rfl, rfl⟩
    exact hp

theorem sideMessage_left (symbol value : Text) (t : OperandType) :
    sideMessage symbol value t "left" =
      "Invalid type for operator " ++ symbol ++ ": can’t be applied to value " ++ value ++
        " of type " ++ t.name ++ " on the left side." := by
  simp only [sideMessage, List.append_assoc]
  rfl

theorem sideMessage_right (symbol value : Text) (t : OperandType) :
    sideMessage symbol value t "right" =
      "Invalid type for operator " ++ symbol ++ ": can’t be applied to value " ++ value ++
        " of type " ++ t.name ++ " on the right side." := by
  simp only [sideMessage, List.append_assoc]
  rfl

theorem completeness_reject {f : Formula} (c : Catalog) (h : ∃ x, f.Lacks x) :
    completeness.check ⟨f, c⟩ = .ok (some (.incomplete f)) := by
  have hg : completeness.check ⟨f, c⟩ = _ :=
    passing_of_not _ (Formula.not_isComplete_of_lacks h)
  rw [hg, Formula.missing_eq, List.map_map]
  rfl

section Rows

variable {s : Operands} {c : Catalog} {l r : OperandType} (op : Operator)

theorem leftIsVariable_reject (h : ∀ t, ⟨s.left, t⟩ ∉ c.declared) :
    leftIsVariable.check ⟨s.formula op, c⟩ = .ok (some (.leftUndeclared s.left)) := by
  have hv : ¬ c.isVariable s.left = true := fun hv => by
    obtain ⟨t, ht⟩ := (c.isVariable_iff s.left).mp hv
    exact h t ht
  exact passing_of_not _ hv

theorem rightClassifiable_reject (h : Operand.classify c (some s.right) = .invalid) :
    rightClassifiable.check ⟨s.formula op, c⟩ = .ok (some (.rightUntyped s.right)) := by
  have ht : Context.rightType ⟨s.formula op, c⟩ = .invalid := h
  exact passing_of_not _ (by simp [ht])

variable (ht : s.Typed c l r)
include ht

theorem operatorLeftType_formula :
    operatorLeftType.check ⟨s.formula op, c⟩ = .ok none ↔ ∃ p ∈ op.pairs, p.left = l := by
  rw [operatorLeftType_pass rfl, Operands.leftType_eq op ht.declared]

theorem operatorLeftType_reject (h : ∀ p ∈ op.pairs, p.left ≠ l) :
    operatorLeftType.check ⟨s.formula op, c⟩ =
      .ok (some (.leftRefused op.symbol s.left l)) := by
  have hv : ¬ op.admitsLeft l = true := by
    rw [Operator.admitsLeft_iff]
    rintro ⟨p, hp, e⟩
    exact h p hp e
  have hg : operatorLeftType.check ⟨s.formula op, c⟩ = passing (op.admitsLeft _) _ := rfl
  rw [hg, Operands.leftType_eq op ht.declared, passing_of_not _ hv, sideMessage_left]
  rfl

theorem operatorRightType_formula :
    operatorRightType.check ⟨s.formula op, c⟩ = .ok none ↔ ∃ p ∈ op.pairs, p.right = r := by
  rw [operatorRightType_pass rfl, ht.rightType_eq]

theorem operatorRightType_reject (h : ∀ p ∈ op.pairs, p.right ≠ r) :
    operatorRightType.check ⟨s.formula op, c⟩ =
      .ok (some (.rightRefused op.symbol s.right r)) := by
  have hv : ¬ op.admitsRight r = true := by
    rw [Operator.admitsRight_iff]
    rintro ⟨p, hp, e⟩
    exact h p hp e
  have hg : operatorRightType.check ⟨s.formula op, c⟩ = passing (op.admitsRight _) _ := rfl
  rw [hg, ht.rightType_eq, passing_of_not _ hv, sideMessage_right]
  rfl

theorem operatorTypePair_formula :
    operatorTypePair.check ⟨s.formula op, c⟩ = .ok none ↔
      ∃ p ∈ op.pairs, p.left = l ∧ p.right = r := by
  rw [operatorTypePair_pass rfl, Operands.leftType_eq op ht.declared, ht.rightType_eq, pair_iff]

theorem operatorTypePair_reject (h : ∀ p ∈ op.pairs, ¬ (p.left = l ∧ p.right = r)) :
    operatorTypePair.check ⟨s.formula op, c⟩ =
      .ok (some (.pairRefused op.symbol s.left l s.right r)) := by
  have hv : ¬ op.admits l r = true := by
    rw [Operator.admits_iff]
    exact fun hp => h _ hp ⟨rfl, rfl⟩
  have hg : operatorTypePair.check ⟨s.formula op, c⟩ = passing (op.admits _ _) _ := rfl
  rw [hg, Operands.leftType_eq op ht.declared, ht.rightType_eq, passing_of_not _ hv]
  rfl

end Rows

end Guard

namespace Checker
open Guard

/-! ### The guards in front of each row -/

section Front

variable {s : Operands} {c : Catalog} {l r : OperandType} (op : Operator)

theorem passes_complete (s : Operands) (c : Catalog) :
    Passes ⟨s.formula op, c⟩ [completeness] :=
  (Passes.nil _).snoc ((completeness_pass _).mpr (Formula.isComplete_formula s op))

theorem passes_declared (hl : ⟨s.left, l⟩ ∈ c.declared) :
    Passes ⟨s.formula op, c⟩ [completeness, leftIsVariable] :=
  (passes_complete op s c).snoc ((leftIsVariable_pass _).mpr ⟨l, hl⟩)

variable (ht : s.Typed c l r)
include ht

theorem passes_typed :
    Passes ⟨s.formula op, c⟩ [completeness, leftIsVariable, rightClassifiable] := by
  refine (passes_declared op ht.declared).snoc ((rightClassifiable_pass _).mpr ?_)
  rw [ht.rightType_eq]
  exact ht.valid

theorem passes_left (hl : ∃ p ∈ op.pairs, p.left = l) :
    Passes ⟨s.formula op, c⟩
      [completeness, leftIsVariable, rightClassifiable, operatorLeftType] :=
  (passes_typed op ht).snoc ((operatorLeftType_formula op ht).mpr hl)

theorem passes_right (hl : ∃ p ∈ op.pairs, p.left = l) (hr : ∃ p ∈ op.pairs, p.right = r) :
    Passes ⟨s.formula op, c⟩
      [completeness, leftIsVariable, rightClassifiable, operatorLeftType, operatorRightType] :=
  (passes_left op ht hl).snoc ((operatorRightType_formula op ht).mpr hr)

theorem passes_pair (h : ∃ p ∈ op.pairs, p.left = l ∧ p.right = r) :
    Passes ⟨s.formula op, c⟩ builtIn := by
  obtain ⟨p, hp, hl, hr⟩ := h
  have hfront := passes_right op ht ⟨p, hp, hl⟩ ⟨p, hp, hr⟩
  exact hfront.snoc ((operatorTypePair_formula op ht).mpr ⟨p, hp, hl, hr⟩)

end Front

/-- The guards in front of the deciding one pass, and that one rejects in the words of the row. -/
theorem checkFormula_of_decided {c : Catalog} {f : Formula} {v : Verdict} (h : Decided c f v) :
    checkFormula c f = .ok v := by
  cases h with
  | incomplete h => exact check_of_reject (.nil _) (completeness_reject c h) _
  | leftUndeclared s op h =>
    exact check_of_reject (passes_complete op s c) (leftIsVariable_reject op h) _
  | rightUntyped s op hl hr =>
    exact check_of_reject (passes_declared op hl) (rightClassifiable_reject op hr) _
  | leftRefused s op ht h =>
    exact check_of_reject (passes_typed op ht) (operatorLeftType_reject op ht h) _
  | rightRefused s op ht hl h =>
    exact check_of_reject (passes_left op ht hl) (operatorRightType_reject op ht h) _
  | pairRefused s op ht hl hr h =>
    exact check_of_reject (passes_right op ht hl hr) (operatorTypePair_reject op ht h) _
  | accepted s op ht h => exact check_of_pass (passes_pair op ht h)

/-! ## Some row applies -/

theorem exists_decided (c : Catalog) (f : Formula) : ∃ v, Decided c f v := by
  rcases f.lacks_or_operands with h | ⟨s, op, rfl⟩
  · exact ⟨_, .incomplete h⟩
  by_cases hl : ∃ t, ⟨s.left, t⟩ ∈ c.declared
  swap
  · exact ⟨_, .leftUndeclared s op (not_exists.mp hl)⟩
  obtain ⟨l, hl⟩ := hl
  by_cases hr : Operand.classify c (some s.right) = .invalid
  · exact ⟨_, .rightUntyped s op hl hr⟩
  have ht : s.Typed c l (Operand.classify c (some s.right)) := ⟨hl, rfl, hr⟩
  by_cases h1 : ∃ p ∈ op.pairs, p.left = l
  swap
  · exact ⟨_, .leftRefused s op ht fun p hp e => h1 ⟨p, hp, e⟩⟩
  by_cases h2 : ∃ p ∈ op.pairs, p.right = Operand.classify c (some s.right)
  swap
  · exact ⟨_, .rightRefused s op ht h1 fun p hp e => h2 ⟨p, hp, e⟩⟩
  by_cases h3 : ∃ p ∈ op.pairs, p.left = l ∧ p.right = Operand.classify c (some s.right)
  · exact ⟨_, .accepted s op ht h3⟩
  · exact ⟨_, .pairRefused s op ht h1 h2 fun p hp e => h3 ⟨p, hp, e⟩⟩

theorem decided_iff {c : Catalog} {f : Formula} {v : Verdict} (h : checkFormula c f = .ok v)
    (w : Verdict) : Decided c f w ↔ w = v := by
  constructor
  · intro hw
    have e := checkFormula_of_decided hw
    rw [h, Except.ok.injEq] at e
    exact e.symm
  · rintro rfl
    obtain ⟨u, hu⟩ := exists_decided c f
    have e := checkFormula_of_decided hu
    rw [h, Except.ok.injEq] at e
    exact e ▸ hu

theorem decided_accepted_iff (c : Catalog) (f : Formula) :
    Decided c f .accepted ↔ ∃ (s : Operands) (op : Operator) (l r : OperandType),
      f = s.formula op ∧ s.Typed c l r ∧ ∃ p ∈ op.pairs, p.left = l ∧ p.right = r := by
  constructor
  · intro h
    cases h with
    | accepted s op ht h => exact ⟨s, op, _, _, rfl, ht, h⟩
  · rintro ⟨s, op, l, r, rfl, ht, h⟩
    exact .accepted s op ht h

theorem checkFormula_eq_accepted (c : Catalog) (f : Formula) :
    checkFormula c f = .ok .accepted ↔ Decided c f .accepted := by
  obtain ⟨v, hv⟩ := exists_decided c f
  have hc := checkFormula_of_decided hv
  rw [decided_iff hc, hc, Except.ok.injEq, eq_comm]

/-- Between operands that have types, an operator is accepted exactly if it has their pair. -/
theorem checkFormula_typed {s : Operands} {c : Catalog} {l r : OperandType} (h : s.Typed c l r)
    (op : Operator) : checkFormula c (s.formula op) = .ok .accepted ↔ ⟨l, r⟩ ∈ op.pairs := by
  rw [checkFormula_eq_accepted, decided_accepted_iff]
  constructor
  · rintro ⟨s', op', l', r', hf, ht, hp⟩
    obtain ⟨rfl, rfl⟩ := Operands.formula_inj hf
    obtain ⟨rfl, rfl⟩ := h.unique ht
    exact (pair_iff op l r).mpr hp
  · intro hp
    exact ⟨s, op, l, r, rfl, h, (pair_iff op l r).mp hp⟩

/-- Every formula has a verdict under every catalog, and it is that of the one row of the table that
applies; it is accepted exactly if both operands have types that one pair of its operator has. -/
theorem checkFormula_decides (c : Catalog) (f : Formula) :
    ∃ v, checkFormula c f = .ok v ∧ (∀ w, Decided c f w ↔ w = v) ∧
      (v.isOk = true → v.toJson = .object [("ok", .bool true), ("kind", .null),
        ("message", .str ""), ("details", .object [])]) ∧
      (∀ e, v = .rejected e → v.toJson = .object [("ok", .bool false), ("kind", .str e.kind.name),
        ("message", .str e.message), ("details", .object e.details)]) ∧
      (v.isOk = true ↔ ∃ (s : Operands) (op : Operator) (l r : OperandType),
        f = s.formula op ∧ s.Typed c l r ∧ ∃ p ∈ op.pairs, p.left = l ∧ p.right = r) := by
  obtain ⟨v, hv⟩ := exists_decided c f
  have hc := checkFormula_of_decided hv
  refine ⟨v, hc, decided_iff hc, ?_, ?_, ?_⟩
  · cases v with
    | accepted => exact fun _ => rfl
    | rejected e => simp [Verdict.isOk]
  · rintro e rfl
    rfl
  · rw [← decided_accepted_iff, decided_iff hc]
    cases v <;> simp [Verdict.isOk]

end Checker

end Formulary
