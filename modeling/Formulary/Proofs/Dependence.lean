import Formulary.Proofs.Decision
import Formulary.Proofs.Operand

/-! # What a verdict depends on

A verdict looks at very little: the texts of the two sides, what the catalog declares of these two
texts, the symbol of the operator and the set of its pairs. Nothing else of the catalog is seen. A
pair that mentions `invalid` can change which rejection there is, but never whether there is one.
-/

namespace Formulary
set_option autoImplicit false

/-! ## Operators and formulas that look alike -/

/-- Two operators with one symbol and the same pairs, in any order and any number. -/
structure Operator.Same (op op' : Operator) : Prop where
  symbol : op.symbol = op'.symbol
  pairs : ∀ p, p ∈ op.pairs ↔ p ∈ op'.pairs

/-- Two operators with the same pairs, apart from those that mention `invalid`. -/
def Operator.SameTyped (op op' : Operator) : Prop :=
  ∀ p : TypePair, p.left ≠ .invalid → p.right ≠ .invalid → (p ∈ op.pairs ↔ p ∈ op'.pairs)

/-- Two formulas with the same sides, and two catalogs that declare these sides alike. -/
structure SidesAlike (c c' : Catalog) (f f' : Formula) : Prop where
  left : f.left? = f'.left?
  right : f.right? = f'.right?
  leftType : ∀ t, f.left? = some t → c.typeOf? t = c'.typeOf? t
  rightType : ∀ t, f.right? = some t → c.typeOf? t = c'.typeOf? t

theorem SidesAlike.symm {c c' : Catalog} {f f' : Formula} (h : SidesAlike c c' f f') :
    SidesAlike c' c f' f where
  left := h.left.symm
  right := h.right.symm
  leftType t ht := (h.leftType t (h.left.trans ht)).symm
  rightType t ht := (h.rightType t (h.right.trans ht)).symm

namespace Operator

theorem rel_eq_none {R : Operator → Operator → Prop} {op? op'? : Option Operator}
    (h : Option.Rel R op? op'?) : op? = none ↔ op'? = none := by
  cases h <;> simp

theorem SameTyped.rel_symm {op? op'? : Option Operator} (h : Option.Rel SameTyped op? op'?) :
    Option.Rel SameTyped op'? op? := by
  cases h with
  | none => exact .none
  | some hs => exact .some fun p hl hr => (hs p hl hr).symm

namespace Same

variable {op op' : Operator} (h : op.Same op')
include h

theorem exists_pair (P : TypePair → Prop) : (∃ p ∈ op.pairs, P p) ↔ ∃ p ∈ op'.pairs, P p :=
  exists_congr fun p => and_congr_left' (h.pairs p)

theorem forall_pair (P : TypePair → Prop) : (∀ p ∈ op.pairs, P p) ↔ ∀ p ∈ op'.pairs, P p :=
  forall_congr' fun p => imp_congr_left (h.pairs p)

end Same

end Operator

/-! ## The same row of the table -/

namespace SidesAlike

variable {c c' : Catalog} {f f' : Formula}

theorem lacks_iff (h : SidesAlike c c' f f') (hop : f.operator? = none ↔ f'.operator? = none)
    (x : Field) : f.Lacks x ↔ f'.Lacks x := by
  cases x with
  | left => simp only [Formula.Lacks, h.left]
  | operator => exact hop
  | right => simp only [Formula.Lacks, h.right]

theorem incomplete_eq (h : SidesAlike c c' f f')
    (hop : f.operator? = none ↔ f'.operator? = none) :
    Rejection.incomplete f = Rejection.incomplete f' := by
  have hlacks : (fun x => decide (f.Lacks x)) = fun x => decide (f'.Lacks x) := by
    funext x
    exact decide_eq_decide.mpr (h.lacks_iff hop x)
  rw [Rejection.incomplete, Rejection.incomplete, hlacks]

section Operands

variable {s : Operands} {op : Operator} (h : SidesAlike c c' (s.formula op) f')
include h

/-- The other formula puts its operator between the same operands. -/
theorem exists_formula {R : Operator → Operator → Prop}
    (hop : Option.Rel R (s.formula op).operator? f'.operator?) :
    ∃ op', f' = s.formula op' ∧ R op op' := by
  obtain ⟨left?, operator?, right?⟩ := f'
  have hl : some s.left = left? := h.left
  have hr : some s.right = right? := h.right
  subst hl hr
  cases hop with
  | some hR => exact ⟨_, rfl, hR⟩

theorem declared_iff (t : OperandType) :
    ⟨s.left, t⟩ ∈ c.declared ↔ ⟨s.left, t⟩ ∈ c'.declared := by
  rw [← c.typeOf?_eq_some, ← c'.typeOf?_eq_some, h.leftType s.left rfl]

theorem classify_eq :
    Operand.classify c (some s.right) = Operand.classify c' (some s.right) :=
  Operand.classify_congr h.rightType

theorem typed {l r : OperandType} (ht : s.Typed c l r) : s.Typed c' l r where
  declared := (h.declared_iff l).mp ht.declared
  classified := h.classify_eq.symm.trans ht.classified
  valid := ht.valid

end Operands

/-- Whatever row of the table applies to the one formula applies to the other, with the same
verdict. -/
theorem decided (h : SidesAlike c c' f f')
    (hop : Option.Rel Operator.Same f.operator? f'.operator?) {v : Verdict}
    (hv : Decided c f v) : Decided c' f' v := by
  cases hv with
  | incomplete hx =>
    have hnone := Operator.rel_eq_none hop
    obtain ⟨x, hx⟩ := hx
    rw [h.incomplete_eq hnone]
    exact .incomplete ⟨x, (h.lacks_iff hnone x).mp hx⟩
  | leftUndeclared s op hn =>
    obtain ⟨op', rfl, -⟩ := h.exists_formula hop
    exact .leftUndeclared s op' fun t ht => hn t ((h.declared_iff t).mpr ht)
  | rightUntyped s op hl hr =>
    obtain ⟨op', rfl, -⟩ := h.exists_formula hop
    exact .rightUntyped s op' ((h.declared_iff _).mp hl) (h.classify_eq.symm.trans hr)
  | leftRefused s op ht hn =>
    obtain ⟨op', rfl, hs⟩ := h.exists_formula hop
    rw [hs.symbol]
    exact .leftRefused s op' (h.typed ht) ((hs.forall_pair _).mp hn)
  | rightRefused s op ht hl hn =>
    obtain ⟨op', rfl, hs⟩ := h.exists_formula hop
    rw [hs.symbol]
    exact .rightRefused s op' (h.typed ht) ((hs.exists_pair _).mp hl) ((hs.forall_pair _).mp hn)
  | pairRefused s op ht hl hr hn =>
    obtain ⟨op', rfl, hs⟩ := h.exists_formula hop
    rw [hs.symbol]
    exact .pairRefused s op' (h.typed ht) ((hs.exists_pair _).mp hl) ((hs.exists_pair _).mp hr)
      ((hs.forall_pair _).mp hn)
  | accepted s op ht hp =>
    obtain ⟨op', rfl, hs⟩ := h.exists_formula hop
    exact .accepted s op' (h.typed ht) ((hs.exists_pair _).mp hp)

/-- The pair that accepts a formula mentions only types that can be declared. -/
theorem decided_accepted (h : SidesAlike c c' f f')
    (hop : Option.Rel Operator.SameTyped f.operator? f'.operator?)
    (hv : Decided c f .accepted) : Decided c' f' .accepted := by
  cases hv with
  | accepted s op ht hp =>
    obtain ⟨op', rfl, hs⟩ := h.exists_formula hop
    obtain ⟨p, hp, rfl, rfl⟩ := hp
    have hl : p.left ≠ .invalid := Catalog.type_ne_invalid ht.declared
    exact .accepted s op' (h.typed ht) ⟨p, (hs p hl ht.valid).mp hp, rfl, rfl⟩

end SidesAlike

namespace Checker

theorem checkFormula_alike {c c' : Catalog} {f f' : Formula} (h : SidesAlike c c' f f')
    (hop : Option.Rel Operator.Same f.operator? f'.operator?) :
    checkFormula c f = checkFormula c' f' := by
  obtain ⟨v, hv⟩ := exists_decided c f
  rw [checkFormula_of_decided hv, checkFormula_of_decided (h.decided hop hv)]

/-- A verdict depends on a catalog only by the types that it gives to names. -/
theorem checkFormula_congr {c c' : Catalog} (h : ∀ name, c.typeOf? name = c'.typeOf? name)
    (f : Formula) : checkFormula c f = checkFormula c' f := by
  apply checkFormula_alike ⟨rfl, rfl, fun t _ => h t, fun t _ => h t⟩
  cases f.operator? with
  | none => exact .none
  | some op => exact .some ⟨rfl, fun _ => Iff.rfl⟩

/-- Two formulas with the same sides have one verdict under two catalogs that declare these sides
alike, if their operators have one symbol and the same pairs; and both are accepted or neither is, if
their operators have the same pairs apart from those that mention `invalid`. -/
theorem verdict_depends_on_sides (c c' : Catalog) (f f' : Formula) (h : SidesAlike c c' f f') :
    (Option.Rel Operator.Same f.operator? f'.operator? →
      checkFormula c f = checkFormula c' f') ∧
    (Option.Rel Operator.SameTyped f.operator? f'.operator? →
      (checkFormula c f = .ok .accepted ↔ checkFormula c' f' = .ok .accepted)) := by
  constructor
  · intro hop
    exact checkFormula_alike h hop
  · intro hop
    rw [checkFormula_eq_accepted, checkFormula_eq_accepted]
    constructor
    · exact h.decided_accepted hop
    · exact h.symm.decided_accepted (Operator.SameTyped.rel_symm hop)

/-- One variable, and no operator. -/
def amountOnly : Catalog := ⟨[⟨"transaction.amount", .int⟩], [], by decide +kernel⟩

/-- An amount beside a string in quotes. -/
def amount : Operands := ⟨"transaction.amount", "\"a\"", by decide +kernel, by decide +kernel⟩

/-- A pair may be repeated without effect; one that mentions `invalid` leads to another rejection. -/
theorem amount_refused :
    SidesAlike .builtIn amountOnly (amount.formula ⟨"~", [⟨.string, .string⟩]⟩)
      (amount.formula ⟨"~", [⟨.string, .string⟩, ⟨.string, .string⟩]⟩) ∧
    checkFormula .builtIn (amount.formula ⟨"~", [⟨.string, .string⟩]⟩) =
      checkFormula amountOnly (amount.formula ⟨"~", [⟨.string, .string⟩, ⟨.string, .string⟩]⟩) ∧
    (checkFormula .builtIn (amount.formula ⟨"~", [⟨.string, .string⟩]⟩) = .ok .accepted ↔
      checkFormula amountOnly (amount.formula ⟨"~", [⟨.int, .invalid⟩, ⟨.string, .string⟩]⟩) =
        .ok .accepted) ∧
    checkFormula .builtIn (amount.formula ⟨"~", [⟨.string, .string⟩]⟩) =
      .ok (.rejected (.leftRefused "~" "transaction.amount" .int)) ∧
    checkFormula amountOnly (amount.formula ⟨"~", [⟨.int, .invalid⟩, ⟨.string, .string⟩]⟩) =
      .ok (.rejected (.pairRefused "~" "transaction.amount" .int "\"a\"" .string)) := by
  have h : ∀ op op', SidesAlike .builtIn amountOnly (amount.formula op) (amount.formula op') := by
    intro op op'
    have hl : Catalog.builtIn.typeOf? amount.left = amountOnly.typeOf? amount.left := by
      decide +kernel
    have hr : Catalog.builtIn.typeOf? amount.right = amountOnly.typeOf? amount.right := by
      decide +kernel
    exact ⟨rfl, rfl, fun t ht => Option.some.inj ht ▸ hl, fun t ht => Option.some.inj ht ▸ hr⟩
  have htyped : amount.Typed .builtIn .int .string :=
    ⟨by decide +kernel, by decide +kernel, by decide⟩
  have htyped' : amount.Typed amountOnly .int .string :=
    ⟨by decide +kernel, by decide +kernel, by decide⟩
  refine ⟨h _ _, ?_, ?_, ?_, ?_⟩
  · apply (verdict_depends_on_sides _ _ _ _ (h _ _)).1
    exact .some ⟨rfl, by simp⟩
  · apply (verdict_depends_on_sides _ _ _ _ (h _ _)).2
    refine .some ?_
    rintro ⟨l, r⟩ hl hr
    simp_all
  · exact checkFormula_of_decided (.leftRefused amount _ htyped (by decide))
  · exact checkFormula_of_decided
      (.pairRefused amount _ htyped' (by decide) (by decide) (by decide))

end Checker

end Formulary
