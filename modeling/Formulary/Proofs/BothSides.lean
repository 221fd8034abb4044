import Formulary.Proofs.Decision
import Formulary.Proofs.Operand

/-! # A variable on both sides

The left side of a formula is typed by its declaration alone, the right side by the rules for operands,
of which a declaration is only one. For a name that is declared the two agree, with two exceptions: the
empty name has no type on the right, and a number that is declared `string` is an `int` there.
-/

namespace Formulary
set_option autoImplicit false

namespace Variable
open Operand

/-- The rules for operands give the name another type than its declaration. -/
def Misread (v : Variable) : Prop := v.name = [] ∨ IsNumber v.name ∧ v.type = .string

section Types

variable {c : Catalog} {v : Variable} (hv : v ∈ c.declared)
include hv

theorem leftType_eq_type {f : Formula} (hf : f.left? = some v.name) :
    Context.leftType ⟨f, c⟩ = v.type := by
  have ht : c.typeOf? v.name = some v.type := (c.typeOf?_eq_some v.name v.type).mpr hv
  simp only [Context.leftType, hf, Option.bind_some, ht, Option.getD_some]

theorem rightType_of_ne {f : Formula} (hf : f.right? = some v.name) (hne : v.name ≠ []) :
    Context.rightType ⟨f, c⟩ = if IsNumber v.name then .int else v.type := by
  simp only [Context.rightType, hf]
  rw [classify_eq_byRules, byRules_declared hne hv]

omit hv in
theorem rightType_of_empty {f : Formula} (hf : f.right? = some v.name) (he : v.name = []) :
    Context.rightType ⟨f, c⟩ = .invalid := by
  simp only [Context.rightType, hf, he, classify_empty]

theorem rightType_of_isNumber {f : Formula} (hf : f.right? = some v.name) (hn : IsNumber v.name) :
    Context.rightType ⟨f, c⟩ = .int := by
  rw [rightType_of_ne hv hf hn.1, if_pos hn]

theorem rightType_eq_type {f : Formula} (hf : f.right? = some v.name) :
    Context.rightType ⟨f, c⟩ = v.type ↔ ¬ v.Misread := by
  have ht := (OperandType.isDeclarable_iff v.type).mp (c.declarable.types v hv)
  by_cases he : v.name = []
  · rw [rightType_of_empty hf he]
    rcases ht with ht | ht <;> simp [Misread, he, ht]
  · rw [rightType_of_ne hv hf he]
    rcases ht with ht | ht <;> by_cases hn : IsNumber v.name <;> simp [Misread, he, ht, hn]

theorem accepted_twice (hm : ¬ v.Misread) (op : Operator) :
    Checker.checkFormula c ⟨some v.name, some op, some v.name⟩ = .ok .accepted ↔
      op.admits v.type v.type = true := by
  have hne : v.name ≠ [] := fun he => hm (.inl he)
  have hright := (rightType_eq_type hv (f := ⟨some v.name, some op, some v.name⟩) rfl).mpr hm
  have typed : Operands.Typed ⟨v.name, v.name, hne, hne⟩ c v.type v.type :=
    ⟨hv, hright, Catalog.type_ne_invalid hv⟩
  rw [Operator.admits_iff]
  exact Checker.checkFormula_typed typed op

end Types

/-- The type of a declared name on the left side is that on the right side, unless the name is empty
and so `invalid` on the right, or is a number that is declared `string` and so an `int` on the right.
Every other name is accepted beside itself exactly if the operator has the pair of its type. -/
theorem type_on_both_sides (c : Catalog) (v : Variable) (hv : v ∈ c.declared) :
    (∀ f g : Formula, f.left? = some v.name → g.right? = some v.name →
      Context.leftType ⟨f, c⟩ = v.type ∧
      (Context.leftType ⟨f, c⟩ = Context.rightType ⟨g, c⟩ ↔
        ¬ (v.name = [] ∨ IsNumber v.name ∧ v.type = .string)) ∧
      (v.name = [] → Context.rightType ⟨g, c⟩ = .invalid) ∧
      (IsNumber v.name ∧ v.type = .string → Context.rightType ⟨g, c⟩ = .int)) ∧
    (¬ (v.name = [] ∨ IsNumber v.name ∧ v.type = .string) → ∀ op : Operator,
      Checker.checkFormula c ⟨some v.name, some op, some v.name⟩ = .ok .accepted ↔
        op.admits v.type v.type = true) := by
  refine ⟨?_, fun hm op => accepted_twice hv hm op⟩
  intro f g hf hg
  have hleft := leftType_eq_type hv hf
  refine ⟨hleft, ?_, rightType_of_empty hg, fun h => rightType_of_isNumber hv hg h.1⟩
  rw [hleft, eq_comm]
  exact rightType_eq_type hv hg

/-- A number, the empty text and a word as names. -/
def oddlyNamed : Catalog := ⟨[⟨"12", .string⟩, ⟨[], .int⟩, ⟨"n", .string⟩], [], by decide +kernel⟩

theorem oddlyNamed_on_both_sides :
    ⟨"12", .string⟩ ∈ oddlyNamed.declared ∧ ⟨[], .int⟩ ∈ oddlyNamed.declared ∧
    ⟨"n", .string⟩ ∈ oddlyNamed.declared ∧
    Context.leftType ⟨⟨some "12", none, some "12"⟩, oddlyNamed⟩ = .string ∧
    Context.rightType ⟨⟨some "12", none, some "12"⟩, oddlyNamed⟩ = .int ∧
    Context.leftType ⟨⟨some [], none, some []⟩, oddlyNamed⟩ = .int ∧
    Context.rightType ⟨⟨some [], none, some []⟩, oddlyNamed⟩ = .invalid ∧
    Checker.checkFormula oddlyNamed ⟨some "n", some ⟨"~", [⟨.string, .string⟩]⟩, some "n"⟩ =
      .ok .accepted := by
  have h12 : ⟨"12", .string⟩ ∈ oddlyNamed.declared := by decide
  have hempty : ⟨[], .int⟩ ∈ oddlyNamed.declared := by decide
  have hn : ⟨"n", .string⟩ ∈ oddlyNamed.declared := by decide
  obtain ⟨left12, -, -, right12⟩ := (type_on_both_sides oddlyNamed _ h12).1
    ⟨some "12", none, some "12"⟩ ⟨some "12", none, some "12"⟩ rfl rfl
  obtain ⟨leftEmpty, -, rightEmpty, -⟩ := (type_on_both_sides oddlyNamed _ hempty).1
    ⟨some [], none, some []⟩ ⟨some [], none, some []⟩ rfl rfl
  refine ⟨h12, hempty, hn, left12, right12 ⟨by decide, rfl⟩, leftEmpty, rightEmpty rfl, ?_⟩
  exact ((type_on_both_sides oddlyNamed _ hn).2 (by decide) ⟨"~", [⟨.string, .string⟩]⟩).mpr rfl

end Variable

end Formulary
