import Formulary.Proofs.Dependence

/-! # Catalogs with one variable more

A new variable can be declared at any place, and it changes the type of no text but its own name. Of
that it changes the type where the name had none, and where it is a string in quotes that is now
declared `int`. The second case is the only one in which a formula that was accepted may be rejected:
its right side is a string no longer.
-/

namespace Formulary
set_option autoImplicit false

namespace Catalog

section Added

variable {c c' : Catalog} {v : Variable} {before after : List Variable}

theorem declarable_added (hv : v.type.isDeclarable = true)
    (hnew : ∀ t, ⟨v.name, t⟩ ∉ c.declared) (hc : c.declared = before ++ after) :
    Declarable (before ++ v :: after) := by
  have hd := c.declarable
  rw [hc] at hd
  have hperm : (before ++ v :: after).Perm (v :: (before ++ after)) := List.perm_middle
  refine ⟨?_, ?_⟩
  · intro w hw
    rcases List.mem_cons.mp (hperm.mem_iff.mp hw) with rfl | hw
    · exact hv
    · exact hd.types w hw
  · rw [(hperm.map _).nodup_iff, List.map_cons, List.nodup_cons]
    refine ⟨?_, hd.names⟩
    intro hm
    obtain ⟨w, hw, hname⟩ := List.mem_map.mp hm
    apply hnew w.type
    rw [hc, ← hname]
    exact hw

theorem exists_added (hv : v.type.isDeclarable = true)
    (hnew : ∀ t, ⟨v.name, t⟩ ∉ c.declared) (hc : c.declared = before ++ after) :
    ∃ c', make (before ++ v :: after) c.operators = .ok c' ∧ c'.declared = before ++ v :: after := by
  obtain ⟨c', hc'⟩ := (exists_make _ _).mpr ⟨declarable_added hv hnew hc, c.listable⟩
  exact ⟨c', hc', ((make_eq_ok _ _ _).mp hc').2.2.1⟩

variable (hc : c.declared = before ++ after) (hc' : c'.declared = before ++ v :: after)
include hc hc'

theorem mem_added (w : Variable) : w ∈ c'.declared ↔ w = v ∨ w ∈ c.declared := by
  rw [hc, hc', List.perm_middle.mem_iff, List.mem_cons]

theorem typeOf?_added {name : Text} (hne : name ≠ v.name) : c'.typeOf? name = c.typeOf? name := by
  apply Option.ext
  intro t
  rw [c'.typeOf?_eq_some, c.typeOf?_eq_some, mem_added hc hc']
  constructor
  · rintro (he | hm)
    · exact absurd (congrArg Variable.name he) hne
    · exact hm
  · exact .inr

end Added

end Catalog

namespace Operand

section Added

variable {c c' : Catalog} {v : Variable} {before after : List Variable}
  (hc : c.declared = before ++ after) (hc' : c'.declared = before ++ v :: after)
include hc hc'

/-- The name is typed by its new declaration, except that digits stay an integer. -/
theorem classify_name (hne : v.name ≠ []) :
    classify c' (some v.name) = if isIntLiteral v.name then .int else v.type :=
  classify_declared hne ((Catalog.mem_added hc hc' v).mpr (.inl rfl))

theorem classify_other {raw? : Option Text} (hne : raw? ≠ some v.name) :
    classify c' raw? = classify c raw? := by
  apply classify_congr
  intro t ht
  apply Catalog.typeOf?_added hc hc'
  rintro rfl
  exact hne ht

theorem classify_name_changes (hv : v.type.isDeclarable = true)
    (hnew : ∀ t, ⟨v.name, t⟩ ∉ c.declared) (hne : v.name ≠ []) :
    classify c' (some v.name) ≠ classify c (some v.name) ↔
      classify c (some v.name) = .invalid ∨ isStringLiteral v.name = true ∧ v.type = .int := by
  rw [classify_name hc hc' hne, classify_undeclared hne hnew]
  by_cases hi : isIntLiteral v.name = true
  · simp [hi, not_isStringLiteral_of_isIntLiteral hi]
  · rcases (OperandType.isDeclarable_iff v.type).mp hv with ht | ht <;>
      by_cases hs : isStringLiteral v.name = true <;> simp [hi, hs, ht]

theorem classify_added_ne (hv : v.type.isDeclarable = true)
    (hnew : ∀ t, ⟨v.name, t⟩ ∉ c.declared) (raw? : Option Text) :
    classify c' raw? ≠ classify c raw? ↔ raw? = some v.name ∧ v.name ≠ [] ∧
      (classify c raw? = .invalid ∨ isStringLiteral v.name = true ∧ v.type = .int) := by
  by_cases hraw : raw? = some v.name
  swap
  · simp [hraw, classify_other hc hc' hraw]
  subst hraw
  by_cases hne : v.name = []
  · simp [hne, classify_empty]
  · simp only [classify_name_changes hc hc' hv hnew hne, hne, ne_eq, not_false_eq_true, true_and]

end Added

end Operand

namespace Checker

section Added

variable {c c' : Catalog} {v : Variable} {before after : List Variable}
  (hc : c.declared = before ++ after) (hc' : c'.declared = before ++ v :: after)
include hc hc'

/-- What is accepted has a left side that was declared before, so only the right side can change. -/
theorem accepted_added (hv : v.type.isDeclarable = true) (hnew : ∀ t, ⟨v.name, t⟩ ∉ c.declared)
    {f : Formula} (h : checkFormula c f = .ok .accepted) : checkFormula c' f = .ok .accepted ∨
      f.right? = some v.name ∧ Operand.isStringLiteral v.name = true ∧ v.type = .int := by
  rw [checkFormula_eq_accepted] at h
  cases h with
  | accepted s op ht hp =>
    have hl := (Catalog.mem_added hc hc' _).mpr (.inr ht.declared)
    by_cases hr : Operand.classify c' (some s.right) = Operand.classify c (some s.right)
    · have ht' : s.Typed c' _ _ := ⟨hl, hr.trans ht.classified, ht.valid⟩
      exact .inl ((checkFormula_typed ht' op).mpr ((Guard.pair_iff op _ _).mpr hp))
    · obtain ⟨hname, -, hcase⟩ := (Operand.classify_added_ne hc hc' hv hnew _).mp hr
      rcases hcase with hinvalid | hquoted
      · exact absurd (ht.classified.symm.trans hinvalid) ht.valid
      · exact .inr ⟨hname, hquoted⟩

/-- A name in quotes that is declared `int` is an `int` on the right side too. -/
theorem accepted_quoted_name {s : Operands} {l : OperandType} (hr : s.right = v.name)
    (hl : ⟨s.left, l⟩ ∈ c.declared) (hs : Operand.isStringLiteral v.name = true)
    (ht : v.type = .int) (op : Operator) :
    checkFormula c' (s.formula op) = .ok .accepted ↔ ⟨l, .int⟩ ∈ op.pairs := by
  have hint : ¬ Operand.isIntLiteral v.name = true :=
    fun hi => Operand.not_isStringLiteral_of_isIntLiteral hi hs
  have hclass : Operand.classify c' (some s.right) = .int := by
    rw [hr, Operand.classify_name hc hc' (hr ▸ s.right_ne), if_neg hint, ht]
  have typed : s.Typed c' l .int :=
    ⟨(Catalog.mem_added hc hc' _).mpr (.inr hl), hclass, by decide⟩
  exact checkFormula_typed typed op

end Added

/-- A variable whose name is new can be added at any place. The type of an operand changes exactly if
it is the name, not empty, and had no type or is in quotes while the variable is `int`. A formula that
was accepted is accepted still, unless its right side is the name, in quotes, and the variable is
`int`; then it is accepted still exactly if the operator takes `int` on the right as well. -/
theorem variable_added (c : Catalog) (v : Variable) (before after : List Variable)
    (hv : v.type = .int ∨ v.type = .string) (hnew : ∀ t, ⟨v.name, t⟩ ∉ c.declared)
    (hc : c.declared = before ++ after) :
    ∃ c', Catalog.make (before ++ v :: after) c.operators = .ok c' ∧
      (∀ raw?, Operand.classify c' raw? ≠ Operand.classify c raw? ↔
        raw? = some v.name ∧ v.name ≠ [] ∧ (Operand.classify c raw? = .invalid ∨
          Operand.isStringLiteral v.name = true ∧ v.type = .int)) ∧
      (∀ f, checkFormula c f = .ok .accepted → checkFormula c' f = .ok .accepted ∨
        f.right? = some v.name ∧ Operand.isStringLiteral v.name = true ∧ v.type = .int) ∧
      (∀ (s : Operands) (l : OperandType) (op : Operator), s.right = v.name →
        ⟨s.left, l⟩ ∈ c.declared → Operand.isStringLiteral v.name = true → v.type = .int →
        (checkFormula c' (s.formula op) = .ok .accepted ↔ ⟨l, .int⟩ ∈ op.pairs)) := by
  have hv' := (OperandType.isDeclarable_iff v.type).mpr hv
  obtain ⟨c', hmake, hc'⟩ := Catalog.exists_added hv' hnew hc
  refine ⟨c', hmake, Operand.classify_added_ne hc hc' hv' hnew, ?_, ?_⟩
  · intro f hf
    exact accepted_added hc hc' hv' hnew hf
  · intro s l op hr hl hs ht
    exact accepted_quoted_name hc hc' hr hl hs ht op

/-- A last name beside a string in quotes. -/
def lastName : Operands :=
  ⟨"transaction.sender.last_name", "\"b\"", by decide +kernel, by decide +kernel⟩

def equality : Operator := ⟨"=", [⟨.int, .int⟩, ⟨.string, .string⟩]⟩

/-- The string becomes the name of an `int` variable, in the middle of the declarations. -/
theorem equality_lastName_rejected :
    (∀ t, ⟨"\"b\"", t⟩ ∉ Catalog.builtIn.declared) ∧
    checkFormula .builtIn (lastName.formula equality) = .ok .accepted ∧
    ∃ c', Catalog.make (Catalog.builtIn.declared.take 3 ++ ⟨"\"b\"", .int⟩ ::
        Catalog.builtIn.declared.drop 3) Catalog.builtIn.operators = .ok c' ∧
      Operand.classify c' (some "\"b\"") ≠ Operand.classify .builtIn (some "\"b\"") ∧
      checkFormula c' (lastName.formula equality) ≠ .ok .accepted := by
  have hnew : ∀ t, ⟨"\"b\"", t⟩ ∉ Catalog.builtIn.declared := by
    intro t
    have hnone : Catalog.builtIn.typeOf? "\"b\"" = none := by decide +kernel
    rw [← Catalog.typeOf?_eq_some, hnone]
    simp
  have htyped : lastName.Typed .builtIn .string .string :=
    ⟨by decide +kernel, by decide +kernel, by decide⟩
  obtain ⟨c', hmake, hclass, -, hquoted⟩ := variable_added .builtIn ⟨"\"b\"", .int⟩
    (Catalog.builtIn.declared.take 3) (Catalog.builtIn.declared.drop 3) (.inl rfl) hnew
    (List.take_append_drop 3 _).symm
  have hs : Operand.isStringLiteral "\"b\"" = true := by decide +kernel
  refine ⟨hnew, (checkFormula_typed htyped equality).mpr (by decide), c', hmake, ?_, ?_⟩
  · exact (hclass _).mpr ⟨rfl, lastName.right_ne, .inr ⟨hs, rfl⟩⟩
  · rw [ne_eq, hquoted lastName .string equality rfl htyped.declared hs rfl]
    decide

end Checker

end Formulary
