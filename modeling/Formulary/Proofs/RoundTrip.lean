import Formulary.Proofs.Document
import Formulary.Proofs.Dependence

/-! # Reading back the document of a catalog

The document of a catalog lists its names by type. What is read back declares the same variables
with those of one type together, and this is all that reading can change.
-/

namespace Formulary
set_option autoImplicit false

namespace Catalog
open Json

/-! ## Variables by type -/

/-- The variables of a catalog, the integers before the strings. -/
def grouped (c : Catalog) : List Variable :=
  c.declared.filter (·.type = .int) ++ c.declared.filter (·.type = .string)

theorem grouped_perm (c : Catalog) : c.grouped.Perm c.declared := by
  have hs : c.declared.filter (·.type = .string) =
      c.declared.filter (fun v => !(v.type = .int)) := by
    refine List.filter_congr fun v hv => ?_
    rcases (OperandType.isDeclarable_iff _).mp (c.declarable.types v hv) with h | h
    · simp [h]
    · simp [h]
  rw [grouped, hs]
  exact List.filter_append_perm (·.type = .int) c.declared

theorem grouped_declarable (c : Catalog) : Declarable c.grouped where
  types v hv := c.declarable.types v (c.grouped_perm.mem_iff.mp hv)
  names := (c.grouped_perm.map _).nodup_iff.mpr c.declarable.names

/-- The catalog with its variables by type. -/
def regrouped (c : Catalog) : Catalog :=
  ⟨c.grouped, c.operators, (offence?_eq_none _ _).mpr ⟨c.grouped_declarable, c.listable⟩⟩

theorem typeOf?_regrouped (c : Catalog) (name : Text) :
    c.regrouped.typeOf? name = c.typeOf? name := by
  ext t
  rw [typeOf?_eq_some, typeOf?_eq_some]
  exact c.grouped_perm.mem_iff

theorem filter_grouped (c : Catalog) {t : OperandType} (ht : t.isDeclarable = true) :
    c.grouped.filter (·.type = t) = c.declared.filter (·.type = t) := by
  rw [grouped, List.filter_append, List.filter_filter, List.filter_filter]
  rcases (OperandType.isDeclarable_iff t).mp ht with rfl | rfl
  · have hs : ∀ v ∈ c.declared, ¬ (decide (v.type = .int) && decide (v.type = .string)) = true := by
      intro v _
      cases v.type <;> decide
    simp only [List.filter_eq_nil_iff.mpr hs, Bool.and_self, List.append_nil]
  · have hi : ∀ v ∈ c.declared, ¬ (decide (v.type = .string) && decide (v.type = .int)) = true := by
      intro v _
      cases v.type <;> decide
    simp only [List.filter_eq_nil_iff.mpr hi, Bool.and_self, List.nil_append]

theorem document_regrouped (c : Catalog) : c.regrouped.document = c.document := by
  have hn : ∀ t ∈ OperandType.declarable, c.regrouped.namesOf t = c.namesOf t := by
    intro t ht
    rw [namesOf, namesOf]
    exact congrArg _ (c.filter_grouped ((OperandType.mem_declarable t).mp ht))
  have hg : (OperandType.declarable.map fun t =>
        (t.name, Json.list ((c.regrouped.namesOf t).map .str))) =
      OperandType.declarable.map fun t => (t.name, Json.list ((c.namesOf t).map .str)) :=
    List.map_congr_left fun t ht => by rw [hn t ht]
  rw [document, document, documentFields, documentFields, hg]
  rfl

/-! ## What the document declares -/

theorem part_variables (c : Catalog) :
    c.document.part "variables" = .object
      (OperandType.declarable.map fun t => (t.name, .list ((c.namesOf t).map .str))) := rfl

theorem part_operators (c : Catalog) :
    c.document.part "operators" = .list (c.operators.map Operator.toJson) := rfl

theorem part_validTypes (op : Operator) :
    op.toJson.part "valid_types" = .list (op.pairs.map TypePair.toJson) := rfl

/-- The names of a type stand for the variables of that type. -/
theorem denotes_namesOf (c : Catalog) (t : OperandType) :
    List.Forall₂ DenotesVariable
      (((c.namesOf t).map Json.str).map fun name => (t.name, name))
      (c.declared.filter (·.type = t)) := by
  rw [namesOf, List.map_map, List.map_map, List.forall₂_map_left_iff, List.forall₂_same]
  intro v hv
  have ht : v.type = t := by simpa using (List.mem_filter.mp hv).2
  exact ⟨rfl, congrArg OperandType.name ht.symm⟩

theorem denotes_grouped (c : Catalog) :
    List.Forall₂ DenotesVariable (declaredNames c.document) c.grouped := by
  have hn : declaredNames c.document =
      (((c.namesOf .int).map Json.str).map fun name => (OperandType.int.name, name)) ++
        ((((c.namesOf .string).map Json.str).map fun name => (OperandType.string.name, name)) ++
          []) := rfl
  rw [hn, List.append_nil]
  exact List.rel_append (c.denotes_namesOf .int) (c.denotes_namesOf .string)

theorem denotesPair_toJson (p : TypePair) : DenotesPair p.toJson p := ⟨rfl, rfl⟩

theorem denotesOperator_toJson (op : Operator) : DenotesOperator op.toJson op := by
  refine ⟨rfl, ?_⟩
  rw [part_validTypes, Json.itemList, List.forall₂_map_left_iff, List.forall₂_same]
  exact fun p _ => denotesPair_toJson p

/-- The document of a catalog is read as the catalog with its variables by type. -/
theorem ofDocument_document (c : Catalog) : ofDocument c.document = .ok c.regrouped := by
  refine (ofDocument_eq_ok _ _).mpr ⟨rfl, ?_, ?_⟩
  · refine (readVariables_eq_ok _ _).mpr ⟨.inr rfl, fun g hg => ?_, c.denotes_grouped⟩
    rw [part_variables, Json.fieldList] at hg
    obtain ⟨t, -, rfl⟩ := List.mem_map.mp hg
    exact .inr rfl
  · refine (readOperators_eq_ok _ _).mpr ⟨.inr rfl, ?_⟩
    rw [listedOperators, part_operators, Json.itemList, List.forall₂_map_left_iff]
    exact List.forall₂_same.mpr fun op _ => ⟨.inr rfl, denotesOperator_toJson op⟩

/-- The document of a catalog can be read back. Its operators come back as they were, its variables
by type, and neither types, operators, verdicts nor the document itself tell the difference. -/
theorem document_readBack (c : Catalog) :
    ∃ c', ofDocument c.document = .ok c' ∧
      c'.operators = c.operators ∧
      c'.declared =
        c.declared.filter (·.type = .int) ++ c.declared.filter (·.type = .string) ∧
      (∀ name, c'.typeOf? name = c.typeOf? name) ∧
      (∀ symbol, c'.operator? symbol = c.operator? symbol) ∧
      (∀ f, Checker.checkFormula c' f = Checker.checkFormula c f) ∧
      c'.document = c.document :=
  ⟨c.regrouped, c.ofDocument_document, rfl, rfl, c.typeOf?_regrouped, fun _ => rfl,
    Checker.checkFormula_congr c.typeOf?_regrouped, c.document_regrouped⟩

end Catalog

end Formulary
