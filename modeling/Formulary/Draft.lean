import Formulary.Issue
import Formulary.Submission

/-! # Drafts

A draft is a formula that is being edited, with the catalog it is read by. A change gives new values
for some of the three fields. An operator that is given by its symbol is looked up in the catalog of
that moment, and an unknown symbol is no operator.
-/

namespace Formulary

/-- New values for some fields, as plain data. -/
structure Change where
  left? : Option Json
  operator? : Option Json
  right? : Option Json

namespace Change

def ofJson (v : Json) : Change := ⟨v.get? "left_side", v.get? "operator", v.get? "right_side"⟩

/-- The value of a field that keeps what it has unless a new value is given. -/
def pick {α : Type} (name : Text) (read : Json → Checked α) (old : α) : Option Json → Checked α
  | none => .ok old
  | some v => Checked.within (.field name) (read v)

/-- An operator by its symbol or by its value. -/
def readOperator (c : Catalog) : Json → Checked (Option Operator)
  | .str symbol => .ok (c.operator? symbol)
  | v => readOptionalOperator v

/-- The formula after a change, or every issue of the new values. -/
def apply (c : Catalog) (f : Formula) (change : Change) : Checked Formula :=
  (Checked.both (pick "left_side" readOptionalString f.left? change.left?)
    (Checked.both (pick "operator" (readOperator c) f.operator? change.operator?)
      (pick "right_side" readOptionalString f.right? change.right?))).map fun p =>
        ⟨p.1, p.2.1, p.2.2⟩

end Change

/-- A formula being edited. -/
structure Draft where
  catalog : Catalog
  formula : Formula
  allowInvalid : Bool

namespace Draft

def initial : Draft := ⟨.builtIn, .empty, false⟩

def context (d : Draft) : Context := ⟨d.formula, d.catalog⟩

/-- Sets fields; a change with an issue is no change. -/
def set (d : Draft) (change : Change) : Checked Draft :=
  (change.apply d.catalog d.formula).map fun f => ⟨d.catalog, f, d.allowInvalid⟩

def clear (d : Draft) : Draft := ⟨d.catalog, .empty, d.allowInvalid⟩

def withCatalog (d : Draft) (c : Catalog) : Draft := ⟨c, d.formula, d.allowInvalid⟩

def allow (d : Draft) (allowInvalid : Bool) : Draft := ⟨d.catalog, d.formula, allowInvalid⟩

def verdict (d : Draft) : Except AbsentOperator Verdict := Checker.checkFormula d.catalog d.formula

def submit (d : Draft) (stamp : Stamp) : Except AbsentOperator (SubmissionResult × List LogEntry) :=
  Submission.submit Guard.builtIn d.allowInvalid stamp d.context

end Draft

end Formulary
