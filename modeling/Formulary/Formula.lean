import Formulary.Catalog.Basic
import Formulary.Text.Digit

/-! # Operands and formulas

The type of an operand as it is written: digits are an integer, text in double quotes is a string,
and a declared variable has its declared type. A declaration as `int` wins over quotes, digits win
over every declaration, and the empty operand is always invalid.

A formula is a left side, an operator and a right side, each of which may still be absent. A side
that is the empty text counts as absent.
-/

namespace Formulary

namespace Operand

/-- One or more ASCII digits. -/
def isIntLiteral (raw : Text) : Bool :=
  !raw.isEmpty && raw.all Text.isAsciiDigit

/-- At least two characters of which the first and the last are double quotes. -/
def isStringLiteral (raw : Text) : Bool :=
  2 ≤ raw.length && raw.head? = some (.char '"') && raw.getLast? = some (.char '"')

/-- The type of an operand, which may be absent. -/
def classify (c : Catalog) (raw? : Option Text) : OperandType :=
  match raw? with
  | none => .invalid
  | some raw =>
    if raw.isEmpty then .invalid
    else if isIntLiteral raw || c.typeOf? raw = some .int then .int
    else if isStringLiteral raw || c.typeOf? raw = some .string then .string
    else .invalid

end Operand

/-! ## Formulas -/

structure Formula where
  left? : Option Text
  operator? : Option Operator
  right? : Option Text
deriving DecidableEq, Repr

namespace Formula

def empty : Formula := ⟨none, none, none⟩

/-- Whether a side has text. -/
def isFilled (side? : Option Text) : Bool := !(side?.getD []).isEmpty

def isComplete (f : Formula) : Bool := isFilled f.left? && f.operator?.isSome && isFilled f.right?

/-- The three fields and whether they are there, in the order of the formula. -/
def presence (f : Formula) : List (Text × Bool) :=
  [("left_side", isFilled f.left?), ("operator", f.operator?.isSome),
   ("right_side", isFilled f.right?)]

/-- The names of the absent fields, in the order of the formula. -/
def missing (f : Formula) : List Text := (f.presence.filter (!·.2)).map (·.1)

/-- A text that may be absent, as plain data. -/
def sideJson (side? : Option Text) : Json := (side?.map Json.str).getD .null

/-- An operator that may be absent, as plain data. -/
def operatorJson (op? : Option Operator) : Json := (op?.map Operator.toJson).getD .null

/-- A formula as plain data; the sides stay as they are. -/
def toJson (f : Formula) : Json :=
  .object [("left_side", sideJson f.left?), ("operator", operatorJson f.operator?),
    ("right_side", sideJson f.right?)]

end Formula

/-- A formula with the catalog that it is read by. -/
structure Context where
  formula : Formula
  catalog : Catalog

namespace Context

def leftText (x : Context) : Text := x.formula.left?.getD []
def rightText (x : Context) : Text := x.formula.right?.getD []

/-- The left side is typed by its declaration alone. -/
def leftType (x : Context) : OperandType := (x.formula.left?.bind x.catalog.typeOf?).getD .invalid

/-- The right side may be a literal or a variable. -/
def rightType (x : Context) : OperandType := Operand.classify x.catalog x.formula.right?

end Context

end Formulary
