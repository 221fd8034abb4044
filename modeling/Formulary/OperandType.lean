import Formulary.Text.Basic

/-! # Operand types

What an operand of a formula can be. Only `int` and `string` can be declared; `invalid` is what an
operand that is neither a literal nor a declared variable has.
-/

namespace Formulary

/-- The type of an operand. -/
inductive OperandType where
  | int
  | string
  | invalid
deriving DecidableEq, Repr, Inhabited

namespace OperandType

def name : OperandType → Text
  | .int => "int"
  | .string => "string"
  | .invalid => "invalid"

/-- The type of a name. -/
def ofName? (s : Text) : Option OperandType :=
  if s == "int" then some .int
  else if s == "string" then some .string
  else if s == "invalid" then some .invalid
  else none

/-- Whether a variable can be declared with the type and an operator can admit it. -/
def isDeclarable : OperandType → Bool
  | .invalid => false
  | _ => true

/-- The types that can be declared, in the order in which a catalog lists them. -/
def declarable : List OperandType := [.int, .string]

end OperandType

end Formulary
