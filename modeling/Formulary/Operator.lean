import Formulary.Json.Basic
import Formulary.OperandType

/-! # Operators

An operator is a symbol with the pairs of operand types that it can be applied to.
-/

namespace Formulary

/-- A type on the left with a type on the right. -/
structure TypePair where
  left : OperandType
  right : OperandType
deriving DecidableEq, Repr

structure Operator where
  symbol : Text
  pairs : List TypePair
deriving DecidableEq, Repr

namespace Operator

/-- Whether some pair has the type on its left. -/
def admitsLeft (op : Operator) (t : OperandType) : Bool := op.pairs.any (·.left = t)

/-- Whether some pair has the type on its right. -/
def admitsRight (op : Operator) (t : OperandType) : Bool := op.pairs.any (·.right = t)

/-- Whether some pair has one type on its left and the other on its right. -/
def admits (op : Operator) (l r : OperandType) : Bool :=
  op.pairs.any fun p => p.left = l && p.right = r

end Operator

/-- What can be asked of an operator. -/
inductive OperatorQuestion where
  | left
  | right
  | both
deriving DecidableEq, Repr

def OperatorQuestion.name : OperatorQuestion → Text
  | .left => "admits_left"
  | .right => "admits_right"
  | .both => "admits"

/-- A question was asked of an operator that is absent. -/
structure AbsentOperator where
  question : OperatorQuestion
deriving DecidableEq, Repr

def AbsentOperator.message (e : AbsentOperator) : Text :=
  "'NoneType' object has no attribute '" ++ e.question.name ++ "'"

/-- A pair as plain data. -/
def TypePair.toJson (p : TypePair) : Json :=
  .object [("left", .str p.left.name), ("right", .str p.right.name)]

/-- An operator as plain data. -/
def Operator.toJson (op : Operator) : Json :=
  .object [("symbol", .str op.symbol), ("valid_types", .list (op.pairs.map TypePair.toJson))]

end Formulary
