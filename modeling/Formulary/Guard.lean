import Formulary.Formula
import Formulary.Verdict

/-! # Guards

A guard is one check of a formula. It passes the formula or rejects it; a guard that asks something
of the operator cannot be run on a formula without one.
-/

namespace Formulary

/-- A check with its name, its place in the order of checks and the kind of its rejections. -/
structure Guard where
  id : Text
  position : Int
  kind : RejectionKind
  check : Context → Except AbsentOperator (Option Rejection)

namespace Guard

/-- Passes what `ok` allows and rejects the rest. -/
def passing (ok : Bool) (r : Rejection) : Except AbsentOperator (Option Rejection) :=
  .ok (if ok then none else some r)

/-- All three fields must be there. -/
def completeness : Guard where
  id := "completeness"
  position := 10
  kind := .missingField
  check x := passing x.formula.isComplete
    ⟨.missingField, "All fields are required.",
      [("missing", .list (x.formula.missing.map .str))]⟩

/-- The left side must be a declared variable, even where a literal would have the right type. -/
def leftIsVariable : Guard where
  id := "left_is_variable"
  position := 20
  kind := .leftNotVariable
  check x := passing (x.catalog.isVariable x.leftText)
    ⟨.leftNotVariable, "Left side must be a variable.", [("left_side", .str x.leftText)]⟩

/-- The right side must have a type. -/
def rightClassifiable : Guard where
  id := "right_classifiable"
  position := 30
  kind := .rightInvalidType
  check x := passing (x.rightType ≠ .invalid)
    ⟨.rightInvalidType, "Right side must be a variable, an integer or a string.",
      [("right_side", .str x.rightText)]⟩

/-- The message of a type that an operator admits nowhere on one side. -/
def sideMessage (symbol value : Text) (t : OperandType) (side : Text) : Text :=
  "Invalid type for operator " ++ symbol ++ ": can’t be applied to value " ++ value ++
    " of type " ++ t.name ++ " on the " ++ side ++ " side."

/-- The message of two types that an operator admits one by one and not together. -/
def pairMessage (symbol left : Text) (l : OperandType) (right : Text) (r : OperandType) :
    Text :=
  "Incompatible types for operator " ++ symbol ++ ": can't be applied to a value " ++ left ++
    " of type " ++ l.name ++ " on the left side and a value " ++ right ++ " of type " ++ r.name ++
    " on the right side."

/-- The operator must admit the type of the left side in some pair. -/
def operatorLeftType : Guard where
  id := "operator_left_type"
  position := 40
  kind := .operatorLeftTypeMismatch
  check x :=
    match x.formula.operator? with
    | none => .error ⟨.left⟩
    | some op => passing (op.admitsLeft x.leftType)
      ⟨.operatorLeftTypeMismatch, sideMessage op.symbol x.leftText x.leftType "left",
        [("operator", .str op.symbol), ("left_side", .str x.leftText),
         ("left_type", .str x.leftType.name)]⟩

/-- The operator must admit the type of the right side in some pair. -/
def operatorRightType : Guard where
  id := "operator_right_type"
  position := 50
  kind := .operatorRightTypeMismatch
  check x :=
    match x.formula.operator? with
    | none => .error ⟨.right⟩
    | some op => passing (op.admitsRight x.rightType)
      ⟨.operatorRightTypeMismatch, sideMessage op.symbol x.rightText x.rightType "right",
        [("operator", .str op.symbol), ("right_side", .str x.rightText),
         ("right_type", .str x.rightType.name)]⟩

/-- The operator must admit both types in one pair. An operator with the pairs `(int, int)` and
`(string, string)` admits `int` on the left and `string` on the right, but not together. -/
def operatorTypePair : Guard where
  id := "operator_type_pair"
  position := 60
  kind := .operatorIncompatibleTypes
  check x :=
    match x.formula.operator? with
    | none => .error ⟨.both⟩
    | some op => passing (op.admits x.leftType x.rightType)
      ⟨.operatorIncompatibleTypes,
        pairMessage op.symbol x.leftText x.leftType x.rightText x.rightType,
        [("operator", .str op.symbol), ("left_side", .str x.leftText),
         ("left_type", .str x.leftType.name), ("right_side", .str x.rightText),
         ("right_type", .str x.rightType.name)]⟩

/-- The guards that every formula is checked by, in their order. -/
def builtIn : List Guard :=
  [completeness, leftIsVariable, rightClassifiable, operatorLeftType, operatorRightType,
   operatorTypePair]

end Guard

end Formulary
