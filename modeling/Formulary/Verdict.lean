import Formulary.Json.Basic

/-! # Verdicts

A checked formula is accepted, or rejected with a kind, a message and details.
-/

namespace Formulary

/-- The kinds of rejection. -/
inductive RejectionKind where
  | missingField
  | leftNotVariable
  | rightInvalidType
  | operatorLeftTypeMismatch
  | operatorRightTypeMismatch
  | operatorIncompatibleTypes
deriving DecidableEq, Repr

namespace RejectionKind

def name : RejectionKind → Text
  | .missingField => "missing_field"
  | .leftNotVariable => "left_not_variable"
  | .rightInvalidType => "right_invalid_type"
  | .operatorLeftTypeMismatch => "operator_left_type_mismatch"
  | .operatorRightTypeMismatch => "operator_right_type_mismatch"
  | .operatorIncompatibleTypes => "operator_incompatible_types"

def all : List RejectionKind :=
  [.missingField, .leftNotVariable, .rightInvalidType, .operatorLeftTypeMismatch,
   .operatorRightTypeMismatch, .operatorIncompatibleTypes]

/-- The kind of a name. -/
def ofName? (s : Text) : Option RejectionKind := all.find? (·.name == s)

end RejectionKind

/-- Why a formula is rejected. -/
structure Rejection where
  kind : RejectionKind
  message : Text
  details : List (Text × Json)
deriving Repr

/-- The answer to a formula. -/
inductive Verdict where
  | accepted
  | rejected (r : Rejection)
deriving Repr

namespace Verdict

def isOk : Verdict → Bool
  | .accepted => true
  | .rejected _ => false

/-- The message of a rejection; an accepted formula has an empty one. -/
def message : Verdict → Text
  | .accepted => ""
  | .rejected r => r.message

/-- A verdict as plain data. -/
def toJson : Verdict → Json
  | .accepted =>
    .object [("ok", .bool true), ("kind", .null), ("message", .str ""), ("details", .object [])]
  | .rejected r =>
    .object [("ok", .bool false), ("kind", .str r.kind.name), ("message", .str r.message),
      ("details", .object r.details)]

/-- A verdict on one line: `OK`, or the kind and the message. -/
def line : Verdict → Text
  | .accepted => "OK"
  | .rejected r => r.kind.name ++ ": " ++ r.message

end Verdict

end Formulary
