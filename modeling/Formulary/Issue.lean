import Formulary.Catalog.Basic
import Formulary.Formula

/-! # Reading plain data field by field

Reading a formula, an operator or a variable from plain data collects every issue, each with the
path to the value it is about, in the order in which the fields are declared. Unknown fields do not
matter.
-/

namespace Formulary

/-- A step of a path: a field or an index. -/
inductive PathStep where
  | field (name : Text)
  | index (i : Nat)
deriving DecidableEq, Repr

def PathStep.toJson : PathStep → Json
  | .field name => .str name
  | .index i => .int i

/-- What is wrong with a value. -/
inductive IssueCause where
  | absent
  | notString
  | notType
  | notSequence
  | notRecord (name : Text)
  | notFields
  | notBoolean
  | unreadableBoolean
  | notPath
deriving DecidableEq, Repr

def IssueCause.code : IssueCause → Text
  | .absent => "missing"
  | .notString => "string_type"
  | .notType => "enum"
  | .notSequence => "tuple_type"
  | .notRecord _ => "model_type"
  | .notFields => "model_attributes_type"
  | .notBoolean => "bool_type"
  | .unreadableBoolean => "bool_parsing"
  | .notPath => "path_type"

def IssueCause.message : IssueCause → Text
  | .absent => "Field required"
  | .notString => "Input should be a valid string"
  | .notType => "Input should be 'int', 'string' or 'invalid'"
  | .notSequence => "Input should be a valid tuple"
  | .notRecord name => "Input should be a valid dictionary or instance of " ++ name
  | .notFields => "Input should be a valid dictionary or object to extract fields from"
  | .notBoolean => "Input should be a valid boolean"
  | .unreadableBoolean => "Input should be a valid boolean, unable to interpret input"
  | .notPath => "Input is not a valid path for <class 'pathlib.Path'>"

structure Issue where
  path : List PathStep
  cause : IssueCause
deriving DecidableEq, Repr

/-- An issue as plain data. -/
def Issue.toJson (i : Issue) : Json :=
  .object [("loc", .list (i.path.map PathStep.toJson)), ("type", .str i.cause.code),
    ("msg", .str i.cause.message)]

/-- A value, or all the issues that keep it from being read. -/
abbrev Checked (α : Type) := Except (List Issue) α

namespace Checked

def fail {α : Type} (cause : IssueCause) : Checked α := .error [⟨[], cause⟩]

/-- Two values, or the issues of the first and then of the second. -/
def both {α β : Type} : Checked α → Checked β → Checked (α × β)
  | .ok a, .ok b => .ok (a, b)
  | .ok _, .error ys => .error ys
  | .error xs, .ok _ => .error xs
  | .error xs, .error ys => .error (xs ++ ys)

/-- Puts a step in front of every path. -/
def within {α : Type} (step : PathStep) : Checked α → Checked α
  | .ok a => .ok a
  | .error xs => .error (xs.map fun i => ⟨step :: i.path, i.cause⟩)

/-- The values of all items, or all their issues; `i` is the index of the first item. -/
def items {α : Type} (read : Json → Checked α) (i : Nat) : List Json → Checked (List α)
  | [] => .ok []
  | v :: rest =>
    (both (within (.index i) (read v)) (items read (i + 1) rest)).map fun p => p.1 :: p.2

/-- A field that must be there. -/
def field {α : Type} (read : Json → Checked α) (v : Json) (name : Text) : Checked α :=
  within (.field name) <|
    match v.get? name with
    | none => fail .absent
    | some x => read x

end Checked

open Checked

def readString : Json → Checked Text
  | .str s => .ok s
  | _ => fail .notString

/-- A text or null. -/
def readOptionalString : Json → Checked (Option Text)
  | .null => .ok none
  | v => (readString v).map some

def readOperandType : Json → Checked OperandType
  | .str s =>
    match OperandType.ofName? s with
    | some t => .ok t
    | none => fail .notType
  | _ => fail .notType

def TypePair.ofJson (v : Json) : Checked TypePair :=
  match v with
  | .object _ =>
    (both (field readOperandType v "left") (field readOperandType v "right")).map fun p =>
      ⟨p.1, p.2⟩
  | _ => fail (.notRecord "TypePair")

def readPairs : Json → Checked (List TypePair)
  | .list xs => items TypePair.ofJson 0 xs
  | _ => fail .notSequence

def Operator.ofJson (v : Json) : Checked Operator :=
  match v with
  | .object _ =>
    (both (field readString v "symbol") (field readPairs v "valid_types")).map fun p => ⟨p.1, p.2⟩
  | _ => fail (.notRecord "Operator")

def Variable.ofJson (v : Json) : Checked Variable :=
  match v with
  | .object _ =>
    (both (field readString v "name") (field readOperandType v "type")).map fun p => ⟨p.1, p.2⟩
  | _ => fail (.notRecord "Variable")

/-- An operator or null. -/
def readOptionalOperator : Json → Checked (Option Operator)
  | .null => .ok none
  | v => (Operator.ofJson v).map some

end Formulary
