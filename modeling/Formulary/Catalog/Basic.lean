import Formulary.Operator

/-! # Catalogs

A catalog declares variables with their types and lists operators. `Catalog.make` builds one from
any two lists and reports the first offence in reading order; a catalog that exists has none.
-/

namespace Formulary

/-- A name with its declared type. -/
structure Variable where
  name : Text
  type : OperandType
deriving DecidableEq, Repr

/-- What a catalog cannot hold. -/
inductive Offence where
  | undeclarableType (name : Text) (type : OperandType)
  | duplicateVariable (name : Text)
  | duplicateOperator (symbol : Text)
  | noPairs (symbol : Text)
  | inadmissibleType (symbol : Text)
deriving DecidableEq, Repr

def Offence.message : Offence → Text
  | .undeclarableType name type =>
    "Variable " ++ name ++ " must be declared int or string, got " ++ type.name
  | .duplicateVariable name => "Duplicate variable registered: " ++ name
  | .duplicateOperator symbol => "Duplicate operator symbol registered: " ++ symbol
  | .noPairs symbol => "Operator " ++ symbol ++ " has no admissible type pairs"
  | .inadmissibleType symbol =>
    "Operator " ++ symbol ++ " cannot admit type " ++ OperandType.invalid.name

namespace Catalog

/-- The first offence among variables, given the names before them. -/
def variableOffence? (seen : List Text) : List Variable → Option Offence
  | [] => none
  | v :: rest =>
    if !v.type.isDeclarable then some (.undeclarableType v.name v.type)
    else if seen.contains v.name then some (.duplicateVariable v.name)
    else variableOffence? (v.name :: seen) rest

/-- The first offence among operators, given the symbols before them. -/
def operatorOffence? (seen : List Text) : List Operator → Option Offence
  | [] => none
  | op :: rest =>
    if seen.contains op.symbol then some (.duplicateOperator op.symbol)
    else if op.pairs.isEmpty then some (.noPairs op.symbol)
    else if op.pairs.any fun p => !(p.left.isDeclarable && p.right.isDeclarable) then
      some (.inadmissibleType op.symbol)
    else operatorOffence? (op.symbol :: seen) rest

/-- The first offence of a catalog: all variables are read before all operators. -/
def offence? (declared : List Variable) (operators : List Operator) : Option Offence :=
  (variableOffence? [] declared).or (operatorOffence? [] operators)

end Catalog

/-- Declared variables and operators without an offence. -/
structure Catalog where
  declared : List Variable
  operators : List Operator
  sound : Catalog.offence? declared operators = none
deriving DecidableEq

namespace Catalog

/-- The catalog of two lists, or their first offence. -/
def make (declared : List Variable) (operators : List Operator) : Except Offence Catalog :=
  match h : offence? declared operators with
  | none => .ok ⟨declared, operators, h⟩
  | some e => .error e

/-- The declared type of a name. -/
def typeOf? (c : Catalog) (name : Text) : Option OperandType :=
  (c.declared.find? (·.name == name)).map (·.type)

def isVariable (c : Catalog) (name : Text) : Bool := (c.typeOf? name).isSome

/-- The names declared with a type, in the order of declaration. -/
def namesOf (c : Catalog) (t : OperandType) : List Text :=
  (c.declared.filter (·.type = t)).map (·.name)

/-- The operator of a symbol. -/
def operator? (c : Catalog) (symbol : Text) : Option Operator :=
  c.operators.find? (·.symbol == symbol)

/-- A catalog as plain data: the names of each declarable type, and the operators. -/
def documentFields (c : Catalog) : List (Text × Json) :=
  [("variables",
      .object (OperandType.declarable.map fun t => (t.name, .list ((c.namesOf t).map .str)))),
   ("operators", .list (c.operators.map Operator.toJson))]

def document (c : Catalog) : Json := .object c.documentFields

/-! ## The catalog that is used when no other is given -/

def pair (l r : OperandType) : TypePair := ⟨l, r⟩

/-- Amounts and balances as integers, last names as strings, and four comparisons. -/
def builtIn : Catalog where
  declared :=
    [⟨"transaction.amount", .int⟩,
     ⟨"transaction.account.balance", .int⟩,
     ⟨"transaction.account.max_transaction_amount_authorized", .int⟩,
     ⟨"transaction.sender.last_name", .string⟩,
     ⟨"transaction.receiver.last_name", .string⟩,
     ⟨"transaction.account.owner.last_name", .string⟩]
  operators :=
    [⟨"≥", [pair .int .int]⟩,
     ⟨"is_close_match", [pair .string .string]⟩,
     ⟨"=", [pair .int .int, pair .string .string]⟩,
     ⟨"≠", [pair .int .int, pair .string .string]⟩]
  sound := by decide +kernel

end Catalog

end Formulary
