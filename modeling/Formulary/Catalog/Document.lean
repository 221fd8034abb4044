import Formulary.Catalog.Basic
import Formulary.Depth
import Formulary.Json.View

/-! # Catalogs from documents

A document is a map with `variables`, which lists names under each type, and `operators`, each with
a `symbol` and its `valid_types`. All variables are read before all operators, and both before the
catalog is checked; the first fault is the one reported. Names and symbols may be any values and
stand for their texts. A value that is nested too deep to be spelled is no fault of the document; it
stops the reader.
-/

namespace Formulary

/-- What keeps a document from being read. -/
inductive Malformation where
  | noEntries (kind : ValueKind)
  | noFields (kind : ValueKind)
  | notList (place : Text) (kind : ValueKind)
  | missing (field : Text)
  | unknownType (notated : Text)
  | numberTooLong
deriving DecidableEq, Repr

/-- The message of a value that is asked for a field and has none. -/
def noFieldsMessage : ValueKind → Text
  | .str => "string indices must be integers, not 'str'"
  | .list => "list indices must be integers or slices, not str"
  | .pair => "tuple indices must be integers or slices, not str"
  | .bytes => "byte indices must be integers or slices, not str"
  | k => "'" ++ k.qualifiedName ++ "' object is not subscriptable"

def Malformation.message : Malformation → Text
  | .noEntries k => "'" ++ k.qualifiedName ++ "' object has no attribute 'items'"
  | .noFields k => noFieldsMessage k
  | .notList place k => place ++ " must be a list, got " ++ k.name
  | .missing field => "'" ++ field ++ "'"
  | .unknownType notated => notated ++ " is not a valid OperandType"
  | .numberTooLong => Numeral.tooLongToWrite

/-- Why a document is not a catalog. -/
inductive DocumentFault where
  | notMap
  | malformed (m : Malformation)
  | offence (o : Offence)
deriving DecidableEq, Repr

def DocumentFault.message : DocumentFault → Text
  | .notMap => "Catalog document must be a mapping"
  | .malformed m => "Malformed catalog document: " ++ m.message
  | .offence o => o.message

namespace Catalog

open ValueLike

variable {α : Type} [ValueLike α]

/-- A reader of parts of a document. -/
abbrev Read (β : Type) := Except (Halt Malformation) β

/-- What a value that cannot be spelled means for its document. -/
def unspelled : Unspelled → Halt Malformation
  | .tooLong => .fault .numberTooLong
  | .tooDeep => .tooDeep

/-- The text of a value as a name, a symbol or a part of a place. -/
def textOf (v : α) : Read Text := (text v).mapError unspelled

/-- The operand type that a value names. -/
def namedType? (v : α) : Option OperandType :=
  match layer v with
  | .str t => OperandType.ofName? t
  | _ => none

def typeOfValue (v : α) : Read OperandType :=
  match namedType? v with
  | some t => .ok t
  | none =>
    match notated v with
    | .ok t => .error (.fault (.unknownType t))
    | .error e => .error (unspelled e)

/-- The items of a list or a pair; null has none. -/
def itemsIn (place : Text) (v : α) : Read (List α) :=
  match layer v with
  | .null => .ok []
  | .list items => .ok items
  | .pair a b => .ok [a, b]
  | x => .error (.fault (.notList place x.kind))

/-- The items of a list that may be absent. -/
def itemsAt (place : Text) : Option α → Read (List α)
  | none => .ok []
  | some v => itemsIn place v

/-- The entries of a map; what counts as nothing has none. -/
def entriesIn (v : α) : Read (List (α × α)) :=
  match layer v with
  | .map entries => .ok entries
  | x => if x.isNothing then .ok [] else .error (.fault (.noEntries x.kind))

/-- The field of a map. -/
def fieldOf (v : α) (name : Text) : Read α :=
  match layer v with
  | .map entries =>
    match lookup? entries name with
    | some x => .ok x
    | none => .error (.fault (.missing name))
  | x => .error (.fault (.noFields x.kind))

/-- The field of a map, if it is there. -/
def optionalField (v : α) (name : Text) : Option α :=
  match layer v with
  | .map entries => lookup? entries name
  | _ => none

/-- One declared name; the type is looked at for each name and so never for an empty list. -/
def readVariable (typeName name : α) : Read Variable := do
  let text ← textOf name
  let type ← typeOfValue typeName
  return ⟨text, type⟩

/-- The names under one type. -/
def readGroup (entry : α × α) : Read (List Variable) := do
  let place ← textOf entry.1
  let names ← itemsIn ("variables." ++ place) entry.2
  names.mapM (readVariable entry.1)

def readVariables (v? : Option α) : Read (List Variable) := do
  let entries ← v?.elim (.ok []) entriesIn
  let groups ← entries.mapM readGroup
  return groups.flatten

/-- One pair of types; the left one is read first. -/
def readPair (v : α) : Read TypePair := do
  let left ← fieldOf v "left"
  let l ← typeOfValue left
  let right ← fieldOf v "right"
  let r ← typeOfValue right
  return ⟨l, r⟩

def readOperator (v : α) : Read Operator := do
  let field ← fieldOf v "symbol"
  let symbol ← textOf field
  let items ← itemsAt ("operators." ++ symbol ++ ".valid_types") (optionalField v "valid_types")
  let pairs ← items.mapM readPair
  return ⟨symbol, pairs⟩

def readOperators (v? : Option α) : Read (List Operator) := do
  let items ← itemsAt "operators" v?
  items.mapM readOperator

/-- The variables and operators of a map. -/
def readParts (entries : List (α × α)) : Read (List Variable × List Operator) := do
  let declared ← readVariables (lookup? entries "variables")
  let operators ← readOperators (lookup? entries "operators")
  return (declared, operators)

/-- The catalog of the entries of a map. -/
def ofEntries (entries : List (α × α)) : Except (Halt DocumentFault) Catalog :=
  match readParts entries with
  | .error m => .error (m.map .malformed)
  | .ok (declared, operators) => (make declared operators).mapError fun o => .fault (.offence o)

/-- The catalog of a document. -/
def ofDocument (v : α) : Except (Halt DocumentFault) Catalog :=
  match layer v with
  | .map entries => ofEntries entries
  | _ => .error (.fault .notMap)

end Catalog

end Formulary
