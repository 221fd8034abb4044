import Formulary.Calendar
import Formulary.Number.Numeral
import Formulary.Number.Shortest
import Formulary.Text.Quoted

/-! # Values, one layer at a time

A document holds values: plain ones, dates and moments, bytes, pairs, lists, sets and maps. How the
values inside a value are held is left open, since a document may refer to a value from inside that
value. `ValueLike` says what can be asked of any of them: its outermost layer, and its spelling
inside a collection or a message. A spelling is missing for a whole number of more digits than
`Numeral.digitLimit`, and for a value that is nested too deep.
-/

namespace Formulary

/-- A value with its parts as they are held. -/
inductive Layer (α : Type) where
  | null
  | bool (b : Bool)
  | int (i : Int)
  | float (x : Binary64)
  | str (t : Text)
  | date (d : Date)
  | moment (m : Moment)
  | bytes (bs : List UInt8)
  | pair (first second : α)
  | list (items : List α)
  | set (items : List α)
  | map (entries : List (α × α))

/-- The kinds of values. -/
inductive ValueKind where
  | null
  | bool
  | int
  | float
  | str
  | date
  | moment
  | bytes
  | pair
  | list
  | set
  | map
deriving DecidableEq, Repr

namespace ValueKind

def name : ValueKind → Text
  | .null => "NoneType"
  | .bool => "bool"
  | .int => "int"
  | .float => "float"
  | .str => "str"
  | .date => "date"
  | .moment => "datetime"
  | .bytes => "bytes"
  | .pair => "tuple"
  | .list => "list"
  | .set => "set"
  | .map => "dict"

/-- The name of a kind with the family that it belongs to. -/
def qualifiedName : ValueKind → Text
  | .date => "datetime.date"
  | .moment => "datetime.datetime"
  | k => k.name

end ValueKind

namespace Layer

variable {α : Type}

def kind : Layer α → ValueKind
  | .null => .null
  | .bool _ => .bool
  | .int _ => .int
  | .float _ => .float
  | .str _ => .str
  | .date _ => .date
  | .moment _ => .moment
  | .bytes _ => .bytes
  | .pair _ _ => .pair
  | .list _ => .list
  | .set _ => .set
  | .map _ => .map

/-- Whether a value counts as nothing: null, false, zero, and everything empty. -/
def isNothing : Layer α → Bool
  | .null => true
  | .bool b => !b
  | .int i => i == 0
  | .float x => x.isZero
  | .str t => t.isEmpty
  | .bytes bs => bs.isEmpty
  | .list items => items.isEmpty
  | .set items => items.isEmpty
  | .map entries => entries.isEmpty
  | _ => false

end Layer

/-- Why a value has no spelling, or a value inside it. -/
inductive Unspelled where
  | tooLong
  | tooDeep
deriving DecidableEq, Repr

/-- A spelling that is missing only for a number of too many digits. -/
def Unspelled.unlessLong (t? : Option Text) : Except Unspelled Text := t?.elim (.error .tooLong) .ok

/-- What can be asked of a value of a document. -/
class ValueLike (α : Type) where
  layer : α → Layer α
  notated : α → Except Unspelled Text

namespace ValueLike

variable {α : Type} [ValueLike α]

/-- The text of a value: a string, a date and a moment as they are, all else as it is notated. -/
def text (v : α) : Except Unspelled Text :=
  match layer v with
  | .str t => .ok t
  | .date d => .ok d.text
  | .moment m => .ok m.text
  | _ => notated v

/-- The text of a value, if it has one. -/
def text? (v : α) : Option Text := (text v).toOption

/-- Whether a value is a given text. -/
def isText (v : α) (name : Text) : Bool :=
  match layer v with
  | .str t => t == name
  | _ => false

/-- The value under a text key. -/
def lookup? (entries : List (α × α)) (name : Text) : Option α :=
  (entries.find? fun e => isText e.1 name).map (·.2)

end ValueLike

/-! ## Spelling -/

namespace Spelling

/-- Numbers are positional from `10 ^ -4` up to `10 ^ 16`. -/
def numberStyle : DecimalStyle := ⟨-4, 16, "nan", "inf"⟩

def null : Text := "None"
def bool (b : Bool) : Text := if b then "True" else "False"
def list (parts : List Text) : Text := "[" ++ Text.join ", " parts ++ "]"
def pair (first second : Text) : Text := "(" ++ first ++ ", " ++ second ++ ")"
def entry (key value : Text) : Text := key ++ ": " ++ value
def map (parts : List Text) : Text := "\x7b" ++ Text.join ", " parts ++ "\x7d"
def set (parts : List Text) : Text := if parts.isEmpty then "set()" else map parts

end Spelling

end Formulary
