import Formulary.Text.Digit

/-! # Tags

The kind of a node. A plain scalar without a tag has the kind that its form asks for: a truth value,
a number, a date, a merge mark, null, or text.
-/

namespace Formulary.Yaml

/-- The kinds of the YAML 1.1 types, and every other tag by its name. -/
inductive Tag where
  | null
  | bool
  | int
  | float
  | timestamp
  | merge
  | value
  | str
  | binary
  | seq
  | map
  | set
  | omap
  | pairs
  | other (name : Text)
deriving DecidableEq, Repr

/-- What the short handle of the YAML types stands for. -/
def typesHandle : Text := "tag:yaml.org,2002:"

/-- The types and their names after the handle. -/
def typeNames : List (Text × Tag) :=
  [("null", .null), ("bool", .bool), ("int", .int), ("float", .float), ("timestamp", .timestamp),
   ("merge", .merge), ("value", .value), ("str", .str), ("binary", .binary), ("seq", .seq),
   ("map", .map), ("set", .set), ("omap", .omap), ("pairs", .pairs)]

/-- The tag of a full name. -/
def Tag.ofName (name : Text) : Tag :=
  match typeNames.find? fun t => typesHandle ++ t.1 == name with
  | some t => t.2
  | none => .other name

def Tag.name : Tag → Text
  | .other name => name
  | t =>
    match typeNames.find? (·.2 = t) with
    | some n => typesHandle ++ n.1
    | none => ""

/-! ## Forms of plain scalars

One line break at the end of a text does not change its form.
-/

def isOctalPoint (c : CodePoint) : Bool := ('0' ≤ c && c ≤ '7') || c = '_'
def isBinaryPoint (c : CodePoint) : Bool := c = '0' || c = '1' || c = '_'
def isDigitPoint (c : CodePoint) : Bool := Text.isAsciiDigit c || c = '_'
def isHexPoint (c : CodePoint) : Bool := (Text.hexValue? c).isSome || c = '_'

/-- Whether a text is not empty and all of a class. -/
def isRun (p : CodePoint → Bool) (t : Text) : Bool := !t.isEmpty && t.all p

def dropSign : Text → Text
  | .char '+' :: rest => rest
  | .char '-' :: rest => rest
  | t => t

/-- A group of a number in base sixty: one digit, or two of which the first is below six. -/
def isSixtyGroup : Text → Bool
  | [d] => Text.isAsciiDigit d
  | [t, d] => '0' ≤ t && t ≤ '5' && Text.isAsciiDigit d
  | _ => false

/-- The parts of a text between the occurrences of a code point; there is always one. -/
def splitAt (sep : CodePoint) : Text → List Text
  | [] => [[]]
  | c :: rest =>
    match splitAt sep rest with
    | part :: parts => if c = sep then [] :: part :: parts else (c :: part) :: parts
    | [] => [[c]]

/-- Whether a text is a digit followed by digits and underscores. -/
def isDigits : Text → Bool
  | d :: rest => Text.isAsciiDigit d && rest.all isDigitPoint
  | [] => false

/-- Digits that do not start with zero. -/
def isPositiveDigits : Text → Bool
  | d :: rest => '1' ≤ d && d ≤ '9' && rest.all isDigitPoint
  | [] => false

/-- The forms of a whole number: binary, octal, decimal, hexadecimal and base sixty. -/
def isIntForm (t : Text) : Bool :=
  let body := dropSign t
  match body with
  | .char '0' :: .char 'b' :: rest => isRun isBinaryPoint rest
  | .char '0' :: .char 'x' :: rest => isRun isHexPoint rest
  | .char '0' :: rest => rest.all isOctalPoint
  | _ =>
    match splitAt ':' body with
    | [ds] => isPositiveDigits ds
    | ds :: groups => isPositiveDigits ds && groups.all isSixtyGroup
    | [] => false

/-- An exponent with its sign, or nothing. -/
def isExponentForm : Text → Bool
  | [] => true
  | e :: s :: rest =>
    (e = 'e' || e = 'E') && (s = '-' || s = '+') && isRun Text.isAsciiDigit rest
  | _ => false

/-- Digits and underscores after a point, then an exponent. -/
def isFractionForm (t : Text) : Bool := isExponentForm (t.dropWhile isDigitPoint)

/-- What stands after the point of the values that have no digits. -/
def infinitySpellings : List Text := ["inf", "Inf", "INF"]
def nanSpellings : List Text := ["nan", "NaN", "NAN"]

/-- The forms of a floating-point number. A point is needed, and a sign in the exponent. -/
def isFloatForm (t : Text) : Bool :=
  let body := dropSign t
  let whole := body.takeWhile (· ≠ .char '.')
  let fraction := (body.dropWhile (· ≠ .char '.')).drop 1
  let hasPoint := body.contains '.'
  if !hasPoint then false
  else if whole.isEmpty then
    infinitySpellings.contains fraction ||
      (t.head? = some (.char '.') &&
        (nanSpellings.contains fraction ||
          (Text.isAsciiDigit (fraction.headD ' ') && isFractionForm fraction)))
  else
    match splitAt ':' whole with
    | [ds] => isDigits ds && isFractionForm fraction
    | ds :: groups => isDigits ds && groups.all isSixtyGroup && fraction.all isDigitPoint
    | [] => false

/-- The parts of a time of day. -/
structure TimeParts where
  hour : Text
  minute : Text
  second : Text
  fraction : Text
deriving DecidableEq, Repr

/-- A date, or a date with the parts of a time. -/
structure Timestamp where
  year : Text
  month : Text
  day : Text
  time? : Option TimeParts
  zone : Text
deriving DecidableEq, Repr

def isDigitRun (least most : Nat) (t : Text) : Bool :=
  least ≤ t.length && t.length ≤ most && t.all Text.isAsciiDigit

def isInlineBlank (c : CodePoint) : Bool := c = ' ' || c = '\t'

/-- The forms of the distance from universal time: nothing, `Z`, or signed hours and minutes. -/
def isZoneForm : Text → Bool
  | [] => true
  | [.char 'Z'] => true
  | s :: rest =>
    (s = '+' || s = '-') &&
      (match splitAt ':' rest with
      | [h] => isDigitRun 1 2 h
      | [h, m] => isDigitRun 1 2 h && isDigitRun 2 2 m
      | _ => false)

/-- The time of day after a date, and the zone. -/
def timeParts? (t : Text) : Option (TimeParts × Text) :=
  let hour := t.takeWhile Text.isAsciiDigit
  match t.dropWhile Text.isAsciiDigit with
  | .char ':' :: a :: b :: .char ':' :: c :: d :: rest =>
    let point := rest.head? = some (.char '.')
    let fraction := if point then (rest.drop 1).takeWhile Text.isAsciiDigit else []
    let after := if point then (rest.drop 1).dropWhile Text.isAsciiDigit else rest
    let zone := after.dropWhile isInlineBlank
    if isDigitRun 1 2 hour && isDigitRun 4 4 [a, b, c, d] && isZoneForm zone &&
        (!zone.isEmpty || after.isEmpty) then
      some (⟨hour, [a, b], [c, d], fraction⟩, zone)
    else none
  | _ => none

/-- The time after a date: a letter `T` or blanks stand before it. -/
def timeAfter? : Text → Option (TimeParts × Text)
  | [] => none
  | s :: more =>
    if s = 'T' || s = 't' then timeParts? more
    else if isInlineBlank s then timeParts? (more.dropWhile isInlineBlank)
    else none

/-- The parts of a date or moment. -/
def timestamp? (t : Text) : Option Timestamp :=
  let year := t.take 4
  match t.drop 4 with
  | .char '-' :: rest =>
    let month := rest.takeWhile Text.isAsciiDigit
    match rest.dropWhile Text.isAsciiDigit with
    | .char '-' :: rest =>
      let day := rest.takeWhile Text.isAsciiDigit
      let after := rest.dropWhile Text.isAsciiDigit
      if !(isDigitRun 4 4 year && isDigitRun 1 2 month && isDigitRun 1 2 day) then none
      else if after.isEmpty then some ⟨year, month, day, none, []⟩
      else (timeAfter? after).map fun p => ⟨year, month, day, some p.1, p.2⟩
    | _ => none
  | _ => none

/-- Whether a plain scalar is a timestamp; a date alone has two digits for month and day. -/
def isTimestampForm (t : Text) : Bool :=
  match timestamp? t with
  | none => false
  | some parts => parts.time?.isSome || t.length = 10

def truthWords : List (Text × Bool) :=
  [("yes", true), ("no", false), ("true", true), ("false", false), ("on", true), ("off", false)]

/-- The spellings of a truth word: in lower, upper or capitalised letters. -/
def truthSpellings : List Text :=
  ["yes", "Yes", "YES", "no", "No", "NO", "true", "True", "TRUE", "false", "False", "FALSE",
   "on", "On", "ON", "off", "Off", "OFF"]

def nullSpellings : List Text := ["~", "null", "Null", "NULL"]

/-- The kind that the form of a plain scalar asks for. -/
def Tag.ofPlain (text : Text) : Tag :=
  let t := Text.dropFinalBreak text
  if truthSpellings.contains t then .bool
  else if isFloatForm t then .float
  else if isIntForm t then .int
  else if t == "<<" then .merge
  else if text.isEmpty || nullSpellings.contains t then .null
  else if isTimestampForm t then .timestamp
  else if t == "=" then .value
  else if t == "!" || t == "&" || t == "*" then .other (typesHandle ++ "yaml")
  else .str

end Formulary.Yaml
