import Formulary.Text.Lowercase
import Formulary.Value
import Formulary.Yaml.Fault
import Formulary.Yaml.Tag

/-! # Values of scalars

The value of a scalar by its tag. A tag that is written out may stand on a text of any form, so
every one of these can fail.
-/

namespace Formulary.Yaml

/-- A value without parts. `nan` is what `.nan` spells, one value wherever it stands; a `nan` that
comes of reading digits is equal to nothing. -/
inductive Atom where
  | null
  | bool (b : Bool)
  | int (i : Int)
  | float (x : Binary64)
  | nan
  | str (t : Text)
  | date (d : Date)
  | moment (m : Moment)
  | bytes (bs : List UInt8)
deriving DecidableEq, Repr

namespace Atom

def layer {α : Type} : Atom → Layer α
  | .null => .null
  | .bool b => .bool b
  | .int i => .int i
  | .float x => .float x
  | .nan => .float .nan
  | .str t => .str t
  | .date d => .date d
  | .moment m => .moment m
  | .bytes bs => .bytes bs

/-- The spelling of a value inside a collection or a message. -/
def notated? : Atom → Option Text
  | .null => some Spelling.null
  | .bool b => some (Spelling.bool b)
  | .int i => Numeral.text? i
  | .float x => some (Spelling.numberStyle.text x)
  | .nan => some (Spelling.numberStyle.text .nan)
  | .str t => some (Text.quoted t)
  | .date d => some d.notated
  | .moment m => some m.notated
  | .bytes bs => some (Text.quotedBytes bs)

/-- Whether two values are one key. A truth value is a number here, and a whole number is equal to
the floating-point number of its size. -/
def sameKey : Atom → Atom → Bool
  | .bool a, .int j => (if a then 1 else 0) == j
  | .int i, .bool b => i == (if b then 1 else 0)
  | .bool a, .float y => y.eqInt (if a then 1 else 0)
  | .float x, .bool b => x.eqInt (if b then 1 else 0)
  | .int i, .float y => y.eqInt i
  | .float x, .int j => x.eqInt j
  | .float x, .float y => x.same y
  | .moment a, .moment b => a.same b
  | a, b => a == b

end Atom

/-! ## Numbers -/

def wholeScalar (base : Nat) (t : Text) : Except ScalarFault Int :=
  (Numeral.whole base t).mapError .numeral

def floatScalar (t : Text) : Except ScalarFault Binary64 := (Numeral.float t).mapError .numeral

/-- The parts of a scalar at its colons, the last one first. -/
def sixtyParts {α : Type} (read : Text → Except ScalarFault α) (t : Text) :
    Except ScalarFault (List α) :=
  ((splitAt ':' t).mapM read).map List.reverse

/-- The sum of whole parts in base sixty, the last part first. -/
def sixtySum : List Int → Int
  | [] => 0
  | p :: rest => p + 60 * sixtySum rest

/-- The sum of parts in base sixty, the last part first, from the place `60 ^ place` on. Every place
and every product is rounded before it is added. -/
def sixtyFloatSum (place : Nat) (sum : Binary64) : List Binary64 → Except ScalarFault Binary64
  | [] => .ok sum
  | p :: rest =>
    match Binary64.ofNat? (Nat.pow 60 place) with
    | none => .error .placeTooLarge
    | some k => sixtyFloatSum (place + 1) (sum.add (p.mul k)) rest

/-- A whole number without its sign and underscores: `0b`, `0x` and a leading zero mark its base, and
colons separate digits in base sixty. -/
def unsignedInt : Text → Except ScalarFault Int
  | [] => .error .emptyNumeral
  | [.char '0'] => .ok 0
  | .char '0' :: .char 'b' :: rest => wholeScalar 2 rest
  | .char '0' :: .char 'x' :: rest => wholeScalar 16 rest
  | .char '0' :: rest => wholeScalar 8 (.char '0' :: rest)
  | body =>
    if body.contains ':' then (sixtyParts (wholeScalar 10) body).map sixtySum
    else wholeScalar 10 body

/-- A whole number. Underscores do not count. -/
def intScalar (text : Text) : Except ScalarFault Int := do
  let t := text.filter (· ≠ .char '_')
  if t.isEmpty then throw .emptyNumeral
  let negative := t.head? = some (.char '-')
  let n ← unsignedInt (dropSign t)
  return if negative then -n else n

/-- A floating-point number, in the decimal digits or in base sixty. -/
def numberScalar (text : Text) : Except ScalarFault Atom := do
  let t := Text.lowercase (text.filter (· ≠ .char '_'))
  if t.isEmpty then throw .emptyNumeral
  let negative := t.head? = some (.char '-')
  let signed (x : Binary64) : Atom := .float (if negative then x.negate else x)
  let body := dropSign t
  if body == ".inf" then return signed (.infinite false)
  else if body == ".nan" then return .nan
  else if body.contains ':' then do
    let parts ← sixtyParts floatScalar body
    (sixtyFloatSum 0 (.zero false) parts).map signed
  else (floatScalar body).map signed

/-- A truth word in letters of any case. -/
def truthScalar (text : Text) : Except ScalarFault Bool :=
  let word := Text.lowercase text
  match truthWords.lookup word with
  | some b => .ok b
  | none => .error (.truth word)

/-! ## Dates -/

/-- The number of decimal digits, which are ASCII. -/
def digitsNumber (t : Text) : Nat := t.foldl (fun n c => n * 10 + (c.toNat - 48)) 0

/-- Seconds east of universal time. -/
def zoneOffset? : Text → Option Int
  | [] => none
  | [.char 'Z'] => some 0
  | s :: rest =>
    let parts := (splitAt ':' rest).map digitsNumber
    let seconds : Int := parts.headD 0 * 3600 + (parts.drop 1).headD 0 * 60
    some (if s = '-' then -seconds else seconds)

/-- A date or a moment; of the digits after the point six count. -/
def timestampScalar (text : Text) : Except ScalarFault Atom :=
  match timestamp? (Text.dropFinalBreak text) with
  | none => .error .timestamp
  | some t =>
    let year := digitsNumber t.year
    let month := digitsNumber t.month
    let day := digitsNumber t.day
    match t.time? with
    | none => ((Date.make year month day).map Atom.date).mapError .calendar
    | some time =>
      let micro := digitsNumber ((time.fraction ++ List.replicate 6 (CodePoint.char '0')).take 6)
      ((Moment.make year month day (digitsNumber time.hour) (digitsNumber time.minute)
        (digitsNumber time.second) micro (zoneOffset? t.zone)).map Atom.moment).mapError .calendar

/-! ## Bytes -/

/-- The value of a base64 character. -/
def base64Value? (c : CodePoint) : Option Nat :=
  if 'A' ≤ c && c ≤ 'Z' then some (c.toNat - 65)
  else if 'a' ≤ c && c ≤ 'z' then some (c.toNat - 71)
  else if '0' ≤ c && c ≤ '9' then some (c.toNat + 4)
  else if c = '+' then some 62
  else if c = '/' then some 63
  else none

/-- Bytes in base64. Characters outside its alphabet do not count; `place` is the number of
characters of the present group, `left` the bits that they leave over, and `pads` the padding
seen. `none` when a group is not complete. -/
def base64From (place left pads : Nat) : Text → Option (List UInt8)
  | [] => if place = 0 then some [] else none
  | c :: rest =>
    if c = '=' then
      if 2 ≤ place && 4 ≤ place + pads + 1 then some []
      else base64From place left (if 2 ≤ place then pads + 1 else pads) rest
    else
      match base64Value? c with
      | none => base64From place left pads rest
      | some v =>
        match place with
        | 0 => base64From 1 v 0 rest
        | 1 => (base64From 2 (v % 16) 0 rest).map (UInt8.ofNat (left * 4 + v / 16) :: ·)
        | 2 => (base64From 3 (v % 4) 0 rest).map (UInt8.ofNat (left * 16 + v / 4) :: ·)
        | _ => (base64From 0 0 0 rest).map (UInt8.ofNat (left * 64 + v) :: ·)

/-- The bytes of a binary scalar, which is ASCII. -/
def binaryScalar (text : Text) : Except Fault Atom :=
  let bytes? := if text.all fun c => c.toNat < 128 then base64From 0 0 0 text else none
  match bytes? with
  | some bs => .ok (.bytes bs)
  | none => .error (.problem .binaryData none)

/-! ## By tag -/

/-- How the text of a scalar is read under a tag; `none` if the tag is not one of a scalar. -/
def scalarReader? : Tag → Option (Text → Except Fault Atom)
  | .null => some fun _ => .ok .null
  | .bool => some fun t => ((truthScalar t).map .bool).mapError .scalar
  | .int => some fun t => ((intScalar t).map .int).mapError .scalar
  | .float => some fun t => (numberScalar t).mapError .scalar
  | .timestamp => some fun t => (timestampScalar t).mapError .scalar
  | .str => some fun t => .ok (.str t)
  | .binary => some binaryScalar
  | _ => none

end Formulary.Yaml
