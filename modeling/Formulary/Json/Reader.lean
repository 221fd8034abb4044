import Formulary.Json.Basic
import Formulary.Number.Numeral
import Formulary.Text.Digit
import Formulary.Text.Encoding

/-! # Reading JSON

`Json.read` reads one value with blanks around it. A text that is no JSON is refused at the first
character that cannot be part of it, with the cause and the number of characters before it. Of two
fields with one name the later value stands at the earlier place. `Json.readWithin` also refuses a
value that is nested too deeply.
-/

namespace Formulary.Json

/-- What is wrong at a character. -/
inductive Trouble where
  | expectingValue
  | expectingName
  | expectingColon
  | expectingComma
  | extraData
  | unterminatedString
  | controlCharacter
  | badEscape
  | badUnicodeEscape
deriving DecidableEq, Repr

def Trouble.message : Trouble → Text
  | .expectingValue => "Expecting value"
  | .expectingName => "Expecting property name enclosed in double quotes"
  | .expectingColon => "Expecting ':' delimiter"
  | .expectingComma => "Expecting ',' delimiter"
  | .extraData => "Extra data"
  | .unterminatedString => "Unterminated string starting at"
  | .controlCharacter => "Invalid control character at"
  | .badEscape => "Invalid \\escape"
  | .badUnicodeEscape => "Invalid \\uXXXX escape"

/-- Why a text is refused. -/
inductive ReadFault where
  | malformed (trouble : Trouble) (position : Nat)
  | numberTooLong (digits : Nat)
  | tooDeep
deriving DecidableEq, Repr

/-- A result, the position after it and the rest of the text. -/
abbrev Scan (α : Type) := Except ReadFault (α × Nat × Text)

def fault {α : Type} (t : Trouble) (pos : Nat) : Scan α := .error (.malformed t pos)

def isSpace (c : CodePoint) : Bool := c = ' ' || c = '\t' || c = '\n' || c = '\r'

/-- Passes over blanks. -/
def skipSpace (pos : Nat) : Text → Nat × Text
  | [] => (pos, [])
  | c :: rest => if isSpace c then skipSpace (pos + 1) rest else (pos, c :: rest)

/-- The code point of a one-letter escape. -/
def simpleEscape? (c : CodePoint) : Option CodePoint :=
  if c = '"' || c = '\\' || c = '/' then some c
  else if c = 'b' then some '\x08'
  else if c = 'f' then some '\x0c'
  else if c = 'n' then some '\n'
  else if c = 'r' then some '\r'
  else if c = 't' then some '\t'
  else none

/-- The low half of a pair, when an escape follows in full before the end of the text. -/
def lowHalf? : Text → Option (Option Nat)
  | .char '\\' :: .char 'u' :: a :: b :: c :: d :: _ :: _ => some (Text.hexNumber? [a, b, c, d])
  | _ => none

def consPoint (c : CodePoint) : Scan Text → Scan Text
  | .ok (t, p, rest) => .ok (c :: t, p, rest)
  | .error e => .error e

/-- The text of a string up to its closing quote; `start` is where the string began. The escapes of
the two halves of a pair are one code point. -/
def stringBody (start pos : Nat) : Text → Scan Text
  | [] => fault .unterminatedString start
  | .char '"' :: rest => .ok ([], pos + 1, rest)
  | .char '\\' :: [] => fault .unterminatedString start
  | .char '\\' :: .char 'u' :: a :: b :: c :: d :: rest =>
    if rest.isEmpty then fault .badUnicodeEscape (pos + 1)
    else
      match Text.hexNumber? [a, b, c, d] with
      | none => fault .badUnicodeEscape (pos + 1)
      | some n =>
        if Text.Encoding.isHighHalf n then
          match lowHalf? rest with
          | some none => fault .badUnicodeEscape (pos + 7)
          | some (some m) =>
            if Text.Encoding.isLowHalf m then
              match rest with
              | _ :: _ :: _ :: _ :: _ :: _ :: rest' =>
                consPoint (.ofNat (Text.Encoding.ofHalves n m)) (stringBody start (pos + 12) rest')
              | _ => fault .badUnicodeEscape (pos + 7)
            else consPoint (.ofNat n) (stringBody start (pos + 6) rest)
          | none => consPoint (.ofNat n) (stringBody start (pos + 6) rest)
        else consPoint (.ofNat n) (stringBody start (pos + 6) rest)
  | .char '\\' :: e :: rest =>
    if e = 'u' then fault .badUnicodeEscape (pos + 1)
    else
      match simpleEscape? e with
      | some c => consPoint c (stringBody start (pos + 2) rest)
      | none => fault .badEscape pos
  | c :: rest =>
    if c.toNat < 0x20 then fault .controlCharacter pos
    else consPoint c (stringBody start (pos + 1) rest)

/-- The digits of a fraction after its point, if at least one follows. -/
def fractionPart : Text → Text × Text
  | .char '.' :: rest =>
    let ds := rest.takeWhile Text.isAsciiDigit
    if ds.isEmpty then ([], .char '.' :: rest)
    else (.char '.' :: ds, rest.dropWhile Text.isAsciiDigit)
  | rest => ([], rest)

/-- A sign, if there is one. -/
def signPart : Text → Text × Text
  | .char '+' :: rest => ("+", rest)
  | .char '-' :: rest => ("-", rest)
  | rest => ([], rest)

/-- An exponent with its mark and sign, if at least one digit follows. -/
def exponentPart : Text → Text × Text
  | c :: rest =>
    if c = 'e' || c = 'E' then
      let signed := signPart rest
      let ds := signed.2.takeWhile Text.isAsciiDigit
      if ds.isEmpty then ([], c :: rest)
      else (c :: (signed.1 ++ ds), signed.2.dropWhile Text.isAsciiDigit)
    else ([], c :: rest)
  | [] => ([], [])

/-- The digits before the point: a zero alone, or digits that do not start with zero. -/
def wholePart : Text → Text × Text
  | .char '0' :: rest => ("0", rest)
  | rest => (rest.takeWhile Text.isAsciiDigit, rest.dropWhile Text.isAsciiDigit)

/-- A number. With a fraction or an exponent it is a floating-point number, else a whole one. -/
def number (pos : Nat) (t : Text) : Scan Json :=
  let sign : Text := if t.head? = some (.char '-') then "-" else []
  let whole := wholePart (t.drop sign.length)
  if whole.1.isEmpty then fault .expectingValue pos
  else
    let fraction := fractionPart whole.2
    let exponent := exponentPart fraction.2
    let all := sign ++ whole.1 ++ fraction.1 ++ exponent.1
    let next := pos + all.length
    if fraction.1.isEmpty && exponent.1.isEmpty then
      match Numeral.whole 10 all with
      | .ok i => .ok (.int i, next, exponent.2)
      | .error _ => .error (.numberTooLong whole.1.length)
    else
      match Numeral.float all with
      | .ok x => .ok (.float x, next, exponent.2)
      | .error _ => fault .expectingValue pos

/-- The words that stand for values. -/
def words : List (Text × Json) :=
  [("null", .null), ("true", .bool true), ("false", .bool false), ("NaN", .float .nan),
   ("Infinity", .float (.infinite false)), ("-Infinity", .float (.infinite true))]

/-- A word or a number. -/
def wordOrNumber (pos : Nat) (t : Text) : Scan Json :=
  match words.find? fun w => w.1.isPrefixOf t with
  | some w => .ok (w.2, pos + w.1.length, t.drop w.1.length)
  | none => number pos t

mutual

/-- One value at the head of the text; lists and objects may be nested `depth` deep. The fuel bounds
the number of steps; two steps for each code point are enough. -/
def value (fuel depth pos : Nat) (t : Text) : Scan Json :=
  match fuel with
  | 0 => fault .expectingValue pos
  | fuel + 1 =>
    match t with
    | .char '"' :: rest =>
      match stringBody pos (pos + 1) rest with
      | .ok (s, p, r) => .ok (.str s, p, r)
      | .error e => .error e
    | .char '[' :: rest =>
      match depth with
      | 0 => .error .tooDeep
      | depth + 1 =>
        match skipSpace (pos + 1) rest with
        | (p, .char ']' :: r) => .ok (.list [], p + 1, r)
        | (p, r) => items fuel depth p r []
    | .char '\x7b' :: rest =>
      match depth with
      | 0 => .error .tooDeep
      | depth + 1 =>
        match skipSpace (pos + 1) rest with
        | (p, .char '\x7d' :: r) => .ok (.object [], p + 1, r)
        | (p, r) => fields fuel depth p r []
    | t => wordOrNumber pos t

/-- The items of a list from the first one not yet read; `done` holds those before it, the last one
first. -/
def items (fuel depth pos : Nat) (t : Text) (done : List Json) : Scan Json :=
  match fuel with
  | 0 => fault .expectingValue pos
  | fuel + 1 =>
    match value fuel depth pos t with
    | .error e => .error e
    | .ok (v, p, r) =>
      match skipSpace p r with
      | (q, .char ']' :: r') => .ok (.list (v :: done).reverse, q + 1, r')
      | (q, .char ',' :: r') =>
        match skipSpace (q + 1) r' with
        | (q', r'') => items fuel depth q' r'' (v :: done)
      | (q, _) => fault .expectingComma q

/-- The fields of an object from the first one not yet read; `done` holds those before it. -/
def fields (fuel depth pos : Nat) (t : Text) (done : List (Text × Json)) : Scan Json :=
  match fuel with
  | 0 => fault .expectingName pos
  | fuel + 1 =>
    match t with
    | .char '"' :: rest =>
      match stringBody pos (pos + 1) rest with
      | .error e => .error e
      | .ok (k, p, r) =>
        match skipSpace p r with
        | (q, .char ':' :: r') =>
          match skipSpace (q + 1) r' with
          | (q', r'') =>
            match value fuel depth q' r'' with
            | .error e => .error e
            | .ok (v, p', s) =>
              let all := setField done k v
              match skipSpace p' s with
              | (u, .char '\x7d' :: s') => .ok (.object all, u + 1, s')
              | (u, .char ',' :: s') =>
                match skipSpace (u + 1) s' with
                | (u', s'') => fields fuel depth u' s'' all
              | (u, _) => fault .expectingComma u
        | (q, _) => fault .expectingColon q
    | _ => fault .expectingName pos

end

/-- The value that a text spells, if it is nested at most `depth` deep. -/
def readWithin (depth : Nat) (t : Text) : Except ReadFault Json :=
  match skipSpace 0 t with
  | (p, r) =>
    match value (2 * t.length + 2) depth p r with
    | .error e => .error e
    | .ok (v, q, rest) =>
      match skipSpace q rest with
      | (_, []) => .ok v
      | (u, _) => .error (.malformed .extraData u)

/-- The value that a text spells. -/
def read (t : Text) : Except ReadFault Json := readWithin t.length t

end Formulary.Json
