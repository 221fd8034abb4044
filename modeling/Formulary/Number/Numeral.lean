import Formulary.Number.Binary64
import Formulary.Text.Digit
import Formulary.Text.Quoted

/-! # Numerals

Reading whole and floating-point numbers from text. Blanks around a numeral do not count, a digit
of any script has its value, and a whole number in a base that is no power of two has at most
`digitLimit` digits; the digits are counted before anything that follows them is looked at.
-/

namespace Formulary.Numeral

/-- The most digits of a decimal numeral, in reading and in writing. -/
def digitLimit : Nat := 4300

/-- So much of a text that is no whole number is shown. -/
def shownLimit : Nat := 200

/-- Why a text is no numeral. -/
inductive Fault where
  | notWhole (base : Nat) (text : Text)
  | notFloat (text : Text)
  | tooLong (digits : Nat)
deriving DecidableEq, Repr

def Fault.message : Fault → Text
  | .notWhole base text =>
    "invalid literal for int() with base " ++ Text.ofNat base ++ ": " ++
      (Text.quoted text).take shownLimit
  | .notFloat text => "could not convert string to float: " ++ Text.quoted text
  | .tooLong n =>
    "Exceeds the limit (4300 digits) for integer string conversion: value has " ++ Text.ofNat n ++
      " digits; use sys.set_int_max_str_digits() to increase the limit"

/-- The blanks that may stand around a numeral: of the ASCII ones not the separators. -/
def isAround (c : CodePoint) : Bool := Text.isBlank c && !('\x1c' ≤ c && c ≤ '\x1f')

/-- The value of a digit below `base`: a decimal digit of any script or an ASCII letter. -/
def digit? (base : Nat) (c : CodePoint) : Option Nat :=
  let v :=
    if 'a' ≤ c && c ≤ 'z' then some (c.toNat - 87)
    else if 'A' ≤ c && c ≤ 'Z' then some (c.toNat - 55)
    else Text.digitValue? c
  v.filter (· < base)

/-- The digits at the start of a text, as values, and the rest. -/
def spanDigits (base : Nat) (t : Text) : List Nat × Text :=
  let isDigit (c : CodePoint) : Bool := (digit? base c).isSome
  ((t.takeWhile isDigit).filterMap (digit? base), t.dropWhile isDigit)

/-- The number that digits spell. -/
def value (base : Nat) (ds : List Nat) : Nat := ds.foldl (fun n d => n * base + d) 0

/-- A sign in front of a numeral, and the rest. -/
def splitSign : Text → Bool × Text
  | .char '-' :: rest => (true, rest)
  | .char '+' :: rest => (false, rest)
  | t => (false, t)

/-- A number with a sign. -/
def signed (negative : Bool) (n : Nat) : Int := if negative then -n else n

/-- The mark of a base in front of the digits is allowed when it names that base. -/
def dropMark (base : Nat) : Text → Text
  | .char '0' :: .char m :: rest =>
    if (base = 16 && (m = 'x' || m = 'X')) || (base = 8 && (m = 'o' || m = 'O')) ||
        (base = 2 && (m = 'b' || m = 'B')) then rest
    else .char '0' :: .char m :: rest
  | t => t

/-- The whole number that a text spells in a base. -/
def whole (base : Nat) (t : Text) : Except Fault Int :=
  let (negative, body) := splitSign (Text.trimBy isAround t)
  let (ds, rest) := spanDigits base (dropMark base body)
  if base = 10 && digitLimit < ds.length then .error (.tooLong ds.length)
  else if ds.isEmpty || !rest.isEmpty then .error (.notWhole base t)
  else .ok (signed negative (value base ds))

/-- The power of ten that an exponent part adds; `none` if the text is no exponent part. -/
def exponent? : Text → Option Int
  | [] => some 0
  | c :: rest =>
    if c = 'e' || c = 'E' then
      let (negative, body) := splitSign rest
      match spanDigits 10 body with
      | ([], _) => none
      | (ds, []) => some (signed negative (value 10 ds))
      | _ => none
    else none

/-- The number of an unsigned decimal with an optional fraction and exponent. -/
def decimal? (negative : Bool) (t : Text) : Option Binary64 :=
  let whole := spanDigits 10 t
  let fraction :=
    match whole.2 with
    | .char '.' :: rest => spanDigits 10 rest
    | rest => ([], rest)
  let ds := whole.1 ++ fraction.1
  if ds.isEmpty then none
  else (exponent? fraction.2).map fun e =>
    Binary64.ofDecimal negative (value 10 ds) (e - (fraction.1.length : Int))

/-- The floating-point number that a text spells. -/
def float (t : Text) : Except Fault Binary64 :=
  let (negative, body) := splitSign (Text.trimBy isAround t)
  let word := body.map CodePoint.asciiLower
  if word == "inf" || word == "infinity" then .ok (.infinite negative)
  else if word == "nan" then .ok .nan
  else
    match decimal? negative body with
    | some x => .ok x
    | none => .error (.notFloat t)

/-- The decimal digits of a whole number; `none` beyond the limit. -/
def text? (i : Int) : Option Text :=
  if i.natAbs < Nat.pow 10 digitLimit then some (Text.ofInt i) else none

/-- The wording for a whole number that has no text. -/
def tooLongToWrite : Text :=
  "Exceeds the limit (4300 digits) for integer string conversion; " ++
    "use sys.set_int_max_str_digits() to increase the limit"

end Formulary.Numeral
