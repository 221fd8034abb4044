import Formulary.Text.Basic

/-! # Decimal digits

Every script writes its ten decimal digits in one block of ten code points, zero first.
-/

namespace Formulary.Text

/-- The code points of the digit zero in every script (Unicode 14). -/
def zeros : List Nat :=
  [0x30, 0x660, 0x6F0, 0x7C0, 0x966, 0x9E6, 0xA66, 0xAE6, 0xB66, 0xBE6, 0xC66, 0xCE6, 0xD66,
   0xDE6, 0xE50, 0xED0, 0xF20, 0x1040, 0x1090, 0x17E0, 0x1810, 0x1946, 0x19D0, 0x1A80, 0x1A90,
   0x1B50, 0x1BB0, 0x1C40, 0x1C50, 0xA620, 0xA8D0, 0xA900, 0xA9D0, 0xA9F0, 0xAA50, 0xABF0,
   0xFF10, 0x104A0, 0x10D30, 0x11066, 0x110F0, 0x11136, 0x111D0, 0x112F0, 0x11450, 0x114D0,
   0x11650, 0x116C0, 0x11730, 0x118E0, 0x11950, 0x11C50, 0x11D50, 0x11DA0, 0x16A60, 0x16AC0,
   0x16B50, 0x1D7CE, 0x1D7D8, 0x1D7E2, 0x1D7EC, 0x1D7F6, 0x1E140, 0x1E2F0, 0x1E950, 0x1FBF0]

/-- The value of a decimal digit of any script. -/
def digitValue? (c : CodePoint) : Option Nat :=
  let n := c.toNat
  if n < 128 then (if 48 ≤ n && n < 58 then some (n - 48) else none)
  else (zeros.find? fun z => z ≤ n && n < z + 10).map (n - ·)

/-- Whether a code point is a decimal digit of any script. -/
def isDecimalDigit (c : CodePoint) : Bool := (digitValue? c).isSome

/-- Whether a code point is one of the ten ASCII digits. -/
def isAsciiDigit (c : CodePoint) : Bool := '0' ≤ c && c ≤ '9'

/-- The value of an ASCII hexadecimal digit. -/
def hexValue? (c : CodePoint) : Option Nat :=
  if '0' ≤ c && c ≤ '9' then some (c.toNat - 48)
  else if 'a' ≤ c && c ≤ 'f' then some (c.toNat - 87)
  else if 'A' ≤ c && c ≤ 'F' then some (c.toNat - 55)
  else none

/-- The number that hexadecimal digits spell; `none` if one of them is no such digit. -/
def hexNumber? (t : Text) : Option Nat :=
  t.foldl (fun acc c => acc.bind fun n => (hexValue? c).map (16 * n + ·)) (some 0)

/-- Digits filled with zeros on the left. -/
def padded (width : Nat) (digits : List Char) : Text :=
  ofChars (List.replicate (width - digits.length) '0' ++ digits)

/-- The lower-case hexadecimal digits of a number, filled with zeros on the left. -/
def hexDigits (width n : Nat) : Text := padded width (Nat.toDigits 16 n)

/-- The upper-case hexadecimal digits of a number, filled with zeros on the left. -/
def hexDigitsUpper (width n : Nat) : Text := padded width ((Nat.toDigits 16 n).map Char.toUpper)

/-- The decimal digits of a number, filled with zeros on the left. -/
def paddedDecimal (width n : Nat) : Text := padded width (Nat.toDigits 10 n)

end Formulary.Text
