import Formulary.Text.Digit
import Formulary.Text.Printable

/-! # Quoted text

How a text is shown inside a message: between quotes, with every code point that does not print
written as an escape. The quote is single unless the text holds a single quote and no double one.
-/

namespace Formulary.Text

/-- The quote that surrounds a text. -/
def quoteFor (t : Text) : CodePoint :=
  if t.contains '\'' && !t.contains '"' then '"' else '\''

/-- The escape of a code point that does not print, by its size. -/
def escapeCode (n : Nat) : Text :=
  if n < 0x100 then "\\x" ++ hexDigits 2 n
  else if n < 0x10000 then "\\u" ++ hexDigits 4 n
  else "\\U" ++ hexDigits 8 n

/-- One code point between quotes `q`. -/
def quotedPoint (q c : CodePoint) : Text :=
  if c = q || c = '\\' then ['\\', c]
  else if c = '\n' then "\\n"
  else if c = '\r' then "\\r"
  else if c = '\t' then "\\t"
  else if isPrintable c then [c]
  else escapeCode c.toNat

/-- A text between quotes. -/
def quoted (t : Text) : Text :=
  let q := quoteFor t
  [q] ++ t.flatMap (quotedPoint q) ++ [q]

/-- Bytes between quotes after a `b`; only the printable ASCII bytes stand for themselves. -/
def quotedBytes (bs : List UInt8) : Text :=
  let t : Text := bs.map fun b => .char (Char.ofNat b.toNat)
  let q := quoteFor t
  let one (c : CodePoint) : Text := if c.toNat < 127 then quotedPoint q c else escapeCode c.toNat
  "b" ++ [q] ++ t.flatMap one ++ [q]

end Formulary.Text
