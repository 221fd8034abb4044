/-! # Text

A text is a sequence of code points. Nearly all of them are characters. A surrogate is none, but an
escape can spell one alone, so a text can hold what a `String` cannot. A property of characters is
given by a table: a list of closed ranges of code points in increasing order.
-/

namespace Formulary

/-- A code point: a character, or the surrogate `0xD800 + k`. -/
inductive CodePoint where
  | char (c : Char)
  | surrogate (k : Fin 0x800)
deriving DecidableEq, Repr

instance : Coe Char CodePoint := ⟨CodePoint.char⟩

namespace CodePoint

def toNat : CodePoint → Nat
  | .char c => c.toNat
  | .surrogate k => 0xD800 + k.val

/-- The code point of a number below `0x110000`. -/
def ofNat? (n : Nat) : Option CodePoint :=
  if h : 0xD800 ≤ n ∧ n < 0xE000 then some (.surrogate ⟨n - 0xD800, by omega⟩)
  else if n < 0x110000 then some (.char (Char.ofNat n))
  else none

/-- The code point of a number; a number beyond them is shown as the replacement character. -/
def ofNat (n : Nat) : CodePoint := (ofNat? n).getD (.char '\uFFFD')

instance : LE CodePoint := ⟨fun a b => a.toNat ≤ b.toNat⟩

instance (a b : CodePoint) : Decidable (a ≤ b) := inferInstanceAs (Decidable (a.toNat ≤ b.toNat))

def isSurrogate : CodePoint → Bool
  | .char _ => false
  | .surrogate _ => true

/-- The character of a code point; a surrogate is shown as the replacement character. -/
def shown : CodePoint → Char
  | .char c => c
  | .surrogate _ => '\uFFFD'

/-- ASCII letters in lower case, all else as it is. -/
def asciiLower : CodePoint → CodePoint
  | .char c => .char c.toLower
  | .surrogate k => .surrogate k

end CodePoint

/-- A sequence of code points. -/
abbrev Text := List CodePoint

namespace Text

def ofChars (cs : List Char) : Text := cs.map .char

def ofString (s : String) : Text := ofChars s.toList

instance : Coe String Text := ⟨ofString⟩

/-- A text as a string; a surrogate is shown as the replacement character. -/
def shown (t : Text) : String := String.ofList (t.map CodePoint.shown)

/-- The decimal digits of a natural number. -/
def ofNat (n : Nat) : Text := ofChars (Nat.toDigits 10 n)

/-- The decimal digits of a whole number after its sign. -/
def ofInt (i : Int) : Text := if i < 0 then .char '-' :: ofNat i.natAbs else ofNat i.natAbs

/-- Texts one after the other with a separator between them. -/
def join (separator : Text) : List Text → Text
  | [] => []
  | [t] => t
  | t :: rest => t ++ separator ++ join separator rest

/-- Whether one of the ranges of a table holds the code point. -/
def Ranges.has (table : List (Nat × Nat)) (n : Nat) : Bool :=
  table.any fun r => r.1 ≤ n && n ≤ r.2

/-! ## Blanks -/

/-- The code points that separate words: the ASCII blanks and separators, and the space, line and
paragraph separators of Unicode. A zero-width space is not among them. -/
def blankRanges : List (Nat × Nat) :=
  [(0x9, 0xD), (0x1C, 0x20), (0x85, 0x85), (0xA0, 0xA0), (0x1680, 0x1680), (0x2000, 0x200A),
   (0x2028, 0x2029), (0x202F, 0x202F), (0x205F, 0x205F), (0x3000, 0x3000)]

/-- Whether a code point is blank. -/
def isBlank (c : CodePoint) : Bool := Ranges.has blankRanges c.toNat

/-- A text without the code points of a class at its end. -/
def trimEndBy (p : CodePoint → Bool) (t : Text) : Text := (t.reverse.dropWhile p).reverse

/-- A text without the code points of a class at its two ends. -/
def trimBy (p : CodePoint → Bool) (t : Text) : Text := trimEndBy p (t.dropWhile p)

/-- A text without the blanks at its two ends. -/
def trim (t : Text) : Text := trimBy isBlank t

/-- A text without one line feed at its end. -/
def dropFinalBreak (t : Text) : Text := if t.getLast? = some (.char '\n') then t.dropLast else t

end Text

end Formulary
