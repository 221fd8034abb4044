import Formulary.Text.Utf8

/-! # Encodings

A text that comes as bytes may be in UTF-8, or in UTF-16 or UTF-32 of either byte order. A mark in
front of it tells which. Without a mark the place of the zero bytes among the first four does, since
the first two characters are ASCII. A surrogate without its partner stays in the text.
-/

namespace Formulary.Text

/-- How bytes spell a text. -/
inductive Encoding where
  | utf8
  | utf16 (bigEndian : Bool)
  | utf32 (bigEndian : Bool)
deriving DecidableEq, Repr

namespace Encoding

/-- The marks that stand in front of a text; the longer of two that start alike is first. -/
def marks : List (List UInt8 × Encoding) :=
  [([0x00, 0x00, 0xFE, 0xFF], .utf32 true), ([0xFF, 0xFE, 0x00, 0x00], .utf32 false),
   ([0xFE, 0xFF], .utf16 true), ([0xFF, 0xFE], .utf16 false), ([0xEF, 0xBB, 0xBF], .utf8)]

/-- The encoding of bytes without a mark, whose first two characters are ASCII. -/
def ofZeros (bs : List UInt8) : Encoding :=
  match bs with
  | [a, b] => if a = 0 then .utf16 true else if b = 0 then .utf16 false else .utf8
  | a :: b :: c :: d :: _ =>
    if a = 0 then (if b = 0 then .utf32 true else .utf16 true)
    else if b = 0 then (if c = 0 && d = 0 then .utf32 false else .utf16 false)
    else .utf8
  | _ => .utf8

/-- The encoding of bytes, and the bytes behind their mark. -/
def detect (bs : List UInt8) : Encoding × List UInt8 :=
  match marks.find? fun m => m.1.isPrefixOf bs with
  | some m => (m.2, bs.drop m.1.length)
  | none => (ofZeros bs, bs)

/-- The number of two bytes. -/
def unit16 (bigEndian : Bool) (a b : UInt8) : Nat :=
  if bigEndian then a.toNat * 0x100 + b.toNat else b.toNat * 0x100 + a.toNat

/-- The numbers of bytes taken two by two; `none` if one is left over. -/
def units16 (bigEndian : Bool) : List UInt8 → Option (List Nat)
  | [] => some []
  | a :: b :: rest => (units16 bigEndian rest).map (unit16 bigEndian a b :: ·)
  | _ => none

/-- The numbers of bytes taken four by four; `none` if some are left over. -/
def units32 (bigEndian : Bool) : List UInt8 → Option (List Nat)
  | [] => some []
  | a :: b :: c :: d :: rest =>
    let first := unit16 bigEndian a b
    let second := unit16 bigEndian c d
    let n := if bigEndian then first * 0x10000 + second else second * 0x10000 + first
    (units32 bigEndian rest).map (n :: ·)
  | _ => none

def isHighHalf (n : Nat) : Bool := 0xD800 ≤ n && n < 0xDC00
def isLowHalf (n : Nat) : Bool := 0xDC00 ≤ n && n < 0xE000

/-- The code point of the two halves of a pair. -/
def ofHalves (high low : Nat) : Nat := 0x10000 + (high - 0xD800) * 0x400 + (low - 0xDC00)

/-- Joins the pairs of halves that stand side by side. -/
def joinHalves : List Nat → List Nat
  | a :: b :: rest =>
    if isHighHalf a && isLowHalf b then ofHalves a b :: joinHalves rest
    else a :: joinHalves (b :: rest)
  | rest => rest

/-- The text of bytes; `none` if they spell none. -/
def decode? (e : Encoding) (bs : List UInt8) : Option Text :=
  match e with
  | .utf8 => (Utf8.decodePassing bs).toOption
  | .utf16 bigEndian => (units16 bigEndian bs).bind fun ns => (joinHalves ns).mapM CodePoint.ofNat?
  | .utf32 bigEndian => (units32 bigEndian bs).bind (·.mapM CodePoint.ofNat?)

/-- The text of bytes in the encoding that they show; `none` if they spell none. -/
def read? (bs : List UInt8) : Option Text :=
  let (e, rest) := detect bs
  e.decode? rest

end Encoding

end Formulary.Text
