import Formulary.Text.Quoted

/-! # UTF-8

Decoding bytes as UTF-8. The first byte of a character fixes how many bytes follow and which values
the second one may have, so that no character has two spellings and no surrogate has one. A fault
covers the longest part that could still have become a character. A reader that lets surrogates pass
takes three bytes for each. In the other direction every text can be encoded unless it holds a
surrogate.
-/

namespace Formulary.Text.Utf8

/-- Why bytes are not a character. -/
inductive Reason where
  | invalidStart
  | invalidContinuation
  | unexpectedEnd
deriving DecidableEq, Repr

/-- The bytes at a fault: where they start, how many they are, and the first of them. -/
structure Fault where
  start : Nat
  size : Nat
  first : UInt8
  reason : Reason
deriving DecidableEq, Repr

def Reason.message : Reason → Text
  | .invalidStart => "invalid start byte"
  | .invalidContinuation => "invalid continuation byte"
  | .unexpectedEnd => "unexpected end of data"

/-- The wording of a fault; one byte is shown by value, several by their positions. -/
def Fault.message (f : Fault) : Text :=
  if f.size = 1 then
    "'utf-8' codec can't decode byte 0x" ++ hexDigits 2 f.first.toNat ++ " in position " ++
      ofNat f.start ++ ": " ++ f.reason.message
  else
    "'utf-8' codec can't decode bytes in position " ++ ofNat f.start ++ "-" ++
      ofNat (f.start + f.size - 1) ++ ": " ++ f.reason.message

/-- What the first byte of a character says: the bits that it gives, the least and greatest second
byte, and the number of bytes after the first. -/
structure Lead where
  bits : Nat
  low : UInt8
  high : UInt8
  more : Nat

/-- The lead that a byte above the ASCII range is; surrogates may be let pass. -/
def lead? (pass : Bool) (b : UInt8) : Option Lead :=
  if b < 0xC2 then none
  else if b < 0xE0 then some ⟨b.toNat - 0xC0, 0x80, 0xBF, 1⟩
  else if b < 0xF0 then
    some ⟨b.toNat - 0xE0, if b = 0xE0 then 0xA0 else 0x80,
      if b = 0xED && !pass then 0x9F else 0xBF, 2⟩
  else if b < 0xF5 then
    some ⟨b.toNat - 0xF0, if b = 0xF0 then 0x90 else 0x80, if b = 0xF4 then 0x8F else 0xBF, 3⟩
  else none

/-- A character that has been begun: its first byte, the bytes read of it, the bits so far, the
range of the next byte and the number of bytes to come. -/
structure Partial where
  first : UInt8
  seen : Nat
  bits : Nat
  low : UInt8
  high : UInt8
  more : Nat

/-- Decoding from byte position `pos` on; `open?` is the character that has been begun. -/
def decodeFrom (pass : Bool) (pos : Nat) (open? : Option Partial) :
    List UInt8 → Except Fault Text
  | [] =>
    match open? with
    | none => .ok []
    | some p => .error ⟨pos - p.seen, p.seen, p.first, .unexpectedEnd⟩
  | b :: rest =>
    match open? with
    | none =>
      if b < 0x80 then do
        let cs ← decodeFrom pass (pos + 1) none rest
        return .ofNat b.toNat :: cs
      else
        match lead? pass b with
        | none => .error ⟨pos, 1, b, .invalidStart⟩
        | some l => decodeFrom pass (pos + 1) (some ⟨b, 1, l.bits, l.low, l.high, l.more⟩) rest
    | some p =>
      if p.low ≤ b && b ≤ p.high then
        let bits := p.bits * 64 + (b.toNat - 0x80)
        if p.more = 1 then do
          let cs ← decodeFrom pass (pos + 1) none rest
          return .ofNat bits :: cs
        else
          decodeFrom pass (pos + 1)
            (some ⟨p.first, p.seen + 1, bits, 0x80, 0xBF, p.more - 1⟩) rest
      else .error ⟨pos - p.seen, p.seen, p.first, .invalidContinuation⟩

/-- The text that bytes spell. -/
def decode (bs : List UInt8) : Except Fault Text := decodeFrom false 0 none bs

/-- The text that bytes spell, surrogates included. -/
def decodePassing (bs : List UInt8) : Except Fault Text := decodeFrom true 0 none bs

/-- The bytes of a code point. -/
def bytesOf (c : CodePoint) : List UInt8 :=
  let n := c.toNat
  let tail (shift : Nat) : UInt8 := UInt8.ofNat (0x80 + n / Nat.pow 2 shift % 64)
  if n < 0x80 then [UInt8.ofNat n]
  else if n < 0x800 then [UInt8.ofNat (0xC0 + n / Nat.pow 2 6), tail 0]
  else if n < 0x10000 then [UInt8.ofNat (0xE0 + n / Nat.pow 2 12), tail 6, tail 0]
  else [UInt8.ofNat (0xF0 + n / Nat.pow 2 18), tail 12, tail 6, tail 0]

/-- The bytes that spell a text. -/
def encode (t : Text) : List UInt8 := t.flatMap bytesOf

/-- Surrogates that cannot be encoded: where they start and which they are. -/
structure SurrogateFault where
  start : Nat
  first : CodePoint
  size : Nat
deriving DecidableEq, Repr

/-- The first surrogate of a text that is at fault, with those that follow it. -/
def faultBy? (bad : CodePoint → Bool) (t : Text) : Option SurrogateFault :=
  let before := t.takeWhile fun c => !bad c
  match t.drop before.length with
  | [] => none
  | c :: rest => some ⟨before.length, c, 1 + (rest.takeWhile (·.isSurrogate)).length⟩

/-- The first run of surrogates of a text. -/
def surrogateFault? (t : Text) : Option SurrogateFault := faultBy? CodePoint.isSurrogate t

/-- Whether a code point stands for a byte of a path that is not UTF-8. -/
def isStrayByte (c : CodePoint) : Bool := 0xDC80 ≤ c.toNat && c.toNat ≤ 0xDCFF

/-- The first surrogates that a path must not hold. -/
def pathFault? (t : Text) : Option SurrogateFault :=
  faultBy? (fun c => c.isSurrogate && !isStrayByte c) t

/-- The wording of a fault; one surrogate is shown by its code, several by their positions. -/
def SurrogateFault.message (f : SurrogateFault) : Text :=
  if f.size = 1 then
    "'utf-8' codec can't encode character '" ++ escapeCode f.first.toNat ++ "' in position " ++
      ofNat f.start ++ ": surrogates not allowed"
  else
    "'utf-8' codec can't encode characters in position " ++ ofNat f.start ++ "-" ++
      ofNat (f.start + f.size - 1) ++ ": surrogates not allowed"

end Formulary.Text.Utf8

namespace Formulary.Text

/-- A text with every line end, whether one character or two, written as one line feed. -/
def unifyLineEnds : Text → Text
  | .char '\r' :: .char '\n' :: rest => .char '\n' :: unifyLineEnds rest
  | .char '\r' :: rest => .char '\n' :: unifyLineEnds rest
  | c :: rest => c :: unifyLineEnds rest
  | [] => []

end Formulary.Text
