import Formulary.Yaml.Fault

/-! # A place in the text

A cursor is the rest of the text with the number of characters, lines and columns before it. The
end of the text is seen as the character zero, which no readable text holds.
-/

namespace Formulary.Yaml

/-- What is seen at the end of the text. -/
def endMark : CodePoint := '\x00'

/-- The mark of byte order, which takes no column. -/
def byteOrderMark : CodePoint := '\uFEFF'

def isBreak (c : CodePoint) : Bool :=
  c = '\r' || c = '\n' || c = '\x85' || c = '\u2028' || c = '\u2029'

def isBreakOrEnd (c : CodePoint) : Bool := isBreak c || c = endMark

def isSpaceOrTab (c : CodePoint) : Bool := c = ' ' || c = '\t'

/-- Whether a character ends a word: a blank, a line break or the end. -/
def isGap (c : CodePoint) : Bool := isSpaceOrTab c || isBreakOrEnd c

/-- Whether a text may hold a character. -/
def isReadable (c : CodePoint) : Bool :=
  c = '\t' || c = '\n' || c = '\r' || (' ' ≤ c && c ≤ '~') || c = '\x85' ||
    ('\xa0' ≤ c && c ≤ '\uFFFD' && !c.isSurrogate) || 0x10000 ≤ c.toNat

def isOneOf (set : Text) (c : CodePoint) : Bool := set.contains c

/-- The characters of the names of anchors, handles and directives. -/
def isNameChar (c : CodePoint) : Bool :=
  ('0' ≤ c && c ≤ '9') || ('A' ≤ c && c ≤ 'Z') || ('a' ≤ c && c ≤ 'z') || c = '-' || c = '_'

/-- A place in the text. -/
structure Cursor where
  rest : Text
  index : Nat
  line : Nat
  column : Nat
deriving DecidableEq, Repr

namespace Cursor

def start (text : Text) : Cursor := ⟨text, 0, 0, 0⟩

def spot (c : Cursor) : Spot := ⟨c.line, c.column⟩

/-- The character `n` places ahead. -/
def ahead (c : Cursor) (n : Nat) : CodePoint := c.rest.getD n endMark

/-- The next character. -/
def peek (c : Cursor) : CodePoint := c.ahead 0

def fail {α : Type} (c : Cursor) (p : Problem) : Except Fault α := .error (.problem p (some c.spot))

/-- Past one character. A carriage return before a line feed does not end the line itself. -/
def advance (c : Cursor) : Cursor :=
  match c.rest with
  | [] => c
  | ch :: rest =>
    if isBreak ch && !(ch = '\r' && rest.head? = some (.char '\n')) then
      ⟨rest, c.index + 1, c.line + 1, 0⟩
    else if ch = byteOrderMark then ⟨rest, c.index + 1, c.line, c.column⟩
    else ⟨rest, c.index + 1, c.line, c.column + 1⟩

/-- Past `n` characters. -/
def skip : Nat → Cursor → Cursor
  | 0, c => c
  | n + 1, c => skip n c.advance

/-- The code points of a class at the cursor, and the place after them. -/
def span (c : Cursor) (p : CodePoint → Bool) : Text × Cursor :=
  let cs := c.rest.takeWhile p
  (cs, skip cs.length c)

/-- Past the characters of a class. -/
def skipWhile (c : Cursor) (p : CodePoint → Bool) : Cursor := (c.span p).2

/-- A line break at the cursor. The breaks of ASCII and the next-line character are read as a line
feed, the two separators of Unicode as themselves. -/
def lineBreak? (c : Cursor) : Option (CodePoint × Cursor) :=
  let ch := c.peek
  if ch = '\r' && c.ahead 1 = '\n' then some ('\n', skip 2 c)
  else if ch = '\r' || ch = '\n' || ch = '\x85' then some ('\n', c.advance)
  else if ch = '\u2028' || ch = '\u2029' then some (ch, c.advance)
  else none

/-- Whether a text stands at the cursor, followed by a gap. -/
def atMark (c : Cursor) (mark : Text) : Bool :=
  mark.isPrefixOf c.rest && isGap (c.ahead mark.length)

/-- Whether a document starts or ends at the cursor, which stands at the head of a line. -/
def atSeparator (c : Cursor) : Bool := c.atMark "---" || c.atMark "..."

/-- Past the rest of a line that may hold blanks and a comment only. -/
def skipComment (c : Cursor) : Cursor :=
  let c := c.skipWhile (· = ' ')
  if c.peek = '#' then c.skipWhile fun ch => !isBreakOrEnd ch else c

end Cursor

end Formulary.Yaml
