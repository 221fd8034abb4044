import Formulary.Yaml.Cursor

/-! # Quoted scalars

A quoted scalar may run over several lines: a single line break inside it is read as a space, and
of several breaks the first is dropped. Only double quotes know escapes; in single quotes a quote
is written twice.
-/

namespace Formulary.Yaml

/-- The letters of escapes and the characters that they stand for. -/
def letterEscapes : List (CodePoint × CodePoint) :=
  [('0', '\x00'), ('a', '\x07'), ('b', '\x08'), ('t', '\t'), ('\t', '\t'), ('n', '\n'),
   ('v', '\x0b'), ('f', '\x0c'), ('r', '\r'), ('e', '\x1b'), (' ', ' '), ('"', '"'),
   ('\\', '\\'), ('/', '/'), ('N', '\x85'), ('_', '\xa0'), ('L', '\u2028'),
   ('P', '\u2029')]

/-- The character of a one-letter escape. -/
def letterEscape? (c : CodePoint) : Option CodePoint := letterEscapes.lookup c

/-- The number of hexadecimal digits that an escape by code takes. -/
def codeEscape? (c : CodePoint) : Option Nat :=
  if c = 'x' then some 2 else if c = 'u' then some 4 else if c = 'U' then some 8 else none

/-- The code point of a code. -/
def codePoint (n : Nat) : Except Fault CodePoint :=
  match CodePoint.ofNat? n with
  | some c => .ok c
  | none => .error (.scalar (.codePoint n))

/-- The line breaks after the first one, with the blanks of the lines between them passed over.
The fuel bounds the number of lines. -/
def furtherBreaks : Nat → Cursor → Except Fault (Text × Cursor)
  | 0, c => .ok ([], c)
  | fuel + 1, c =>
    if c.atSeparator then c.fail .separatorInQuote
    else
      let c := c.skipWhile isSpaceOrTab
      match c.lineBreak? with
      | none => .ok ([], c)
      | some (b, c) => do
        let (bs, c) ← furtherBreaks fuel c
        return (b :: bs, c)

/-- Blanks inside a quoted scalar: kept within a line, folded around line breaks. -/
def quotedBlanks (c : Cursor) : Except Fault (Text × Cursor) :=
  let (blanks, c) := c.span isSpaceOrTab
  match c.lineBreak? with
  | none => .ok (blanks, c)
  | some (b, c) => do
    let (bs, c) ← furtherBreaks (c.rest.length + 1) c
    return ((if b ≠ '\n' then [b] else if bs.isEmpty then " " else []) ++ bs, c)

/-- An escape of a double-quoted scalar, from the character after the backslash. -/
def quotedEscape (c : Cursor) : Except Fault (Text × Cursor) :=
  let e := c.peek
  match letterEscape? e with
  | some ch => .ok ([ch], c.advance)
  | none =>
    match codeEscape? e with
    | some size =>
      let c := c.advance
      match Text.hexNumber? ((List.range size).map c.ahead) with
      | none => c.fail (.escape e)
      | some n => do
        let ch ← codePoint n
        return ([ch], c.skip size)
    | none =>
      match c.lineBreak? with
      | some (_, c) => furtherBreaks (c.rest.length + 1) c
      | none => c.fail (.escape e)

/-- The text of a quoted scalar up to its closing quote. The fuel bounds the number of parts. -/
def quotedBody (double : Bool) : Nat → Cursor → Except Fault (Text × Cursor)
  | 0, c => c.fail .unclosedQuote
  | fuel + 1, c =>
    let ch := c.peek
    let further (part : Text) (c : Cursor) : Except Fault (Text × Cursor) := do
      let (cs, c) ← quotedBody double fuel c
      return (part ++ cs, c)
    if ch = endMark then c.fail .unclosedQuote
    else if isGap ch then do
      let (part, c) ← quotedBlanks c
      further part c
    else if double then
      if ch = '"' then .ok ([], c.advance)
      else if ch = '\\' then do
        let (part, c) ← quotedEscape c.advance
        further part c
      else further [ch] c.advance
    else if ch = '\'' then
      if c.ahead 1 = '\'' then further [ch] (c.skip 2) else .ok ([], c.advance)
    else further [ch] c.advance

/-- A quoted scalar, from its opening quote on. -/
def quotedScalar (double : Bool) (c : Cursor) : Except Fault (Text × Cursor) :=
  quotedBody double (c.rest.length + 1) c.advance

end Formulary.Yaml
