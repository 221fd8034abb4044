import Formulary.Text.Utf8
import Formulary.Yaml.Cursor
import Formulary.Yaml.Token

/-! # Directives, anchors and tags

The names that a text gives to its nodes, and the lines that set up a document.
-/

namespace Formulary.Yaml

/-- A run of name characters; there is at least one. -/
def markName (p : Problem) (c : Cursor) : Except Fault (Text × Cursor) :=
  let (cs, after) := c.span isNameChar
  if cs.isEmpty then c.fail p else .ok (cs, after)

/-- The name of an anchor or alias, from the character after its mark on. -/
def anchorName (c : Cursor) : Except Fault (Text × Cursor) := do
  let (name, c) ← markName .anchorName c
  if isGap c.peek || isOneOf "?:,]\x7d%@`" c.peek then return (name, c) else c.fail .anchorName

/-- Whether a character may stand in the address of a tag. -/
def isAddressChar (c : CodePoint) : Bool :=
  ('0' ≤ c && c ≤ '9') || ('A' ≤ c && c ≤ 'Z') || ('a' ≤ c && c ≤ 'z') ||
    isOneOf "-;/?:@&=+$,_.!~*'()[]%" c

/-- The bytes that percent escapes spell, from the characters of an address on. -/
def escapedBytes : Text → Option (List UInt8 × Text)
  | .char '%' :: a :: b :: rest =>
    match Text.hexNumber? [a, b], escapedBytes rest with
    | some n, some (bs, more) => some (UInt8.ofNat n :: bs, more)
    | _, _ => none
  | .char '%' :: _ => none
  | rest => some ([], rest)

/-- An address with its percent escapes read as UTF-8. The fuel bounds the number of parts. -/
def unescapeAddress : Nat → Text → Option (Text)
  | 0, _ => some []
  | fuel + 1, cs =>
    match cs with
    | [] => some []
    | .char '%' :: _ => do
      let (bs, rest) ← escapedBytes cs
      let part ← (Text.Utf8.decode bs).toOption
      let more ← unescapeAddress fuel rest
      return part ++ more
    | c :: rest => (unescapeAddress fuel rest).map (c :: ·)

/-- The address of a tag. -/
def tagAddress (p : Problem) (c : Cursor) : Except Fault (Text × Cursor) :=
  let (cs, after) := c.span isAddressChar
  match unescapeAddress (cs.length + 1) cs with
  | none => c.fail p
  | some text => if cs.isEmpty then c.fail p else .ok (text, after)

/-- The handle of a tag: a name between exclamation marks, or one mark before a space. -/
def tagHandle (p : Problem) (c : Cursor) : Except Fault (Text × Cursor) :=
  if c.peek ≠ '!' then c.fail p
  else if c.ahead 1 = ' ' then .ok ("!", c.advance)
  else
    let (name, after) := c.advance.span isNameChar
    if after.peek = '!' then .ok ("!" ++ name ++ "!", after.advance)
    else after.fail p

/-- A tag, from its exclamation mark on. -/
def tagWord (c : Cursor) : Except Fault (Word × Cursor) := do
  let next := c.ahead 1
  let (word, c) ← (
    if next = '<' then do
      let (address, c) ← tagAddress .tagName (c.skip 2)
      if c.peek = '>' then pure (Word.tag none address, c.advance) else c.fail .tagName
    else if isGap next then pure (Word.tag none "!", c.advance)
    else
      let run := (c.advance.rest).takeWhile fun ch => !(ch = .char ' ' || isBreakOrEnd ch)
      if run.contains '!' then do
        let (handle, c) ← tagHandle .tagName c
        let (suffix, c) ← tagAddress .tagName c
        pure (Word.tag (some handle) suffix, c)
      else do
        let (suffix, c) ← tagAddress .tagName c.advance
        pure (Word.tag (some "!") suffix, c) : Except Fault (Word × Cursor))
  if c.peek = ' ' || isBreakOrEnd c.peek then return (word, c) else c.fail .tagName

/-- A number of a version. -/
def versionNumber (c : Cursor) : Except Fault (Nat × Cursor) :=
  let (cs, after) := c.span Text.isAsciiDigit
  if cs.isEmpty then c.fail .directive
  else
    match Numeral.whole 10 cs with
    | .ok n => .ok (n.toNat, after)
    | .error f => .error (.scalar (.numeral f))

def endsDirectivePart (c : Cursor) : Bool := c.peek = ' ' || isBreakOrEnd c.peek

/-- A directive line, from the character after its percent sign to the next line. -/
def directiveLine (c : Cursor) : Except Fault (Directive × Cursor) := do
  let (name, c) ← markName .directive c
  if !endsDirectivePart c then c.fail .directive
  else
    let (d, c) ← (
      if name == "YAML" then do
        let (major, c) ← versionNumber (c.skipWhile (· = ' '))
        if c.peek ≠ '.' then c.fail .directive
        else
          let (minor, c) ← versionNumber c.advance
          if endsDirectivePart c then pure (Directive.version major minor, c)
          else c.fail .directive
      else if name == "TAG" then do
        let (handle, c) ← tagHandle .directive (c.skipWhile (· = ' '))
        if c.peek ≠ ' ' then c.fail .directive
        else
          let (expansion, c) ← tagAddress .directive (c.skipWhile (· = ' '))
          if endsDirectivePart c then pure (Directive.handle handle expansion, c)
          else c.fail .directive
      else pure (Directive.other name, c.skipWhile fun ch => !isBreakOrEnd ch) :
        Except Fault (Directive × Cursor))
    let c := c.skipComment
    match c.lineBreak? with
    | some (_, c) => return (d, c)
    | none => if c.peek = endMark then return (d, c) else c.fail .directive

end Formulary.Yaml
