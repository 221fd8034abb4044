import Formulary.Yaml.Cursor

/-! # Plain scalars

A plain scalar ends at a comment, at a colon before a gap, at less indentation than its parent asks
for, and inside brackets at the marks that structure them.
-/

namespace Formulary.Yaml

/-- Whether a plain scalar may start with a character, by the one that follows. -/
def startsPlain (inFlow : Bool) (c next : CodePoint) : Bool :=
  !(isGap c || isOneOf "-?:,[]\x7b\x7d#&*!|>'\"%@`" c) ||
    (!isGap next && (c = '-' || (!inFlow && (c = '?' || c = ':'))))

/-- Whether a plain scalar ends before a character, by the one that follows. -/
def endsPlain (inFlow : Bool) (c next : CodePoint) : Bool :=
  isGap c || (c = ':' && (isGap next || (inFlow && isOneOf ",[]\x7b\x7d" next))) ||
    (inFlow && isOneOf ",?[]\x7b\x7d" c)

/-- The characters up to the next gap or end of the scalar. -/
def plainWord (inFlow : Bool) : Text → Text
  | [] => []
  | c :: rest =>
    if endsPlain inFlow c (rest.headD endMark) then [] else c :: plainWord inFlow rest

/-- The line breaks after the first, with the spaces of the lines between them passed over; `none`
where a document starts or ends. The fuel bounds the number of characters passed. -/
def plainBreaks : Nat → Cursor → Option (Text) × Cursor
  | 0, c => (some [], c)
  | fuel + 1, c =>
    if c.peek = ' ' then plainBreaks fuel c.advance
    else
      match c.lineBreak? with
      | none => (some [], c)
      | some (b, c) =>
        if c.atSeparator then (none, c)
        else
          let (bs?, c) := plainBreaks fuel c
          (bs?.map (b :: ·), c)

/-- The blanks after a word: what they mean inside the scalar, whether a line ended, and the place
after them. Nothing means that the scalar ends here. -/
def plainBlanks (c : Cursor) : Text × Bool × Cursor :=
  let (spaces, c) := c.span (· = ' ')
  match c.lineBreak? with
  | none => (spaces, false, c)
  | some (b, c) =>
    if c.atSeparator then ([], true, c)
    else
      match plainBreaks (c.rest.length + 1) c with
      | (none, c) => ([], true, c)
      | (some bs, c) =>
        ((if b ≠ '\n' then [b] else if bs.isEmpty then " " else []) ++ bs, true, c)

/-- The words of a plain scalar. `blanks` stand before the next word; the result says whether the
last blanks ended a line. The fuel bounds the number of words. -/
def plainWords (inFlow : Bool) (indent : Int) :
    Nat → Text → Bool → Cursor → Text × Bool × Cursor
  | 0, _, ended, c => ([], ended, c)
  | fuel + 1, blanks, ended, c =>
    let word := if c.peek = '#' then [] else plainWord inFlow c.rest
    if word.isEmpty then ([], ended, c)
    else
      let (further, ended, c) := plainBlanks (c.skip word.length)
      if further.isEmpty || c.peek = '#' || (!inFlow && (c.column : Int) ≤ indent) then
        (blanks ++ word, ended, c)
      else
        let (text, ended, c) := plainWords inFlow indent fuel further ended c
        (blanks ++ word ++ text, ended, c)

/-- A plain scalar in a block that is indented by `indent`, whether a line ended after it, and the
place after it. -/
def plainScalar (inFlow : Bool) (indent : Int) (c : Cursor) : Text × Bool × Cursor :=
  plainWords inFlow indent (c.rest.length + 1) [] false c

end Formulary.Yaml
