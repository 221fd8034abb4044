import Formulary.Yaml.Cursor

/-! # Block scalars

A block scalar is a header line and the lines below it that are indented at least as far as the
first of them. The literal kind keeps its line breaks; the folded kind joins lines that start with
neither a space nor a tab. The header says what becomes of the breaks at the end.
-/

namespace Formulary.Yaml

/-- What becomes of the line breaks at the end of a block scalar: all dropped, one kept, or all. -/
inductive Chomping where
  | strip
  | clip
  | keep
deriving DecidableEq, Repr

def chomping? (c : CodePoint) : Option Chomping :=
  if c = '+' then some .keep else if c = '-' then some .strip else none

/-- The indentation that a header gives, if a digit from 1 to 9 stands at the cursor. -/
def headerIndent (c : Cursor) : Except Fault (Option Nat × Cursor) :=
  let d := c.peek
  if d = '0' then c.fail .blockHeader
  else if '1' ≤ d && d ≤ '9' then .ok (some (d.toNat - 48), c.advance)
  else .ok (none, c)

/-- The two marks of a header, in either order, and the rest of its line. -/
def blockHeader (c : Cursor) : Except Fault (Chomping × Option Nat × Cursor) := do
  let (chomping, indent?, c) ← (match chomping? c.peek with
    | some k => do
      let (i, c) ← headerIndent c.advance
      pure (k, i, c)
    | none => do
      let (i, c) ← headerIndent c
      match i, chomping? c.peek with
      | some n, some k => pure (k, some n, c.advance)
      | i, _ => pure (Chomping.clip, i, c) : Except Fault (Chomping × Option Nat × Cursor))
  if !(c.peek = ' ' || isBreakOrEnd c.peek) then c.fail .blockHeader
  else
    let c := c.skipComment
    match c.lineBreak? with
    | some (_, c) => return (chomping, indent?, c)
    | none => if c.peek = endMark then return (chomping, indent?, c) else c.fail .blockHeader

/-- The empty lines before the first line of text and the greatest indentation seen. The fuel
bounds the number of characters passed. -/
def leadingLines : Nat → Nat → Cursor → Text × Nat × Cursor
  | 0, greatest, c => ([], greatest, c)
  | fuel + 1, greatest, c =>
    if c.peek = ' ' then
      let c := c.advance
      leadingLines fuel (max greatest c.column) c
    else
      match c.lineBreak? with
      | none => ([], greatest, c)
      | some (b, c) =>
        let (bs, greatest, c) := leadingLines fuel greatest c
        (b :: bs, greatest, c)

/-- Past spaces up to a column. -/
def indentTo (indent : Nat) (c : Cursor) : Cursor :=
  c.skip (min (indent - c.column) (c.rest.takeWhile (· = .char ' ')).length)

/-- Empty lines inside the scalar. The fuel bounds their number. -/
def emptyLines (indent : Nat) : Nat → Cursor → Text × Cursor
  | 0, c => ([], c)
  | fuel + 1, c =>
    let c := indentTo indent c
    match c.lineBreak? with
    | none => ([], c)
    | some (b, c) =>
      let (bs, c) := emptyLines indent fuel c
      (b :: bs, c)

/-- The lines of text. `breaks` are the empty lines before the next line; the result is the text,
the last line break and the empty lines after it. The fuel bounds the number of lines. -/
def blockLines (folded : Bool) (indent : Nat) :
    Nat → Text → Option CodePoint → Cursor → Text × Option CodePoint × Text × Cursor
  | 0, breaks, last?, c => ([], last?, breaks, c)
  | fuel + 1, breaks, last?, c =>
    if c.column = indent && c.peek ≠ endMark then
      let flush := !isSpaceOrTab c.peek
      let (line, c) := c.span fun ch => !isBreakOrEnd ch
      let (last?, c) := (match c.lineBreak? with
        | some (b, c) => (some b, c)
        | none => (none, c) : Option CodePoint × Cursor)
      let (after, c) := emptyLines indent (c.rest.length + 1) c
      let joint : Text :=
        if c.column = indent && c.peek ≠ endMark then
          if folded && last? = some (.char '\n') && flush && !isSpaceOrTab c.peek then
            (if after.isEmpty then " " else [])
          else last?.toList
        else []
      let (text, last?, tail, c) := blockLines folded indent fuel after last? c
      (breaks ++ line ++ joint ++ text, last?, tail, c)
    else ([], last?, breaks, c)

/-- A block scalar, from the character after its mark on. The parent is indented by `parent`, which
is below zero at the top of a document. -/
def blockScalar (folded : Bool) (parent : Int) (c : Cursor) : Except Fault (Text × Cursor) := do
  let (chomping, indent?, c) ← blockHeader c
  let least := max 1 (parent + 1).toNat
  let (indent, breaks, c) := (match indent? with
    | some n =>
      let (bs, c) := emptyLines (least + n - 1) (c.rest.length + 1) c
      (least + n - 1, bs, c)
    | none =>
      let (bs, greatest, c) := leadingLines (c.rest.length + 1) 0 c
      (max least greatest, bs, c) : Nat × Text × Cursor)
  let (text, last?, tail, c) := blockLines folded indent (c.rest.length + 1) breaks none c
  let ending :=
    match chomping with
    | .strip => []
    | .clip => last?.toList
    | .keep => last?.toList ++ tail
  return (text ++ ending, c)

end Formulary.Yaml
