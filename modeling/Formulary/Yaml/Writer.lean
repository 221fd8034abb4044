import Formulary.Json.Basic
import Formulary.Yaml.Cursor
import Formulary.Yaml.Tag

/-! # Writing YAML

Plain data in block style: one entry or item on a line, a list at the indentation of its key, empty
collections in brackets. A string is plain if it reads back as that string, else single-quoted if
single quotes can hold it, else double-quoted. A line that has passed `lineWidth` columns is folded
at the next single space.
-/

namespace Formulary.Yaml

/-- The column after which a scalar is folded. -/
def lineWidth : Nat := 80

/-- The line breaks that a scalar may hold; the carriage return is not one of them. -/
def isTextBreak (c : CodePoint) : Bool := c = '\n' || c = '\x85' || c = '\u2028' || c = '\u2029'

/-- The characters from the no-break space to the replacement character. A surrogate is none. -/
def isPlainPoint (c : CodePoint) : Bool := '\xa0' ≤ c && c ≤ '\uFFFD' && !c.isSurrogate

/-- Whether a code point can be written only as an escape. -/
def isSpecial (c : CodePoint) : Bool :=
  !(c = '\n' || (' ' ≤ c && c ≤ '~') || c = '\x85' || (isPlainPoint c && c ≠ byteOrderMark) ||
    (0x10000 ≤ c.toNat && c.toNat < 0x10FFFF))

/-- Whether one code point of a class stands right before one of another. -/
def hasAdjacent (p q : CodePoint → Bool) : Text → Bool
  | a :: b :: rest => (p a && q b) || hasAdjacent p q (b :: rest)
  | _ => false

/-- Whether the rest of a text holds a mark that ends a plain scalar: a colon before a gap or a
number sign after one. -/
def hasInnerMark : CodePoint → Text → Bool
  | _, [] => false
  | before, c :: rest =>
    (c = ':' && isGap (rest.headD endMark)) || (c = '#' && isGap before) || hasInnerMark c rest

/-- Whether a text starts with the mark of the start or the end of a document. -/
def startsWithMark (t : Text) : Bool :=
  List.isPrefixOf ("---" : Text) t || List.isPrefixOf ("..." : Text) t

/-- Whether the marks in a text keep it from being a plain scalar of a block. -/
def hasBlockMark (t : Text) : Bool :=
  match t with
  | [] => false
  | c :: rest =>
    let gapAfter := isGap (rest.headD endMark)
    startsWithMark t || isOneOf "#,[]\x7b\x7d&*!|>'\"%@`" c ||
      ((c = '?' || c = ':' || c = '-') && gapAfter) || hasInnerMark c rest

/-- How a string is written. -/
inductive Style where
  | plain
  | single
  | double
deriving DecidableEq, Repr

/-- Whether a text has a space next to a line break, in the order given. -/
def hasSpaceBeforeBreak (t : Text) : Bool := hasAdjacent (· = .char ' ') isTextBreak t
def hasBreakBeforeSpace (t : Text) : Bool := hasAdjacent isTextBreak (· = .char ' ') t

def allowsSingle (t : Text) : Bool :=
  !(hasBreakBeforeSpace t || hasSpaceBeforeBreak t || t.any isSpecial)

def allowsPlain (t : Text) : Bool :=
  !(t.head? = some (.char ' ') || t.getLast? = some (.char ' ') || t.any isTextBreak ||
    t.any isSpecial || hasBlockMark t)

/-- The style of a string; a key stands on one line. -/
def Style.of (isKey : Bool) (t : Text) : Style :=
  if Tag.ofPlain t = .str && allowsPlain t then .plain
  else if allowsSingle t && !(isKey && t.any isTextBreak) then .single
  else .double

def spaces (n : Nat) : Text := List.replicate n (.char ' ')

/-- A line break and the indentation of the next line. -/
def newLine (indent : Nat) : Text := .char '\n' :: spaces indent

/-- A plain scalar from a column on; `pending` spaces have not been written yet. -/
def plainText (fold : Bool) (indent : Nat) : Nat → Nat → Text → Text
  | _, pending, [] => spaces pending
  | column, pending, c :: rest =>
    if c = ' ' then plainText fold indent column (pending + 1) rest
    else if fold && pending = 1 && lineWidth < column then
      newLine indent ++ c :: plainText fold indent (indent + 1) 0 rest
    else spaces pending ++ c :: plainText fold indent (column + pending + 1) 0 rest

/-- The line breaks of a single-quoted scalar. A line feed in front is doubled, since one alone is
read as a space. -/
def breakRun (indent : Nat) (breaks : Text) : Text :=
  (if breaks.head? = some (.char '\n') then "\n" else "") ++ breaks ++ spaces indent

/-- A single-quoted scalar from a column on. `pending` spaces and `breaks` have not been written
yet; `inside` says that something stands before them. -/
def singleText (fold : Bool) (indent : Nat) : Nat → Bool → Nat → Text → Text → Text
  | _, _, pending, breaks, [] =>
    if breaks.isEmpty then spaces pending else breakRun indent breaks
  | column, inside, pending, breaks, c :: rest =>
    if c = ' ' then
      if breaks.isEmpty then singleText fold indent column inside (pending + 1) [] rest
      else breakRun indent breaks ++ singleText fold indent indent true 1 [] rest
    else if isTextBreak c then
      spaces pending ++
        singleText fold indent (column + pending) (inside || 0 < pending) 0 (breaks ++ [c]) rest
    else
      let before :=
        if !breaks.isEmpty then (breakRun indent breaks, indent)
        else if fold && inside && pending = 1 && lineWidth < column then (newLine indent, indent)
        else (spaces pending, column + pending)
      let here : Text := if c = '\'' then "''" else [c]
      before.1 ++ here ++ singleText fold indent (before.2 + here.length) true 0 [] rest

/-- The letters that escape characters. -/
def escapeLetters : List (CodePoint × CodePoint) :=
  [('\x00', '0'), ('\x07', 'a'), ('\x08', 'b'), ('\t', 't'), ('\n', 'n'), ('\x0b', 'v'),
   ('\x0c', 'f'), ('\r', 'r'), ('\x1b', 'e'), ('"', '"'), ('\\', '\\'), ('\x85', 'N'),
   ('\xa0', '_'), ('\u2028', 'L'), ('\u2029', 'P')]

/-- Whether double quotes hold a code point only as an escape. -/
def isEscaped (c : CodePoint) : Bool :=
  c = '"' || c = '\\' || c = '\x85' || c = '\u2028' || c = '\u2029' || c = byteOrderMark ||
    !((' ' ≤ c && c ≤ '~') || isPlainPoint c)

/-- The escape of a code point, by a letter or by its number. -/
def escapeText (c : CodePoint) : Text :=
  match escapeLetters.lookup c with
  | some l => [.char '\\', l]
  | none =>
    let n := c.toNat
    if n < 0x100 then "\\x" ++ Text.hexDigitsUpper 2 n
    else if n < 0x10000 then "\\u" ++ Text.hexDigitsUpper 4 n
    else "\\U" ++ Text.hexDigitsUpper 8 n

/-- A double-quoted scalar from a column on. `pending` characters have not been written yet and
`index` characters stand before the rest. A fold is a backslash at the end of the line; it comes
before a space or after an escape, and neither before the first nor before the last character. -/
def doubleText (fold : Bool) (indent : Nat) : Nat → Nat → Text → Text → Text
  | _, _, pending, [] => pending
  | index, column, pending, c :: rest =>
    let written := if isEscaped c then pending ++ escapeText c else []
    let column := column + written.length
    let pending := if isEscaped c then [] else pending
    let reach := if isEscaped c then column - 1 else column + pending.length
    if fold && 0 < index && !rest.isEmpty && (c = ' ' || pending.isEmpty) && lineWidth < reach then
      let following := if isEscaped c then rest.headD 'x' else c
      let guard : Text := if following = ' ' then "\\" else ""
      written ++ pending ++ .char '\\' :: (newLine indent ++ guard ++
        doubleText fold indent (index + 1) (indent + guard.length)
          (if isEscaped c then [] else [c]) rest)
    else
      written ++ doubleText fold indent (index + 1) column
        (if isEscaped c then [] else pending ++ [c]) rest

/-- A string from a column on; further lines are indented by `indent`. -/
def stringText (isKey : Bool) (indent column : Nat) (t : Text) : Text :=
  match Style.of isKey t with
  | .plain => plainText (!isKey) indent column 0 t
  | .single => "'" ++ singleText (!isKey) indent (column + 1) false 0 [] t ++ "'"
  | .double => "\"" ++ doubleText (!isKey) indent 0 (column + 1) [] t ++ "\""

/-- Numbers always show a point, since without one they would be read as text or whole numbers. -/
def floatStyle : DecimalStyle := ⟨-4, 16, ".nan", ".inf"⟩

def floatText (x : Binary64) : Text :=
  let t := floatStyle.text x
  if t.contains 'e' && !t.contains '.' then
    t.takeWhile (· ≠ .char 'e') ++ ".0" ++ t.dropWhile (· ≠ .char 'e')
  else t

/-- A value that has no parts, from a column on. -/
def atomText (indent column : Nat) : Json → Text
  | .null => "null"
  | .bool true => "true"
  | .bool false => "false"
  | .int i => Text.ofInt i
  | .float x => floatText x
  | .str t => stringText false indent column t
  | .list _ => "[]"
  | .object _ => "\x7b\x7d"

mutual

/-- The value of a key that starts at column `indent` and ends before `column`. -/
def entryText (indent column : Nat) : Json → Text
  | .list (v :: rest) => "\n" ++ itemsText indent (v :: rest)
  | .object (f :: rest) => newLine (indent + 2) ++ entriesText (indent + 2) (f :: rest)
  | v => " " ++ atomText (indent + 2) (column + 1) v ++ "\n"

/-- The items of a list whose dashes stand at a column, a line each. -/
def itemsText (indent : Nat) : List Json → Text
  | [] => []
  | v :: rest => spaces indent ++ "- " ++ itemText (indent + 2) v ++ itemsText indent rest

/-- An item that starts at a column. -/
def itemText (column : Nat) : Json → Text
  | .list (v :: rest) => "- " ++ itemText (column + 2) v ++ itemsText column rest
  | .object (f :: rest) => entriesText column (f :: rest)
  | v => atomText column column v ++ "\n"

/-- The entries of a mapping at a column; the first one starts where the text stands. -/
def entriesText (indent : Nat) : List (Text × Json) → Text
  | [] => []
  | (k, v) :: rest =>
    let key := stringText true indent indent k
    key ++ ":" ++ entryText indent (indent + key.length + 1) v ++
      (if rest.isEmpty then [] else spaces indent ++ entriesText indent rest)

end

/-- The text of a mapping with at least one entry. -/
def write (fields : List (Text × Json)) : Text := entriesText 0 fields

end Formulary.Yaml
