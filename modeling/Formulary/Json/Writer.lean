import Formulary.Json.Basic
import Formulary.Text.Digit

/-! # Writing JSON

Two layouts of one format: `pretty` puts each item and field on a line of its own, indented by two
spaces a level, and `compact` puts everything on one line without blanks. Only quotes, backslashes
and control characters are escaped.
-/

namespace Formulary.Json

/-- Numbers are positional from `10 ^ -4` up to `10 ^ 16`. -/
def numberStyle : DecimalStyle := ⟨-4, 16, "NaN", "Infinity"⟩

/-- One character of a string. -/
def escaped (c : CodePoint) : Text :=
  if c = '"' then ['\\', '"']
  else if c = '\\' then ['\\', '\\']
  else if c = '\n' then ['\\', 'n']
  else if c = '\r' then ['\\', 'r']
  else if c = '\t' then ['\\', 't']
  else if c = '\x0c' then ['\\', 'f']
  else if c = '\x08' then ['\\', 'b']
  else if c.toNat < 0x20 then "\\u" ++ Text.hexDigits 4 c.toNat
  else [c]

/-- A string between quotes. -/
def quotedString (s : Text) : Text := "\"" ++ s.flatMap escaped ++ "\""

/-- A value that has no parts. -/
def atom : Json → Text
  | .null => "null"
  | .bool true => "true"
  | .bool false => "false"
  | .int i => Text.ofInt i
  | .float x => numberStyle.text x
  | .str s => quotedString s
  | .list _ => "[]"
  | .object _ => "\x7b\x7d"

/-- A line end and the indentation of a level. -/
def lineBreak (level : Nat) : Text := .char '\n' :: List.replicate (2 * level) (.char ' ')

mutual

/-- The layout with one item or field on each line; `level` is the depth of the value. -/
def prettyAt (level : Nat) : Json → Text
  | .list (v :: rest) =>
    .char '[' :: (lineBreak (level + 1) ++ prettyAt (level + 1) v ++ prettyItems level rest)
  | .object ((k, v) :: rest) =>
    .char '\x7b' :: (lineBreak (level + 1) ++ quotedString k ++ ": " ++ prettyAt (level + 1) v ++
      prettyFields level rest)
  | v => atom v

/-- The items after the first, and the closing bracket. -/
def prettyItems (level : Nat) : List Json → Text
  | [] => lineBreak level ++ "]"
  | v :: rest =>
    .char ',' :: (lineBreak (level + 1) ++ prettyAt (level + 1) v ++ prettyItems level rest)

/-- The fields after the first, and the closing brace. -/
def prettyFields (level : Nat) : List (Text × Json) → Text
  | [] => lineBreak level ++ "\x7d"
  | (k, v) :: rest =>
    .char ',' :: (lineBreak (level + 1) ++ quotedString k ++ ": " ++ prettyAt (level + 1) v ++
      prettyFields level rest)

end

/-- The text of a value with one item or field on each line. -/
def pretty (v : Json) : Text := prettyAt 0 v

mutual

/-- The layout on one line. -/
def compact : Json → Text
  | .list (v :: rest) => .char '[' :: (compact v ++ compactItems rest)
  | .object ((k, v) :: rest) =>
    .char '\x7b' :: (quotedString k ++ ":" ++ compact v ++ compactFields rest)
  | v => atom v

def compactItems : List Json → Text
  | [] => "]"
  | v :: rest => .char ',' :: (compact v ++ compactItems rest)

def compactFields : List (Text × Json) → Text
  | [] => "\x7d"
  | (k, v) :: rest => .char ',' :: (quotedString k ++ ":" ++ compact v ++ compactFields rest)

end

end Formulary.Json
