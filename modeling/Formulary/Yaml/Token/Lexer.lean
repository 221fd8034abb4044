import Formulary.Yaml.Token.Block
import Formulary.Yaml.Token.Mark
import Formulary.Yaml.Token.Plain
import Formulary.Yaml.Token.Quoted

/-! # From text to tokens

Whether a scalar is a key shows only at the colon after it. Every token that may turn out to be a
key is remembered, one at each depth of brackets, and its `key` word is put in front of it when the
colon comes. A key stands on one line and is at most `keyLimit` characters long. Outside brackets
the column of a token opens and closes block collections. A token that may still be a key is not
settled, so a fault behind it takes its place.
-/

namespace Formulary.Yaml

/-- The greatest distance between the start of a key and its colon. -/
def keyLimit : Nat := 1024

/-- A token that may be a key: where it stands among the tokens and in the text. It is required to
be one when it starts a line of an open block mapping. -/
structure KeyCandidate where
  depth : Nat
  place : Nat
  required : Bool
  start : Cursor
deriving DecidableEq, Repr

/-- The tokens so far, newest first, with what decides the next one: the indentation of the open
block collections, the depth of brackets and the candidates. -/
structure Lexer where
  cursor : Cursor
  tokens : List Token
  indent : Int
  outer : List Int
  depth : Nat
  keyAllowed : Bool
  candidates : List KeyCandidate
deriving DecidableEq, Repr

namespace Lexer

def start (text : Text) : Lexer := ⟨Cursor.start text, [], -1, [], 0, true, []⟩

def inFlow (s : Lexer) : Bool := s.depth ≠ 0

/-- Adds a word at the cursor. -/
def put (s : Lexer) (w : Word) : Lexer := { s with tokens := ⟨w, s.cursor.spot⟩ :: s.tokens }

/-- Adds a word that takes `n` characters. -/
def putMark (s : Lexer) (w : Word) (n : Nat) : Lexer :=
  let s := s.put w
  { s with cursor := s.cursor.skip n }

/-- Adds a word before the token at a place. -/
def putAt (s : Lexer) (place : Nat) (w : Word) (spot : Spot) : Lexer :=
  let k := s.tokens.length - place
  { s with tokens := s.tokens.take k ++ ⟨w, spot⟩ :: s.tokens.drop k }

def candidate? (s : Lexer) : Option KeyCandidate := s.candidates.find? (·.depth = s.depth)

/-- Forgets the candidate of the present depth, which must not be a required key. -/
def dropCandidate (s : Lexer) : Except Fault Lexer :=
  match s.candidate? with
  | none => .ok s
  | some k =>
    if k.required then s.cursor.fail .keyWithoutValue
    else .ok { s with candidates := s.candidates.filter (·.depth ≠ s.depth) }

/-- Remembers that the next token may be a key. -/
def saveCandidate (s : Lexer) : Except Fault Lexer :=
  if s.keyAllowed then do
    let s ← s.dropCandidate
    let required := !s.inFlow && s.indent = (s.cursor.column : Int)
    return { s with candidates := ⟨s.depth, s.tokens.length, required, s.cursor⟩ :: s.candidates }
  else .ok s

/-- Whether a candidate is on an earlier line or too far back. -/
def isStale (s : Lexer) (k : KeyCandidate) : Bool :=
  k.start.line ≠ s.cursor.line || keyLimit < s.cursor.index - k.start.index

/-- Forgets the candidates that are stale. -/
def dropStale (s : Lexer) : Except Fault Lexer :=
  if s.candidates.any fun k => s.isStale k && k.required then s.cursor.fail .keyWithoutValue
  else .ok { s with candidates := s.candidates.filter fun k => !s.isStale k }

/-- The number of settled tokens: those before the first one that may still be a key. -/
def settled (s : Lexer) : Nat :=
  ((s.candidates.filter fun k => !s.isStale k).map (·.place)).foldl min s.tokens.length

/-- The settled tokens and a fault behind them, oldest first. -/
def breakOff (s : Lexer) (f : Fault) : List Token :=
  (⟨.broken f, s.cursor.spot⟩ :: s.tokens.drop (s.tokens.length - s.settled)).reverse

/-- Closes the block collections that are indented further than a column. -/
def closeBlocks (s : Lexer) (column : Int) : Lexer :=
  if s.inFlow then s
  else
    let deeper := (s.indent :: s.outer).takeWhile (column < ·)
    let kept := (s.indent :: s.outer).drop deeper.length
    let s := deeper.foldl (fun s _ => s.put .blockEnd) s
    { s with indent := kept.headD (-1), outer := kept.tail }

/-- Whether a column is inside the innermost block collection. -/
def opensBlock (s : Lexer) (column : Nat) : Bool := s.indent < (column : Int)

def openBlock (s : Lexer) (column : Nat) : Lexer :=
  { s with indent := column, outer := s.indent :: s.outer }

/-- Opens a block collection at the cursor if it is indented further than the open ones. -/
def openBlockHere (s : Lexer) (w : Word) : Lexer :=
  let column := s.cursor.column
  if s.opensBlock column then (s.put w).openBlock column else s

/-- Passes over blanks, comments and line breaks. Outside brackets a key may follow a line break.
The fuel bounds the number of lines. -/
def toNextToken : Nat → Lexer → Lexer
  | 0, s => s
  | fuel + 1, s =>
    let c := s.cursor.skipComment
    match c.lineBreak? with
    | none => { s with cursor := c }
    | some (_, c) =>
      toNextToken fuel { s with cursor := c, keyAllowed := s.keyAllowed || !s.inFlow }

/-- Ends all block collections before a line that belongs to no document. -/
def leaveDocument (s : Lexer) : Except Fault Lexer := do
  let s ← (s.closeBlocks (-1)).dropCandidate
  return { s with keyAllowed := false }

def endStream (s : Lexer) : Except Fault Lexer := do
  let s ← s.leaveDocument
  return { s.put .streamEnd with candidates := [] }

/-- The three characters between two documents. -/
def documentMark (s : Lexer) (w : Word) : Except Fault Lexer := do
  let s ← s.leaveDocument
  return s.putMark w 3

def openFlow (s : Lexer) (w : Word) : Except Fault Lexer := do
  let s ← s.saveCandidate
  return { s.putMark w 1 with depth := s.depth + 1, keyAllowed := true }

def closeFlow (s : Lexer) (w : Word) : Except Fault Lexer := do
  let s ← s.dropCandidate
  if s.inFlow then return { s.putMark w 1 with depth := s.depth - 1, keyAllowed := false }
  else s.cursor.fail (.unexpected w.describe)

def flowEntry (s : Lexer) : Except Fault Lexer := do
  let s ← s.dropCandidate
  return { s.putMark .flowEntry 1 with keyAllowed := true }

/-- A dash before a sequence entry, or a question mark before a key. -/
def blockMark (s : Lexer) (opener mark : Word) (refusal : Problem) (keyAllowed : Bool) :
    Except Fault Lexer :=
  if !s.inFlow && !s.keyAllowed then s.cursor.fail refusal
  else do
    let s := if s.inFlow then s else s.openBlockHere opener
    let s ← s.dropCandidate
    return { s.putMark mark 1 with keyAllowed := keyAllowed }

/-- A colon. The candidate of this depth becomes a key; without one the key is empty. -/
def valueMark (s : Lexer) : Except Fault Lexer :=
  match s.candidate? with
  | some k =>
    let s := { s with candidates := s.candidates.filter (·.depth ≠ s.depth) }
    let s := s.putAt k.place .key k.start.spot
    let s :=
      if !s.inFlow && s.opensBlock k.start.column then
        (s.putAt k.place .blockMappingStart k.start.spot).openBlock k.start.column
      else s
    .ok { s.putMark .value 1 with keyAllowed := false }
  | none => s.blockMark .blockMappingStart .value .valueNotAllowed (!s.inFlow)

/-- A word that may be a key, read by `scan` from the cursor on. -/
def keyWord (s : Lexer) (scan : Cursor → Except Fault (Word × Cursor)) : Except Fault Lexer := do
  let s ← s.saveCandidate
  let (w, c) ← scan s.cursor
  return { s.put w with cursor := c, keyAllowed := false }

def quoted (s : Lexer) (double : Bool) : Except Fault Lexer :=
  s.keyWord fun c => do
    let (cs, c) ← quotedScalar double c
    return (.scalar cs false, c)

def plain (s : Lexer) : Except Fault Lexer := do
  let s ← s.saveCandidate
  let (cs, ended, c) := plainScalar s.inFlow s.indent s.cursor
  return { s.put (.scalar cs true) with cursor := c, keyAllowed := ended }

def block (s : Lexer) (folded : Bool) : Except Fault Lexer := do
  let s ← s.dropCandidate
  let (cs, c) ← blockScalar folded s.indent s.cursor.advance
  return { s.put (.scalar cs false) with cursor := c, keyAllowed := true }

/-- Goes to the place of the next token, which can make candidates stale and close block collections.
The fuel bounds the number of lines before it. -/
def settle (fuel : Nat) (s : Lexer) : Except Fault Lexer := do
  let s ← (toNextToken fuel s).dropStale
  return s.closeBlocks s.cursor.column

/-- The token at the cursor, chosen by the characters there. -/
def token (s : Lexer) : Except Fault Lexer :=
  let c := s.cursor
  let ch := c.peek
  let gapAfter := isGap (c.ahead 1)
  let atHead := c.column = 0
  if ch = endMark then s.endStream
  else if ch = '%' && atHead then do
    let s ← s.leaveDocument
    let (d, c) ← directiveLine c.advance
    return { s.put (.directive d) with cursor := c }
  else if atHead && c.atMark "---" then s.documentMark .documentStart
  else if atHead && c.atMark "..." then s.documentMark .documentEnd
  else if ch = '[' then s.openFlow .flowSequenceStart
  else if ch = '\x7b' then s.openFlow .flowMappingStart
  else if ch = ']' then s.closeFlow .flowSequenceEnd
  else if ch = '\x7d' then s.closeFlow .flowMappingEnd
  else if ch = ',' then s.flowEntry
  else if ch = '-' && gapAfter then
    s.blockMark .blockSequenceStart .blockEntry .entryNotAllowed true
  else if ch = '?' && (s.inFlow || gapAfter) then
    s.blockMark .blockMappingStart .key .keyNotAllowed (!s.inFlow)
  else if ch = ':' && (s.inFlow || gapAfter) then s.valueMark
  else if ch = '*' then s.keyWord fun c => do
    let (name, c) ← anchorName c.advance
    return (.alias name, c)
  else if ch = '&' then s.keyWord fun c => do
    let (name, c) ← anchorName c.advance
    return (.anchor name, c)
  else if ch = '!' then s.keyWord tagWord
  else if ch = '|' && !s.inFlow then s.block false
  else if ch = '>' && !s.inFlow then s.block true
  else if ch = '\'' then s.quoted false
  else if ch = '"' then s.quoted true
  else if startsPlain s.inFlow ch (c.ahead 1) then s.plain
  else c.fail (.cannotStart ch)

def next (fuel : Nat) (s : Lexer) : Except Fault Lexer := do
  let s ← s.settle fuel
  s.token

/-- All tokens up to the end of the text or to the fault that ends it. Every token takes a character,
so that the length of the text bounds their number and what is left bounds the lines. -/
def run : Nat → Lexer → List Token
  | 0, s => s.tokens.reverse
  | fuel + 1, s =>
    match s.next fuel with
    | .error f => s.breakOff f
    | .ok s =>
      match s.tokens with
      | ⟨.streamEnd, _⟩ :: _ => s.tokens.reverse
      | _ => run fuel s

end Lexer

/-- The tokens of a text. A mark of byte order at its head is passed over. -/
def tokens (text : Text) : List Token :=
  match text.find? fun c => !isReadable c with
  | some c => [⟨.broken (.problem (.unprintable c) none), ⟨0, 0⟩⟩]
  | none =>
    let s := Lexer.start text
    let s := if s.cursor.peek = byteOrderMark then { s with cursor := s.cursor.advance } else s
    s.run (text.length + 2)

end Formulary.Yaml
