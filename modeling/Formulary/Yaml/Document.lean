import Formulary.Yaml.Node
import Formulary.Yaml.Token.Lexer

/-! # Documents

A text holds at most one document. It may be set up by directives, which need a start mark after
them, and closed by end marks.
-/

namespace Formulary.Yaml

/-- Reads the directives in front of a document. -/
def readDirectives (version? : Option Nat) (handles : Handles) (fuel : Nat) (s : Reading) :
    Except Fault (Handles × Reading) :=
  match fuel with
  | 0 => s.refuse
  | fuel + 1 =>
    match s.word with
    | .directive (.version major _) =>
      if version?.isSome then s.fail .repeatedDirective
      else if major ≠ 1 then s.fail (.version major)
      else readDirectives (some major) handles fuel s.advance
    | .directive (.handle h expansion) =>
      if handles.any (·.1 == h) then s.fail .repeatedDirective
      else readDirectives version? ((h, expansion) :: handles) fuel s.advance
    | .directive (.other _) => readDirectives version? handles fuel s.advance
    | _ => .ok (handles, s)

/-- Whether a document is empty before a word. -/
def endsDocument : Word → Bool
  | .directive _ | .documentStart | .documentEnd | .streamEnd => true
  | _ => false

/-- Past the marks that end a document. -/
def skipEnds (s : Reading) : Reading :=
  { s with tokens := s.tokens.dropWhile (·.word = .documentEnd) }

/-- The end of the text after a document. Another document is refused once it has been set up. -/
def readEnd (fuel : Nat) (s : Reading) : Except Fault Unit := do
  let s := skipEnds s
  if s.word = .streamEnd then return ()
  else
    let (_, s) ← readDirectives none [] fuel s
    if s.word = .documentStart then s.fail .manyDocuments else s.refuse

/-- The nodes of a document and the number of its root. -/
structure Document where
  graph : Graph
  root : NodeId

/-- The one document of a text; `none` when there is none. -/
def readDocument (d : Depths) (ts : List Token) : Except Fault (Option Document) := do
  let s := Reading.start d ts
  let fuel := 4 * ts.length + 4
  match s.word with
  | .streamEnd => return none
  | .directive _ | .documentStart =>
    let (own, s) ← readDirectives none [] fuel s
    if s.word ≠ .documentStart then s.refuse
    else
      let s := s.advance
      let (n, s) ← (if endsDocument s.word then .ok s.addEmpty
        else readNode (own ++ defaultHandles) true false fuel s : Except Fault (NodeId × Reading))
      readEnd fuel s
      return some ⟨s.graph, n⟩
  | _ =>
    let (n, s) ← readNode defaultHandles true false fuel s
    readEnd fuel s
    return some ⟨s.graph, n⟩

/-- The document of a text. -/
def document (d : Depths) (text : Text) : Except Fault (Option Document) :=
  readDocument d (tokens text)

end Formulary.Yaml
