import Formulary.Text.Basic

/-! # Paths

A path is a root and the names below it. Empty names and single dots are dropped; double dots stay.
Two slashes at the start are a root of their own, three or more are one.
-/

namespace Formulary

/-- Where a path starts. -/
inductive PathRoot where
  | relative
  | single
  | double
deriving DecidableEq, Repr

def PathRoot.text : PathRoot → Text
  | .relative => ""
  | .single => "/"
  | .double => "//"

structure Path where
  root : PathRoot
  parts : List Text
deriving DecidableEq, Repr

namespace Path

/-- The root of a text by the slashes it starts with. -/
def rootOf : Text → PathRoot
  | .char '/' :: .char '/' :: .char '/' :: _ => .single
  | .char '/' :: .char '/' :: _ => .double
  | .char '/' :: _ => .single
  | _ => .relative

/-- The pieces of a text between slashes; `piece` is the open one, backwards. -/
def pieces (piece : Text) : Text → List Text
  | [] => [piece.reverse]
  | c :: rest =>
    if c = '/' then piece.reverse :: pieces [] rest else pieces (c :: piece) rest

/-- The path of a text. -/
def ofText (t : Text) : Path := ⟨rootOf t, (pieces [] t).filter fun p => !p.isEmpty && p != "."⟩

/-- The shortest text of a path; the path of no names is a dot. -/
def text (p : Path) : Text :=
  match p.root, p.parts with
  | .relative, [] => "."
  | root, parts => root.text ++ Text.join "/" parts

end Path

end Formulary
