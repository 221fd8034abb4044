import Formulary.Catalog.Source
import Formulary.CommandLine.Options

/-! # What a command leaves

A command ends with an exit code and its two outputs. A command line that is refused ends with two,
a command that cannot go on with one. Both commands can be told to load a catalog from a file.

The outputs are texts, which are complete when the command ends. What a stream does with a text that
it has no bytes for, such as a surrogate in UTF-8, is not part of the command.
-/

namespace Formulary.CommandLine

/-- The exit code and the two outputs of a command. -/
structure Output where
  code : Nat
  stdout : Text
  stderr : Text
deriving DecidableEq, Repr

namespace Output

/-- Text on a line of its own. -/
def line (s : Text) : Text := s ++ "\n"

/-- A command line that is refused. -/
def refused (f : Fault) : Output := ⟨2, "", line f.message⟩

/-- A command that ends early with a message. -/
def failed (message : Text) : Output := ⟨1, "", line message⟩

/-- The names of the switches, a line each. -/
def help (table : List Switch) : Output :=
  ⟨0, (helpLabel :: table.map (·.name)).flatMap fun name => line ("  " ++ name), ""⟩

end Output

/-- The message of a catalog that cannot be loaded. -/
def cannotLoad (name : Text) (f : LoadFault) : Text :=
  "Cannot load catalog " ++ name ++ ": " ++ f.message

/-- The name of the file that settings ask for; an empty name asks for none. -/
def catalogName? (xs : List Setting) : Option Text :=
  (valueOf? xs "--catalog").filter (!·.isEmpty)

/-- The output of a command that needs a catalog, which `load` loads by its name. Without a name it
is the built-in one. A fault that is not reported escapes. -/
def withCatalog {ε : Type} (escape : LoadFault → ε) (name? : Option Text)
    (load : Text → Except LoadFault Catalog) (next : Catalog → Except ε Output) :
    Except ε Output :=
  match name? with
  | none => next .builtIn
  | some name =>
    match load name with
    | .ok c => next c
    | .error f => if f.isReported then .ok (.failed (cannotLoad name f)) else .error (escape f)

end Formulary.CommandLine
