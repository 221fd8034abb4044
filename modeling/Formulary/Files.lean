import Formulary.Path
import Formulary.Text.Quoted
import Formulary.Text.Utf8

/-! # Files

What stands under a path, or why nothing can be read there, is for the system to say. Only whether a
path can be asked for at all is settled here: it is handed over in UTF-8 and ends at a null
character. So it must hold no null character and no surrogate, except for those that stand for a
byte which is not UTF-8.
-/

namespace Formulary

/-- Why the system refuses a path: the number of the reason and its wording. -/
structure Refusal where
  number : Nat
  reason : Text
deriving DecidableEq, Repr

/-- The files of a system: the content of each path, or the reason why it cannot be read. -/
structure Files where
  content : Text → Except Refusal (List UInt8)

/-- Why a file cannot be read. -/
inductive FileFault where
  | refused (r : Refusal) (path : Text)
  | embeddedNul
  | notText (f : Text.Utf8.SurrogateFault)
deriving DecidableEq, Repr

/-- A text with a null character can be handed to nothing outside. -/
def embeddedNulMessage : Text := "embedded null byte"

def FileFault.message : FileFault → Text
  | .refused r path =>
    "[Errno " ++ Text.ofNat r.number ++ "] " ++ r.reason ++ ": " ++ Text.quoted path
  | .embeddedNul => embeddedNulMessage
  | .notText f => f.message

namespace Files

/-- No path leads to a file. -/
def none : Files := ⟨fun _ => .error ⟨2, "No such file or directory"⟩⟩

/-- Why a path cannot be asked for. -/
def fault? (path : Text) : Option FileFault :=
  match Text.Utf8.pathFault? path with
  | some f => some (.notText f)
  | .none => if path.contains '\x00' then some .embeddedNul else .none

/-- The content of the file at a path. -/
def read (files : Files) (p : Path) : Except FileFault (List UInt8) :=
  match fault? p.text with
  | some f => .error f
  | .none => (files.content p.text).mapError (.refused · p.text)

end Files

end Formulary
