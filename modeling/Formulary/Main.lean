import Formulary.CommandLine.Check
import Formulary.CommandLine.Listing

/-! # The program

`check` checks one formula and `catalog` prints a catalog; the words after it are the command's own.
-/

namespace Formulary.Program

/-- The program goes a thousand levels down, and gives all that is no number the same code. -/
def host : Yaml.Host := ⟨⟨fun _ => 1000, fun _ => by decide⟩, fun _ => 0⟩

/-- The reason that an error of the system gives. -/
def refusal : IO.Error → Refusal
  | .noFileOrDirectory .. => ⟨2, "No such file or directory"⟩
  | .permissionDenied .. => ⟨13, "Permission denied"⟩
  | .inappropriateType .. => ⟨21, "Is a directory"⟩
  | .invalidArgument .. => ⟨36, "File name too long"⟩
  | _ => ⟨5, "Input/output error"⟩

/-- What the system says of a path. -/
def contentOf (path : Text) : IO (Except Refusal (List UInt8)) := do
  try
    let bytes ← IO.FS.readBinFile path.shown
    return .ok bytes.toList
  catch e => return .error (refusal e)

/-- The file that a command line names. -/
def namedFile? (table : List CommandLine.Switch) (words : List Text) : Option Text :=
  match CommandLine.parse table words with
  | .ok (.settings xs) => CommandLine.catalogName? xs
  | _ => none

/-- The files that a command line asks for: the one that it names. -/
def filesFor (table : List CommandLine.Switch) (words : List Text) : IO Files := do
  match namedFile? table words with
  | none => return .none
  | some name => do
    let content ← contentOf (Path.ofText name).text
    return ⟨fun _ => content⟩

/-- Writes what a command leaves and gives its exit code. -/
def finish (out : CommandLine.Output) : IO UInt32 := do
  IO.print out.stdout.shown
  IO.eprint out.stderr.shown
  return out.code.toUInt32

/-- Reports what stopped a command. -/
def stopped (message : Text) : IO UInt32 := do
  IO.eprintln message.shown
  return 1

/-- Runs the command that checks one formula. -/
def check (words : List Text) : IO UInt32 := do
  let files ← filesFor CommandLine.Check.table words
  match CommandLine.Check.run host files words with
  | .ok out => finish out
  | .error (.load f) => stopped f.message
  | .error (.invalid issues) => stopped (Text.join "\n" (issues.map (·.cause.message)))
  | .error (.absentOperator e) => stopped e.message

/-- Runs the command that prints a catalog. -/
def listing (words : List Text) : IO UInt32 := do
  let files ← filesFor CommandLine.Listing.table words
  match CommandLine.Listing.run host files words with
  | .ok out => finish out
  | .error f => stopped f.message

end Formulary.Program

open Formulary Program in
/-- Runs the command that the first word names. -/
def main (words : List String) : IO UInt32 := do
  match words with
  | "check" :: rest => check (rest.map Text.ofString)
  | "catalog" :: rest => listing (rest.map Text.ofString)
  | _ =>
    IO.eprintln "usage: formulary check|catalog [options]"
    return 2
