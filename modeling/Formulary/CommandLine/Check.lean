import Formulary.Checker
import Formulary.CommandLine.Output
import Formulary.Inquiry
import Formulary.Json.Writer

/-! # The command that checks one formula

The formula is given by three switches, the catalog by the name of a file or not at all. The verdict
goes to the output as one line or as JSON. The exit code is zero exactly for an accepted formula.
-/

namespace Formulary.CommandLine.Check

/-- How a verdict is written. -/
inductive Format where
  | text
  | json
deriving DecidableEq, Repr

/-- What the switches ask for. A side that is given without a value is at issue. -/
structure Options where
  inquiry : Inquiry
  issues : List Issue
  catalog? : Option Text
  format : Format
  verbose : Bool
deriving DecidableEq, Repr

def table : List Switch :=
  [⟨"--left", .value⟩, ⟨"--operator", .value⟩, ⟨"--right", .value⟩, ⟨"--catalog", .value⟩,
   ⟨"--format", .choice ["text", "json"]⟩, ⟨"--verbose", .nothing⟩]

/-- The issue of a field whose switch has no value. -/
def sideIssue? (xs : List Setting) (switch field : Text) : Option Issue :=
  if isBare xs switch then some ⟨[.field field], .notString⟩ else none

/-- The options that settings stand for. -/
def options (xs : List Setting) : Options where
  inquiry := ⟨valueOf? xs "--left", valueOf? xs "--operator", valueOf? xs "--right"⟩
  issues := [sideIssue? xs "--left" "left_side", sideIssue? xs "--right" "right_side"].filterMap id
  catalog? := catalogName? xs
  format := if valueOf? xs "--format" = some "json" then .json else .text
  verbose := isGiven xs "--verbose"

/-- A verdict in a format. -/
def render (format : Format) (v : Verdict) : Text :=
  match format with
  | .json => v.toJson.pretty
  | .text => v.line

def unknownOperator (c : Catalog) (e : UnknownOperator) : Text :=
  "Unknown operator " ++ Text.quoted e.symbol ++ "; expected one of: " ++
    Text.join ", " (c.operators.map (·.symbol))

/-- The log as the command shows it. -/
def logLines (entries : List LogEntry) : Text :=
  entries.flatMap fun e => Output.line (e.level.name ++ " " ++ e.source ++ ": " ++ e.message)

/-- What stops the command without an exit code. -/
inductive Escape where
  | load (f : LoadFault)
  | invalid (issues : List Issue)
  | absentOperator (e : AbsentOperator)
deriving DecidableEq, Repr

/-- Checks the formula of the options by a catalog. -/
def answer (o : Options) (c : Catalog) : Except Escape Output :=
  match o.inquiry.resolve c with
  | .error e => .ok (.failed (unknownOperator c e))
  | .ok f =>
    if !o.issues.isEmpty then .error (.invalid o.issues)
    else
      match Checker.run Guard.builtIn ⟨f, c⟩ with
      | .error e => .error (.absentOperator e)
      | .ok (v, log) =>
        .ok ⟨if v.isOk then 0 else 1, Output.line (render o.format v),
          if o.verbose then logLines log else ""⟩

/-- Runs the command on a host with its files. -/
def run (h : Yaml.Host) (files : Files) (words : List Text) : Except Escape Output :=
  match parse table words with
  | .error f => .ok (.refused f)
  | .ok .help => .ok (.help table)
  | .ok (.settings xs) =>
    let o := options xs
    withCatalog .load o.catalog? (fun name => Catalog.load h files name (Path.ofText name)) (answer o)

end Formulary.CommandLine.Check
