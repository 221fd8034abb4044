import Formulary.Guard

/-! # Checking a formula

The guards run in order and the first that rejects decides. What is noted on the way is a list of
log entries.
-/

namespace Formulary

/-- How much a log entry matters. -/
inductive LogLevel where
  | debug
  | info
  | warning
deriving DecidableEq, Repr

def LogLevel.name : LogLevel → Text
  | .debug => "DEBUG"
  | .info => "INFO"
  | .warning => "WARNING"

/-- A note with its level and the part of the program that makes it. -/
structure LogEntry where
  level : LogLevel
  source : Text
  message : Text
deriving DecidableEq, Repr

namespace Checker

def logSource : Text := "common.formula_engine.checker"

/-- The first guard that rejects, with its rejection. -/
def firstRejection (x : Context) :
    List Guard → Except AbsentOperator (Option (Guard × Rejection))
  | [] => .ok none
  | g :: rest =>
    match g.check x with
    | .error e => .error e
    | .ok (some r) => .ok (some (g, r))
    | .ok none => firstRejection x rest

/-- The note of a rejection. -/
def rejectionEntry (g : Guard) (r : Rejection) : LogEntry :=
  ⟨.debug, logSource, "Formula rejected by " ++ g.id ++ ": " ++ r.message⟩

/-- The verdict of guards in their order, with the log. -/
def run (guards : List Guard) (x : Context) : Except AbsentOperator (Verdict × List LogEntry) :=
  (firstRejection x guards).map fun found =>
    match found with
    | none => (.accepted, [])
    | some (g, r) => (.rejected r, [rejectionEntry g r])

/-- The verdict of guards in their order. -/
def check (guards : List Guard) (x : Context) : Except AbsentOperator Verdict :=
  (run guards x).map (·.1)

/-- The verdict of the built-in guards. -/
def checkFormula (c : Catalog) (f : Formula) : Except AbsentOperator Verdict :=
  check Guard.builtIn ⟨f, c⟩

end Checker

end Formulary
