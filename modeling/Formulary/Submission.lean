import Formulary.Checker

/-! # Submitting a formula

A submitted formula is checked first. One that is accepted gets a receipt; one that is rejected gets
one only where invalid submissions are allowed, and is blocked otherwise. The stamp of a receipt is
given by the caller.
-/

namespace Formulary

/-- What makes a receipt unique. -/
structure Stamp where
  id : Text
  time : Text
deriving DecidableEq, Repr

structure Receipt where
  stamp : Stamp
  formula : Formula
  verdict : Verdict

/-- A receipt as plain data. -/
def Receipt.toJson (r : Receipt) : Json :=
  .object [("submission_id", .str r.stamp.id), ("submitted_at", .str r.stamp.time),
    ("formula", r.formula.toJson), ("verdict", r.verdict.toJson)]

/-- What becomes of a submission. -/
inductive SubmissionResult where
  | received (r : Receipt)
  | blocked (r : Rejection)

namespace Submission

def logSource : Text := "common.formula_engine.submission"

/-- The text of a value in a log entry; an absent one is `None`. -/
def logged (text? : Option Text) : Text := text?.getD "None"

def blockedEntry (r : Rejection) : LogEntry :=
  ⟨.warning, logSource, "Formula submission blocked (" ++ r.kind.name ++ "): " ++ r.message⟩

def receivedEntry (r : Receipt) : LogEntry :=
  ⟨.info, logSource,
    "Formula submitted " ++ r.stamp.id ++ ": " ++ logged r.formula.left? ++ " " ++
      logged (r.formula.operator?.map (·.symbol)) ++ " " ++ logged r.formula.right? ++
      " (ok=" ++ (if r.verdict.isOk then "True" else "False") ++ ")"⟩

/-- What becomes of a formula with its verdict. -/
def settle (allowInvalid : Bool) (stamp : Stamp) (f : Formula) (v : Verdict) : SubmissionResult :=
  match v with
  | .accepted => .received ⟨stamp, f, v⟩
  | .rejected r => if allowInvalid then .received ⟨stamp, f, v⟩ else .blocked r

def entry : SubmissionResult → LogEntry
  | .received r => receivedEntry r
  | .blocked r => blockedEntry r

/-- Checks and submits a formula; the log of the submission follows the log of the check. -/
def submit (guards : List Guard) (allowInvalid : Bool) (stamp : Stamp) (x : Context) :
    Except AbsentOperator (SubmissionResult × List LogEntry) :=
  (Checker.run guards x).map fun (v, log) =>
    let result := settle allowInvalid stamp x.formula v
    (result, log ++ [entry result])

end Submission

end Formulary
