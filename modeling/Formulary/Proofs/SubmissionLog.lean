import Formulary.Configuration
import Formulary.Proofs.GuardList
import Formulary.Submission

/-! # Submissions and their log

A submission is received if its verdict or the configuration allows it, and blocked otherwise. What is
noted follows the same cases: the check notes the guard that rejects, if one does, and the submission
adds one entry, a warning if it is blocked and an information if it is received.
-/

namespace Formulary
set_option autoImplicit false

/-! ## The guard that rejects -/

namespace Checker

/-- A guard rejects a context, and those in front of it pass it. -/
structure RejectedBy (x : Context) (guards : List Guard) (g : Guard) (r : Rejection) : Prop where
  place : ∃ before after, guards = before ++ g :: after ∧ Passes x before
  rejects : g.check x = .ok (some r)

theorem RejectedBy.kind_eq {x : Context} {g : Guard} {r : Rejection}
    (h : RejectedBy x Guard.builtIn g r) : r.kind = g.kind := by
  obtain ⟨before, after, he, -⟩ := h.place
  have hm : g ∈ Guard.builtIn := by
    rw [he]
    simp
  exact Guard.kind_of_reject hm h.rejects

/-- What a check says, and what it notes. -/
inductive Noted (x : Context) (guards : List Guard) : Verdict → List LogEntry → Prop where
  | accepted (h : Passes x guards) : Noted x guards .accepted []
  | rejected {g : Guard} {r : Rejection} (h : RejectedBy x guards g r) :
    Noted x guards (.rejected r) [rejectionEntry g r]

theorem noted_of_run {x : Context} {guards : List Guard} {v : Verdict} {log : List LogEntry}
    (h : run guards x = .ok (v, log)) : Noted x guards v log := by
  rcases passes_or_split x guards with hp | ⟨before, g, after, rfl, hb, ⟨e, he⟩ | ⟨r, hr⟩⟩
  · rw [run_of_pass hp] at h
    cases h
    exact .accepted hp
  · rw [run_of_stop hb he] at h
    cases h
  · rw [run_of_reject hb hr] at h
    cases h
    exact .rejected ⟨⟨before, after, rfl, hb⟩, hr⟩

end Checker

/-! ## What becomes of a submission -/

namespace Submission
open Checker

/-- A field that is absent has a word of its own in the log. -/
def fieldText : Option Text → Text
  | none => "None"
  | some t => t

/-- The formula as it is noted, between the id of the submission and whether it was accepted. -/
def receivedText (stamp : Stamp) (f : Formula) (ok : Text) : Text :=
  "Formula submitted " ++ stamp.id ++ ": " ++
    Text.join " " [fieldText f.left?, fieldText (f.operator?.map (·.symbol)), fieldText f.right?] ++
    " (ok=" ++ ok ++ ")"

/-- The three ways in which a submission ends, each with its verdict and its log. -/
inductive Outcome (x : Context) (k : Configuration) (stamp : Stamp) :
    Verdict → SubmissionResult → List LogEntry → Prop where
  | accepted (h : Passes x Guard.builtIn) :
    Outcome x k stamp .accepted (.received ⟨stamp, x.formula, .accepted⟩)
      [⟨.info, "common.formula_engine.submission", receivedText stamp x.formula "True"⟩]
  | allowed {g : Guard} {r : Rejection} (h : RejectedBy x Guard.builtIn g r)
      (ha : k.allowInvalid = true) :
    Outcome x k stamp (.rejected r) (.received ⟨stamp, x.formula, .rejected r⟩)
      [⟨.debug, "common.formula_engine.checker",
        "Formula rejected by " ++ g.id ++ ": " ++ r.message⟩,
       ⟨.info, "common.formula_engine.submission", receivedText stamp x.formula "False"⟩]
  | blocked {g : Guard} {r : Rejection} (h : RejectedBy x Guard.builtIn g r)
      (ha : k.allowInvalid = false) :
    Outcome x k stamp (.rejected r) (.blocked r)
      [⟨.debug, "common.formula_engine.checker",
        "Formula rejected by " ++ g.id ++ ": " ++ r.message⟩,
       ⟨.warning, "common.formula_engine.submission",
        "Formula submission blocked (" ++ r.kind.name ++ "): " ++ r.message⟩]

theorem logged_eq (text? : Option Text) : logged text? = fieldText text? := by
  cases text? <;> rfl

theorem receivedEntry_eq (r : Receipt) : receivedEntry r =
    ⟨.info, "common.formula_engine.submission",
      receivedText r.stamp r.formula (if r.verdict.isOk then "True" else "False")⟩ := by
  obtain ⟨stamp, f, v⟩ := r
  simp only [receivedEntry, receivedText, logged_eq, Text.join, List.append_assoc]
  cases v <;> rfl

theorem submit_of_run {guards : List Guard} {x : Context} {v : Verdict} {log : List LogEntry}
    (h : run guards x = .ok (v, log)) (allowInvalid : Bool) (stamp : Stamp) :
    submit guards allowInvalid stamp x =
      .ok (settle allowInvalid stamp x.formula v,
        log ++ [entry (settle allowInvalid stamp x.formula v)]) := by
  rw [submit, h]
  rfl

/-- The entry of the submission comes behind what the check has noted. -/
theorem outcome_of_noted {x : Context} {v : Verdict} {log : List LogEntry}
    (h : Noted x Guard.builtIn v log) (k : Configuration) (stamp : Stamp) :
    Outcome x k stamp v (settle k.allowInvalid stamp x.formula v)
      (log ++ [entry (settle k.allowInvalid stamp x.formula v)]) := by
  cases h with
  | accepted h =>
    simp only [settle, entry, receivedEntry_eq]
    exact .accepted h
  | rejected h =>
    cases ha : k.allowInvalid with
    | true =>
      simp only [settle, if_true, entry, receivedEntry_eq]
      exact .allowed h ha
    | false =>
      simp only [settle, Bool.false_eq_true, if_false, entry]
      exact .blocked h ha

theorem exists_outcome (c : Catalog) (f : Formula) (k : Configuration) (stamp : Stamp) :
    ∃ v result log, checkFormula c f = .ok v ∧
      submit Guard.builtIn k.allowInvalid stamp ⟨f, c⟩ = .ok (result, log) ∧
      Outcome ⟨f, c⟩ k stamp v result log := by
  obtain ⟨v, hv⟩ := exists_decided c f
  have hcheck := checkFormula_of_decided hv
  obtain ⟨log, hrun⟩ := exists_run hcheck
  exact ⟨v, _, _, hcheck, submit_of_run hrun _ _, outcome_of_noted (noted_of_run hrun) k stamp⟩

namespace Outcome

variable {x : Context} {k : Configuration} {stamp : Stamp} {v : Verdict}
  {result : SubmissionResult} {log : List LogEntry} (h : Outcome x k stamp v result log)
include h

theorem received_iff :
    (∃ receipt, result = .received receipt) ↔ v.isOk = true ∨ k.allowInvalid = true := by
  cases h with
  | accepted h => simp [Verdict.isOk]
  | allowed h ha => simp [ha]
  | blocked h ha => simp [Verdict.isOk, ha]

theorem receipt_eq {receipt : Receipt} (hr : result = .received receipt) :
    receipt = ⟨stamp, x.formula, v⟩ := by
  cases h with
  | accepted h =>
    cases hr
    rfl
  | allowed h ha =>
    cases hr
    rfl
  | blocked h ha => cases hr

theorem verdict_of_blocked {r : Rejection} (hr : result = .blocked r) : v = .rejected r := by
  cases h with
  | accepted h => cases hr
  | allowed h ha => cases hr
  | blocked h ha =>
    cases hr
    rfl

theorem kind_of_rejected {r : Rejection} (hv : v = .rejected r) :
    ∃ g, RejectedBy x Guard.builtIn g r ∧ r.kind = g.kind := by
  cases h with
  | accepted h => cases hv
  | allowed h ha =>
    cases hv
    exact ⟨_, h, h.kind_eq⟩
  | blocked h ha =>
    cases hv
    exact ⟨_, h, h.kind_eq⟩

theorem not_warned_and_received :
    ¬ ∃ a ∈ log, ∃ b ∈ log, a.level = .warning ∧ b.level = .info := by
  cases h <;> simp

end Outcome

/-- Every submission ends, and in one of the three ways. It is received exactly if the verdict of the
check is acceptance or the configuration allows it, with the formula as it is and that verdict;
otherwise it is blocked with that verdict, which is of the kind of the guard that gave it. The log is
that of the way in which it ends and never holds both a warning and an information. -/
theorem submission_ends (c : Catalog) (f : Formula) (k : Configuration) (stamp : Stamp) :
    ∃ v result log, checkFormula c f = .ok v ∧
      submit Guard.builtIn k.allowInvalid stamp ⟨f, c⟩ = .ok (result, log) ∧
      Outcome ⟨f, c⟩ k stamp v result log ∧
      ((∃ receipt, result = .received receipt) ↔ v.isOk = true ∨ k.allowInvalid = true) ∧
      (∀ receipt, result = .received receipt → receipt = ⟨stamp, f, v⟩) ∧
      (∀ r, result = .blocked r → v = .rejected r) ∧
      (∀ r, v = .rejected r → ∃ g, RejectedBy ⟨f, c⟩ Guard.builtIn g r ∧ r.kind = g.kind) ∧
      ¬ ∃ a ∈ log, ∃ b ∈ log, a.level = .warning ∧ b.level = .info := by
  obtain ⟨v, result, log, hcheck, hsubmit, h⟩ := exists_outcome c f k stamp
  refine ⟨v, result, log, hcheck, hsubmit, h, h.received_iff, ?_, ?_, ?_, h.not_warned_and_received⟩
  · intro receipt hr
    exact h.receipt_eq hr
  · intro r hr
    exact h.verdict_of_blocked hr
  · intro r hv
    exact h.kind_of_rejected hv

end Submission

end Formulary
