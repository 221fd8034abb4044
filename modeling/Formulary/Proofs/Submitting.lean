import Formulary.Proofs.FormulaRequest

/-! # Checking and submitting one body

The two endpoints for formulas part only where the formula is known. So whatever stops a check stops
the submission of the same body in the same way, and whatever verdict a check gives is the one that
decides on the submission. There is one exception. A receipt echoes the whole formula and a verdict
does not, and each endpoint sends what it says in its own way; so where a text of the formula holds
a surrogate, the check may be answered and the submission not, or both fail and not alike.
-/

namespace Formulary.Service
set_option autoImplicit false

theorem Stops.status_ne {s s' : Service} {body : List UInt8} {o : Intent}
    (h : s.Stops body s' o) (depths : Depths) (d : Json) : o.sent depths ≠ .ok ⟨200, d⟩ := by
  intro heq
  have ha := Intent.sent_eq_ok heq
  cases h with
  | unreadable hb => cases ha
  | notJson hb => cases ha
  | uncatalogued hb h => cases h <;> cases ha
  | refused hb hk hc hr => cases ha
  | unknownOperator hb hk hc hq hu => cases ha

section Verdict

variable {c : Catalog} {f : Formula} {v : Verdict} {k : Configuration} {stamp : Stamp}

theorem submitted_sendable (hv : Decided c f v) (ha : v.isOk = true ∨ k.allowInvalid = true)
    (hid : Text.Sendable stamp.id) (ht : Text.Sendable stamp.time) (hf : f.Sendable) :
    Response.submitted k stamp c f = .ok ⟨200, receiptOf stamp f v.toJson⟩ := by
  have hs := (Receipt.sendable_toJson ⟨stamp, f, v⟩).mpr ⟨hid, ht, hf, hv.sendable hf⟩
  rw [Response.submitted_received hv ha]
  exact Response.document_ok hs

theorem submitted_not_sendable (hv : Decided c f v) (ha : v.isOk = true ∨ k.allowInvalid = true)
    (hf : ¬ f.Sendable) : ∃ x, Response.submitted k stamp c f = .error (.documentNotText x) := by
  rw [Response.submitted_received hv ha]
  apply Response.document_error
  intro hs
  exact hf ((Receipt.sendable_toJson _).mp hs).2.2.1

end Verdict

/-- A submission is answered as the check of the same body says, from every state. Where the check
gives a verdict, the submission is received with it or blocked by it, as the configuration in force
tells; where it gives none, the submission ends in the same way. Only a formula with a surrogate in
one of its texts makes a difference: its receipt cannot be sent, and a verdict that holds the
surrogate fails in another way than the check does. -/
theorem submission_follows_check (s : Service) (checking submitting : Request)
    (hcheck : checking.Posts .validate) (hsubmit : submitting.Posts .submit)
    (hbody : submitting.body = checking.body) (hid : Text.Sendable submitting.stamp.id)
    (htime : Text.Sendable submitting.stamp.time) :
    (s.answer submitting).1 = (s.answer checking).1 ∧
    (∀ d, (s.answer checking).2 = .ok ⟨200, d⟩ →
      ∃ k c f v, s.Reaches checking.body k c f ∧ Decided c f v ∧ d = v.toJson ∧
        (v.isOk = true ∨ k.allowInvalid = true →
          (f.Sendable → (s.answer submitting).2 = .ok ⟨200, receiptOf submitting.stamp f d⟩) ∧
          (¬ f.Sendable → ∃ x, (s.answer submitting).2 = .error (.documentNotText x))) ∧
        (¬ (v.isOk = true ∨ k.allowInvalid = true) →
          (s.answer submitting).2 = .ok ⟨422, .object [("detail", d)]⟩)) ∧
    ((∀ d, (s.answer checking).2 ≠ .ok ⟨200, d⟩) →
      (s.answer submitting).2 = (s.answer checking).2 ∨
      ∃ k c f v, s.Reaches checking.body k c f ∧ Decided c f v ∧ ¬ f.Sendable ∧
        (∃ x, (s.answer checking).2 = .error (.documentNotText x)) ∧
        (v.isOk = true ∨ k.allowInvalid = true →
          ∃ x, (s.answer submitting).2 = .error (.documentNotText x)) ∧
        (¬ (v.isOk = true ∨ k.allowInvalid = true) →
          ∃ x, (s.answer submitting).2 = .error (.detailNotText x))) := by
  rw [answer_posts hcheck, answer_posts hsubmit, hbody]
  rcases s.stops_or_reaches checking.body with ⟨s', o, hs, heq⟩ | ⟨k, c, f, hr⟩
  · rw [heq, heq]
    refine ⟨rfl, ?_, ?_⟩
    · intro d hd
      exact absurd hd (hs.status_ne _ d)
    · intro _
      exact .inl rfl
  · obtain ⟨v, hv⟩ := Checker.exists_decided c f
    have hvalid : checking.reply .validate k c f = Response.document v.toJson :=
      Response.validated_eq hv
    have hsub : submitting.reply .submit k c f = Response.submitted k submitting.stamp c f := rfl
    rw [hr.answerFormula, hr.answerFormula, hvalid, hsub]
    refine ⟨rfl, ?_, ?_⟩
    · intro d hd
      -- the check was answered, so its verdict can be sent
      have hsv : v.toJson.Sendable := by
        by_contra hn
        obtain ⟨x, hx⟩ := Response.document_error hn
        rw [hx] at hd
        cases hd
      rw [Response.document_ok hsv] at hd
      cases hd
      refine ⟨k, c, f, v, hr, hv, rfl, ?_, ?_⟩
      · intro ha
        exact ⟨submitted_sendable hv ha hid htime, submitted_not_sendable hv ha⟩
      · intro ha
        rw [Response.submitted_blocked hv ha]
        exact Response.detail_ok 422 hv.finite hsv
    · intro hnone
      have hsv : ¬ v.toJson.Sendable := fun hs => hnone _ (Response.document_ok hs)
      have hf : ¬ f.Sendable := fun hf => hsv (hv.sendable hf)
      refine .inr ⟨k, c, f, v, hr, hv, hf, Response.document_error hsv, ?_, ?_⟩
      · intro ha
        exact submitted_not_sendable hv ha hf
      · intro ha
        rw [Response.submitted_blocked hv ha]
        exact Response.detail_error 422 hv.finite hsv

/-- A service that receives what does not pass. -/
def lenient : Service := { initial .least with environment := ⟨some "yes", none⟩ }

/-- A formula that has only a right side, which is a surrogate. -/
def surrogateSide : List UInt8 := Text.Utf8.encode "\x7b\"right_side\":\"\\ud800\"\x7d"

theorem surrogateSide_checked_not_submitted :
    (Request.mk .post Endpoint.validate.path surrogateSide ⟨"", ""⟩).Posts .validate ∧
    (Request.mk .post Endpoint.submit.path surrogateSide ⟨"", ""⟩).Posts .submit ∧
    Text.Sendable "" ∧
    (lenient.answer ⟨.post, Endpoint.validate.path, surrogateSide, ⟨"", ""⟩⟩).2 =
      .ok ⟨200, (Verdict.rejected ⟨.missingField, "All fields are required.",
        [("missing", .list [.str "left_side", .str "operator"])]⟩).toJson⟩ ∧
    (lenient.answer ⟨.post, Endpoint.submit.path, surrogateSide, ⟨"", ""⟩⟩).2 =
      .error (.documentNotText ⟨0, .surrogate 0, 1⟩) ∧
    ∃ k c f, lenient.Reaches surrogateSide k c f ∧ ¬ f.Sendable := by
  have hc := Request.posts_path .validate rfl surrogateSide ⟨"", ""⟩
  have hs := Request.posts_path .submit rfl surrogateSide ⟨"", ""⟩
  have ht : Text.Sendable "" := Text.sendable_ofString ""
  obtain ⟨fields, hb, hq⟩ : ∃ fields,
      (Body.ofBytes lenient.site.toDepths surrogateSide).Holds (some (.object fields)) ∧
        Inquiry.Says fields ⟨none, none, some [.surrogate 0]⟩ :=
    Body.says_of_inquiry? (by decide +kernel)
  have hreach : lenient.Reaches surrogateSide ⟨true, none⟩ .builtIn
      ⟨none, none, some [.surrogate 0]⟩ :=
    .formula hb (.read rfl rfl (by decide +kernel)) (.loaded rfl rfl) hq (.noOperator (.inl rfl))
  have hchecked : (lenient.answer ⟨.post, Endpoint.validate.path, surrogateSide, ⟨"", ""⟩⟩).2 =
      .ok ⟨200, (Verdict.rejected ⟨.missingField, "All fields are required.",
        [("missing", .list [.str "left_side", .str "operator"])]⟩).toJson⟩ := by
    rw [answer_posts hc, hreach.answerFormula]
    rfl
  have hsubmitted : (lenient.answer ⟨.post, Endpoint.submit.path, surrogateSide, ⟨"", ""⟩⟩).2 =
      .error (.documentNotText ⟨0, .surrogate 0, 1⟩) := by
    rw [answer_posts hs, hreach.answerFormula]
    rfl
  obtain ⟨k, c, f, v, hr, -, -, hreceived, hblocked⟩ :=
    (submission_follows_check lenient _ _ hc hs rfl ht ht).2.1 _ hchecked
  refine ⟨hc, hs, ht, hchecked, hsubmitted, k, c, f, hr, ?_⟩
  intro hf
  by_cases ha : v.isOk = true ∨ k.allowInvalid = true
  · have h := (hreceived ha).1 hf
    rw [hsubmitted] at h
    cases h
  · have h := hblocked ha
    rw [hsubmitted] at h
    cases h

end Formulary.Service
