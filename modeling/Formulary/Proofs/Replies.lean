import Formulary.Proofs.Decision
import Formulary.Proofs.Sending

/-! # What a request is answered with

The responses of the service, with what has to be true of them so that they can be sent. A verdict
holds no number, and a surrogate only if a side or the symbol of its formula does. A receipt holds the
whole formula, so that it may be beyond what can be sent where its verdict is not.
-/

namespace Formulary
set_option autoImplicit false

/-! ## Responses -/

/-- What a request is to be answered with. The texts of a settled response are all the program's own;
the items of an echo hold parts of the body of the request. -/
inductive Intent where
  | settled (x : Response)
  | detail (status : Nat) (d : Json)
  | echo (items : List Json)
  | document (d : Json)
  | escape (x : Escape)

namespace Intent

/-- The answer, if it can be sent. -/
def answer : Intent → Except Escape Response
  | .settled x => .ok x
  | .detail status d => .ok ⟨status, .object [("detail", d)]⟩
  | .echo items => .ok ⟨422, .object [("detail", .list items)]⟩
  | .document d => .ok ⟨200, d⟩
  | .escape x => .error x

/-- The answer can be sent: no text holds a surrogate, the numbers of a detail are finite, and what is
echoed is not nested too deep. -/
def Sendable (depths : Depths) : Intent → Prop
  | .detail _ d => d.allFinite = true ∧ d.Sendable
  | .echo items => (Json.list items).depth ≤ depths.room .echoing ∧
      (Json.list items).allFinite = true ∧ (Json.list items).Sendable
  | .document d => d.Sendable
  | _ => True

/-- What comes of sending the answer. -/
def sent (depths : Depths) : Intent → Except Escape Response
  | .settled x => .ok x
  | .detail status d => Response.detail status d
  | .echo items =>
    if depths.room .echoing < (Json.list items).depth then .error (.tooDeep .echoing)
    else Response.detail 422 (.list items)
  | .document d => Response.document d
  | .escape x => .error x

theorem sent_eq {depths : Depths} {o : Intent} (h : o.Sendable depths) :
    o.sent depths = o.answer := by
  cases o with
  | settled x => rfl
  | detail status d => exact Response.detail_ok status h.1 h.2
  | echo items =>
    rw [sent, if_neg (Nat.not_lt.mpr h.1)]
    exact Response.detail_ok 422 h.2.1 h.2.2
  | document d => exact Response.document_ok h
  | escape x => rfl

/-- What is sent is the answer. -/
theorem sent_eq_ok {depths : Depths} {o : Intent} {x : Response} (h : o.sent depths = .ok x) :
    o.answer = .ok x := by
  cases o with
  | settled y => exact h
  | detail status d => rw [Response.detail_eq_ok status h, answer]
  | echo items =>
    rw [sent] at h
    split at h
    · cases h
    · rw [Response.detail_eq_ok 422 h, answer]
  | document d => rw [Response.document_eq_ok h, answer]
  | escape y => cases h

end Intent

namespace Response

/-- The detail of a body that is no JSON text. -/
def notJsonDetail (t : Json.Trouble) (position : Nat) : Json :=
  .list [.object [("type", .str "json_invalid"), ("loc", .list [.str "body", .int position]),
    ("msg", .str "JSON decode error"), ("input", .object []),
    ("ctx", .object [("error", .str t.message)])]]

theorem sendable_notJsonDetail (t : Json.Trouble) (position : Nat) :
    (notJsonDetail t position).Sendable := by
  have ht : Text.Sendable t.message := by cases t <;> exact Text.sendable_ofString _
  simp [notJsonDetail, ht]

theorem notJson_eq (t : Json.Trouble) (position : Nat) :
    notJson t position = .ok ⟨422, .object [("detail", notJsonDetail t position)]⟩ :=
  detail_ok 422 rfl (sendable_notJsonDetail t position)

theorem unreadableBody_eq :
    unreadableBody = .ok ⟨400, .object [("detail", .str "There was an error parsing the body")]⟩ :=
  detail_ok 400 rfl (by simp)

end Response

/-! ## Verdicts -/

@[simp]
theorem OperandType.sendable_name (t : OperandType) : Text.Sendable t.name := by
  cases t <;> exact Text.sendable_ofString _

@[simp]
theorem RejectionKind.sendable_name (k : RejectionKind) : Text.Sendable k.name := by
  cases k <;> exact Text.sendable_ofString _

@[simp]
theorem Field.sendable_name (x : Field) : Text.Sendable x.name := by
  cases x <;> exact Text.sendable_ofString _

/-- No text of a formula holds a surrogate. -/
structure Formula.Sendable (f : Formula) : Prop where
  left : ∀ t, f.left? = some t → Text.Sendable t
  symbol : ∀ op, f.operator? = some op → Text.Sendable op.symbol
  right : ∀ t, f.right? = some t → Text.Sendable t

theorem Formula.sendable_sideJson (side? : Option Text) :
    (sideJson side?).Sendable ↔ ∀ t, side? = some t → Text.Sendable t := by
  cases side? <;> simp [sideJson]

theorem TypePair.sendable_toJson (p : TypePair) : p.toJson.Sendable := by
  simp [toJson]

theorem Operator.sendable_toJson (op : Operator) :
    op.toJson.Sendable ↔ Text.Sendable op.symbol := by
  have hpairs : (Json.list (op.pairs.map TypePair.toJson)).Sendable := by
    rw [Json.sendable_list, List.forall_mem_map]
    exact fun p _ => p.sendable_toJson
  rw [toJson, Json.sendable_object]
  simp [hpairs]

theorem Formula.sendable_operatorJson (op? : Option Operator) :
    (operatorJson op?).Sendable ↔ ∀ op, op? = some op → Text.Sendable op.symbol := by
  cases op? <;> simp [operatorJson, Operator.sendable_toJson]

theorem Formula.sendable_toJson (f : Formula) : f.toJson.Sendable ↔ f.Sendable := by
  rw [toJson, Json.sendable_object]
  simp only [List.forall_mem_cons, Text.sendable_ofString, true_and, sendable_sideJson,
    sendable_operatorJson]
  constructor
  · rintro ⟨hl, ho, hr, -⟩
    exact ⟨hl, ho, hr⟩
  · rintro ⟨hl, ho, hr⟩
    exact ⟨hl, ho, hr, List.forall_mem_nil _⟩

theorem Verdict.sendable_rejected (r : Rejection) :
    (Verdict.rejected r).toJson.Sendable ↔
      Text.Sendable r.message ∧ (Json.object r.details).Sendable := by
  rw [toJson, Json.sendable_object]
  simp

namespace Decided

variable {c : Catalog} {f : Formula} {v : Verdict}

theorem finite (h : Decided c f v) : v.toJson.allFinite = true := by
  cases h with
  | incomplete h =>
    have hm := Json.allFiniteItems_iff.mpr (List.forall_mem_map.mpr fun x
      (_ : x ∈ Field.all.filter (f.Lacks ·)) => (rfl : (Json.str x.name).allFinite = true))
    simp only [Verdict.toJson, Rejection.incomplete, Json.allFinite, Json.allFiniteFields,
      Bool.and_true, Bool.true_and]
    exact hm
  | _ => rfl

theorem sendable (h : Decided c f v) (hf : f.Sendable) : v.toJson.Sendable := by
  cases h with
  | incomplete h =>
    have hm : (Json.list ((Field.all.filter (f.Lacks ·)).map fun x => .str x.name)).Sendable := by
      rw [Json.sendable_list, List.forall_mem_map]
      exact fun x _ => (Json.sendable_str _).mpr x.sendable_name
    rw [Verdict.sendable_rejected, Rejection.incomplete, Json.sendable_object]
    simp [hm]
  | leftUndeclared s op h =>
    rw [Verdict.sendable_rejected]
    simp [Rejection.leftUndeclared, hf.left s.left rfl]
  | rightUntyped s op hl hr =>
    rw [Verdict.sendable_rejected]
    simp [Rejection.rightUntyped, hf.right s.right rfl]
  | leftRefused s op ht h =>
    rw [Verdict.sendable_rejected]
    simp [Rejection.leftRefused, hf.left s.left rfl, hf.symbol op rfl]
  | rightRefused s op ht hl h =>
    rw [Verdict.sendable_rejected]
    simp [Rejection.rightRefused, hf.right s.right rfl, hf.symbol op rfl]
  | pairRefused s op ht hl hr h =>
    rw [Verdict.sendable_rejected]
    simp [Rejection.pairRefused, hf.left s.left rfl, hf.right s.right rfl, hf.symbol op rfl]
  | accepted s op ht h => simp [Verdict.toJson]

end Decided

theorem Receipt.sendable_toJson (r : Receipt) :
    r.toJson.Sendable ↔ Text.Sendable r.stamp.id ∧ Text.Sendable r.stamp.time ∧
      r.formula.Sendable ∧ r.verdict.toJson.Sendable := by
  rw [toJson, Json.sendable_object]
  simp [Formula.sendable_toJson]

/-! ## The two endpoints -/

namespace Response

variable {c : Catalog} {f : Formula} {v : Verdict}

theorem validated_eq (h : Decided c f v) : validated c f = document v.toJson := by
  rw [validated, Checker.checkFormula_of_decided h]

theorem run_of_decided (h : Decided c f v) :
    ∃ log, Checker.run Guard.builtIn ⟨f, c⟩ = .ok (v, log) :=
  Checker.exists_run (Checker.checkFormula_of_decided h)

theorem submitted_received (h : Decided c f v) {k : Configuration}
    (ha : v.isOk = true ∨ k.allowInvalid = true) (stamp : Stamp) :
    submitted k stamp c f = document (Receipt.toJson ⟨stamp, f, v⟩) := by
  obtain ⟨log, hr⟩ := run_of_decided h
  have hs : Submission.settle k.allowInvalid stamp f v = .received ⟨stamp, f, v⟩ := by
    cases v with
    | accepted => rfl
    | rejected r =>
      have hk : k.allowInvalid = true := by simpa [Verdict.isOk] using ha
      simp only [Submission.settle, hk, if_true]
  simp only [submitted, Submission.submit, hr, Except.map, hs]

theorem submitted_blocked (h : Decided c f v) {k : Configuration}
    (ha : ¬ (v.isOk = true ∨ k.allowInvalid = true)) (stamp : Stamp) :
    submitted k stamp c f = detail 422 v.toJson := by
  obtain ⟨log, hr⟩ := run_of_decided h
  cases v with
  | accepted => exact absurd (.inl rfl) ha
  | rejected r =>
    have hk : k.allowInvalid = false := by simpa [Verdict.isOk] using ha
    have hs : Submission.settle k.allowInvalid stamp f (.rejected r) = .blocked r := by
      simp only [Submission.settle, hk, Bool.false_eq_true, if_false]
    simp only [submitted, Submission.submit, hr, Except.map, hs]

end Response

end Formulary
