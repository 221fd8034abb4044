import Formulary.Proofs.Submitting

/-! # Asking twice

A request that is made again at once finds the service as the first one left it: the configuration
has been read, and its catalog is at the front of the memory or cannot be loaded still. So it is
answered alike and changes nothing more. Only the stamp of a receipt is new each time. A request that
is turned away by its path, its method or the form of its body changes nothing the first time either.
-/

namespace Formulary
set_option autoImplicit false

/-! ## Answers that differ in their stamps -/

/-- What a stamp is made of can be sent. -/
structure Stamp.Sendable (stamp : Stamp) : Prop where
  id : Text.Sendable stamp.id
  time : Text.Sendable stamp.time

/-- Two answers that are the same, or two receipts that are the same but for their stamps. -/
inductive SameButStamp (p q : Stamp) : Except Escape Response → Except Escape Response → Prop where
  | same (a : Except Escape Response) : SameButStamp p q a a
  | receipts (f : Formula) (verdict : Json) :
    SameButStamp p q (.ok ⟨200, Service.receiptOf p f verdict⟩)
      (.ok ⟨200, Service.receiptOf q f verdict⟩)

/-- Two plans that are settled alike, or come to such answers from every catalog. -/
inductive Plan.SameButStamp (p q : Stamp) : Plan → Plan → Prop where
  | settled (a : Except Escape Response) : SameButStamp p q (.settled a) (.settled a)
  | pending {next next' : Configuration → Catalog → Except Escape Response}
      (h : ∀ k c, Formulary.SameButStamp p q (next k c) (next' k c)) :
    SameButStamp p q (.pending next) (.pending next')

theorem Response.document_receipt {stamp : Stamp} (h : stamp.Sendable) (f : Formula) (v : Verdict) :
    document (Receipt.toJson ⟨stamp, f, v⟩) =
      ((Json.textsOfFields [("formula", f.toJson), ("verdict", v.toJson)]).findSome?
        Text.Utf8.surrogateFault?).elim
          (.ok ⟨200, Service.receiptOf stamp f v.toJson⟩) fun x => .error (.documentNotText x) := by
  have htexts : (Receipt.toJson ⟨stamp, f, v⟩).texts =
      [("submission_id" : Text), stamp.id, ("submitted_at" : Text), stamp.time] ++
        Json.textsOfFields [("formula", f.toJson), ("verdict", v.toJson)] := rfl
  have hnone : ∀ t, Text.Sendable t → Text.Utf8.surrogateFault? t = none :=
    fun t => (Text.Utf8.surrogateFault?_eq_none t).mpr
  unfold document
  rw [htexts]
  simp only [List.cons_append, List.nil_append, List.findSome?_cons, hnone _ h.id, hnone _ h.time,
    hnone _ (Text.sendable_ofString _)]
  cases (Json.textsOfFields [("formula", f.toJson), ("verdict", v.toJson)]).findSome?
    Text.Utf8.surrogateFault? <;> rfl

section Restamped

variable {p q : Stamp}

theorem Response.submitted_restamped (hp : p.Sendable) (hq : q.Sendable) (k : Configuration)
    (c : Catalog) (f : Formula) : SameButStamp p q (submitted k p c f) (submitted k q c f) := by
  obtain ⟨v, hv⟩ := Checker.exists_decided c f
  by_cases ha : v.isOk = true ∨ k.allowInvalid = true
  · rw [submitted_received hv ha, submitted_received hv ha, document_receipt hp, document_receipt hq]
    cases (Json.textsOfFields [("formula", f.toJson), ("verdict", v.toJson)]).findSome?
        Text.Utf8.surrogateFault? with
    | none => exact .receipts f v.toJson
    | some x => exact .same _
  · rw [submitted_blocked hv ha, submitted_blocked hv ha]
    exact .same _

theorem Body.plan_restamped {next next' : Configuration → Catalog → Formula → Except Escape Response}
    (h : ∀ k c f, SameButStamp p q (next k c f) (next' k c f)) (d : Depths) (b : Body) :
    Plan.SameButStamp p q (b.plan d next) (b.plan d next') := by
  have formula : ∀ k c body?, SameButStamp p q (Service.withFormula d c body? (next k c))
      (Service.withFormula d c body? (next' k c)) := by
    intro k c body?
    unfold Service.withFormula
    split
    · exact .same _
    · split
      · exact .same _
      · exact h k c _
  cases b with
  | malformed t position => exact .settled _
  | unreadable => exact .settled _
  | empty => exact .pending fun k c => formula k c none
  | json v => exact .pending fun k c => formula k c (some v)

theorem Request.planAt_restamped (r : Request) (hr : r.stamp.Sendable) (hq : q.Sendable)
    (d : Depths) (e : Endpoint) :
    Plan.SameButStamp r.stamp q (r.planAt d e) (planAt d { r with stamp := q } e) := by
  cases e with
  | catalog => exact .pending fun _ _ => .same _
  | validate => exact Body.plan_restamped (fun _ _ _ => .same _) d _
  | submit => exact Body.plan_restamped (fun k c f => Response.submitted_restamped hr hq k c f) d _

theorem Request.plan_restamped (r : Request) (hr : r.stamp.Sendable) (hq : q.Sendable)
    (site : Site) :
    Plan.SameButStamp r.stamp q (r.plan site) (plan site { r with stamp := q }) := by
  unfold plan
  dsimp only
  split
  · exact .settled _
  · split
    · exact r.planAt_restamped hr hq _ _
    · exact .settled _

end Restamped

/-! ## The service after a request -/

namespace Service

variable {s : Service} {k : Configuration}

theorem InForce.holding (h : s.InForce k) : (s.holding k).InForce k := by
  cases h with
  | override h => exact .override h
  | remembered ho h => exact .remembered ho (by simp [Service.holding, keeping, ho])
  | read ho hr h => exact .remembered ho (by simp [Service.holding, keeping, ho])

theorem ask_holding (s : Service) (k : Configuration) : (s.holding k).ask k = s.ask k :=
  Recency.access_again (by decide) s.catalogs k _

theorem holding_holding (s : Service) (k : Configuration) :
    (s.holding k).holding k = s.holding k := by
  have hask := congrArg Prod.snd (ask_holding s k)
  rw [holding, hask]
  cases ho : s.override? <;> simp [keeping, holding, ho]

theorem carryOut_again {p q : Stamp} {plan plan' : Plan} (h : Plan.SameButStamp p q plan plan')
    (s : Service) :
    ((s.carryOut plan).1.carryOut plan').1 = (s.carryOut plan).1 ∧
      SameButStamp p q (s.carryOut plan).2 ((s.carryOut plan).1.carryOut plan').2 := by
  cases h with
  | settled a => exact ⟨rfl, .same a⟩
  | pending h =>
    simp only [carryOut]
    rcases s.inForce_or_unconfigured with ⟨k, hk⟩ | ⟨f, hu⟩
    · rw [withCatalog_eq _ hk, withCatalog_eq _ hk.holding, ask_holding, holding_holding]
      refine ⟨rfl, ?_⟩
      cases (s.ask k).1 with
      | ok c => exact h k c
      | error f => exact .same _
    · rw [withCatalog_unconfigured _ hu, withCatalog_unconfigured _ hu]
      exact ⟨rfl, .same _⟩

end Service

/-! ## Requests that are turned away -/

/-- The responses to a path that is not known, to a method that is not taken and to a body that is
no JSON text. -/
inductive Response.TurnsAway : Response → Prop where
  | notFound (body : Json) : TurnsAway ⟨404, body⟩
  | methodNotAllowed (body : Json) : TurnsAway ⟨405, body⟩
  | notJson {entries : List Json} {fields : List (Text × Json)} (he : .object fields ∈ entries)
      (ht : (("type" : Text), Json.str "json_invalid") ∈ fields) :
    TurnsAway ⟨422, .object [("detail", .list entries)]⟩

/-- The answer turns nothing away. -/
def Serves (a : Except Escape Response) : Prop := ∀ x, a = .ok x → ¬ x.TurnsAway

/-- No request is turned away once its catalog is asked for. -/
def Plan.Serves : Plan → Prop
  | .settled _ => True
  | .pending next => ∀ k c, Formulary.Serves (next k c)

namespace Response

theorem serves_document (d : Json) : Serves (document d) := by
  intro x hx
  rw [document_eq_ok hx]
  intro h
  cases h

theorem serves_detail {status : Nat} {d : Json}
    (h : ¬ TurnsAway ⟨status, .object [("detail", d)]⟩) : Serves (detail status d) := by
  intro x hx
  rw [detail_eq_ok status hx]
  exact h

theorem serves_refusedLoad (f : LoadFault) : Serves (refusedLoad f) := by
  unfold refusedLoad
  split
  · apply serves_detail
    intro h
    cases h
  · intro x hx
    cases hx

theorem serves_unknownOperator (e : UnknownOperator) : Serves (unknownOperator e) := by
  apply serves_detail
  intro h
  cases h

theorem code_ne_jsonInvalid (cause : IssueCause) : cause.code ≠ "json_invalid" := by
  have hrecord : ("model_type" : Text) ≠ "json_invalid" := by decide +kernel
  cases cause with
  | notRecord name => exact hrecord
  | _ => decide +kernel

theorem serves_refusedInput (d : Depths) (issues : List InputIssue) :
    Serves (refusedInput d issues) := by
  unfold refusedInput
  dsimp only
  split
  · intro x hx
    cases hx
  apply serves_detail
  intro h
  cases h with
  | notJson he ht =>
    obtain ⟨i, -, hi⟩ := List.mem_map.mp he
    cases hi
    have hother : ∀ name : Text, name ∈ (["loc", "msg", "input"] : List Text) → "type" ≠ name := by
      decide +kernel
    simp only [List.mem_cons, Prod.mk.injEq, Json.str.injEq, List.not_mem_nil, or_false] at ht
    rcases ht with ⟨-, ht⟩ | ⟨ht, -⟩ | ⟨ht, -⟩ | ⟨ht, -⟩
    · exact code_ne_jsonInvalid _ ht.symm
    · exact hother _ (by simp) ht
    · exact hother _ (by simp) ht
    · exact hother _ (by simp) ht

theorem serves_validated (c : Catalog) (f : Formula) : Serves (validated c f) := by
  obtain ⟨v, hv⟩ := Checker.exists_decided c f
  rw [validated_eq hv]
  exact serves_document _

theorem serves_submitted (k : Configuration) (stamp : Stamp) (c : Catalog) (f : Formula) :
    Serves (submitted k stamp c f) := by
  obtain ⟨v, hv⟩ := Checker.exists_decided c f
  by_cases ha : v.isOk = true ∨ k.allowInvalid = true
  · rw [submitted_received hv ha]
    exact serves_document _
  · rw [submitted_blocked hv ha]
    apply serves_detail
    intro h
    cases v <;> cases h

end Response

theorem Body.plan_serves {next : Configuration → Catalog → Formula → Except Escape Response}
    (h : ∀ k c f, Serves (next k c f)) (d : Depths) (b : Body) : (b.plan d next).Serves := by
  have formula : ∀ k c body?, Serves (Service.withFormula d c body? (next k c)) := by
    intro k c body?
    unfold Service.withFormula
    split
    · exact Response.serves_refusedInput d _
    · split
      · exact Response.serves_unknownOperator _
      · exact h k c _
  cases b with
  | malformed t position => trivial
  | unreadable => trivial
  | empty => exact fun k c => formula k c none
  | json v => exact fun k c => formula k c (some v)

theorem Request.plan_serves (site : Site) (r : Request) : (r.plan site).Serves := by
  unfold plan
  split
  · trivial
  · split
    · rename_i e _ _
      cases e with
      | catalog => exact fun _ c => Response.serves_document c.document
      | validate => exact Body.plan_serves (fun _ c f => Response.serves_validated c f) _ _
      | submit => exact Body.plan_serves (fun k c f => Response.serves_submitted k r.stamp c f) _ _
    · trivial

namespace Service

theorem carryOut_turnsAway {plan : Plan} (h : plan.Serves) (s : Service) {x : Response}
    (ha : (s.carryOut plan).2 = .ok x) (hx : x.TurnsAway) : (s.carryOut plan).1 = s := by
  cases plan with
  | settled a => rfl
  | pending next =>
    simp only [carryOut] at ha
    rcases s.inForce_or_unconfigured with ⟨k, hk⟩ | ⟨f, hu⟩
    · rw [withCatalog_eq _ hk] at ha
      cases hask : (s.ask k).1 with
      | ok c =>
        rw [hask] at ha
        exact absurd hx (h k c x ha)
      | error f =>
        rw [hask] at ha
        exact absurd hx (Response.serves_refusedLoad f x ha)
    · rw [withCatalog_unconfigured _ hu] at ha
      cases ha

/-- A request that is repeated at once is answered as before, apart from the stamp of a receipt, and
leaves the service as it found it, the order of the remembered catalogs included. A request that is
turned away leaves the service as it was from the first. -/
theorem answer_again (s : Service) (r : Request) (stamp : Stamp) (hr : r.stamp.Sendable)
    (hstamp : stamp.Sendable) :
    ((s.answer r).1.answer { r with stamp := stamp }).1 = (s.answer r).1 ∧
    SameButStamp r.stamp stamp (s.answer r).2
      ((s.answer r).1.answer { r with stamp := stamp }).2 ∧
    ∀ x, (s.answer r).2 = .ok x → x.TurnsAway → (s.answer r).1 = s := by
  have hsite : (s.answer r).1.site = s.site := by
    obtain ⟨remembered?, catalogs, h⟩ := s.answer_frame r
    rw [h]
  rw [answer_eq (s.answer r).1, hsite, answer_eq, ← and_assoc]
  refine ⟨carryOut_again (r.plan_restamped hr hstamp s.site) s, ?_⟩
  intro x ha hx
  exact carryOut_turnsAway (r.plan_serves s.site) s ha hx

/-- A formula without fields, submitted. -/
def blankSubmission : Request :=
  ⟨.post, Endpoint.submit.path, Text.Utf8.encode "\x7b\x7d", ⟨"1", "noon"⟩⟩

/-- The first submission reads the configuration and loads the catalog; the second one does neither. -/
theorem blankSubmission_again :
    blankSubmission.stamp.Sendable ∧ Stamp.Sendable ⟨"2", "night"⟩ ∧
    (lenient.answer blankSubmission).1.remembered? = some ⟨true, none⟩ ∧
    (lenient.answer blankSubmission).1.catalogs.keys = [⟨true, none⟩] ∧
    ((lenient.answer blankSubmission).1.answer { blankSubmission with stamp := ⟨"2", "night"⟩ }).1 =
      (lenient.answer blankSubmission).1 ∧
    SameButStamp ⟨"1", "noon"⟩ ⟨"2", "night"⟩
      (.ok ⟨200, receiptOf ⟨"1", "noon"⟩ .empty (Verdict.rejected (.incomplete .empty)).toJson⟩)
      ((lenient.answer blankSubmission).1.answer
        { blankSubmission with stamp := ⟨"2", "night"⟩ }).2 := by
  have hfirst : blankSubmission.stamp.Sendable :=
    ⟨Text.sendable_ofString _, Text.sendable_ofString _⟩
  have hsecond : Stamp.Sendable ⟨"2", "night"⟩ :=
    ⟨Text.sendable_ofString _, Text.sendable_ofString _⟩
  obtain ⟨fields, hb, hq⟩ : ∃ fields,
      (Body.ofBytes lenient.site.toDepths blankSubmission.body).Holds (some (.object fields)) ∧
        Inquiry.Says fields ⟨none, none, none⟩ :=
    Body.says_of_inquiry? (by decide +kernel)
  have hreach : lenient.Reaches blankSubmission.body ⟨true, none⟩ .builtIn .empty :=
    .formula hb (.read rfl rfl (by decide +kernel)) (.loaded rfl rfl) hq (.noOperator (.inl rfl))
  have hsubmitted : Response.submitted ⟨true, none⟩ ⟨"1", "noon"⟩ .builtIn .empty =
      .ok ⟨200, receiptOf ⟨"1", "noon"⟩ .empty (Verdict.rejected (.incomplete .empty)).toJson⟩ :=
    submitted_sendable (.incomplete ⟨.left, .inl rfl⟩) (.inr rfl) hfirst.id hfirst.time
      ⟨by simp [Formula.empty], by simp [Formula.empty], by simp [Formula.empty]⟩
  have hanswer : lenient.answer blankSubmission = (lenient.holding ⟨true, none⟩,
      .ok ⟨200, receiptOf ⟨"1", "noon"⟩ .empty (Verdict.rejected (.incomplete .empty)).toJson⟩) := by
    have hposts : blankSubmission.Posts .submit := Request.posts_path .submit rfl _ _
    rw [answer_posts hposts, hreach.answerFormula, ← hsubmitted]
    rfl
  obtain ⟨hstate, hsame, -⟩ := answer_again lenient blankSubmission ⟨"2", "night"⟩ hfirst hsecond
  rw [hanswer] at hstate hsame ⊢
  exact ⟨hfirst, hsecond, rfl, rfl, hstate, hsame⟩

end Service

end Formulary
