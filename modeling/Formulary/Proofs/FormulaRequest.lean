import Formulary.Proofs.Inquiry
import Formulary.Proofs.Memory
import Formulary.Proofs.Replies

/-! # Requests that carry a formula

Many things can be wrong with such a request at once. They are looked for in a fixed order: the form
of the body, the configuration, the catalog, the fields of the body, the operator. Only a request
that gets past all of them is answered with a verdict, and only there does it matter which endpoint
it was made to.
-/

namespace Formulary
set_option autoImplicit false

/-! ## Requests and their bodies -/

/-- The request reaches an endpoint for formulas by its path, with the method of the endpoint. -/
structure Request.Posts (r : Request) (e : Endpoint) : Prop where
  method : r.method = .post
  takes : e.method = .post
  path : Endpoint.ofPath? r.path = some e

theorem Request.posts_path (e : Endpoint) (he : e.method = .post) (body : List UInt8)
    (stamp : Stamp) : Posts ⟨.post, e.path, body, stamp⟩ e := by
  have hpath : Endpoint.ofPath? e.path = some e := by cases e <;> decide
  exact ⟨rfl, he, hpath⟩

/-- What an endpoint answers once the formula is known. -/
def Request.reply (r : Request) (e : Endpoint) (k : Configuration) (c : Catalog) (f : Formula) :
    Except Escape Response :=
  match e with
  | .submit => Response.submitted k r.stamp c f
  | _ => Response.validated c f

/-- A body that can be read holds a value, or nothing if it is empty. -/
inductive Body.Holds : Body → Option Json → Prop where
  | empty : Holds .empty none
  | json (v : Json) : Holds (.json v) (some v)

/-- The inquiry that a body makes. -/
def Body.inquiry? : Body → Option Inquiry
  | .json v => (Inquiry.ofBody (some v)).toOption
  | _ => none

theorem Body.says_of_inquiry? {b : Body} {q : Inquiry} (h : b.inquiry? = some q) :
    ∃ fields, b.Holds (some (.object fields)) ∧ Inquiry.Says fields q := by
  cases b with
  | json v =>
    rw [inquiry?] at h
    rcases Inquiry.ofBody_cases (some v) with ⟨fields, q', hv, hq, hok⟩ | ⟨issues, he, -⟩
    · rw [hok] at h
      cases h
      exact ⟨fields, hv ▸ .json v, hq⟩
    · rw [he] at h
      cases h
  | empty => cases h
  | malformed t position => cases h
  | unreadable => cases h

/-! ## Requests that can be sent back -/

namespace Inquiry

variable {c : Catalog} {q : Inquiry} {f : Formula}

/-- No text of an inquiry holds a surrogate. -/
structure Sendable (q : Inquiry) : Prop where
  left : ∀ t, q.left? = some t → Text.Sendable t
  symbol : ∀ t, q.symbol? = some t → Text.Sendable t
  right : ∀ t, q.right? = some t → Text.Sendable t

/-- All texts of a formula are those of its inquiry: the operator is the one that has the symbol. -/
theorem Resolved.sendable (h : Resolved c q f) (hq : q.Sendable) : f.Sendable := by
  cases h with
  | noOperator h => exact ⟨hq.left, nofun, hq.right⟩
  | operator hm hs hne =>
    refine ⟨hq.left, ?_, hq.right⟩
    intro op hop
    cases hop
    exact hq.symbol _ hs

theorem Says.sendable {fields : List (Text × Json)} {room : Nat} (h : Says fields q)
    (hv : (Json.object fields).Echoable room) : q.Sendable := by
  have text : ∀ {x t? t}, Carries fields x t? → t? = some t → Text.Sendable t := by
    rintro x t? t hx rfl
    exact (Json.sendable_str t).mp (hv.field hx).sendable
  exact ⟨fun t => text h.left, fun t => text h.symbol, fun t => text h.right⟩

theorem echoable_entry {room : Nat} {code message : Text} {place : List Text} {input : Json}
    (hcode : Text.Sendable code) (hplace : ∀ t ∈ place, Text.Sendable t)
    (hmessage : Text.Sendable message) (hinput : input.Echoable (room + 1)) :
    (entry code place message input).Echoable (room + 2) := by
  have hloc : (Json.list (.str "body" :: place.map .str)).Echoable (room + 1) := by
    refine Json.echoable_list (List.forall_mem_cons.mpr ⟨Json.echoable_str (by simp), ?_⟩)
    exact List.forall_mem_map.mpr fun t ht => Json.echoable_str (hplace t ht)
  refine Json.echoable_object ?_
  simp only [List.forall_mem_cons, Text.sendable_ofString, true_and]
  exact ⟨Json.echoable_str hcode, hloc, Json.echoable_str hmessage, hinput, List.forall_mem_nil _⟩

/-- The entries of a refusal can be sent if the body has room inside them. -/
theorem Refused.sendable {d : Depths} {body? : Option Json} {entries : List Json}
    (h : Refused body? entries) (hv : ∀ v ∈ body?, v.Echoable (d.room .echoing - 2)) :
    (Intent.echo entries).Sendable d := by
  obtain ⟨room, hroom⟩ : ∃ room, d.room .echoing = room + 3 :=
    Nat.exists_eq_add_of_le' (Nat.le_trans (by decide) (d.ample .echoing))
  rw [hroom] at hv
  have hentries : ∀ e ∈ entries, e.Echoable (room + 2) := by
    cases h with
    | empty =>
      rw [List.forall_mem_singleton]
      exact echoable_entry (by simp) (List.forall_mem_nil _) (by simp)
        ⟨Nat.zero_le _, rfl, Json.sendable_null⟩
    | notObject h =>
      rw [List.forall_mem_singleton]
      exact echoable_entry (by simp) (List.forall_mem_nil _) (by simp) (hv _ rfl)
    | fields hne order h =>
      refine List.forall_mem_map.mpr fun o ho => ?_
      refine echoable_entry (by simp) ?_ (by simp) ((hv _ rfl).field ((h o.1 o.2).mp ho).held)
      exact List.forall_mem_singleton.mpr o.1.sendable_name
  obtain ⟨hshallow, hfinite, hsendable⟩ := Json.echoable_list hentries
  exact ⟨hroom ▸ hshallow, hfinite, hsendable⟩

end Inquiry

/-- Nothing in a request keeps its answer from being sent. What it is refused with stands around its
body as a list of objects. -/
structure Request.Clean (d : Depths) (r : Request) : Prop where
  body : ∀ v, Body.ofBytes d r.body = .json v → v.Echoable (d.room .echoing - 2)
  id : Text.Sendable r.stamp.id
  time : Text.Sendable r.stamp.time

theorem Request.Clean.holds {d : Depths} {r : Request} (h : r.Clean d) {body? : Option Json}
    (hb : (Body.ofBytes d r.body).Holds body?) : ∀ v ∈ body?, v.Echoable (d.room .echoing - 2) := by
  rintro v ⟨⟩
  refine h.body v ?_
  cases hr : Body.ofBytes d r.body with
  | json w =>
    rw [hr] at hb
    cases hb
    rfl
  | empty =>
    rw [hr] at hb
    cases hb
  | malformed t position =>
    rw [hr] at hb
    cases hb
  | unreadable =>
    rw [hr] at hb
    cases hb

namespace Service

theorem answer_posts {r : Request} {e : Endpoint} (h : r.Posts e) (s : Service) :
    s.answer r = s.answerFormula r.body (r.reply e) := by
  have hm : e.method = r.method := by rw [h.method, h.takes]
  rw [answer, h.path]
  simp only [hm, if_true]
  cases e with
  | catalog => exact absurd h.takes (by decide)
  | validate => rfl
  | submit => rfl

theorem answerFormula_holds {s : Service} {body : List UInt8} {body? : Option Json}
    (h : (Body.ofBytes s.site.toDepths body).Holds body?)
    (next : Configuration → Catalog → Formula → Except Escape Response) :
    s.answerFormula body next =
      s.withCatalog fun k c => withFormula s.site.toDepths c body? (next k c) := by
  rw [answerFormula]
  cases hb : Body.ofBytes s.site.toDepths body with
  | empty =>
    rw [hb] at h
    cases h
    rfl
  | json v =>
    rw [hb] at h
    cases h
    rfl
  | malformed t position =>
    rw [hb] at h
    cases h
  | unreadable =>
    rw [hb] at h
    cases h

/-! ## The catalog -/

/-- The catalog of a configuration is remembered, or is loaded now. -/
inductive Finds (s : Service) (k : Configuration) : Catalog → Prop where
  | remembered {c : Catalog} (h : s.catalogs.get? k = some c) : Finds s k c
  | loaded {c : Catalog} (hn : s.catalogs.get? k = none) (h : s.loadFrom s.files k = .ok c) :
    Finds s k c

/-- The catalog of a configuration is not remembered and cannot be loaded. -/
structure Lacks (s : Service) (k : Configuration) (f : LoadFault) : Prop where
  notRemembered : s.catalogs.get? k = none
  unloadable : s.loadFrom s.files k = .error f

theorem finds_or_lacks (s : Service) (k : Configuration) :
    (∃ c, s.Finds k c) ∨ ∃ f, s.Lacks k f := by
  cases hm : s.catalogs.get? k with
  | some c => exact .inl ⟨c, .remembered hm⟩
  | none =>
    cases hl : s.loadFrom s.files k with
    | ok c => exact .inl ⟨c, .loaded hm hl⟩
    | error f => exact .inr ⟨f, hm, hl⟩

theorem Lacks.ask {s : Service} {k : Configuration} {f : LoadFault} (h : s.Lacks k f) :
    s.ask k = (.error f, s.catalogs) :=
  Recency.access_fail capacity h.notRemembered h.unloadable

theorem Finds.ask {s : Service} {k : Configuration} {c : Catalog} (h : s.Finds k c) :
    (s.ask k).1 = .ok c := by
  cases h with
  | remembered h => exact congrArg Prod.fst (Recency.access_hit capacity _ h)
  | loaded hn h => exact congrArg Prod.fst (Recency.access_load capacity hn h)

/-- What a request leaves and is answered with if there is no catalog for it. Faults of a catalog and
of the file system are reported, all others escape. -/
inductive Uncatalogued (s : Service) : Service → Intent → Prop where
  | unconfigured {f : BooleanFault} (h : s.Unconfigured f) :
    Uncatalogued s s (.escape (.configuration f))
  | unavailable {k : Configuration} {f : LoadFault} (hk : s.InForce k) (hl : s.Lacks k f)
      (hf : f.isReported = true) :
    Uncatalogued s (s.keeping k)
      (.detail 500 (.str ("Formula catalog unavailable: " ++ f.message)))
  | unloadable {k : Configuration} {f : LoadFault} (hk : s.InForce k) (hl : s.Lacks k f)
      (hf : f.isReported = false) :
    Uncatalogued s (s.keeping k) (.escape (.load f))

theorem withCatalog_finds {s : Service} {k : Configuration} {c : Catalog} (hk : s.InForce k)
    (h : s.Finds k c) (next : Configuration → Catalog → Except Escape Response) :
    s.withCatalog next = (s.holding k, next k c) := by
  rw [withCatalog_eq next hk, h.ask]
  rfl

theorem withCatalog_lacks {s : Service} {k : Configuration} {f : LoadFault} (hk : s.InForce k)
    (h : s.Lacks k f) (next : Configuration → Catalog → Except Escape Response) :
    s.withCatalog next = (s.keeping k, Response.refusedLoad f) := by
  have hsame : s.holding k = s.keeping k := by rw [holding, h.ask]; rfl
  rw [withCatalog_eq next hk, hsame, h.ask]
  rfl

theorem Lacks.uncatalogued {s : Service} {k : Configuration} {f : LoadFault} (hk : s.InForce k)
    (h : s.Lacks k f) (d : Depths) :
    ∃ o, s.Uncatalogued (s.keeping k) o ∧ Response.refusedLoad f = o.sent d := by
  cases hf : f.isReported with
  | true =>
    refine ⟨_, .unavailable hk h hf, ?_⟩
    rw [Response.refusedLoad, if_pos hf]
    rfl
  | false =>
    refine ⟨_, .unloadable hk h hf, ?_⟩
    rw [Response.refusedLoad, if_neg (Bool.eq_false_iff.mp hf)]
    rfl

/-- There is a catalog for a request, or the request is answered without one. -/
theorem catalog_or_not (s : Service) :
    (∃ k c, s.InForce k ∧ s.Finds k c) ∨
      ∃ s' o, s.Uncatalogued s' o ∧ ∀ next, s.withCatalog next = (s', o.sent s.site.toDepths) := by
  rcases s.inForce_or_unconfigured with ⟨k, hk⟩ | ⟨f, hu⟩
  · rcases s.finds_or_lacks k with ⟨c, hc⟩ | ⟨f, hl⟩
    · exact .inl ⟨k, c, hk, hc⟩
    · obtain ⟨o, ho, hf⟩ := hl.uncatalogued hk s.site.toDepths
      refine .inr ⟨_, o, ho, fun next => ?_⟩
      rw [withCatalog_lacks hk hl, hf]
  · exact .inr ⟨_, _, .unconfigured hu, fun next => withCatalog_unconfigured next hu⟩

/-! ## How far a request gets -/

/-- The answers to a request whose formula does not get known, in the order in which they are looked
for: each is given only where none of those before it is. -/
inductive Stops (s : Service) (body : List UInt8) : Service → Intent → Prop where
  /-- The body is no text, or holds more than is ever read. -/
  | unreadable (hb : Body.ofBytes s.site.toDepths body = .unreadable) :
    Stops s body s
      (.settled ⟨400, .object [("detail", .str "There was an error parsing the body")]⟩)
  | notJson {t : Json.Trouble} {position : Nat}
      (hb : Body.ofBytes s.site.toDepths body = .malformed t position) :
    Stops s body s (.settled ⟨422, .object [("detail", Response.notJsonDetail t position)]⟩)
  | uncatalogued {body? : Option Json} {s' : Service} {o : Intent}
      (hb : (Body.ofBytes s.site.toDepths body).Holds body?) (h : s.Uncatalogued s' o) :
    Stops s body s' o
  | refused {body? : Option Json} {k : Configuration} {c : Catalog} {entries : List Json}
      (hb : (Body.ofBytes s.site.toDepths body).Holds body?) (hk : s.InForce k)
      (hc : s.Finds k c) (hr : Inquiry.Refused body? entries) :
    Stops s body (s.holding k) (.echo entries)
  | unknownOperator {fields : List (Text × Json)} {k : Configuration} {c : Catalog} {q : Inquiry}
      {symbol : Text} (hb : (Body.ofBytes s.site.toDepths body).Holds (some (.object fields)))
      (hk : s.InForce k) (hc : s.Finds k c) (hq : Inquiry.Says fields q)
      (hu : Inquiry.Unknown c q symbol) :
    Stops s body (s.holding k) (.detail 422 (.str ("Unknown operator: " ++ symbol)))

/-- A request gets as far as its formula. -/
inductive Reaches (s : Service) (body : List UInt8) : Configuration → Catalog → Formula → Prop where
  | formula {fields : List (Text × Json)} {k : Configuration} {c : Catalog} {q : Inquiry}
      {f : Formula} (hb : (Body.ofBytes s.site.toDepths body).Holds (some (.object fields)))
      (hk : s.InForce k) (hc : s.Finds k c) (hq : Inquiry.Says fields q)
      (hf : Inquiry.Resolved c q f) :
    Reaches s body k c f

theorem Reaches.answerFormula {s : Service} {body : List UInt8} {k : Configuration} {c : Catalog}
    {f : Formula} (h : s.Reaches body k c f)
    (next : Configuration → Catalog → Formula → Except Escape Response) :
    s.answerFormula body next = (s.holding k, next k c f) := by
  obtain ⟨hb, hk, hc, hq, hf⟩ := h
  rw [answerFormula_holds hb, withCatalog_finds hk hc]
  simp only [withFormula, hq.ofBody, hf.resolve]

theorem withFormula_cases (d : Depths) (c : Catalog) (body? : Option Json) :
    (∃ entries, Inquiry.Refused body? entries ∧
      ∀ next, withFormula d c body? next = (Intent.echo entries).sent d) ∨
    (∃ fields q symbol, body? = some (.object fields) ∧ Inquiry.Says fields q ∧
      Inquiry.Unknown c q symbol ∧
      ∀ next, withFormula d c body? next = Response.unknownOperator ⟨symbol⟩) ∨
    ∃ fields q f, body? = some (.object fields) ∧ Inquiry.Says fields q ∧
      Inquiry.Resolved c q f := by
  rcases Inquiry.ofBody_cases body? with ⟨fields, q, hfields, hq, hok⟩ | ⟨issues, he, hr⟩
  · rcases Inquiry.resolve_cases c q with ⟨f, hf, -⟩ | ⟨symbol, hu, hres⟩
    · exact .inr (.inr ⟨fields, q, f, hfields, hq, hf⟩)
    · refine .inr (.inl ⟨fields, q, symbol, hfields, hq, hu, ?_⟩)
      intro next
      simp only [withFormula, hok, hres]
  · refine .inl ⟨_, hr, ?_⟩
    intro next
    simp only [withFormula, he]
    rfl

/-- A request is stopped whatever its endpoint is, or gets as far as its formula. -/
theorem stops_or_reaches (s : Service) (body : List UInt8) :
    (∃ s' o, s.Stops body s' o ∧
      ∀ next, s.answerFormula body next = (s', o.sent s.site.toDepths)) ∨
      ∃ k c f, s.Reaches body k c f := by
  have readable : ∀ body?, (Body.ofBytes s.site.toDepths body).Holds body? →
      (∃ s' o, s.Stops body s' o ∧
        ∀ next, s.answerFormula body next = (s', o.sent s.site.toDepths)) ∨
        ∃ k c f, s.Reaches body k c f := by
    intro body? hb
    simp only [answerFormula_holds hb]
    rcases s.catalog_or_not with ⟨k, c, hk, hc⟩ | ⟨s', o, ho, hw⟩
    · simp only [withCatalog_finds hk hc]
      rcases withFormula_cases s.site.toDepths c body? with ⟨entries, hr, h⟩ |
        ⟨fields, q, symbol, rfl, hq, hu, h⟩ | ⟨fields, q, f, rfl, hq, hf⟩
      · refine .inl ⟨_, _, .refused hb hk hc hr, ?_⟩
        intro next
        rw [h]
      · refine .inl ⟨_, _, .unknownOperator hb hk hc hq hu, ?_⟩
        intro next
        rw [h]
        rfl
      · exact .inr ⟨k, c, f, .formula hb hk hc hq hf⟩
    · exact .inl ⟨s', o, .uncatalogued hb ho, fun next => hw _⟩
  cases hb : Body.ofBytes s.site.toDepths body with
  | empty => exact readable none (hb ▸ .empty)
  | json v => exact readable (some v) (hb ▸ .json v)
  | malformed t position =>
    refine .inl ⟨_, _, .notJson hb, ?_⟩
    intro next
    simp only [answerFormula, hb, Response.notJson_eq]
    rfl
  | unreadable =>
    refine .inl ⟨_, _, .unreadable hb, ?_⟩
    intro next
    simp only [answerFormula, hb, Response.unreadableBody_eq]
    rfl

/-! ## The outcome of a request -/

/-- What is said of a formula that is received. -/
def receiptOf (stamp : Stamp) (f : Formula) (verdict : Json) : Json :=
  .object [("submission_id", .str stamp.id), ("submitted_at", .str stamp.time),
    ("formula", f.toJson), ("verdict", verdict)]

/-- The answers to a formula with its verdict, by endpoint. -/
inductive Judged (k : Configuration) (stamp : Stamp) (f : Formula) (v : Verdict) :
    Endpoint → Intent → Prop where
  | validated : Judged k stamp f v .validate (.document v.toJson)
  | received (h : v.isOk = true ∨ k.allowInvalid = true) :
    Judged k stamp f v .submit (.document (receiptOf stamp f v.toJson))
  | blocked (h : ¬ (v.isOk = true ∨ k.allowInvalid = true)) :
    Judged k stamp f v .submit (.detail 422 v.toJson)

/-- What a request that carries a formula leaves and what it is to be answered with. -/
inductive Outcome (s : Service) (r : Request) (e : Endpoint) : Service → Intent → Prop where
  | stopped {s' : Service} {o : Intent} (h : s.Stops r.body s' o) : Outcome s r e s' o
  | judged {k : Configuration} {c : Catalog} {f : Formula} {v : Verdict} {o : Intent}
      (h : s.Reaches r.body k c f) (hv : Decided c f v) (ho : Judged k r.stamp f v e o) :
    Outcome s r e (s.holding k) o

theorem judged_reply {r : Request} {e : Endpoint} (h : r.Posts e) {c : Catalog} {f : Formula}
    {v : Verdict} (hv : Decided c f v) (k : Configuration) (d : Depths) :
    ∃ o, Judged k r.stamp f v e o ∧ r.reply e k c f = o.sent d := by
  cases e with
  | catalog => exact absurd h.takes (by decide)
  | validate => exact ⟨_, .validated, Response.validated_eq hv⟩
  | submit =>
    by_cases ha : v.isOk = true ∨ k.allowInvalid = true
    · exact ⟨_, .received ha, Response.submitted_received hv ha r.stamp⟩
    · exact ⟨_, .blocked ha, Response.submitted_blocked hv ha r.stamp⟩

/-- A request that carries a formula has an outcome, and its answer is what comes of sending that. -/
theorem exists_outcome (s : Service) {r : Request} {e : Endpoint} (h : r.Posts e) :
    ∃ o, Outcome s r e (s.answer r).1 o ∧ (s.answer r).2 = o.sent s.site.toDepths := by
  rw [answer_posts h]
  rcases s.stops_or_reaches r.body with ⟨s', o, hs, heq⟩ | ⟨k, c, f, hr⟩
  · rw [heq]
    exact ⟨o, .stopped hs, rfl⟩
  · obtain ⟨v, hv⟩ := Checker.exists_decided c f
    obtain ⟨o, ho, heq⟩ := judged_reply h hv k s.site.toDepths
    rw [hr.answerFormula]
    exact ⟨o, .judged hr hv ho, heq⟩

theorem Judged.sent {k : Configuration} {stamp : Stamp} {c : Catalog} {f : Formula} {v : Verdict}
    {e : Endpoint} {o : Intent} (h : Judged k stamp f v e o) (hv : Decided c f v) (hf : f.Sendable)
    (hid : Text.Sendable stamp.id) (htime : Text.Sendable stamp.time) (d : Depths) :
    ∃ x, o.sent d = .ok x := by
  cases h with
  | validated => exact ⟨_, Response.document_ok (hv.sendable hf)⟩
  | received ha =>
    have hr : (Receipt.toJson ⟨stamp, f, v⟩).Sendable :=
      (Receipt.sendable_toJson _).mpr ⟨hid, htime, hf, hv.sendable hf⟩
    exact ⟨_, Response.document_ok hr⟩
  | blocked ha => exact ⟨_, Response.detail_ok 422 hv.finite (hv.sendable hf)⟩

/-- No catalog keeps a request from being answered that has nothing in it which cannot be sent. -/
theorem Finds.answered {s : Service} {k : Configuration} {c : Catalog} (hk : s.InForce k)
    (hc : s.Finds k c) {r : Request} {e : Endpoint} (h : r.Posts e) (hr : r.Clean s.site.toDepths) :
    ∃ x, (s.answer r).2 = .ok x := by
  have readable : ∀ body?, (Body.ofBytes s.site.toDepths r.body).Holds body? →
      ∃ x, (s.answerFormula r.body (r.reply e)).2 = .ok x := by
    intro body? hb
    have hv := hr.holds hb
    rw [answerFormula_holds hb, withCatalog_finds hk hc]
    rcases withFormula_cases s.site.toDepths c body? with ⟨entries, hrefused, heq⟩ |
      ⟨fields, q, symbol, rfl, hq, hu, heq⟩ | ⟨fields, q, f, rfl, hq, hf⟩
    · rw [heq, Intent.sent_eq (hrefused.sendable hv)]
      exact ⟨_, rfl⟩
    · have hsymbol := (hq.sendable (hv _ rfl)).symbol symbol hu.given
      have hdetail : (Json.str ("Unknown operator: " ++ symbol)).Sendable := by simp [hsymbol]
      rw [heq]
      exact ⟨_, Response.detail_ok 422 rfl hdetail⟩
    · obtain ⟨v, hdecided⟩ := Checker.exists_decided c f
      obtain ⟨o, ho, heq⟩ := judged_reply h hdecided k s.site.toDepths
      simp only [withFormula, hq.ofBody, hf.resolve, heq]
      exact ho.sent hdecided (hf.sendable (hq.sendable (hv _ rfl))) hr.id hr.time _
  rw [answer_posts h]
  cases hb : Body.ofBytes s.site.toDepths r.body with
  | empty => exact readable none (hb ▸ .empty)
  | json v => exact readable (some v) (hb ▸ .json v)
  | malformed t position =>
    simp only [answerFormula, hb, Response.notJson_eq]
    exact ⟨_, rfl⟩
  | unreadable =>
    simp only [answerFormula, hb, Response.unreadableBody_eq]
    exact ⟨_, rfl⟩

end Service

end Formulary
