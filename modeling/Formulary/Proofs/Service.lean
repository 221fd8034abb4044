import Formulary.Service

/-! # The two halves of a request

What a request is answered with before the state of the service is looked at, and what it does with
a configuration and its catalog otherwise, can be told from the request and the site alone: its plan.
Answering a request is carrying out its plan. All that the state contributes is the configuration in
force and what its memory of catalogs answers for it.
-/

namespace Formulary
set_option autoImplicit false

/-- A site with no more room than there must be, and without pages of its own. -/
def Site.least : Site := { Yaml.Host.least with pages := fun _ _ => none }

/-- What becomes of a request: it is settled by itself, or needs a configuration and its catalog. -/
inductive Plan where
  | settled (a : Except Escape Response)
  | pending (next : Configuration → Catalog → Except Escape Response)

/-- The plan of a request that carries a formula. -/
def Body.plan (d : Depths) (next : Configuration → Catalog → Formula → Except Escape Response) :
    Body → Plan
  | .malformed t position => .settled (Response.notJson t position)
  | .unreadable => .settled Response.unreadableBody
  | .empty => .pending fun k c => Service.withFormula d c none (next k c)
  | .json v => .pending fun k c => Service.withFormula d c (some v) (next k c)

namespace Request

/-- The plan of a request at an endpoint. -/
def planAt (d : Depths) (r : Request) : Endpoint → Plan
  | .catalog => .pending fun _ c => Response.document c.document
  | .validate => (Body.ofBytes d r.body).plan d fun _ c f => Response.validated c f
  | .submit => (Body.ofBytes d r.body).plan d fun k c f => Response.submitted k r.stamp c f

def plan (site : Site) (r : Request) : Plan :=
  match Endpoint.ofPath? r.path with
  | none => .settled ((site.pages r.method r.path).elim Response.notFound .ok)
  | some e =>
    if e.method = r.method then r.planAt site.toDepths e else .settled Response.methodNotAllowed

end Request

namespace Service

/-- Carries out a plan. -/
def carryOut (s : Service) : Plan → Service × Except Escape Response
  | .settled a => (s, a)
  | .pending next => s.withCatalog next

theorem answerFormula_eq (s : Service) (body : List UInt8)
    (next : Configuration → Catalog → Formula → Except Escape Response) :
    s.answerFormula body next =
      s.carryOut ((Body.ofBytes s.site.toDepths body).plan s.site.toDepths next) := by
  rw [answerFormula]
  cases Body.ofBytes s.site.toDepths body <;> rfl

theorem answerEndpoint_eq (s : Service) (r : Request) (e : Endpoint) :
    s.answerEndpoint r e = s.carryOut (r.planAt s.site.toDepths e) := by
  cases e with
  | catalog => rfl
  | validate => exact answerFormula_eq s r.body _
  | submit => exact answerFormula_eq s r.body _

/-- Answering a request is carrying out its plan. -/
theorem answer_eq (s : Service) (r : Request) : s.answer r = s.carryOut (r.plan s.site) := by
  rw [answer, Request.plan]
  cases Endpoint.ofPath? r.path with
  | none => rfl
  | some e =>
    simp only
    split
    · exact answerEndpoint_eq s r e
    · rfl

/-! ## The configuration in force -/

/-- The configuration that a request is answered under. -/
inductive InForce (s : Service) : Configuration → Prop where
  | override {k : Configuration} (h : s.override? = some k) : InForce s k
  | remembered {k : Configuration} (ho : s.override? = none) (h : s.remembered? = some k) :
    InForce s k
  | read {k : Configuration} (ho : s.override? = none) (hr : s.remembered? = none)
      (h : Configuration.ofEnvironment s.environment = .ok k) : InForce s k

/-- There is no configuration, and none can be read. -/
structure Unconfigured (s : Service) (f : BooleanFault) : Prop where
  notOverridden : s.override? = none
  notRemembered : s.remembered? = none
  unreadable : Configuration.ofEnvironment s.environment = .error f

/-- The service once it knows its configuration, which it keeps unless that is an override. -/
def keeping (s : Service) (k : Configuration) : Service :=
  { s with remembered? := if s.override?.isSome then s.remembered? else some k }

theorem InForce.configuration {s : Service} {k : Configuration} (h : s.InForce k) :
    s.configuration = .ok (k, s.keeping k) := by
  obtain ⟨site, environment, files, override?, remembered?, catalogs⟩ := s
  cases h with
  | override h =>
    cases h
    rfl
  | remembered ho h =>
    cases ho
    cases h
    rfl
  | read ho hr h =>
    cases ho
    cases hr
    simp only [Service.configuration, h]
    rfl

theorem Unconfigured.configuration {s : Service} {f : BooleanFault} (h : s.Unconfigured f) :
    s.configuration = .error f := by
  simp only [Service.configuration, h.notOverridden, h.notRemembered, h.unreadable]

theorem inForce_or_unconfigured (s : Service) :
    (∃ k, s.InForce k) ∨ ∃ f, s.Unconfigured f := by
  cases ho : s.override? with
  | some k => exact .inl ⟨k, .override ho⟩
  | none =>
    cases hr : s.remembered? with
    | some k => exact .inl ⟨k, .remembered ho hr⟩
    | none =>
      cases he : Configuration.ofEnvironment s.environment with
      | ok k => exact .inl ⟨k, .read ho hr he⟩
      | error f => exact .inr ⟨f, ho, hr, he⟩

/-- The configuration in force, if there is one. -/
def inForce? (s : Service) : Option Configuration := s.configuration.toOption.map (·.1)

theorem inForce?_cases (s : Service) :
    (∃ k, s.inForce? = some k ∧ s.InForce k) ∨ ∃ f, s.inForce? = none ∧ s.Unconfigured f := by
  rcases s.inForce_or_unconfigured with ⟨k, hk⟩ | ⟨f, hu⟩
  · refine .inl ⟨k, ?_, hk⟩
    rw [inForce?, hk.configuration]
    rfl
  · refine .inr ⟨f, ?_, hu⟩
    rw [inForce?, hu.configuration]
    rfl

theorem inForce?_eq_some {s : Service} {k : Configuration} (h : s.inForce? = some k) :
    s.InForce k := by
  rcases s.inForce?_cases with ⟨k', hs, hk⟩ | ⟨f, hn, -⟩
  · rw [hs, Option.some.injEq] at h
    exact h ▸ hk
  · rw [hn] at h
    cases h

theorem inForce?_eq_none {s : Service} (h : s.inForce? = none) : ∃ f, s.Unconfigured f := by
  rcases s.inForce?_cases with ⟨k, hs, -⟩ | ⟨f, -, hu⟩
  · rw [hs] at h
    cases h
  · exact ⟨f, hu⟩

/-! ## The catalog of a configuration -/

/-- What a pending request is answered with, once its catalog is there or cannot be. -/
def respond (next : Configuration → Catalog → Except Escape Response) (k : Configuration) :
    Except LoadFault Catalog → Except Escape Response
  | .ok c => next k c
  | .error f => Response.refusedLoad f

/-- The memory of catalogs, asked for a configuration. -/
def ask (s : Service) (k : Configuration) :
    Except LoadFault Catalog × Recency Configuration Catalog :=
  s.catalogs.access capacity k (·.loadCatalog s.site.toHost s.files)

/-- The service once it has found the catalog too. -/
def holding (s : Service) (k : Configuration) : Service :=
  { s.keeping k with catalogs := (s.ask k).2 }

section Pending

variable {s : Service} {k : Configuration} {f : BooleanFault}
  (next : Configuration → Catalog → Except Escape Response)

theorem catalog_keeping (s : Service) (k : Configuration) :
    (s.keeping k).catalog k = ((s.ask k).1, s.holding k) := rfl

theorem withCatalog_eq (hk : s.InForce k) :
    s.withCatalog next = (s.holding k, respond next k (s.ask k).1) := by
  simp only [withCatalog, hk.configuration, catalog_keeping]
  cases (s.ask k).1 <;> rfl

theorem withCatalog_unconfigured (h : s.Unconfigured f) :
    s.withCatalog next = (s, .error (.configuration f)) := by
  simp only [withCatalog, h.configuration]

variable {next} {r : Request} (hp : r.plan s.site = .pending next)
include hp

theorem answer_inForce (hk : s.InForce k) :
    s.answer r = (s.holding k, respond next k (s.ask k).1) := by
  rw [answer_eq, hp, carryOut, withCatalog_eq next hk]

theorem answer_unconfigured (hu : s.Unconfigured f) :
    s.answer r = (s, .error (.configuration f)) := by
  rw [answer_eq, hp, carryOut, withCatalog_unconfigured next hu]

end Pending

/-! ## What a step leaves alone -/

/-- A request changes nothing but what is remembered. -/
theorem answer_frame (s : Service) (r : Request) : ∃ remembered? catalogs,
    (s.answer r).1 = { s with remembered? := remembered?, catalogs := catalogs } := by
  cases hp : r.plan s.site with
  | settled a =>
    rw [answer_eq, hp, carryOut]
    exact ⟨s.remembered?, s.catalogs, rfl⟩
  | pending next =>
    rcases s.inForce_or_unconfigured with ⟨k, hk⟩ | ⟨f, hu⟩
    · rw [answer_inForce hp hk]
      exact ⟨_, _, rfl⟩
    · rw [answer_unconfigured hp hu]
      exact ⟨s.remembered?, s.catalogs, rfl⟩

theorem configure_frame (s : Service) (given? : Option Json) :
    (s.configure given?).1 =
      { s with override? := given?.bind fun v => (Configuration.ofJson v).toOption } := by
  cases given? with
  | none => rfl
  | some v =>
    simp only [configure, Option.bind_some]
    cases Configuration.ofJson v <;> rfl

theorem step_request (s : Service) (r : Request) :
    (s.step (.request r)).1 = (s.answer r).1 := by
  simp only [step]
  split
  · rename_i h
    rw [h]
  · rename_i h
    rw [h]

theorem step_site (s : Service) (x : Step) : (s.step x).1.site = s.site := by
  cases x with
  | setVariables changes => rfl
  | setFiles files => rfl
  | configure given? => rw [step, configure_frame]
  | request r =>
    obtain ⟨remembered?, catalogs, h⟩ := s.answer_frame r
    rw [step_request, h]

theorem run_site (s : Service) (steps : List Step) : (s.run steps).1.site = s.site := by
  induction steps generalizing s with
  | nil => rfl
  | cons x steps ih => exact (ih (s.step x).1).trans (s.step_site x)

end Service

end Formulary
