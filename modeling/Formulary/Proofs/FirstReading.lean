import Formulary.Proofs.FormulaRequest
import Mathlib.Data.List.Induction

/-! # The configuration is read once

Without an override a request reads the environment as it is, until one request can read it; what that
one has read is the configuration of all later requests. A reading that fails is forgotten. Which
request is the first to read is told from the steps of a run alone: from the changes of the variables,
from the overrides, and from the requests that need a configuration at all.
-/

namespace Formulary
set_option autoImplicit false

/-! ## Requests that need a configuration -/

/-- The request asks for the catalog, or carries a formula in a body that can be read. -/
inductive Request.NeedsConfiguration (d : Depths) (r : Request) : Prop where
  | catalog (hm : r.method = .get) (hp : Endpoint.ofPath? r.path = some .catalog) :
    NeedsConfiguration d r
  | formula {e : Endpoint} {body? : Option Json} (h : r.Posts e)
      (hb : (Body.ofBytes d r.body).Holds body?) : NeedsConfiguration d r

theorem Body.plan_pending {b : Body} {d : Depths}
    {next : Configuration → Catalog → Formula → Except Escape Response} :
    (∃ next', b.plan d next = .pending next') ↔ ∃ body?, b.Holds body? := by
  cases b with
  | empty => exact iff_of_true ⟨_, rfl⟩ ⟨_, .empty⟩
  | json v => exact iff_of_true ⟨_, rfl⟩ ⟨_, .json v⟩
  | malformed t position =>
    constructor
    · rintro ⟨next', h⟩
      cases h
    · rintro ⟨body?, h⟩
      cases h
  | unreadable =>
    constructor
    · rintro ⟨next', h⟩
      cases h
    · rintro ⟨body?, h⟩
      cases h

theorem Request.plan_eq (site : Site) (r : Request) {e : Endpoint}
    (hp : Endpoint.ofPath? r.path = some e) (hm : e.method = r.method) :
    r.plan site = r.planAt site.toDepths e := by
  simp only [plan, hp, hm, if_true]

theorem Request.needsConfiguration_iff (site : Site) (r : Request) :
    r.NeedsConfiguration site.toDepths ↔ ∃ next, r.plan site = .pending next := by
  constructor
  · intro h
    cases h with
    | catalog hm hp => exact ⟨_, r.plan_eq site hp hm.symm⟩
    | @formula e body? h hb =>
      rw [r.plan_eq site h.path (h.takes.trans h.method.symm)]
      cases e with
      | catalog => exact absurd h.takes (by decide)
      | validate => exact Body.plan_pending.mpr ⟨body?, hb⟩
      | submit => exact Body.plan_pending.mpr ⟨body?, hb⟩
  · rintro ⟨next, h⟩
    cases hp : Endpoint.ofPath? r.path with
    | none => simp [plan, hp] at h
    | some e =>
      by_cases hm : e.method = r.method
      swap
      · simp [plan, hp, hm] at h
      rw [r.plan_eq site hp hm] at h
      cases e with
      | catalog => exact .catalog hm.symm hp
      | validate =>
        obtain ⟨body?, hb⟩ := Body.plan_pending.mp ⟨next, h⟩
        exact .formula ⟨hm.symm, rfl, hp⟩ hb
      | submit =>
        obtain ⟨body?, hb⟩ := Body.plan_pending.mp ⟨next, h⟩
        exact .formula ⟨hm.symm, rfl, hp⟩ hb

/-! ## What the steps alone tell -/

/-- The variables and the override, which requests leave alone. -/
structure Surroundings where
  environment : Environment
  override? : Option Configuration

namespace Surroundings
open Service

def initial : Surroundings := ⟨.empty, none⟩

def next (x : Surroundings) : Step → Surroundings
  | .setVariables changes => { x with environment := (x.environment.setAll changes).1 }
  | .configure given? => { x with override? := given?.bind fun v => (Configuration.ofJson v).toOption }
  | _ => x

/-- The surroundings after a run. -/
def after (steps : List Step) : Surroundings := steps.foldl next initial

theorem after_concat (steps : List Step) (x : Step) :
    after (steps ++ [x]) = (after steps).next x := by
  rw [after, List.foldl_concat]
  rfl

end Surroundings

namespace Service

/-- The request comes after these steps, needs a configuration and finds no override. -/
structure Consults (site : Site) (steps : List Step) (r : Request) : Prop where
  needs : r.NeedsConfiguration site.toDepths
  notOverridden : (Surroundings.after steps).override? = none

/-- What the environment gives after these steps. -/
def reading (steps : List Step) : Except BooleanFault Configuration :=
  Configuration.ofEnvironment (Surroundings.after steps).environment

/-- Every request of the run that consulted the environment could not read it. -/
def NoneRead (site : Site) (steps : List Step) : Prop :=
  ∀ before r rest, steps = before ++ .request r :: rest → Consults site before r →
    ∃ f, reading before = .error f

/-- The configuration is what the first request that could read the environment has read. -/
def FirstRead (site : Site) (steps : List Step) (k : Configuration) : Prop :=
  ∃ before r rest, steps = before ++ .request r :: rest ∧ Consults site before r ∧
    reading before = .ok k ∧ NoneRead site before

section Runs

variable {site : Site}

theorem FirstRead.append {steps : List Step} {k : Configuration} (h : FirstRead site steps k)
    (later : List Step) : FirstRead site (steps ++ later) k := by
  obtain ⟨before, r, rest, rfl, hr⟩ := h
  exact ⟨before, r, rest ++ later, by simp, hr⟩

theorem firstRead_now {steps : List Step} {r : Request} {k : Configuration} (hn : NoneRead site steps)
    (hr : Consults site steps r) (hk : reading steps = .ok k) (later : List Step) :
    FirstRead site (steps ++ .request r :: later) k :=
  ⟨steps, r, later, rfl, hr, hk, hn⟩

theorem noneRead_nil : NoneRead site [] := by
  intro before r rest h
  simp at h

theorem NoneRead.concat {steps : List Step} {x : Step} (h : NoneRead site steps)
    (hx : ∀ r, x = .request r → Consults site steps r → ∃ f, reading steps = .error f) :
    NoneRead site (steps ++ [x]) := by
  intro before r rest he hr
  -- the request is the last step, or stands among the steps before
  rcases List.eq_nil_or_concat' rest with rfl | ⟨rest, y, rfl⟩
  · obtain ⟨rfl, hlast⟩ := List.append_inj' he rfl
    exact hx r (List.singleton_inj.mp hlast) hr
  · rw [← List.cons_append, ← List.append_assoc] at he
    exact h before r rest (List.append_inj' he rfl).1 hr

theorem NoneRead.setVariables {steps : List Step} (h : NoneRead site steps)
    (changes : List (Text × Option Text)) : NoneRead site (steps ++ [.setVariables changes]) := by
  apply h.concat
  intro r he
  cases he

theorem NoneRead.failed {steps : List Step} {f : BooleanFault} (h : NoneRead site steps)
    (hf : reading steps = .error f) (r : Request) : NoneRead site (steps ++ [.request r]) :=
  h.concat fun _ _ _ => ⟨f, hf⟩

theorem FirstRead.not_noneRead {steps : List Step} {k : Configuration} (h : FirstRead site steps k) :
    ¬ NoneRead site steps := by
  obtain ⟨before, r, rest, he, hr, hk, -⟩ := h
  intro hn
  obtain ⟨f, hf⟩ := hn before r rest he hr
  rw [hk] at hf
  cases hf

theorem reading_eq_of_noneRead {before mid rest rest' : List Step} {r r' : Request}
    {k k' : Configuration} (hm : Step.request r :: rest = mid ++ .request r' :: rest')
    (hr : Consults site before r) (hk : reading before = .ok k) (hn : NoneRead site (before ++ mid))
    (hk' : reading (before ++ mid) = .ok k') : k = k' := by
  cases mid with
  | nil =>
    rw [List.append_nil, hk] at hk'
    exact Except.ok.inj hk'
  | cons x mid =>
    -- then the first of the two requests is one of those that could not read
    obtain ⟨rfl, -⟩ := List.cons.inj hm
    obtain ⟨f, hf⟩ := hn before r mid rfl hr
    rw [hk] at hf
    cases hf

/-- Of two requests that were the first to read neither can come before the other. -/
theorem FirstRead.unique {steps : List Step} {k k' : Configuration} (h : FirstRead site steps k)
    (h' : FirstRead site steps k') : k = k' := by
  obtain ⟨before, r, rest, he, hr, hk, hn⟩ := h
  obtain ⟨before', r', rest', he', hr', hk', hn'⟩ := h'
  rw [he] at he'
  rcases List.append_eq_append_iff.mp he' with ⟨mid, rfl, hm⟩ | ⟨mid, rfl, hm⟩
  · exact reading_eq_of_noneRead hm hr hk hn' hk'
  · exact (reading_eq_of_noneRead hm hr' hk' hn hk).symm

end Runs

/-! ## Steps other than requests -/

def surroundings (s : Service) : Surroundings := ⟨s.environment, s.override?⟩

theorem step_frame (s : Service) {x : Step} (hx : ∀ r, x ≠ .request r) :
    (s.step x).1.surroundings = s.surroundings.next x ∧
      (s.step x).1.remembered? = s.remembered? := by
  cases x with
  | setVariables changes => exact ⟨rfl, rfl⟩
  | setFiles files => exact ⟨rfl, rfl⟩
  | configure given? =>
    rw [step, configure_frame]
    exact ⟨rfl, rfl⟩
  | request r => exact absurd rfl (hx r)

/-! ## Requests -/

/-- The request is answered as it would be if the configuration were its override, and the
configuration is kept. -/
structure AnswersUnder (s : Service) (k : Configuration) (r : Request) : Prop where
  response : (s.answer r).2 = (answer { s with override? := some k } r).2
  catalogs : (s.answer r).1.catalogs = (answer { s with override? := some k } r).1.catalogs
  kept : (s.answer r).1.remembered? = some k

section Answer

variable {s : Service} {r : Request} {k : Configuration}

theorem InForce.answersUnder (hk : s.InForce k) (ho : s.override? = none)
    (hr : r.NeedsConfiguration s.site.toDepths) : s.AnswersUnder k r := by
  obtain ⟨next, hp⟩ := (r.needsConfiguration_iff s.site).mp hr
  have ho' := answer_inForce (s := { s with override? := some k }) hp (.override rfl)
  refine ⟨?_, ?_, ?_⟩
  · rw [answer_inForce hp hk, ho']
    rfl
  · rw [answer_inForce hp hk, ho']
    rfl
  · rw [answer_inForce hp hk]
    simp [Service.holding, keeping, ho]

/-- A request that needs no configuration, or finds an override, keeps none. -/
theorem answer_remembered (h : ¬ (r.NeedsConfiguration s.site.toDepths ∧ s.override? = none)) :
    (s.answer r).1.remembered? = s.remembered? := by
  cases hp : r.plan s.site with
  | settled a => rw [answer_eq, hp, carryOut]
  | pending next =>
    have hr := (r.needsConfiguration_iff s.site).mpr ⟨next, hp⟩
    obtain ⟨k, ho⟩ := Option.ne_none_iff_exists'.mp fun ho => h ⟨hr, ho⟩
    rw [answer_inForce hp (.override ho)]
    simp [holding, keeping, ho]

theorem answer_surroundings (s : Service) (r : Request) :
    (s.answer r).1.surroundings = s.surroundings := by
  obtain ⟨remembered?, catalogs, h⟩ := s.answer_frame r
  rw [h]
  rfl

end Answer

/-! ## Runs -/

theorem run_concat (s : Service) (steps : List Step) (x : Step) :
    (s.run (steps ++ [x])).1 = ((s.run steps).1.step x).1 := by
  induction steps generalizing s with
  | nil => rfl
  | cons y steps ih => exact ih (s.step y).1

theorem run_surroundings (site : Site) (steps : List Step) :
    ((initial site).run steps).1.surroundings = Surroundings.after steps := by
  induction steps using List.reverseRecOn with
  | nil => rfl
  | append_singleton steps x ih =>
    rw [run_concat, Surroundings.after_concat, ← ih]
    by_cases hx : ∃ r, x = .request r
    · obtain ⟨r, rfl⟩ := hx
      rw [step_request]
      exact answer_surroundings _ r
    · exact (step_frame _ (not_exists.mp hx)).1

theorem step_remembered {s : Service} {x : Step}
    (h : ∀ r, x = .request r → ¬ (r.NeedsConfiguration s.site.toDepths ∧ s.override? = none)) :
    (s.step x).1.remembered? = s.remembered? := by
  by_cases hx : ∃ r, x = .request r
  · obtain ⟨r, rfl⟩ := hx
    rw [step_request]
    exact answer_remembered (h r rfl)
  · exact (step_frame s (not_exists.mp hx)).2

/-- A configuration that is kept stays. -/
theorem step_kept {s : Service} {k : Configuration} (hk : s.remembered? = some k) (x : Step) :
    (s.step x).1.remembered? = some k := by
  by_cases hx : ∃ r, x = .request r ∧ r.NeedsConfiguration s.site.toDepths ∧ s.override? = none
  · obtain ⟨r, rfl, hr, ho⟩ := hx
    rw [step_request]
    exact ((InForce.remembered ho hk).answersUnder ho hr).kept
  · rw [step_remembered fun r he hr => hx ⟨r, he, hr⟩, hk]

section Reading

variable {site : Site} {steps : List Step} {r : Request}

theorem Consults.needs_run (h : Consults site steps r) :
    r.NeedsConfiguration ((initial site).run steps).1.site.toDepths := by
  rw [run_site]
  exact h.needs

theorem Consults.plan_run (h : Consults site steps r) :
    ∃ next, r.plan ((initial site).run steps).1.site = .pending next :=
  (r.needsConfiguration_iff _).mp h.needs_run

theorem override?_run (site : Site) (steps : List Step) :
    ((initial site).run steps).1.override? = (Surroundings.after steps).override? :=
  congrArg Surroundings.override? (run_surroundings site steps)

theorem inForce_reading {k : Configuration} (ho : (Surroundings.after steps).override? = none)
    (hm : ((initial site).run steps).1.remembered? = none) (hk : reading steps = .ok k) :
    ((initial site).run steps).1.InForce k := by
  have he := congrArg Surroundings.environment (run_surroundings site steps)
  exact .read ((override?_run site steps).trans ho) hm ((congrArg _ he).trans hk)

theorem unconfigured_reading {f : BooleanFault} (ho : (Surroundings.after steps).override? = none)
    (hm : ((initial site).run steps).1.remembered? = none) (hf : reading steps = .error f) :
    ((initial site).run steps).1.Unconfigured f := by
  have he := congrArg Surroundings.environment (run_surroundings site steps)
  exact ⟨(override?_run site steps).trans ho, hm, (congrArg _ he).trans hf⟩

/-- The invariant of a run: it remembers what was read first, and nothing before that. -/
theorem run_remembered (site : Site) (steps : List Step) :
    NoneRead site steps ∧ ((initial site).run steps).1.remembered? = none ∨
      ∃ k, FirstRead site steps k ∧ ((initial site).run steps).1.remembered? = some k := by
  induction steps using List.reverseRecOn with
  | nil => exact .inl ⟨noneRead_nil, rfl⟩
  | append_singleton steps x ih =>
    rw [run_concat]
    rcases ih with ⟨hn, hm⟩ | ⟨k, hf, hm⟩
    · by_cases hx : ∃ r, x = .request r ∧ Consults site steps r
      · obtain ⟨r, rfl, hr⟩ := hx
        rw [step_request]
        cases hread : reading steps with
        | ok k =>
          have hk := inForce_reading hr.notOverridden hm hread
          have ho := (override?_run site steps).trans hr.notOverridden
          exact .inr ⟨k, firstRead_now hn hr hread [], (hk.answersUnder ho hr.needs_run).kept⟩
        | error f =>
          obtain ⟨next, hp⟩ := hr.plan_run
          rw [answer_unconfigured hp (unconfigured_reading hr.notOverridden hm hread)]
          exact .inl ⟨hn.failed hread r, hm⟩
      · refine .inl ⟨hn.concat fun r he hr => absurd ⟨r, he, hr⟩ hx, ?_⟩
        rw [step_remembered, hm]
        intro r he hr
        rw [run_site] at hr
        exact hx ⟨r, he, hr.1, (override?_run site steps).symm.trans hr.2⟩
    · exact .inr ⟨k, hf.append [x], step_kept hm x⟩

theorem NoneRead.remembered (h : NoneRead site steps) : ((initial site).run steps).1.remembered? = none := by
  rcases run_remembered site steps with ⟨-, hm⟩ | ⟨k, hf, -⟩
  · exact hm
  · exact absurd h hf.not_noneRead

theorem FirstRead.remembered {k : Configuration} (h : FirstRead site steps k) :
    ((initial site).run steps).1.remembered? = some k := by
  rcases run_remembered site steps with ⟨hn, -⟩ | ⟨k', hf, hm⟩
  · exact absurd hn h.not_noneRead
  · rw [hm, hf.unique h]

theorem FirstRead.answersUnder {k : Configuration} (h : FirstRead site steps k) (hr : Consults site steps r) :
    ((initial site).run steps).1.AnswersUnder k r := by
  have ho := (override?_run site steps).trans hr.notOverridden
  exact (InForce.remembered ho h.remembered).answersUnder ho hr.needs_run

theorem NoneRead.answersUnder {k : Configuration} (h : NoneRead site steps) (hr : Consults site steps r)
    (hk : reading steps = .ok k) : ((initial site).run steps).1.AnswersUnder k r := by
  have ho := (override?_run site steps).trans hr.notOverridden
  exact (inForce_reading hr.notOverridden h.remembered hk).answersUnder ho hr.needs_run

theorem NoneRead.answer_error {f : BooleanFault} (h : NoneRead site steps) (hr : Consults site steps r)
    (hf : reading steps = .error f) :
    ((initial site).run steps).1.answer r = (((initial site).run steps).1, .error (.configuration f)) := by
  obtain ⟨next, hp⟩ := hr.plan_run
  exact answer_unconfigured hp (unconfigured_reading hr.notOverridden h.remembered hf)

/-- After a reading that failed the next request reads again, whatever has become of the variables. -/
theorem NoneRead.answersUnder_changed {f : BooleanFault} {k : Configuration} {r' : Request}
    (h : NoneRead site steps) (hr : Consults site steps r) (hf : reading steps = .error f)
    (changes : List (Text × Option Text)) (hr' : r'.NeedsConfiguration site.toDepths)
    (hk : Configuration.ofEnvironment
      ((Surroundings.after steps).environment.setAll changes).1 = .ok k) :
    ((initial site).run (steps ++ [.request r, .setVariables changes])).1.AnswersUnder k r' := by
  have hafter : Surroundings.after (steps ++ [.request r, .setVariables changes]) =
      (Surroundings.after steps).next (.setVariables changes) := by
    rw [← List.singleton_append, ← List.append_assoc, Surroundings.after_concat,
      Surroundings.after_concat]
    rfl
  have hnone : NoneRead site (steps ++ [.request r, .setVariables changes]) := by
    rw [← List.singleton_append, ← List.append_assoc]
    exact (h.failed hf r).setVariables changes
  apply hnone.answersUnder ⟨hr', ?_⟩
  · rw [reading, hafter]
    exact hk
  · rw [hafter]
    exact hr.notOverridden

end Reading

/-- A request without an override that needs a configuration is answered under the one that was read
first in the run, whatever has happened since. Where none was read yet, it reads the environment as
it is: what it reads is the first reading of all that follows; what it cannot read is reported, the
service stays as it is, and the next request reads the variables as they are then. -/
theorem configuration_read_once (site : Site) (steps : List Step) (r : Request)
    (h : Consults site steps r) :
    (∀ k, FirstRead site steps k → ((initial site).run steps).1.AnswersUnder k r ∧
      ∀ later, FirstRead site (steps ++ later) k) ∧
    (NoneRead site steps → ∀ k, reading steps = .ok k → ((initial site).run steps).1.AnswersUnder k r ∧
      ∀ later, FirstRead site (steps ++ .request r :: later) k) ∧
    (NoneRead site steps → ∀ f, reading steps = .error f →
      ((initial site).run steps).1.answer r = (((initial site).run steps).1, .error (.configuration f)) ∧
      ∀ changes k r', r'.NeedsConfiguration site.toDepths → Configuration.ofEnvironment
          ((Surroundings.after steps).environment.setAll changes).1 = .ok k →
        ((initial site).run (steps ++ [.request r, .setVariables changes])).1.AnswersUnder k r') ∧
    (NoneRead site steps ∨ ∃ k, FirstRead site steps k) := by
  refine ⟨?_, ?_, ?_, ?_⟩
  · intro k hk
    exact ⟨hk.answersUnder h, hk.append⟩
  · intro hn k hk
    exact ⟨hn.answersUnder h hk, firstRead_now hn h hk⟩
  · intro hn f hf
    refine ⟨hn.answer_error h hf, ?_⟩
    intro changes k r' hr' hk
    exact hn.answersUnder_changed h hf changes hr' hk
  · rcases run_remembered site steps with ⟨hn, -⟩ | ⟨k, hk, -⟩
    · exact .inl hn
    · exact .inr ⟨k, hk⟩

/-- The catalog is asked for. -/
def catalogRequest : Request := ⟨.get, Endpoint.catalog.path, [], ⟨"", ""⟩⟩

def allowing (word : Text) : Step := .setVariables [(Environment.allowInvalidName, some word)]

/-- The environment cannot be read at first, then says yes, and at the end says no. -/
def wavering : List Step :=
  [allowing "maybe", .request catalogRequest, allowing "yes"] ++ .request catalogRequest ::
    [.configure (some (.object [])), .request catalogRequest, .configure none, allowing "no"]

theorem wavering_answered_under_first :
    Consults .least wavering catalogRequest ∧ FirstRead .least wavering ⟨true, none⟩ ∧
    reading wavering = .ok ⟨false, none⟩ ∧
    ((initial .least).run wavering).1.AnswersUnder ⟨true, none⟩ catalogRequest := by
  have hr : catalogRequest.NeedsConfiguration Site.least.toDepths := .catalog rfl (by decide)
  have hc : Consults .least wavering catalogRequest := ⟨hr, by decide +kernel⟩
  have hmaybe : reading [allowing "maybe"] = .error ⟨"maybe"⟩ := by decide +kernel
  have hnone : NoneRead .least [allowing "maybe", .request catalogRequest, allowing "yes"] :=
    ((noneRead_nil.setVariables _).failed hmaybe catalogRequest).setVariables _
  have hfirst : FirstRead .least wavering ⟨true, none⟩ :=
    firstRead_now hnone ⟨hr, by decide +kernel⟩ (by decide +kernel) _
  exact ⟨hc, hfirst, by decide +kernel, ((configuration_read_once _ _ _ hc).1 _ hfirst).1⟩

end Service

end Formulary
