import Formulary.Proofs.Recency
import Formulary.Proofs.Service

/-! # The catalogs that a service remembers

A run is read as the list of its accesses to the memory of catalogs: one for each request that gets
as far as asking for the catalog of the configuration in force. Environment, files and overrides
change what an access finds, never the memory. So the memory after any run is that of its accesses.
-/

namespace Formulary.Service
set_option autoImplicit false

/-! ## The accesses of a run -/

/-- The catalog of a configuration as some files give it to a service. -/
def loadFrom (s : Service) (files : Files) (k : Configuration) : Except LoadFault Catalog :=
  k.loadCatalog s.site.toHost files

/-- An access to the memory of catalogs, with the files at that time. -/
abbrev CatalogAccess := Recency.Access Configuration Catalog Files

/-- The configuration whose catalog a step asks for. -/
def asked? (s : Service) : Step → Option Configuration
  | .request r =>
    match r.plan s.site with
    | .settled _ => none
    | .pending _ => s.inForce?
  | _ => none

/-- The accesses of a run, the latest first. -/
def accesses (s : Service) : List Step → List CatalogAccess
  | [] => []
  | x :: rest =>
    accesses (s.step x).1 rest ++
      (s.asked? x).toList.map fun k => ⟨k, s.files, s.catalogs⟩

/-- The configurations whose catalogs were found or loaded, the latest first. -/
def used (s : Service) (seen : List CatalogAccess) : List Configuration :=
  Recency.used capacity s.loadFrom seen

/-- The configuration was used, and fewer than eight others were used since. -/
def UsedLately (s : Service) (seen : List CatalogAccess) (k : Configuration) : Prop :=
  k ∈ s.used seen ∧ ((s.used seen).takeWhile (· ≠ k)).toFinset.card < 8

/-! ## What a step does to the memory -/

/-- A step that asks for no catalog leaves the memory alone. -/
theorem step_not_asked {s : Service} {x : Step} (h : s.asked? x = none) :
    (s.step x).1.catalogs = s.catalogs := by
  cases x with
  | setVariables changes => rfl
  | setFiles files => rfl
  | configure given? => rw [step, configure_frame]
  | request r =>
    rw [step_request]
    simp only [asked?] at h
    split at h
    · rename_i a hp
      rw [answer_eq, hp, carryOut]
    · rename_i next hp
      obtain ⟨f, hu⟩ := inForce?_eq_none h
      rw [answer_unconfigured hp hu]

/-- A step that asks for a catalog is an access to the memory. -/
theorem step_asked {s : Service} {x : Step} {k : Configuration} (h : s.asked? x = some k) :
    (s.step x).1.catalogs = (s.catalogs.access capacity k (s.loadFrom s.files)).2 := by
  cases x with
  | request r =>
    rw [step_request]
    simp only [asked?] at h
    split at h
    · cases h
    · rename_i next hp
      rw [answer_inForce hp (inForce?_eq_some h)]
      rfl
  | setVariables changes => cases h
  | setFiles files => cases h
  | configure given? => cases h

theorem loadFrom_step (s : Service) (x : Step) : (s.step x).1.loadFrom = s.loadFrom := by
  unfold loadFrom
  rw [step_site]

theorem loadFrom_run (s : Service) (steps : List Step) :
    (s.run steps).1.loadFrom = s.loadFrom := by
  unfold loadFrom
  rw [run_site]

theorem history_step {seen : List CatalogAccess} {s : Service}
    (h : Recency.History capacity s.loadFrom seen s.catalogs) (x : Step) :
    Recency.History capacity s.loadFrom
      ((s.asked? x).toList.map (fun k => ⟨k, s.files, s.catalogs⟩) ++ seen)
      (s.step x).1.catalogs := by
  cases hx : s.asked? x with
  | none =>
    rw [step_not_asked hx]
    exact h
  | some k =>
    rw [step_asked hx]
    exact h.next k s.files

theorem history_run {seen : List CatalogAccess} {s : Service}
    (h : Recency.History capacity s.loadFrom seen s.catalogs) (steps : List Step) :
    Recency.History capacity s.loadFrom (s.accesses steps ++ seen) (s.run steps).1.catalogs := by
  induction steps generalizing seen s with
  | nil => exact h
  | cons x rest ih =>
    have hx := history_step h x
    rw [← s.loadFrom_step x] at hx ⊢
    rw [accesses, List.append_assoc]
    exact ih hx

/-! ## What the memory holds -/

/-- What the memory of a service holds after its accesses, and what it answers from it. -/
structure Remembers (seen : List CatalogAccess) (s : Service) : Prop where
  /-- It holds the configurations used last, at most eight of them, in the order of their use. -/
  keys : s.catalogs.keys = (s.used seen).eraseDups.take 8
  /-- No configuration is held twice. -/
  distinct : s.catalogs.keys.Nodup
  /-- A catalog is held as it was loaded when its configuration was last missed. -/
  loaded : ∀ k c, s.catalogs.get? k = some c → ∃ newer a older, seen = newer ++ a :: older ∧
    a.key = k ∧ a.before.get? k = none ∧ s.loadFrom a.world k = .ok c ∧
    ∀ b ∈ newer, b.key = k → b.before.get? k = some c
  /-- A load that fails changes nothing. -/
  failed : ∀ x k f, s.asked? x = some k → s.catalogs.get? k = none →
    s.loadFrom s.files k = .error f → (s.step x).1.catalogs = s.catalogs
  /-- A request under a configuration that was used lately is answered from the held catalog. -/
  held : ∀ r next k, r.plan s.site = .pending next → s.inForce? = some k → s.UsedLately seen k →
    ∃ c, s.catalogs.get? k = some c ∧ (s.answer r).2 = next k c
  /-- Any other request is answered from the files as they are now. -/
  current : ∀ r next k, r.plan s.site = .pending next → s.inForce? = some k →
    ¬ s.UsedLately seen k →
      s.catalogs.get? k = none ∧ (s.answer r).2 = respond next k (s.loadFrom s.files k)

theorem answer_pending {s : Service} {r : Request}
    {next : Configuration → Catalog → Except Escape Response} {k : Configuration}
    (hp : r.plan s.site = .pending next) (hk : s.inForce? = some k) :
    (s.answer r).2 =
      respond next k (s.catalogs.access capacity k (s.loadFrom s.files)).1 := by
  rw [answer_inForce hp (inForce?_eq_some hk)]
  rfl

theorem remembers_of_history {seen : List CatalogAccess} {s : Service}
    (h : Recency.History capacity s.loadFrom seen s.catalogs) : Remembers seen s where
  keys := h.keys_eq
  distinct := h.nodup_keys
  loaded _ _ hk := h.loaded hk
  failed x k f hx hk hl := by rw [step_asked hx, Recency.access_fail capacity hk hl]
  held r next k hp hk hu := by
    obtain ⟨c, hc⟩ := Option.isSome_iff_exists.mp ((h.isSome_get? k).mpr hu)
    refine ⟨c, hc, ?_⟩
    rw [answer_pending hp hk, Recency.access_hit capacity _ hc]
    rfl
  current r next k hp hk hu := by
    have hc : s.catalogs.get? k = none := by
      rw [← Option.not_isSome_iff_eq_none, h.isSome_get? k]
      exact hu
    refine ⟨hc, ?_⟩
    rw [answer_pending hp hk]
    cases hl : s.loadFrom s.files k with
    | error f => rw [Recency.access_fail capacity hc hl]
    | ok c => rw [Recency.access_load capacity hc hl]

/-- After any run from the start the memory is as its accesses have left it. -/
theorem run_remembers (site : Site) (steps : List Step) :
    Remembers ((initial site).accesses steps) ((initial site).run steps).1 := by
  have h := history_run (s := initial site) .start steps
  rw [List.append_nil, ← (initial site).loadFrom_run steps] at h
  exact remembers_of_history h

end Formulary.Service
