import Formulary.Proofs.GuardList
import Formulary.Proofs.Registry

/-! # The order of registration

Guards with distinct ids and distinct positions can be registered in any order. No call is refused,
since what keeps a guard out does not depend on which of the others came before it. The registry
then holds all of them in the one order that their positions allow, so every check runs the same
guards in the same order.
-/

namespace Formulary
set_option autoImplicit false

namespace Registry
open Checker

/-- Guards that one registry can hold together. -/
structure Compatible (gs : List Guard) : Prop where
  ids : (gs.map (·.id)).Nodup
  named : ∀ g ∈ gs, g.id ≠ []
  positions : (gs.map (·.position)).Nodup

theorem Compatible.of_perm {gs gs' : List Guard} (h : Compatible gs) (hp : gs'.Perm gs) :
    Compatible gs' where
  ids := (hp.map _).nodup_iff.mpr h.ids
  named g hg := h.named g (hp.mem_iff.mp hg)
  positions := (hp.map _).nodup_iff.mpr h.positions

theorem Compatible.fits {held gs : List Guard} {g : Guard} (h : Compatible (held ++ g :: gs)) :
    (Candidate.ofGuard g).Fits held := by
  have hids := h.ids
  have hpositions := h.positions
  rw [List.map_append, List.nodup_append] at hids hpositions
  refine ⟨⟨g.id, rfl, h.named g (by simp)⟩, ⟨g.position, rfl⟩, ?_⟩
  intro k hk
  constructor
  · exact hids.2.2 _ (List.mem_map_of_mem hk) _ (by simp [Candidate.ofGuard, Candidate.guard])
  · exact hpositions.2.2 _ (List.mem_map_of_mem hk) _
      (by simp [Candidate.ofGuard, Candidate.guard])

/-! ## No call is refused -/

theorem Holds.registerEach {r : Registry} {held gs : List Guard} (h : r.Holds held)
    (hc : Compatible (held ++ gs)) :
    ∃ r', (gs.map Candidate.ofGuard).foldlM Registry.register r = .ok r' ∧
      r'.Holds (held ++ gs) := by
  -- the guards registered so far move from the list to what is held
  induction gs generalizing r held with
  | nil =>
    refine ⟨r, rfl, ?_⟩
    rw [List.append_nil]
    exact h
  | cons g gs ih =>
    have hfit := (h.fits_iff (.ofGuard g)).mpr hc.fits
    have hr := (register_eq_ok r (.ofGuard g) _).mpr ⟨hfit, rfl⟩
    have hnext : Compatible (held ++ [g] ++ gs) := by
      rw [List.append_assoc]
      exact hc
    obtain ⟨r', hr', hh⟩ := ih (h.register hr) hnext
    refine ⟨r', ?_, ?_⟩
    · rw [List.map_cons, List.foldlM_cons, hr]
      exact hr'
    · rw [List.append_assoc] at hh
      exact hh

/-! ## One order of evaluation -/

theorem eq_of_ordered {xs ys : List Guard} (hx : xs.Pairwise (·.position < ·.position))
    (hy : ys.Pairwise (·.position < ·.position)) (hp : xs.Perm ys) : xs = ys := by
  apply List.Perm.eq_of_pairwise _ hx hy hp
  intro a b _ _ hab hba
  omega

/-- The outcome of a check as the positions alone decide it: the guard that has the smallest position
of those that do not pass rejects the formula, or cannot be run on it. -/
inductive DecidedBy (gs : List Guard) (x : Context) : Except AbsentOperator Verdict → Prop where
  | accepted (h : ∀ g ∈ gs, g.check x = .ok none) : DecidedBy gs x (.ok .accepted)
  | rejected {g : Guard} {r : Rejection} (hg : g ∈ gs) (hr : g.check x = .ok (some r))
      (first : ∀ k ∈ gs, k.position < g.position → k.check x = .ok none) :
    DecidedBy gs x (.ok (.rejected r))
  | stopped {g : Guard} {e : AbsentOperator} (hg : g ∈ gs) (he : g.check x = .error e)
      (first : ∀ k ∈ gs, k.position < g.position → k.check x = .ok none) :
    DecidedBy gs x (.error e)

theorem check_decidedBy {ordered gs : List Guard} (hp : ordered.Perm gs)
    (ho : ordered.Pairwise (·.position < ·.position)) (x : Context) :
    DecidedBy gs x (check ordered x) := by
  rcases passes_or_split x ordered with hpass | ⟨before, g, after, rfl, hb, hc⟩
  · rw [check_of_pass hpass]
    apply DecidedBy.accepted
    intro g hg
    exact hpass g (hp.mem_iff.mpr hg)
  · have hm : g ∈ gs := hp.mem_iff.mp (by simp)
    have hafter := (List.pairwise_cons.mp (List.pairwise_append.mp ho).2.1).1
    -- only the guards in front of `g` have a smaller position
    have first : ∀ k ∈ gs, k.position < g.position → k.check x = .ok none := by
      intro k hk hlt
      rcases List.mem_append.mp (hp.mem_iff.mpr hk) with hk | hk
      · exact hb k hk
      · rcases List.mem_cons.mp hk with rfl | hk
        · omega
        · have hgt := hafter k hk
          omega
    rcases hc with ⟨e, hc⟩ | ⟨r, hc⟩
    · rw [check_of_stop hb hc]
      exact .stopped hm hc first
    · rw [check_of_reject hb hc]
      exact .rejected hm hc first

theorem DecidedBy.check_eq {ordered gs : List Guard} {x : Context}
    {out : Except AbsentOperator Verdict} (h : DecidedBy gs x out) (hp : ordered.Perm gs)
    (ho : ordered.Pairwise (·.position < ·.position)) : check ordered x = out := by
  have front : ∀ g ∈ gs, (∀ k ∈ gs, k.position < g.position → k.check x = .ok none) →
      ∃ before after, ordered = before ++ g :: after ∧ Passes x before := by
    intro g hg first
    obtain ⟨before, after, rfl⟩ := List.append_of_mem (hp.mem_iff.mpr hg)
    refine ⟨before, after, rfl, ?_⟩
    intro k hk
    apply first k (hp.mem_iff.mp (List.mem_append_left _ hk))
    exact (List.pairwise_append.mp ho).2.2 k hk g (List.mem_cons_self ..)
  cases h with
  | accepted h => exact check_of_pass fun g hg => h g (hp.mem_iff.mp hg)
  | rejected hg hr first =>
    obtain ⟨before, after, rfl, hb⟩ := front _ hg first
    exact check_of_reject hb hr after
  | stopped hg he first =>
    obtain ⟨before, after, rfl, hb⟩ := front _ hg first
    exact check_of_stop hb he after

/-! ## The built-in guards -/

theorem builtIn_compatible : Compatible Guard.builtIn where
  ids := by decide
  named := by
    rw [← List.forall_mem_map (f := Guard.id) (P := (· ≠ []))]
    decide
  positions := by decide

theorem builtIn_ordered : Guard.builtIn.Pairwise (·.position < ·.position) := by
  rw [← List.pairwise_map (f := Guard.position) (R := (· < ·))]
  decide

theorem registerAll_of_foldlM {r r' : Registry} {cs : List Candidate}
    (h : cs.foldlM Registry.register r = .ok r') : r.registerAll cs = r' := by
  induction cs generalizing r with
  | nil =>
    cases h
    rfl
  | cons c cs ih =>
    rw [List.foldlM_cons] at h
    rw [registerAll, List.foldl_cons]
    cases hr : r.register c with
    | error f =>
      rw [hr] at h
      cases h
    | ok r₁ =>
      rw [hr] at h
      exact ih h

/-- In whatever order the built-in guards are registered, they are made in the order in which every
formula is checked by them. -/
theorem createAll_builtIn {gs : List Guard} (hp : gs.Perm Guard.builtIn) :
    (registerAll empty (gs.map .ofGuard)).createAll = .ok Guard.builtIn := by
  obtain ⟨r, hr, h⟩ := holds_empty.registerEach (builtIn_compatible.of_perm hp)
  rw [registerAll_of_foldlM hr, h.createAll]
  exact congrArg _ (eq_of_ordered h.ordered builtIn_ordered (h.perm.trans hp))

theorem checkFormula_builtIn (c : Catalog) (f : Formula) :
    ∃ guards, builtIn.createAll = .ok guards ∧ checkFormula c f = check guards ⟨f, c⟩ :=
  ⟨_, createAll_builtIn (.refl _), rfl⟩

/-! ## Any guards -/

/-- Guards with distinct ids that are not empty and distinct positions are all accepted, in whatever
order they are registered, and are listed, made and run in one and the same order. What they say to
a formula is what their positions decide. -/
theorem registration_order_irrelevant (gs : List Guard) (hids : (gs.map (·.id)).Nodup)
    (hnamed : ∀ g ∈ gs, g.id ≠ []) (hpositions : (gs.map (·.position)).Nodup) :
    ∃ ordered : List Guard, ordered.Perm gs ∧ ordered.Pairwise (·.position < ·.position) ∧
      (∀ gs' : List Guard, gs'.Perm gs →
        ∃ r, (gs'.map Candidate.ofGuard).foldlM register empty = .ok r ∧
          r.ids = ordered.map (·.id) ∧ r.createAll = .ok ordered) ∧
      ∀ (c : Catalog) (f : Formula) (out : Except AbsentOperator Verdict),
        check ordered ⟨f, c⟩ = out ↔ DecidedBy gs ⟨f, c⟩ out := by
  have hc : Compatible gs := ⟨hids, hnamed, hpositions⟩
  obtain ⟨r₀, -, h₀⟩ := holds_empty.registerEach hc
  refine ⟨r₀.guards, h₀.perm, h₀.ordered, ?_, ?_⟩
  · intro gs' hp
    obtain ⟨r, hr, h⟩ := holds_empty.registerEach (hc.of_perm hp)
    have he : r.guards = r₀.guards :=
      eq_of_ordered h.ordered h₀.ordered (h.perm.trans (hp.trans h₀.perm.symm))
    refine ⟨r, hr, ?_, ?_⟩
    · rw [ids, he]
    · rw [h.createAll, he]
  · intro c f out
    constructor
    · intro h
      rw [← h]
      exact check_decidedBy h₀.perm h₀.ordered ⟨f, c⟩
    · intro h
      exact h.check_eq h₀.perm h₀.ordered

/-- The built-in guards, registered from the last one to the first. -/
theorem builtIn_registered_backwards :
    ((Guard.builtIn.map (·.id)).Nodup ∧ (∀ g ∈ Guard.builtIn, g.id ≠ []) ∧
      (Guard.builtIn.map (·.position)).Nodup) ∧
    ∃ r, (Guard.builtIn.reverse.map Candidate.ofGuard).foldlM register empty = .ok r ∧
      r.ids = Guard.builtIn.map (·.id) ∧ r.createAll = .ok Guard.builtIn := by
  obtain ⟨hids, hnamed, hpositions⟩ := builtIn_compatible
  obtain ⟨ordered, hp, ho, h, -⟩ :=
    registration_order_irrelevant Guard.builtIn hids hnamed hpositions
  have he : ordered = Guard.builtIn := eq_of_ordered ho builtIn_ordered hp
  obtain ⟨r, hr, hi, hcreate⟩ := h _ (List.reverse_perm Guard.builtIn)
  rw [he] at hi hcreate
  exact ⟨⟨hids, hnamed, hpositions⟩, r, hr, hi, hcreate⟩

end Registry

end Formulary
