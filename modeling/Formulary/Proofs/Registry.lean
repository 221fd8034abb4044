import Formulary.Proofs.Reading
import Formulary.Registry

/-! # What a registry holds

A registry that was filled by calls alone, of which any may have been refused, holds the guards of
the accepted calls and nothing else, in the order of their positions. One call keeps this, and so
does every run of calls.
-/

namespace Formulary
set_option autoImplicit false

namespace Candidate

/-- The guard that a candidate with an id and a position stands for. -/
def guard (c : Candidate) : Guard := ⟨c.id?.getD [], c.position?.getD 0, c.kind, c.check⟩

/-- A candidate has an id that is not empty and a position, and no guard of a list has either. -/
structure Fits (c : Candidate) (held : List Guard) : Prop where
  named : ∃ id, c.id? = some id ∧ id ≠ []
  placed : ∃ position, c.position? = some position
  free : ∀ g ∈ held, g.id ≠ c.guard.id ∧ g.position ≠ c.guard.position

theorem ident?_eq_some (c : Candidate) (id : Text) :
    c.ident? = some id ↔ c.id? = some id ∧ id ≠ [] := by
  simp [ident?, Option.filter_eq_some_iff]

theorem ident?_eq_none {c : Candidate} (h : c.ident? = none) (held : List Guard) :
    ¬ c.Fits held := by
  rintro ⟨⟨id, hid⟩, -, -⟩
  rw [(c.ident?_eq_some id).mpr hid] at h
  cases h

theorem guard_id {c : Candidate} {id : Text} (h : c.id? = some id) : c.guard.id = id := by
  simp [guard, h]

theorem guard_position {c : Candidate} {p : Int} (h : c.position? = some p) :
    c.guard.position = p := by
  simp [guard, h]

end Candidate

namespace Registry

/-! ## One call -/

theorem insert_perm (g : Guard) (gs : List Guard) : (insert g gs).Perm (g :: gs) := by
  induction gs with
  | nil => exact .refl _
  | cons h gs ih =>
    rw [insert]
    split
    · exact .refl _
    · exact (ih.cons h).trans (.swap g h gs)

theorem insert_ordered {g : Guard} {gs : List Guard}
    (ho : gs.Pairwise (·.position < ·.position)) (hg : ∀ h ∈ gs, h.position ≠ g.position) :
    (insert g gs).Pairwise (·.position < ·.position) := by
  induction gs with
  | nil => exact List.pairwise_singleton _ g
  | cons h gs ih =>
    obtain ⟨hh, ho⟩ := List.pairwise_cons.mp ho
    have hne := hg h (List.mem_cons_self ..)
    rw [insert]
    split
    · rename_i hlt
      refine List.pairwise_cons.mpr ⟨?_, List.pairwise_cons.mpr ⟨hh, ho⟩⟩
      intro k hk
      rcases List.mem_cons.mp hk with rfl | hk
      · exact hlt
      · have := hh k hk
        omega
    · rename_i hnlt
      refine List.pairwise_cons.mpr ⟨?_, ih ho fun k hk => hg k (List.mem_cons_of_mem _ hk)⟩
      intro k hk
      rcases List.mem_cons.mp ((insert_perm g gs).mem_iff.mp hk) with rfl | hk
      · omega
      · exact hh k hk

/-- A call is accepted exactly if its candidate fits, and then only adds its guard. -/
theorem register_eq_ok (r : Registry) (c : Candidate) (r' : Registry) :
    r.register c = .ok r' ↔ c.Fits r.guards ∧ r' = ⟨insert c.guard r.guards⟩ := by
  rw [register]
  cases hi : c.ident? with
  | none => simp [Candidate.ident?_eq_none hi]
  | some id =>
    obtain ⟨hid, hne⟩ := (c.ident?_eq_some id).mp hi
    have hgid := Candidate.guard_id hid
    by_cases htaken : ∃ g ∈ r.guards, g.id = id
    · obtain ⟨g, hg, he⟩ := htaken
      have hany : r.guards.any (·.id == id) = true := List.any_eq_true.mpr ⟨g, hg, by simp [he]⟩
      have hfit : ¬ c.Fits r.guards := fun h => (h.free g hg).1 (by rw [he, hgid])
      simp [hany, hfit]
    have hany : ¬ r.guards.any (·.id == id) = true := by simpa using htaken
    cases hp : c.position? with
    | none =>
      have hfit : ¬ c.Fits r.guards := by
        rintro ⟨-, ⟨p, h⟩, -⟩
        rw [hp] at h
        cases h
      simp [hany, hfit]
    | some p =>
      have hgp := Candidate.guard_position hp
      cases hf : r.guards.find? (·.position == p) with
      | some holder =>
        have hh : holder.position = p := by simpa using List.find?_some hf
        have hfit : ¬ c.Fits r.guards := fun h =>
          (h.free holder (List.mem_of_find?_eq_some hf)).2 (by rw [hh, hgp])
        simp [hany, hf, hfit]
      | none =>
        have hfree : ∀ g ∈ r.guards, g.position ≠ p := by simpa using hf
        have hfit : c.Fits r.guards := ⟨⟨id, hid, hne⟩, ⟨p, hp⟩, fun g hg =>
          ⟨fun he => htaken ⟨g, hg, by rw [he, hgid]⟩, fun he => hfree g hg (by rw [he, hgp])⟩⟩
        have hguard : c.guard = ⟨id, p, c.kind, c.check⟩ := by simp [Candidate.guard, hid, hp]
        simp [hany, hf, hfit, hguard, eq_comm]

/-! ## Runs of calls -/

/-- The guards of the accepted calls of a run, in the order of the calls. -/
def accepted (r : Registry) : List Candidate → List Guard
  | [] => []
  | c :: rest =>
    match r.register c with
    | .ok r' => c.guard :: r'.accepted rest
    | .error _ => r.accepted rest

/-- The registry holds some guards, each once, in the order of their positions. -/
structure Holds (r : Registry) (gs : List Guard) : Prop where
  perm : r.guards.Perm gs
  ordered : r.guards.Pairwise (·.position < ·.position)
  ids : (gs.map (·.id)).Nodup
  named : ∀ g ∈ gs, g.id ≠ []

theorem holds_empty : Holds empty [] :=
  ⟨.refl _, List.Pairwise.nil, List.nodup_nil, List.forall_mem_nil _⟩

theorem Holds.fits_iff {r : Registry} {gs : List Guard} (h : r.Holds gs) (c : Candidate) :
    c.Fits r.guards ↔ c.Fits gs :=
  ⟨fun hf => ⟨hf.named, hf.placed, fun g hg => hf.free g (h.perm.mem_iff.mpr hg)⟩,
    fun hf => ⟨hf.named, hf.placed, fun g hg => hf.free g (h.perm.mem_iff.mp hg)⟩⟩

theorem Holds.register {r r' : Registry} {gs : List Guard} {c : Candidate} (h : r.Holds gs)
    (hr : r.register c = .ok r') : r'.Holds (gs ++ [c.guard]) := by
  obtain ⟨hfit, rfl⟩ := (register_eq_ok r c r').mp hr
  have hfree := ((h.fits_iff c).mp hfit).free
  obtain ⟨id, hid, hne⟩ := hfit.named
  refine ⟨?_, ?_, ?_, ?_⟩
  · have hp := (insert_perm c.guard r.guards).trans (h.perm.cons c.guard)
    exact hp.trans (List.perm_append_singleton c.guard gs).symm
  · exact insert_ordered h.ordered fun g hg => (hfit.free g hg).2
  · rw [List.map_append, List.nodup_append]
    refine ⟨h.ids, List.nodup_singleton _, ?_⟩
    intro i hi j hj
    obtain ⟨g, hg, rfl⟩ := List.mem_map.mp hi
    rw [List.map_singleton, List.mem_singleton] at hj
    rw [hj]
    exact (hfree g hg).1
  · intro g hg
    rcases List.mem_append.mp hg with hg | hg
    · exact h.named g hg
    · rw [List.mem_singleton.mp hg, Candidate.guard_id hid]
      exact hne

theorem Holds.registerAll {r : Registry} {gs : List Guard} (h : r.Holds gs)
    (cs : List Candidate) : (r.registerAll cs).Holds (gs ++ r.accepted cs) := by
  induction cs generalizing r gs with
  | nil =>
    rw [accepted, List.append_nil]
    exact h
  | cons c cs ih =>
    rw [Registry.registerAll, List.foldl_cons, accepted]
    cases hr : r.register c with
    | error f => exact ih h
    | ok r' =>
      have hi := ih (h.register hr)
      rw [List.append_assoc] at hi
      exact hi

theorem registerAll_concat (r : Registry) (cs : List Candidate) (c : Candidate) :
    r.registerAll (cs ++ [c]) =
      match (r.registerAll cs).register c with
      | .ok r' => r'
      | .error _ => r.registerAll cs := by
  rw [registerAll, List.foldl_append]
  rfl

theorem accepted_concat (r : Registry) (cs : List Candidate) (c : Candidate) :
    r.accepted (cs ++ [c]) = r.accepted cs ++
      match (r.registerAll cs).register c with
      | .ok _ => [c.guard]
      | .error _ => [] := by
  induction cs generalizing r with
  | nil =>
    rw [List.nil_append, accepted, accepted, registerAll, List.foldl_nil, List.nil_append]
    cases r.register c <;> rfl
  | cons d cs ih =>
    rw [List.cons_append, accepted, accepted, registerAll, List.foldl_cons]
    cases r.register d with
    | error f => exact ih r
    | ok r' => exact congrArg (d.guard :: ·) (ih r')

/-! ## What can be asked -/

section Questions

variable {r : Registry} {gs : List Guard} (h : r.Holds gs)
include h

theorem Holds.positions : (gs.map (·.position)).Nodup := by
  have hn : (r.guards.map (·.position)).Nodup :=
    List.pairwise_map.mpr (h.ordered.imp fun hlt => Int.ne_of_lt hlt)
  exact (h.perm.map _).nodup_iff.mp hn

theorem Holds.createAll : r.createAll = .ok r.guards := by
  refine (mapM_eq_ok _ _ _).mpr (List.forall₂_same.mpr fun g hg => ?_)
  have hid : (Candidate.ofGuard g).ident? = some g.id :=
    (Candidate.ident?_eq_some _ _).mpr ⟨rfl, h.named g (h.perm.mem_iff.mp hg)⟩
  rw [Candidate.instantiate, hid]
  rfl

theorem Holds.get?_eq_some (id : Text) (g : Guard) :
    r.get? id = some g ↔ g ∈ gs ∧ g.id = id := by
  have hn : (r.guards.map (·.id)).Nodup := (h.perm.map _).nodup_iff.mpr h.ids
  rw [get?, Catalog.find?_key Guard.id hn, h.perm.mem_iff]

theorem Holds.get?_eq_none (id : Text) : r.get? id = none ↔ ∀ g ∈ gs, g.id ≠ id := by
  rw [Option.eq_none_iff_forall_ne_some]
  constructor
  · intro hn g hg he
    exact hn g ((h.get?_eq_some id g).mpr ⟨hg, he⟩)
  · intro hn g hg
    obtain ⟨hm, he⟩ := (h.get?_eq_some id g).mp hg
    exact hn g hm he

end Questions

/-- After any run of calls on a new registry, a call is accepted exactly if its candidate has an id
that is not empty and a position and no accepted guard has either; a call that is refused changes
nothing. The accepted guards have distinct ids and positions; they are listed and made, each once, in
the order of their positions, and each is found by its id. -/
theorem registerAll_holds_accepted (cs : List Candidate) :
    (∀ c, ((∃ r, (registerAll empty cs).register c = .ok r) ↔ c.Fits (accepted empty cs)) ∧
      (∀ r, (registerAll empty cs).register c = .ok r →
        registerAll empty (cs ++ [c]) = r ∧
          accepted empty (cs ++ [c]) = accepted empty cs ++ [c.guard]) ∧
      (∀ f, (registerAll empty cs).register c = .error f →
        registerAll empty (cs ++ [c]) = registerAll empty cs ∧
          accepted empty (cs ++ [c]) = accepted empty cs)) ∧
    ((accepted empty cs).map (·.id)).Nodup ∧
    (∀ g ∈ accepted empty cs, g.id ≠ []) ∧
    ((accepted empty cs).map (·.position)).Nodup ∧
    (∃ ordered : List Guard, ordered.Perm (accepted empty cs) ∧
      ordered.Pairwise (·.position < ·.position) ∧
      (registerAll empty cs).ids = ordered.map (·.id) ∧
      (registerAll empty cs).createAll = .ok ordered) ∧
    (∀ id, (∀ g, (registerAll empty cs).get? id = some g ↔ g ∈ accepted empty cs ∧ g.id = id) ∧
      ((registerAll empty cs).get? id = none ↔ ∀ g ∈ accepted empty cs, g.id ≠ id)) := by
  have h := holds_empty.registerAll cs
  rw [List.nil_append] at h
  refine ⟨fun c => ⟨?_, fun r hr => ?_, fun f hf => ?_⟩, h.ids, h.named, h.positions,
    ⟨_, h.perm, h.ordered, rfl, h.createAll⟩, fun id => ⟨h.get?_eq_some id, h.get?_eq_none id⟩⟩
  · rw [← h.fits_iff]
    simp only [register_eq_ok, exists_and_left, exists_eq, and_true]
  · rw [registerAll_concat, accepted_concat, hr]
    exact ⟨rfl, rfl⟩
  · rw [registerAll_concat, accepted_concat, hf, List.append_nil]
    exact ⟨rfl, rfl⟩

end Registry

end Formulary
