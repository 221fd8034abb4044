import Formulary.Proofs.Decision

/-! # Lists of built-in guards

The built-in guards may be run in any order, left out or repeated. Only the three that ask something
of the operator can fail to run, and only on a formula without one. Where the operator is there, a
list accepts exactly if each of its guards passes, so that neither order nor repetition matters, and
the two guards for one side of an operator add nothing to the guard for both.
-/

namespace Formulary
set_option autoImplicit false

namespace Guard

/-- The guards that ask something of the operator. -/
def ofOperator : List Guard := [operatorLeftType, operatorRightType, operatorTypePair]

def Rejects (g : Guard) (x : Context) : Prop := ∃ r, g.check x = .ok (some r)

theorem notMem_ofOperator {g : Guard} (h : g.id ∉ ofOperator.map (·.id)) : g ∉ ofOperator :=
  fun hg => h (List.mem_map_of_mem hg)

theorem passing_ne_error (ok : Bool) (r : Rejection) (e : AbsentOperator) :
    passing ok r ≠ .error e := by
  simp [passing]

/-- A built-in guard cannot run exactly if it asks something of an operator that is absent. -/
theorem stops_iff {g : Guard} (hg : g ∈ builtIn) (x : Context) :
    (∃ e, g.check x = .error e) ↔ x.formula.operator? = none ∧ g ∈ ofOperator := by
  simp only [builtIn, List.mem_cons, List.not_mem_nil, or_false] at hg
  rcases hg with rfl | rfl | rfl | rfl | rfl | rfl
  · have hm : completeness ∉ ofOperator := notMem_ofOperator (by decide)
    have hc : ∀ e, completeness.check x ≠ .error e := passing_ne_error _ _
    simp [hm, hc]
  · have hm : leftIsVariable ∉ ofOperator := notMem_ofOperator (by decide)
    have hc : ∀ e, leftIsVariable.check x ≠ .error e := passing_ne_error _ _
    simp [hm, hc]
  · have hm : rightClassifiable ∉ ofOperator := notMem_ofOperator (by decide)
    have hc : ∀ e, rightClassifiable.check x ≠ .error e := passing_ne_error _ _
    simp [hm, hc]
  · have hm : operatorLeftType ∈ ofOperator := by simp [ofOperator]
    simp only [operatorLeftType] at hm ⊢
    cases x.formula.operator? <;> simp [hm, passing_ne_error]
  · have hm : operatorRightType ∈ ofOperator := by simp [ofOperator]
    simp only [operatorRightType] at hm ⊢
    cases x.formula.operator? <;> simp [hm, passing_ne_error]
  · have hm : operatorTypePair ∈ ofOperator := by simp [ofOperator]
    simp only [operatorTypePair] at hm ⊢
    cases x.formula.operator? <;> simp [hm, passing_ne_error]

theorem kind_of_passing {ok : Bool} {r r' : Rejection} (h : passing ok r = .ok (some r')) :
    r'.kind = r.kind := by
  cases ok with
  | true => cases h
  | false =>
    cases h
    rfl

/-- What a guard rejects is of its own kind. -/
theorem kind_of_reject {g : Guard} (hg : g ∈ builtIn) {x : Context} {r : Rejection}
    (h : g.check x = .ok (some r)) : r.kind = g.kind := by
  simp only [builtIn, List.mem_cons, List.not_mem_nil, or_false] at hg
  rcases hg with rfl | rfl | rfl | rfl | rfl | rfl
  · exact kind_of_passing h
  · exact kind_of_passing h
  · exact kind_of_passing h
  · simp only [operatorLeftType] at h ⊢
    split at h
    · cases h
    · exact kind_of_passing h
  · simp only [operatorRightType] at h ⊢
    split at h
    · cases h
    · exact kind_of_passing h
  · simp only [operatorTypePair] at h ⊢
    split at h
    · cases h
    · exact kind_of_passing h

/-- The guard for both sides leaves nothing to the guards for one side. -/
theorem passes_sides {x : Context} (h : operatorTypePair.check x = .ok none) :
    operatorLeftType.check x = .ok none ∧ operatorRightType.check x = .ok none := by
  cases hop : x.formula.operator? with
  | none => simp [operatorTypePair, hop] at h
  | some op =>
    have hp := (operatorTypePair_pass hop).mp h
    exact ⟨(operatorLeftType_pass hop).mpr ⟨_, hp, rfl⟩,
      (operatorRightType_pass hop).mpr ⟨_, hp, rfl⟩⟩

end Guard

namespace Checker
open Guard

/-! ## Any list of guards -/

/-- Some guard of the list stops the check before another has rejected the formula. -/
theorem check_stops {x : Context} {before : List Guard} {g : Guard} {e : AbsentOperator}
    (hb : ∀ h ∈ before, ¬ h.Rejects x) (hg : g.check x = .error e) (after : List Guard) :
    ∃ e, check (before ++ g :: after) x = .error e := by
  have hf : ∃ e, firstRejection x (before ++ g :: after) = .error e := by
    induction before with
    | nil => exact ⟨e, by rw [List.nil_append, firstRejection, hg]⟩
    | cons h before ih =>
      rw [List.cons_append, firstRejection]
      cases hc : h.check x with
      | error e' => exact ⟨e', rfl⟩
      | ok r? =>
        cases r? with
        | none => exact ih fun k hk => hb k (List.mem_cons_of_mem _ hk)
        | some r => exact absurd ⟨r, hc⟩ (hb h (List.mem_cons_self ..))
  obtain ⟨e', he⟩ := hf
  exact ⟨e', by rw [check, run, he]; rfl⟩

/-- A list passes a context, or there is a first guard that cannot run on it or rejects it. -/
theorem passes_or_split (x : Context) (guards : List Guard) :
    Passes x guards ∨ ∃ before g after, guards = before ++ g :: after ∧ Passes x before ∧
      ((∃ e, g.check x = .error e) ∨ ∃ r, g.check x = .ok (some r)) := by
  induction guards with
  | nil => exact .inl (Passes.nil x)
  | cons g guards ih =>
    cases hg : g.check x with
    | error e => exact .inr ⟨[], g, guards, rfl, Passes.nil x, .inl ⟨e, hg⟩⟩
    | ok r? =>
      cases r? with
      | some r => exact .inr ⟨[], g, guards, rfl, Passes.nil x, .inr ⟨r, hg⟩⟩
      | none =>
        rcases ih with hp | ⟨before, k, after, rfl, hb, hk⟩
        · exact .inl (List.forall_mem_cons.mpr ⟨hg, hp⟩)
        · exact .inr ⟨g :: before, k, after, rfl, List.forall_mem_cons.mpr ⟨hg, hb⟩, hk⟩

theorem Passes.not_rejects {x : Context} {guards : List Guard} (h : Passes x guards) {g : Guard}
    (hg : g ∈ guards) : ¬ g.Rejects x := by
  rintro ⟨r, hr⟩
  rw [h g hg] at hr
  cases hr

theorem check_eq_accepted_iff (x : Context) (guards : List Guard) :
    check guards x = .ok .accepted ↔ Passes x guards := by
  refine ⟨fun h => ?_, check_of_pass⟩
  rcases passes_or_split x guards with hp | ⟨before, g, after, rfl, hb, ⟨e, he⟩ | ⟨r, hr⟩⟩
  · exact hp
  · rw [check_of_stop hb he] at h
    cases h
  · rw [check_of_reject hb hr] at h
    cases h

/-- The guards behind a list count only where the list passes. -/
theorem check_append {x : Context} {guards : List Guard} (h : ¬ Passes x guards)
    (rest : List Guard) : check (guards ++ rest) x = check guards x := by
  rcases passes_or_split x guards with hp | ⟨before, g, after, rfl, hb, ⟨e, he⟩ | ⟨r, hr⟩⟩
  · exact absurd hp h
  · rw [List.append_assoc, List.cons_append, check_of_stop hb he, check_of_stop hb he]
  · rw [List.append_assoc, List.cons_append, check_of_reject hb hr, check_of_reject hb hr]

/-! ## Lists of the six -/

/-- An operator is asked for, is absent, and no guard has rejected the formula before. -/
def AsksAbsent (x : Context) (guards : List Guard) : Prop :=
  x.formula.operator? = none ∧ ∃ before g after, guards = before ++ g :: after ∧
    g ∈ ofOperator ∧ ∀ h ∈ before, ¬ h.Rejects x

/-- The verdict of the first guard that rejects, or acceptance if none does. -/
inductive FirstVerdict (x : Context) : List Guard → Verdict → Prop where
  | rejected {before after : List Guard} {g : Guard} {r : Rejection}
      (hb : ∀ h ∈ before, ¬ h.Rejects x) (hg : g.check x = .ok (some r)) :
    FirstVerdict x (before ++ g :: after) (.rejected r)
  | accepted {guards : List Guard} (h : ∀ g ∈ guards, ¬ g.Rejects x) :
    FirstVerdict x guards .accepted

section Six

variable {x : Context} {guards : List Guard} (hgs : ∀ g ∈ guards, g ∈ builtIn)
include hgs

theorem check_cases : (AsksAbsent x guards ∧ ∃ e, check guards x = .error e) ∨
    (¬ AsksAbsent x guards ∧ ∃ v, check guards x = .ok v ∧ FirstVerdict x guards v) := by
  rcases passes_or_split x guards with hp | ⟨before, g, after, rfl, hb, ⟨e, hc⟩ | ⟨r, hc⟩⟩
  · refine .inr ⟨?_, .accepted, check_of_pass hp, .accepted fun g hg => hp.not_rejects hg⟩
    rintro ⟨hn, before, g, after, rfl, ho, -⟩
    have hm : g ∈ before ++ g :: after := by simp
    obtain ⟨e, he⟩ := (stops_iff (hgs g hm) x).mpr ⟨hn, ho⟩
    rw [hp g hm] at he
    cases he
  · have hm : g ∈ before ++ g :: after := by simp
    obtain ⟨hn, ho⟩ := (stops_iff (hgs g hm) x).mp ⟨e, hc⟩
    have hnr : ∀ k ∈ before, ¬ k.Rejects x := fun k hk => hb.not_rejects hk
    exact .inl ⟨⟨hn, before, g, after, rfl, ho, hnr⟩, check_stops hnr hc after⟩
  · have hv := check_of_reject hb hc after
    refine .inr ⟨?_, _, hv, .rejected (fun k hk => hb.not_rejects hk) hc⟩
    rintro ⟨hn, before', k, after', he, ho, hnr⟩
    have hk : k ∈ before ++ g :: after := by rw [he]; simp
    obtain ⟨e, hstop⟩ := (stops_iff (hgs k hk) x).mpr ⟨hn, ho⟩
    obtain ⟨e', herr⟩ := check_stops hnr hstop after'
    rw [← he, hv] at herr
    cases herr

end Six

/-- A list without the guards for one side of the operator. -/
def withoutSides (guards : List Guard) : List Guard :=
  guards.filter fun g => g.id ≠ operatorLeftType.id ∧ g.id ≠ operatorRightType.id

theorem eq_side_of_id {g : Guard} (hg : g ∈ builtIn)
    (hid : g.id = operatorLeftType.id ∨ g.id = operatorRightType.id) :
    g = operatorLeftType ∨ g = operatorRightType := by
  simp only [builtIn, List.mem_cons, List.not_mem_nil, or_false] at hg
  rcases hg with rfl | rfl | rfl | rfl | rfl | rfl
  · exact absurd hid (by decide)
  · exact absurd hid (by decide)
  · exact absurd hid (by decide)
  · exact .inl rfl
  · exact .inr rfl
  · exact absurd hid (by decide)

theorem passes_withoutSides {x : Context} {guards : List Guard} (hgs : ∀ g ∈ guards, g ∈ builtIn)
    (hp : operatorTypePair ∈ guards) : Passes x (withoutSides guards) ↔ Passes x guards := by
  constructor
  · intro h g hg
    have hpair : operatorTypePair.check x = .ok none :=
      h _ (List.mem_filter.mpr ⟨hp, by decide⟩)
    by_cases hid : g.id = operatorLeftType.id ∨ g.id = operatorRightType.id
    · rcases eq_side_of_id (hgs g hg) hid with rfl | rfl
      · exact (passes_sides hpair).1
      · exact (passes_sides hpair).2
    · exact h g (List.mem_filter.mpr ⟨hg, by simpa [not_or] using hid⟩)
  · intro h g hg
    exact h g (List.mem_filter.mp hg).1

/-- The guards that a list needs to accept what the built-in order accepts, with the one for absent
fields in front of every guard of the operator. -/
structure Sufficient (guards : List Guard) : Prop where
  complete : ∃ before after, guards = before ++ completeness :: after ∧
    ∀ g ∈ before, g ∉ ofOperator
  left : leftIsVariable ∈ guards
  right : rightClassifiable ∈ guards
  pair : operatorTypePair ∈ guards

theorem Sufficient.passes_iff {guards : List Guard} (hs : Sufficient guards)
    (hgs : ∀ g ∈ guards, g ∈ builtIn) (x : Context) : Passes x guards ↔ Passes x builtIn := by
  constructor
  · intro h
    obtain ⟨before, after, rfl, -⟩ := hs.complete
    have hpair := passes_sides (h _ hs.pair)
    simp only [Passes, builtIn, List.forall_mem_cons]
    exact ⟨h _ (by simp), h _ hs.left, h _ hs.right, hpair.1, hpair.2, h _ hs.pair,
      List.forall_mem_nil _⟩
  · intro h g hg
    exact h g (hgs g hg)

/-- Behind the guard for absent fields no operator is asked for in vain. -/
theorem Sufficient.not_asksAbsent {guards : List Guard} (hs : Sufficient guards) (x : Context) :
    ¬ AsksAbsent x guards := by
  rintro ⟨hn, before, g, after, he, ho, hb⟩
  obtain ⟨front, back, rfl, hfront⟩ := hs.complete
  have hne : g ≠ completeness := fun h => notMem_ofOperator (by decide) (h ▸ ho)
  have hm : completeness ∈ before := by
    rcases List.append_eq_append_iff.mp he with ⟨mid, rfl, hmid⟩ | ⟨mid, rfl, hmid⟩
    · cases mid with
      | nil => exact absurd (List.cons.inj hmid).1.symm hne
      | cons k mid => rw [(List.cons.inj hmid).1]; simp
    · cases mid with
      | nil => exact absurd (List.cons.inj hmid).1 hne
      | cons k mid =>
        have hg : g ∈ before ++ k :: mid := by rw [(List.cons.inj hmid).1]; simp
        exact absurd ho (hfront g hg)
  have hc : ¬ x.formula.isComplete = true := by simp [Formula.isComplete, hn]
  exact hb completeness hm ⟨_, passing_of_not _ hc⟩

/-- On a list of built-in guards the check fails to run exactly if an operator is asked for before a
guard has rejected the formula and the formula has none; otherwise it gives the verdict of the first
guard that rejects. Acceptance depends on which guards are in the list, and on the guards for one
side of the operator only where the one for both is missing. A list with the guard for absent fields
in front of those of the operator, and with the other three that count, accepts what the built-in
order accepts. -/
theorem check_builtIn_list (guards : List Guard) (hgs : ∀ g ∈ guards, g ∈ builtIn) (c : Catalog)
    (f : Formula) :
    ((∃ e, check guards ⟨f, c⟩ = .error e) ↔ AsksAbsent ⟨f, c⟩ guards) ∧
    (¬ AsksAbsent ⟨f, c⟩ guards →
      ∃ v, check guards ⟨f, c⟩ = .ok v ∧ FirstVerdict ⟨f, c⟩ guards v) ∧
    (∀ guards' : List Guard, (∀ g, g ∈ guards' ↔ g ∈ guards) →
      (check guards' ⟨f, c⟩ = .ok .accepted ↔ check guards ⟨f, c⟩ = .ok .accepted)) ∧
    (operatorTypePair ∈ guards →
      (check (withoutSides guards) ⟨f, c⟩ = .ok .accepted ↔
        check guards ⟨f, c⟩ = .ok .accepted)) ∧
    (Sufficient guards → (∃ v, check guards ⟨f, c⟩ = .ok v) ∧
      (check guards ⟨f, c⟩ = .ok .accepted ↔ checkFormula c f = .ok .accepted)) := by
  have hcases := check_cases (x := ⟨f, c⟩) hgs
  refine ⟨⟨?_, ?_⟩, ?_, fun guards' hm => ?_, fun hp => ?_, fun hs => ⟨?_, ?_⟩⟩
  · rintro ⟨e, he⟩
    rcases hcases with ⟨ha, -⟩ | ⟨-, v, hv, -⟩
    · exact ha
    · rw [hv] at he
      cases he
  · intro ha
    rcases hcases with ⟨-, he⟩ | ⟨hn, -⟩
    · exact he
    · exact absurd ha hn
  · intro hn
    rcases hcases with ⟨ha, -⟩ | ⟨-, hv⟩
    · exact absurd ha hn
    · exact hv
  · simp only [check_eq_accepted_iff, Passes, hm]
  · rw [check_eq_accepted_iff, check_eq_accepted_iff, passes_withoutSides hgs hp]
  · rcases hcases with ⟨ha, -⟩ | ⟨-, v, hv, -⟩
    · exact absurd ha (hs.not_asksAbsent _)
    · exact ⟨v, hv⟩
  · rw [checkFormula, check_eq_accepted_iff, check_eq_accepted_iff, hs.passes_iff hgs]

/-- A guard of the operator in front of the one for absent fields is asked in vain. -/
theorem check_pair_before_completeness :
    (∀ g ∈ [leftIsVariable, operatorTypePair, completeness], g ∈ builtIn) ∧
    AsksAbsent ⟨⟨some "transaction.amount", none, some "25"⟩, .builtIn⟩
      [leftIsVariable, operatorTypePair, completeness] ∧
    ∃ e, check [leftIsVariable, operatorTypePair, completeness]
      ⟨⟨some "transaction.amount", none, some "25"⟩, .builtIn⟩ = .error e := by
  have hgs : ∀ g ∈ [leftIsVariable, operatorTypePair, completeness], g ∈ builtIn := by
    simp [builtIn]
  have hp : Passes ⟨⟨some "transaction.amount", none, some "25"⟩, .builtIn⟩ [leftIsVariable] :=
    List.forall_mem_singleton.mpr rfl
  have ha : AsksAbsent ⟨⟨some "transaction.amount", none, some "25"⟩, .builtIn⟩
      [leftIsVariable, operatorTypePair, completeness] :=
    ⟨rfl, [leftIsVariable], operatorTypePair, [completeness], rfl, by simp [ofOperator],
      fun g hg => hp.not_rejects hg⟩
  exact ⟨hgs, ha, (check_builtIn_list _ hgs .builtIn _).1.mpr ha⟩

end Checker

end Formulary
