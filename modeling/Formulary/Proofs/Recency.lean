import Formulary.Recency
import Mathlib.Data.Finset.Card

/-! # What a bounded memory holds

The bounded memory is held against the whole list of its accesses, the latest first. It holds the
keys that were accessed with success, each where it stands first in that list, up to its capacity,
and under each key the value that was loaded when the key was last missed.
-/

namespace Formulary
set_option autoImplicit false

/-! ## Keys in the order of their latest occurrence -/

namespace Recency

section Keys

variable {κ : Type} [DecidableEq κ]

theorem filter_of_notMem {k : κ} {ks : List κ} (h : k ∉ ks) :
    ks.filter (fun b => !b == k) = ks := by
  refine List.filter_eq_self.mpr fun b hb => ?_
  have hbk : b ≠ k := fun e => h (e ▸ hb)
  simpa using hbk

theorem nodup_eraseDups (ks : List κ) : ks.eraseDups.Nodup := by
  induction h : ks.length using Nat.strongRecOn generalizing ks with
  | ind n ih =>
    cases ks with
    | nil => simp
    | cons k ks =>
      have hlen : (ks.filter fun b => !b == k).length < n := by
        have := List.length_filter_le (fun b => !b == k) ks
        rw [List.length_cons] at h
        omega
      rw [List.eraseDups_cons, List.nodup_cons]
      refine ⟨fun hk => ?_, ih _ hlen _ rfl⟩
      simpa using List.mem_eraseDups.mp hk

theorem eraseDups_filter (p : κ → Bool) (ks : List κ) :
    (ks.filter p).eraseDups = ks.eraseDups.filter p := by
  induction h : ks.length using Nat.strongRecOn generalizing ks with
  | ind n ih =>
    cases ks with
    | nil => rfl
    | cons k ks =>
      have hlen : (ks.filter fun b => !b == k).length < n := by
        have := List.length_filter_le (fun b => !b == k) ks
        rw [List.length_cons] at h
        omega
      have hrest := ih _ hlen _ rfl
      have hcomm : (ks.filter fun b => !b == k).filter p =
          (ks.filter p).filter fun b => !b == k := by
        rw [List.filter_filter, List.filter_filter]
        exact List.filter_congr fun b _ => Bool.and_comm _ _
      rw [List.eraseDups_cons, List.filter_cons, List.filter_cons, ← hrest, hcomm]
      split
      · rw [List.eraseDups_cons]
      · rename_i hk
        rw [filter_of_notMem fun h => hk (List.mem_filter.mp h).2]

theorem eraseDups_cons_filter (k : κ) (ks : List κ) :
    (k :: ks).eraseDups = k :: ks.eraseDups.filter fun b => !b == k := by
  rw [List.eraseDups_cons, eraseDups_filter]

theorem length_eraseDups (ks : List κ) : ks.eraseDups.length = ks.toFinset.card := by
  have hset : ks.eraseDups.toFinset = ks.toFinset := by
    ext k
    simp only [List.mem_toFinset, List.mem_eraseDups]
  rw [← hset, List.toFinset_card_of_nodup (nodup_eraseDups ks)]

/-- A list is what stands before the first occurrence of a key, the key, and the rest. -/
theorem takeWhile_split {k : κ} {ks : List κ} (h : k ∈ ks) :
    k ∉ ks.takeWhile (· ≠ k) ∧ ∃ post, ks = ks.takeWhile (· ≠ k) ++ k :: post := by
  induction ks with
  | nil => simp at h
  | cons a ks ih =>
    by_cases ha : a = k
    · subst ha
      simp
    · obtain ⟨hpre, post, hpost⟩ := ih (List.mem_of_ne_of_mem (Ne.symm ha) h)
      rw [List.takeWhile_cons_of_pos (by simpa using ha)]
      refine ⟨?_, post, ?_⟩
      · rw [List.mem_cons, not_or]
        exact ⟨Ne.symm ha, hpre⟩
      · rw [List.cons_append, ← hpost]

/-- A key is among the first `n` distinct ones exactly if fewer than `n` others come before it. -/
theorem mem_take_eraseDups (k : κ) (n : ℕ) (ks : List κ) :
    k ∈ ks.eraseDups.take n ↔ k ∈ ks ∧ (ks.takeWhile (· ≠ k)).toFinset.card < n := by
  by_cases hk : k ∈ ks
  swap
  · simp only [hk, false_and, iff_false]
    exact fun h => hk (List.mem_eraseDups.mp (List.mem_of_mem_take h))
  obtain ⟨hpre, post, hsplit⟩ := takeWhile_split hk
  have hpre' : k ∉ (ks.takeWhile (· ≠ k)).eraseDups := fun h => hpre (List.mem_eraseDups.mp h)
  have hdups : ks.eraseDups = (ks.takeWhile (· ≠ k)).eraseDups ++
      k :: ((post.removeAll (ks.takeWhile (· ≠ k))).filter fun b => !b == k).eraseDups := by
    conv_lhs => rw [hsplit]
    rw [List.eraseDups_append, List.cons_removeAll, if_pos (by simpa using hpre),
      List.eraseDups_cons]
  rw [List.mem_take_iff_idxOf_lt (List.mem_eraseDups.mpr hk), hdups,
    List.idxOf_append_of_notMem hpre', List.idxOf_cons_self, Nat.add_zero, length_eraseDups]
  simp [hk]

end Keys

/-! ## One access -/

section Access

variable {κ α ε : Type} [DecidableEq κ] {r : Recency κ α} {k : κ}

theorem mem_keys (r : Recency κ α) (k : κ) : k ∈ r.keys ↔ (r.get? k).isSome = true := by
  rw [get?, List.lookup_isSome_iff]
  simp [keys]

theorem get?_eq_none (r : Recency κ α) (k : κ) : r.get? k = none ↔ k ∉ r.keys := by
  rw [mem_keys]
  cases r.get? k <;> simp

theorem keys_without (r : Recency κ α) (k : κ) :
    (r.without k).map (·.1) = r.keys.filter fun b => !b == k := by
  rw [without, keys, List.filter_map]
  rfl

theorem lookup_without {k' : κ} (h : k' ≠ k) : (r.without k).lookup k' = r.get? k' := by
  rw [without, get?]
  induction r.entries with
  | nil => rfl
  | cons e es ih =>
    obtain ⟨a, v⟩ := e
    rw [List.filter_cons, List.lookup_cons]
    by_cases ha : a = k
    · subst ha
      have hk' : (k' == a) = false := by simpa using h
      simp [hk', ih]
    · simp [ha, ih, List.lookup_cons]

theorem access_hit (capacity : ℕ) {v : α} (load : κ → Except ε α) (h : r.get? k = some v) :
    r.access capacity k load = (.ok v, ⟨(k, v) :: r.without k⟩) := by
  rw [access, h]

theorem access_fail (capacity : ℕ) {e : ε} {load : κ → Except ε α} (h : r.get? k = none)
    (hl : load k = .error e) : r.access capacity k load = (.error e, r) := by
  rw [access, h, hl]

theorem access_load (capacity : ℕ) {v : α} {load : κ → Except ε α} (h : r.get? k = none)
    (hl : load k = .ok v) :
    r.access capacity k load = (.ok v, ⟨((k, v) :: r.entries).take capacity⟩) := by
  rw [access, h, hl]

theorem get?_front (k : κ) (v : α) (es : List (κ × α)) : get? ⟨(k, v) :: es⟩ k = some v := by
  rw [get?, List.lookup_cons_self]

/-- A key at the front is found there, and stays. -/
theorem access_front (capacity : ℕ) {v : α} {es : List (κ × α)} (load : κ → Except ε α)
    (h : ∀ e ∈ es, e.1 ≠ k) :
    access capacity ⟨(k, v) :: es⟩ k load = (.ok v, ⟨(k, v) :: es⟩) := by
  have hes : without ⟨(k, v) :: es⟩ k = es := by
    simpa [without] using h
  rw [access_hit capacity load (get?_front k v es), hes]

/-- A second access to a key finds what the first one found, or fails as it failed, and leaves the
memory as the first one left it. -/
theorem access_again {capacity : ℕ} (hc : 0 < capacity) (r : Recency κ α) (k : κ)
    (load : κ → Except ε α) :
    (r.access capacity k load).2.access capacity k load = r.access capacity k load := by
  cases hg : r.get? k with
  | some v =>
    rw [access_hit capacity load hg]
    apply access_front
    intro e he
    simpa using (List.mem_filter.mp he).2
  | none =>
    cases hl : load k with
    | error e => rw [access_fail capacity hg hl, access_fail capacity hg hl]
    | ok v =>
      obtain ⟨n, rfl⟩ := Nat.exists_eq_succ_of_ne_zero hc.ne'
      rw [access_load _ hg hl, List.take_succ_cons]
      apply access_front
      intro e he hk
      have hmem : k ∈ r.keys := hk ▸ List.mem_map_of_mem (List.mem_of_mem_take he)
      exact (get?_eq_none r k).mp hg hmem

end Access

/-! ### Keys after an access -/

section Front

variable {κ : Type} [DecidableEq κ]

/-- Taking a key that is among the first `n` out of a list leaves the first `n - 1` of the rest. -/
theorem filter_take_of_mem {k : κ} {ks : List κ} (hn : ks.Nodup) {n : ℕ} (hk : k ∈ ks.take n) :
    k :: (ks.take n).filter (fun b => !b == k) = (k :: ks.filter fun b => !b == k).take n := by
  induction ks generalizing n with
  | nil => simp at hk
  | cons a ks ih =>
    obtain ⟨ha, hn⟩ := List.nodup_cons.mp hn
    cases n with
    | zero => simp at hk
    | succ n =>
      rw [List.take_succ_cons] at hk ⊢
      rw [List.take_succ_cons, List.filter_cons, List.filter_cons]
      by_cases hak : a = k
      · subst hak
        simp [filter_of_notMem ha, filter_of_notMem fun h => ha (List.mem_of_mem_take h)]
      · have hk' : k ∈ ks.take n := List.mem_of_ne_of_mem (Ne.symm hak) hk
        have hrest := ih hn hk'
        cases n with
        | zero => simp at hk'
        | succ n =>
          rw [List.take_succ_cons, List.cons.injEq] at hrest
          simp [hak, hrest.2]

/-- A key that is not among the first `n` may be taken out without harm to them. -/
theorem take_filter_of_notMem {k : κ} {ks : List κ} {n : ℕ} (hk : k ∉ ks.take n) :
    (ks.filter fun b => !b == k).take n = ks.take n := by
  induction ks generalizing n with
  | nil => rfl
  | cons a ks ih =>
    cases n with
    | zero => simp
    | succ n =>
      rw [List.take_succ_cons, List.mem_cons, not_or] at hk
      rw [List.filter_cons_of_pos (by simpa using Ne.symm hk.1), List.take_succ_cons,
        List.take_succ_cons, ih hk.2]

end Front

/-! ## The whole list of accesses -/

/-- An access: its key, what there was to load from at that time, and the memory before it. -/
structure Access (κ α ω : Type) where
  key : κ
  world : ω
  before : Recency κ α

section History

variable {κ α ε ω : Type} [DecidableEq κ] (capacity : ℕ) (load : ω → κ → Except ε α)

/-- Whether an access found or loaded a value. -/
def Access.succeeds (a : Access κ α ω) : Bool :=
  (a.before.access capacity a.key (load a.world)).1.isOk

/-- The keys that were accessed with success, the latest first. -/
def used (accesses : List (Access κ α ω)) : List κ :=
  (accesses.filter (·.succeeds capacity load)).map (·.key)

/-- The memory after a list of accesses, the latest first. -/
inductive History : List (Access κ α ω) → Recency κ α → Prop where
  | start : History [] .empty
  | next {accesses : List (Access κ α ω)} {r : Recency κ α} (k : κ) (w : ω) :
    History accesses r →
      History (⟨k, w, r⟩ :: accesses) (r.access capacity k (load w)).2

variable {capacity load} {accesses : List (Access κ α ω)} {r : Recency κ α}

theorem used_cons (a : Access κ α ω) (accesses : List (Access κ α ω)) :
    used capacity load (a :: accesses) =
      if a.succeeds capacity load then a.key :: used capacity load accesses
      else used capacity load accesses := by
  rw [used, List.filter_cons]
  split <;> rfl

theorem History.keys_eq (h : History capacity load accesses r) :
    r.keys = (used capacity load accesses).eraseDups.take capacity := by
  induction h with
  | start => simp [used, keys, empty]
  | @next accesses r k w _ ih =>
    have hnodup := nodup_eraseDups (used capacity load accesses)
    rw [used_cons]
    cases hg : r.get? k with
    | some v =>
      -- the key is found, and moves to the front
      have hk : k ∈ (used capacity load accesses).eraseDups.take capacity := by
        rw [← ih, mem_keys, hg]
        rfl
      have hs : Access.succeeds capacity load ⟨k, w, r⟩ = true := by
        simp [Access.succeeds, access_hit capacity (load w) hg, Except.isOk, Except.toBool]
      rw [if_pos hs, eraseDups_cons_filter, access_hit capacity (load w) hg,
        ← filter_take_of_mem hnodup hk, ← ih, ← keys_without]
      rfl
    | none =>
      cases hl : load w k with
      | error e =>
        have hs : ¬ Access.succeeds capacity load ⟨k, w, r⟩ = true := by
          simp [Access.succeeds, access_fail capacity hg hl, Except.isOk, Except.toBool]
        rw [if_neg hs, access_fail capacity hg hl, ih]
      | ok v =>
        -- the key is loaded, and the last one may be forgotten
        have hk : k ∉ (used capacity load accesses).eraseDups.take capacity := by
          rw [← ih]
          exact (get?_eq_none r k).mp hg
        have hs : Access.succeeds capacity load ⟨k, w, r⟩ = true := by
          simp [Access.succeeds, access_load capacity hg hl, Except.isOk, Except.toBool]
        rw [if_pos hs, eraseDups_cons_filter, access_load capacity hg hl, keys, List.map_take]
        cases capacity with
        | zero => rfl
        | succ n =>
          have hk' : k ∉ (used (n + 1) load accesses).eraseDups.take n :=
            fun hm => hk (List.take_subset_take_left _ (Nat.le_succ n) hm)
          have hr : r.entries.map (·.1) = (used (n + 1) load accesses).eraseDups.take (n + 1) := ih
          rw [List.map_cons, hr, List.take_succ_cons, List.take_succ_cons, List.take_take,
            Nat.min_eq_left (Nat.le_succ n), take_filter_of_notMem hk']

theorem History.nodup_keys (h : History capacity load accesses r) : r.keys.Nodup := by
  rw [h.keys_eq]
  exact (nodup_eraseDups _).sublist (List.take_sublist _ _)

/-- A key is remembered exactly if it was used and fewer others were used since than there is room
for. -/
theorem History.isSome_get? (h : History capacity load accesses r) (k : κ) :
    (r.get? k).isSome = true ↔ k ∈ used capacity load accesses ∧
      ((used capacity load accesses).takeWhile (· ≠ k)).toFinset.card < capacity := by
  rw [← mem_keys, h.keys_eq, mem_take_eraseDups]

/-- A remembered value is what loading gave at the latest access that missed its key; the accesses
of the key since then found that value. -/
theorem History.loaded (h : History capacity load accesses r) {k : κ} {v : α}
    (hk : r.get? k = some v) :
    ∃ newer a older, accesses = newer ++ a :: older ∧ a.key = k ∧ a.before.get? k = none ∧
      load a.world k = .ok v ∧ ∀ b ∈ newer, b.key = k → b.before.get? k = some v := by
  induction h generalizing v with
  | start => simp [get?, empty] at hk
  | @next accesses r k' w _ ih =>
    -- an access that leaves the key as it was, or finds it, joins the later ones
    have hkeep : r.get? k = some v → ∃ newer a older,
        (⟨k', w, r⟩ :: accesses : List (Access κ α ω)) = newer ++ a :: older ∧ a.key = k ∧
        a.before.get? k = none ∧ load a.world k = .ok v ∧
        ∀ b ∈ newer, b.key = k → b.before.get? k = some v := by
      intro hr
      obtain ⟨newer, a, older, rfl, ha, hmiss, hload, hnewer⟩ := ih hr
      exact ⟨⟨k', w, r⟩ :: newer, a, older, rfl, ha, hmiss, hload,
        List.forall_mem_cons.mpr ⟨fun _ => hr, hnewer⟩⟩
    cases hg : r.get? k' with
    | some v' =>
      rw [access_hit capacity (load w) hg, get?, List.lookup_cons] at hk
      by_cases hkk : k = k'
      · subst hkk
        simp only [beq_self_eq_true, Option.some.injEq] at hk
        exact hkeep (hk ▸ hg)
      · have hne : (k == k') = false := by simpa using hkk
        simp only [hne, lookup_without hkk] at hk
        exact hkeep hk
    | none =>
      cases hl : load w k' with
      | error e =>
        rw [access_fail capacity hg hl] at hk
        exact hkeep hk
      | ok v' =>
        rw [access_load capacity hg hl, get?] at hk
        replace hk := (List.take_prefix _ _).lookup_eq_some hk
        rw [List.lookup_cons] at hk
        by_cases hkk : k = k'
        · subst hkk
          simp only [beq_self_eq_true, Option.some.injEq] at hk
          exact ⟨[], ⟨k, w, r⟩, accesses, rfl, rfl, hg, hk ▸ hl, by simp⟩
        · have hne : (k == k') = false := by simpa using hkk
          simp only [hne] at hk
          exact hkeep hk

end History

end Recency

end Formulary
