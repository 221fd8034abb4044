import Formulary.Proofs.CodePoint
import Formulary.Text.Lowercase

/-! # Lower case and ASCII

On ASCII, lower case is that of its letters. Beyond ASCII, the lower case of a code point is beyond
ASCII too or holds such a code point, but for the Kelvin sign, whose lower case is `k`. A word of ASCII
without a `k` is so the lower case of nothing but its own spellings. The case of ASCII letters does not
show in the lower case of a text.
-/

namespace Formulary.Text
set_option autoImplicit false

open CodePoint

/-! ## Code points -/

/-- The runs are the capitals of ASCII, the Kelvin sign, and runs that neither start nor arrive in
ASCII. -/
theorem caseRuns_cases : ∀ r ∈ caseRuns,
    (r.first = 0x41 ∧ r.last = 0x5A ∧ r.shift = 0x20) ∨
      (r.first = 0x212A ∧ r.last = 0x212A ∧ r.shift = -8383) ∨
      (0x80 ≤ r.first ∧ 0x80 ≤ r.first + r.shift) := by
  decide +kernel

theorem CaseRun.holds_bounds {r : CaseRun} {n : Nat} (h : r.holds n = true) :
    r.first ≤ n ∧ n ≤ r.last := by
  simp only [holds, Bool.and_eq_true, decide_eq_true_eq] at h
  exact h.1

theorem lowerPoint_eq_self {c : CodePoint} (h : c.toNat < 0x41 ∨ (0x5A < c.toNat ∧ c.toNat < 0x80)) :
    lowerPoint c = c := by
  have hn : caseRuns.find? (·.holds c.toNat) = none := by
    rw [List.find?_eq_none]
    intro r hr hc
    have hb := CaseRun.holds_bounds hc
    have := caseRuns_cases r hr
    omega
  rw [lowerPoint, hn]

theorem lowerPoint_ascii {c : CodePoint} (h : c.toNat < 0x80) : lowerPoint c = c.asciiLower := by
  by_cases hu : 0x41 ≤ c.toNat ∧ c.toNat ≤ 0x5A
  · have hn : ∀ n < 0x5B, 0x41 ≤ n →
        (caseRuns.find? (·.holds n)).map CaseRun.shift = some 0x20 := by
      decide +kernel
    obtain ⟨r, hr, hs⟩ := Option.map_eq_some_iff.mp (hn c.toNat (by omega) hu.1)
    have hl : Int.toNat (c.toNat + 0x20) = c.asciiLower.toNat := by
      rw [toNat_asciiLower hu.1 hu.2]
      omega
    rw [lowerPoint, hr]
    simp only [hs, hl, ofNat?_toNat, Option.getD_some]
  · rw [asciiLower_eq_self (by omega), lowerPoint_eq_self (by omega)]

theorem lowerPoint_beyond {c : CodePoint} (h : 0x80 ≤ c.toNat) :
    lowerPoint c = 'k' ∨ 0x80 ≤ (lowerPoint c).toNat := by
  unfold lowerPoint
  split
  · rename_i r hr
    have hh := List.find?_some hr
    have hb := CaseRun.holds_bounds hh
    rcases caseRuns_cases r (List.mem_of_find?_eq_some hr) with ⟨-, hl, -⟩ | ⟨hf, hl, hs⟩ | ⟨hf, hs⟩
    · omega
    · -- the Kelvin sign
      have hk : Int.toNat (c.toNat + r.shift) = 107 := by omega
      rw [hk]
      exact .inl rfl
    · right
      cases hd : ofNat? (Int.toNat (c.toNat + r.shift)) with
      | none => exact h
      | some d =>
        have := toNat_of_ofNat? hd
        simp only [Option.getD_some]
        omega
  · exact .inr h

theorem has_asciiLower {table : List (Nat × Nat)}
    (h : ∀ n < 0x5B, 0x41 ≤ n → Ranges.has table (n + 0x20) = Ranges.has table n) (c : CodePoint) :
    Ranges.has table c.asciiLower.toNat = Ranges.has table c.toNat := by
  rcases asciiLower_cases c with hc | ⟨hA, hZ, hc⟩
  · rw [hc]
  · rw [hc, h c.toNat (by omega) hA]

theorem isBlank_asciiLower (c : CodePoint) : isBlank c.asciiLower = isBlank c :=
  has_asciiLower (by decide +kernel) c

theorem isCased_asciiLower (c : CodePoint) : isCased c.asciiLower = isCased c :=
  has_asciiLower (by decide +kernel) c

theorem isCaseIgnorable_asciiLower (c : CodePoint) :
    isCaseIgnorable c.asciiLower = isCaseIgnorable c :=
  has_asciiLower (by decide +kernel) c

theorem lowerPoint_asciiLower (c : CodePoint) : lowerPoint c.asciiLower = lowerPoint c := by
  rcases asciiLower_cases c with hc | ⟨hA, hZ, hc⟩
  · rw [hc]
  · rw [lowerPoint_eq_self (by omega), lowerPoint_ascii (by omega)]

/-! ## Texts -/

theorem lowerFrom_ascii (before : Text) {t : Text} (h : ∀ c ∈ t, c.toNat < 128) :
    lowerFrom before t = t.map lowerPoint := by
  induction t generalizing before with
  | nil => rfl
  | cons c t ih =>
    rw [List.forall_mem_cons] at h
    have hne : ∀ d : CodePoint, 128 ≤ d.toNat → c ≠ d := by
      rintro d hd rfl
      omega
    rw [lowerFrom]
    simp only [hne 'Σ' (by decide), hne 'İ' (by decide), if_false]
    rw [ih _ h.2]
    rfl

theorem meetsCased_asciiLower (t : Text) : meetsCased (t.map asciiLower) = meetsCased t := by
  have hi : isCaseIgnorable ∘ asciiLower = isCaseIgnorable := funext isCaseIgnorable_asciiLower
  unfold meetsCased
  rw [List.dropWhile_map, hi]
  cases t.dropWhile isCaseIgnorable with
  | nil => rfl
  | cons c rest => exact isCased_asciiLower c

theorem lowerFrom_asciiLower (before t : Text) :
    lowerFrom (before.map asciiLower) (t.map asciiLower) = lowerFrom before t := by
  induction t generalizing before with
  | nil => rfl
  | cons c t ih =>
    have hrest := ih (c :: before)
    rw [List.map_cons] at hrest
    simp only [List.map_cons, lowerFrom, meetsCased_asciiLower, lowerPoint_asciiLower, hrest,
      asciiLower_eq_iff (show 0x80 ≤ (CodePoint.char 'Σ').toNat by decide),
      asciiLower_eq_iff (show 0x80 ≤ (CodePoint.char 'İ').toNat by decide)]

theorem lowercase_asciiLower (t : Text) : lowercase (t.map asciiLower) = lowercase t :=
  lowerFrom_asciiLower [] t

theorem lowerFrom_cons_cases (before : Text) (c : CodePoint) (rest : Text) :
    lowerFrom before (c :: rest) = c.asciiLower :: lowerFrom (c :: before) rest ∨
      ∃ d ∈ lowerFrom before (c :: rest), d = 'k' ∨ 0x80 ≤ d.toNat := by
  rw [lowerFrom]
  by_cases hs : c = 'Σ'
  · right
    simp only [hs, if_true]
    split
    · exact ⟨'ς', List.mem_cons_self, .inr (by decide)⟩
    · exact ⟨'σ', List.mem_cons_self, .inr (by decide)⟩
  by_cases hi : c = 'İ'
  · right
    simp only [hi, if_true]
    exact ⟨'\u0307', List.mem_cons_of_mem _ List.mem_cons_self, .inr (by decide)⟩
  simp only [hs, hi, if_false]
  by_cases hc : c.toNat < 0x80
  · left
    rw [lowerPoint_ascii hc]
    rfl
  · exact .inr ⟨lowerPoint c, List.mem_cons_self, lowerPoint_beyond (by omega)⟩

theorem asciiLower_of_lowerFrom {before t w : Text} (hw : ∀ d ∈ w, d ≠ 'k' ∧ d.toNat < 0x80)
    (h : lowerFrom before t = w) : t.map asciiLower = w := by
  induction t generalizing before w with
  | nil => exact h
  | cons c t ih =>
    rcases lowerFrom_cons_cases before c t with hc | ⟨d, hd, hd'⟩
    · rw [← h, hc] at hw ⊢
      rw [List.map_cons, ih (List.forall_mem_cons.mp hw).2 rfl]
    · rw [h] at hd
      obtain ⟨hk, hn⟩ := hw d hd
      rcases hd' with hd' | hd'
      · exact absurd hd' hk
      · omega

/-- A word of ASCII without a `k` is the lower case of its own spellings only. -/
theorem lowercase_eq_iff {t w : Text} (hw : ∀ d ∈ w, d ≠ 'k' ∧ d.toNat < 0x80)
    (hl : w.map asciiLower = w) : lowercase t = w ↔ t.map asciiLower = w := by
  constructor
  · exact asciiLower_of_lowerFrom hw
  · intro h
    have hmap : w.map lowerPoint = w.map asciiLower :=
      List.map_congr_left fun d hd => lowerPoint_ascii (hw d hd).2
    calc lowercase t = lowercase (t.map asciiLower) := (lowercase_asciiLower t).symm
      _ = lowercase w := by rw [h]
      _ = w.map lowerPoint := lowerFrom_ascii [] fun d hd => (hw d hd).2
      _ = w := by rw [hmap, hl]

-- the Kelvin sign is the reason to leave `k` out
example : lowercase ['\u212A'] = "k" := by decide +kernel

end Formulary.Text
