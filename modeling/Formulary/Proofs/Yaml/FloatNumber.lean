import Formulary.Proofs.Lowercase
import Formulary.Proofs.Yaml.WholeNumber

/-! # Floating-point numbers without a value

A scalar in the form of a floating-point number has a value unless it is one of base sixty whose
places go beyond the finite numbers.
-/

namespace Formulary.Yaml
set_option autoImplicit false

open Numeral Text

/-! ## Lower case -/

/-- A text without its underscores, in lower case. -/
def reduced (t : Text) : Text := (bare t).map lowerPoint

theorem reduced_append (s t : Text) : reduced (s ++ t) = reduced s ++ reduced t := by
  rw [reduced, bare_append, List.map_append]
  rfl

theorem reduced_cons {c : CodePoint} (hu : c ≠ '_') (hc : lowerPoint c = c) (t : Text) :
    reduced (c :: t) = c :: reduced t := by
  rw [reduced, bare_cons hu, List.map_cons, hc]
  rfl

theorem lowerPoint_digit {c : CodePoint} (h : isAsciiDigit c = true) : lowerPoint c = c := by
  rw [isAsciiDigit_iff] at h
  exact lowerPoint_eq_self (by omega)

theorem reduced_eq_bare {t : Text} (h : ∀ c ∈ bare t, lowerPoint c = c) : reduced t = bare t := by
  rw [reduced, List.map_congr_left h, List.map_id']

theorem reduced_digits {t : Text} (h : ∀ c ∈ t, isDigitPoint c = true) : reduced t = bare t :=
  reduced_eq_bare fun c hc => lowerPoint_digit (areDigits_bare h c hc)

theorem lowercase_bare {t : Text} (h : ∀ c ∈ t, c.toNat < 128) : lowercase (bare t) = reduced t :=
  lowerFrom_ascii [] fun c hc => h c (mem_bare.mp hc).1

theorem dropSign_reduced {t : Text} {c : CodePoint} {r : Text} (h : dropSign t = c :: r)
    (hu : c ≠ '_') (hp : c ≠ '+') (hm : c ≠ '-') (hc : lowerPoint c = c) :
    dropSign (reduced t) = reduced (c :: r) := by
  have hcases := dropSign_cases t
  rw [h] at hcases
  rcases hcases with rfl | rfl | rfl
  · rw [reduced_cons hu hc, dropSign_of_head hp hm]
  · rw [reduced_cons (c := .char '+') (by decide) (by decide)]
    rfl
  · rw [reduced_cons (c := .char '-') (by decide) (by decide)]
    rfl

/-! ## Floating-point numbers -/

/-- The forms of a floating-point number after its sign. -/
inductive FloatForm : Text → Prop where
  | special {w : Text} (h : w ∈ infinitySpellings ++ nanSpellings) : FloatForm (.char '.' :: w)
  | decimal {ds fs ex : Text} (hds : ∀ c ∈ ds, isDigitPoint c = true)
    (hfs : ∀ c ∈ fs, isDigitPoint c = true) (hne : bare ds ≠ [] ∨ bare fs ≠ [])
    (hhead : ∀ c ∈ ds.head?, c ≠ '_') (hex : isExponentForm ex = true) :
    FloatForm (ds ++ .char '.' :: (fs ++ ex))
  | sixty {d : CodePoint} {ds whole fs : Text} {groups : List Text}
    (h : splitAt ':' whole = (d :: ds) :: groups) (hne : groups ≠ [])
    (hd : isAsciiDigit d = true) (hds : ∀ c ∈ ds, isDigitPoint c = true)
    (hg : ∀ g ∈ groups, isSixtyGroup g = true) (hfs : ∀ c ∈ fs, isDigitPoint c = true) :
    FloatForm (whole ++ .char '.' :: fs)

theorem isDigits_iff (ds : Text) : isDigits ds = true ↔
    ∃ d r, ds = d :: r ∧ isAsciiDigit d = true ∧ ∀ c ∈ r, isDigitPoint c = true := by
  cases ds with
  | nil => simp [isDigits]
  | cons d r =>
    simp only [isDigits, Bool.and_eq_true, List.all_eq_true]
    constructor
    · exact fun h => ⟨d, r, rfl, h⟩
    · rintro ⟨d, r, he, h⟩
      cases he
      exact h

theorem takeWhile_append_point (body : Text) (h : .char '.' ∈ body) :
    body = body.takeWhile (· ≠ .char '.') ++
      .char '.' :: (body.dropWhile (· ≠ .char '.')).drop 1 := by
  induction body with
  | nil => cases h
  | cons c body ih =>
    by_cases hc : c = '.'
    · subst hc
      simp
    · have hmem : .char '.' ∈ body := by simpa [Ne.symm hc] using h
      simp only [List.takeWhile_cons, List.dropWhile_cons, hc, ne_eq, not_false_eq_true,
        decide_true, if_true, List.cons_append]
      rw [← ih hmem]

theorem fraction_eq {fraction : Text} (h : isFractionForm fraction = true) :
    ∃ fs ex, fraction = fs ++ ex ∧ (∀ c ∈ fs, isDigitPoint c = true) ∧
      isExponentForm ex = true ∧ fs = fraction.takeWhile isDigitPoint :=
  ⟨_, _, List.takeWhile_append_dropWhile.symm, fun _ hc => List.mem_takeWhile_imp hc, h, rfl⟩

theorem bare_digit_ne_nil {d : CodePoint} (hd : isAsciiDigit d = true) (ds : Text) :
    bare (d :: ds) ≠ [] ∧ d ≠ '_' := by
  have hu : d ≠ '_' := by
    rintro rfl
    exact absurd hd (by decide)
  exact ⟨by rw [bare_cons hu]; simp, hu⟩

theorem floatForm_of_isFloatForm {t : Text} (h : isFloatForm t = true) :
    FloatForm (dropSign t) := by
  unfold isFloatForm at h
  simp only at h
  split at h
  · cases h
  · rename_i hpoint
    have hb := takeWhile_append_point (dropSign t) (by simpa using hpoint)
    generalize (dropSign t).takeWhile (· ≠ .char '.') = whole at h hb
    generalize ((dropSign t).dropWhile (· ≠ .char '.')).drop 1 = fraction at h hb
    rw [hb]
    split at h
    · rename_i hw
      rw [List.isEmpty_iff.mp hw]
      simp only [Bool.or_eq_true, Bool.and_eq_true] at h
      rcases h with h | ⟨-, h | ⟨hhead, h⟩⟩
      · exact .special (List.mem_append_left _ (by simpa using h))
      · exact .special (List.mem_append_right _ (by simpa using h))
      · obtain ⟨fs, ex, he, hfs, hex, htake⟩ := fraction_eq h
        refine he ▸ .decimal (by simp) hfs (.inr ?_) (by simp) hex
        cases fraction with
        | nil => exact absurd hhead (by decide)
        | cons d r =>
          have hd : isAsciiDigit d = true := hhead
          rw [htake, List.takeWhile_cons_of_pos (by simp [isDigitPoint, hd])]
          exact (bare_digit_ne_nil hd _).1
    · split at h
      · rename_i ds heq
        rw [Bool.and_eq_true] at h
        obtain ⟨rfl, -⟩ := splitAt_eq_singleton heq
        obtain ⟨d, r, rfl, hd, hr⟩ := (isDigits_iff ds).mp h.1
        obtain ⟨fs, ex, rfl, hfs, hex, -⟩ := fraction_eq h.2
        obtain ⟨hne, hu⟩ := bare_digit_ne_nil hd r
        refine .decimal (List.forall_mem_cons.mpr ⟨by simp [isDigitPoint, hd], hr⟩) hfs (.inl hne)
          ?_ hex
        intro c hc
        cases hc
        exact hu
      · rename_i ds groups hne heq
        simp only [Bool.and_eq_true, List.all_eq_true] at h
        obtain ⟨d, r, rfl, hd, hr⟩ := (isDigits_iff ds).mp h.1.1
        exact .sixty heq (fun hg => hne (by rw [hg])) hd hr h.1.2 h.2
      · cases h

theorem numberScalar_eq_error {t body : Text} (ht : ∀ c ∈ t, c.toNat < 128)
    (hb : dropSign (reduced t) = body) (hne : body ≠ []) (hinf : body ≠ ".inf")
    (hnan : body ≠ ".nan") (f : ScalarFault) : numberScalar t = .error f ↔
      (if body.contains ':' then sixtyParts floatScalar body >>= sixtyFloatSum 0 (.zero false)
        else floatScalar body) = .error f := by
  have hlow : lowercase (bare t) = reduced t := lowercase_bare ht
  have hempty : (reduced t).isEmpty = false := by
    rw [List.isEmpty_eq_false_iff]
    intro h
    rw [h] at hb
    exact hne hb.symm
  have h : numberScalar t = (if body.contains ':' then
      sixtyParts floatScalar body >>= sixtyFloatSum 0 (.zero false) else floatScalar body).map
        fun x => .float (if (reduced t).head? = some (.char '-') then x.negate else x) := by
    have hi : (body == Text.ofString ".inf") = false := beq_eq_false_iff_ne.mpr hinf
    have hn : (body == Text.ofString ".nan") = false := beq_eq_false_iff_ne.mpr hnan
    have hfilter : t.filter (fun c => decide (c ≠ .char '_')) = bare t := rfl
    simp only [numberScalar, hfilter, hlow, hempty, hb, hi, hn, Bool.false_eq_true, if_false]
    by_cases hc : body.contains ':' = true
    · rw [if_pos hc, if_pos hc]
      cases sixtyParts floatScalar body <;> rfl
    · rw [if_neg hc, if_neg hc]
  rw [h]
  generalize (if body.contains ':' then _ else _) = x
  cases x <;> simp [Except.map]

theorem numberScalar_special {t w : Text} (hb : dropSign t = .char '.' :: w)
    (hw : w ∈ infinitySpellings ++ nanSpellings) : ∃ a, numberScalar t = .ok a := by
  have h : ∀ w ∈ infinitySpellings ++ nanSpellings, ∀ s ∈ [[], [.char '+'], [CodePoint.char '-']],
      (numberScalar (s ++ .char '.' :: w)).toOption.isSome = true := by
    decide +kernel
  have hs : ∃ s ∈ [[], [.char '+'], [CodePoint.char '-']], t = s ++ .char '.' :: w := by
    have hc := dropSign_cases t
    rw [hb] at hc
    rcases hc with rfl | rfl | rfl
    · exact ⟨[], by simp, rfl⟩
    · exact ⟨[.char '+'], by simp, rfl⟩
    · exact ⟨[.char '-'], by simp, rfl⟩
  obtain ⟨s, hs, rfl⟩ := hs
  have hok := h w hw s hs
  cases hn : numberScalar (s ++ .char '.' :: w) with
  | ok a => exact ⟨a, rfl⟩
  | error f => simp [hn, Except.toOption] at hok

theorem floatScalar_decimal {t : Text} (h : IsDecimal t) : ∃ x, floatScalar t = .ok x := by
  obtain ⟨x, hx⟩ := h.float
  exact ⟨x, by rw [floatScalar, hx]; rfl⟩

theorem isExponent_reduced {ex : Text} (h : isExponentForm ex = true) : IsExponent (reduced ex) := by
  unfold isExponentForm at h
  split at h
  · exact .none
  · rename_i e s rest
    simp only [Bool.and_eq_true, Bool.or_eq_true, decide_eq_true_eq, isRun, List.all_eq_true,
      Bool.not_eq_true', List.isEmpty_eq_false_iff] at h
    obtain ⟨⟨he, hs⟩, hne, hd⟩ := h
    have hdig : ∀ c ∈ rest, isDigitPoint c = true := fun c hc => by simp [isDigitPoint, hd c hc]
    have hbare : bare rest = rest := bare_eq_self fun c hc => by
      rintro rfl
      exact absurd (hd _ hc) (by decide)
    have hred : reduced (e :: s :: rest) = .char 'e' :: s :: rest := by
      show reduced ([e, s] ++ rest) = _
      rw [reduced_append, reduced_digits hdig, hbare]
      rcases he with rfl | rfl <;> rcases hs with rfl | rfl <;> rfl
    rw [hred]
    exact .digits hs hd hne
  · cases h

theorem isDigitPoint_lt {c : CodePoint} (h : isDigitPoint c = true) :
    c.toNat < 128 ∧ c ≠ ':' ∧ c ≠ '+' ∧ c ≠ '-' := by
  have hd : isAsciiDigit c = true ∨ c = '_' := by simpa [isDigitPoint] using h
  rcases hd with hd | rfl
  · have hn := (isAsciiDigit_iff c).mp hd
    have hne : ∀ d : CodePoint, d.toNat < 48 ∨ 57 < d.toNat → c ≠ d := by
      rintro d hd rfl
      omega
    exact ⟨by omega, hne _ (by decide), hne _ (by decide), hne _ (by decide)⟩
  · decide

theorem isExponentForm_chars {ex : Text} (h : isExponentForm ex = true) :
    ∀ c ∈ ex, c.toNat < 128 ∧ c ≠ ':' := by
  unfold isExponentForm at h
  split at h
  · simp
  · rename_i e s rest
    simp only [Bool.and_eq_true, Bool.or_eq_true, decide_eq_true_eq, isRun, List.all_eq_true] at h
    obtain ⟨⟨he, hs⟩, -, hd⟩ := h
    rw [List.forall_mem_cons, List.forall_mem_cons]
    refine ⟨?_, ?_, fun c hc => ?_⟩
    · rcases he with rfl | rfl <;> decide
    · rcases hs with rfl | rfl <;> decide
    · obtain ⟨h1, h2, -, -⟩ := isDigitPoint_lt (c := c) (by simp [isDigitPoint, hd c hc])
      exact ⟨h1, h2⟩
  · cases h

/-- The code points of a text with its sign are those of the text and the sign. -/
theorem forall_mem_of_dropSign {t : Text} {P : CodePoint → Prop} (hp : P '+') (hm : P '-')
    (h : ∀ c ∈ dropSign t, P c) : ∀ c ∈ t, P c := by
  have hc := dropSign_cases t
  generalize dropSign t = body at h hc
  rcases hc with rfl | rfl | rfl
  · exact h
  · exact List.forall_mem_cons.mpr ⟨hp, h⟩
  · exact List.forall_mem_cons.mpr ⟨hm, h⟩

theorem notMem_of_isDecimal {t : Text} (h : IsDecimal t) {c : CodePoint}
    (hc : isAsciiDigit c = false ∧ c ≠ '.' ∧ c ≠ 'e' ∧ c ≠ '-' ∧ c ≠ '+') : c ∉ t := by
  intro hm
  obtain ⟨hd, h1, h2, h3, h4⟩ := hc
  rcases h.chars c hm with hd' | h' | h' | h' | h'
  · rw [hd] at hd'
    cases hd'
  · exact h1 h'
  · exact h2 h'
  · exact h3 h'
  · exact h4 h'

theorem ne_special {t : Text} (h : IsDecimal t) : t ≠ [] ∧ t ≠ ".inf" ∧ t ≠ ".nan" := by
  refine ⟨?_, ?_, ?_⟩
  · obtain ⟨c, r, rfl, -⟩ := h.head
    simp
  · rintro rfl
    exact notMem_of_isDecimal h (c := .char 'i') (by decide) (by decide)
  · rintro rfl
    exact notMem_of_isDecimal h (c := .char 'n') (by decide) (by decide)

theorem dropSign_reduced_head {t : Text} {c : CodePoint} {r : Text} (h : dropSign t = c :: r)
    (hc : isAsciiDigit c = true ∨ c = '.') : dropSign (reduced t) = reduced (dropSign t) := by
  rw [h]
  rcases hc with hc | rfl
  · obtain ⟨-, -, hp, hm⟩ := isDigitPoint_lt (c := c) (by simp [isDigitPoint, hc])
    exact dropSign_reduced h (bare_digit_ne_nil hc r).2 hp hm (lowerPoint_digit hc)
  · exact dropSign_reduced h (by decide) (by decide) (by decide) (by decide)

theorem numberScalar_decimal {t ds fs ex : Text} (hb : dropSign t = ds ++ .char '.' :: (fs ++ ex))
    (hds : ∀ c ∈ ds, isDigitPoint c = true) (hfs : ∀ c ∈ fs, isDigitPoint c = true)
    (hne : bare ds ≠ [] ∨ bare fs ≠ []) (hhead : ∀ c ∈ ds.head?, c ≠ '_')
    (hex : isExponentForm ex = true) : (∃ a, numberScalar t = .ok a) ∧ .char ':' ∉ t := by
  have hchars : ∀ c ∈ t, c.toNat < 128 ∧ c ≠ ':' := by
    refine forall_mem_of_dropSign (by decide) (by decide) ?_
    rw [hb]
    simp only [List.forall_mem_append, List.forall_mem_cons]
    have hdp : ∀ c, isDigitPoint c = true → c.toNat < 128 ∧ c ≠ ':' := fun c hc =>
      ⟨(isDigitPoint_lt hc).1, (isDigitPoint_lt hc).2.1⟩
    exact ⟨fun c hc => hdp c (hds c hc), by decide, fun c hc => hdp c (hfs c hc),
      isExponentForm_chars hex⟩
  have hred : reduced (ds ++ .char '.' :: (fs ++ ex)) =
      bare ds ++ .char '.' :: (bare fs ++ reduced ex) := by
    rw [reduced_append, reduced_cons (c := .char '.') (by decide) (by decide), reduced_append,
      reduced_digits hds, reduced_digits hfs]
  have hdec : IsDecimal (reduced (dropSign t)) := by
    rw [hb, hred]
    exact .fraction (areDigits_bare hds) (areDigits_bare hfs) hne (isExponent_reduced hex)
  have hsign : dropSign (reduced t) = reduced (dropSign t) := by
    cases ds with
    | nil => exact dropSign_reduced_head hb (.inr rfl)
    | cons c ds =>
      exact dropSign_reduced_head hb
        (.inl (mem_isDigitPoint (hds c (List.mem_cons_self ..)) (hhead c rfl)))
  refine ⟨?_, fun hc => (hchars _ hc).2 rfl⟩
  obtain ⟨x, hx⟩ := floatScalar_decimal hdec
  cases hn : numberScalar t with
  | ok a => exact ⟨a, rfl⟩
  | error f =>
    have hcolon : ¬ (reduced (dropSign t)).contains ':' = true := by
      simpa using notMem_of_isDecimal hdec (c := .char ':') (by decide)
    rw [numberScalar_eq_error (fun c hc => (hchars c hc).1) hsign (ne_special hdec).1
      (ne_special hdec).2.1 (ne_special hdec).2.2, if_neg hcolon, hx] at hn
    cases hn

/-! ### Base sixty -/

theorem ofNat?_sixty : ∀ k < 174, (Binary64.ofNat? (Nat.pow 60 k)).isSome = true := by
  decide +kernel

theorem ofNat?_sixty_last : Binary64.ofNat? (Nat.pow 60 174) = none := by
  decide +kernel

/-- The places of base sixty are numbers up to the one of `60 ^ 173`. -/
theorem sixtyFloatSum_error_iff {parts : List Binary64} {place : Nat} (hp : place ≤ 174)
    (sum : Binary64) (f : ScalarFault) : sixtyFloatSum place sum parts = .error f ↔
      f = .placeTooLarge ∧ 174 < place + parts.length := by
  induction parts generalizing place sum with
  | nil =>
    simp only [sixtyFloatSum, List.length_nil, reduceCtorEq, false_iff]
    omega
  | cons p parts ih =>
    rw [sixtyFloatSum]
    by_cases hlast : place = 174
    · subst hlast
      rw [ofNat?_sixty_last, List.length_cons]
      simp only [Except.error.injEq]
      constructor
      · exact fun h => ⟨h.symm, by omega⟩
      · exact fun h => h.1.symm
    · obtain ⟨k, hk⟩ := Option.isSome_iff_exists.mp (ofNat?_sixty place (by omega))
      rw [hk]
      simp only
      rw [ih (by omega), List.length_cons]
      refine and_congr_right fun _ => ?_
      omega

theorem count_dropSign (t : Text) : t.count (.char ':') = (dropSign t).count (.char ':') := by
  have hc := dropSign_cases t
  generalize dropSign t = body at hc
  rcases hc with rfl | rfl | rfl
  · rfl
  · exact List.count_cons_of_ne (by decide)
  · exact List.count_cons_of_ne (by decide)

section Sixty

variable {d : CodePoint} {ds whole fs : Text} {groups : List Text}
  (h : splitAt ':' whole = (d :: ds) :: groups) (hd : isAsciiDigit d = true)
  (hds : ∀ c ∈ ds, isDigitPoint c = true) (hg : ∀ g ∈ groups, isSixtyGroup g = true)
include h hd hds hg

theorem isDigitPoint_parts : ∀ part ∈ splitAt ':' whole,
    (∀ c ∈ part, isDigitPoint c = true) ∧ bare part ≠ [] := by
  rw [h, List.forall_mem_cons]
  refine ⟨⟨List.forall_mem_cons.mpr ⟨by simp [isDigitPoint, hd], hds⟩,
    (bare_digit_ne_nil hd ds).1⟩, fun g hgm => ?_⟩
  obtain ⟨hdig, hne, -⟩ := areDigits_sixtyGroup (hg g hgm)
  refine ⟨fun c hc => by simp [isDigitPoint, hdig c hc], ?_⟩
  obtain ⟨c, r, rfl⟩ := List.exists_cons_of_ne_nil hne
  exact (bare_digit_ne_nil (hdig c (List.mem_cons_self ..)) r).1

theorem isDigitPoint_whole : ∀ c ∈ whole, c = ':' ∨ isDigitPoint c = true := by
  intro c hc
  have hmem : c = ':' ∨ ∃ part ∈ splitAt ':' whole, c ∈ part := mem_splitAt hc
  refine hmem.imp_right fun ⟨part, hp, hc⟩ => ?_
  exact (isDigitPoint_parts h hd hds hg part hp).1 c hc

/-- All parts of a number in base sixty are decimals, the last one with the fraction. -/
theorem isDecimal_parts (hfs : ∀ c ∈ fs, isDigitPoint c = true) :
    (∀ part ∈ splitAt ':' (bare whole ++ .char '.' :: bare fs), IsDecimal part) ∧
      (splitAt ':' (bare whole ++ .char '.' :: bare fs)).length = whole.count (.char ':') + 1 := by
  have hcolon : CodePoint.char ':' ∉ .char '.' :: bare fs := by
    rw [List.mem_cons, not_or]
    exact ⟨by decide, fun hm => (isDigitPoint_lt (hfs _ (mem_bare.mp hm).1)).2.1 rfl⟩
  obtain ⟨parts, last, h1, h2⟩ := splitAt_append hcolon (bare whole)
  have hparts : ∀ part ∈ parts ++ [last], AreDigits part ∧ part ≠ [] := by
    rw [← h1, splitAt_bare (by decide), List.forall_mem_map]
    intro part hp
    obtain ⟨hdig, hne⟩ := isDigitPoint_parts h hd hds hg part hp
    exact ⟨areDigits_bare hdig, hne⟩
  rw [List.forall_mem_append, List.forall_mem_singleton] at hparts
  rw [h2]
  constructor
  · rw [List.forall_mem_append, List.forall_mem_singleton]
    refine ⟨fun part hp => .whole (hparts.1 part hp).1 (hparts.1 part hp).2, ?_⟩
    have hlast := IsDecimal.fraction hparts.2.1 (areDigits_bare hfs) (.inl hparts.2.2) .none
    rwa [List.append_nil] at hlast
  · have hl := length_splitAt (.char ':') whole
    have hm := congrArg List.length h1
    rw [splitAt_bare (by decide), List.length_map, hl] at hm
    simpa using hm.symm

theorem reduced_sixty (hfs : ∀ c ∈ fs, isDigitPoint c = true) :
    reduced (whole ++ .char '.' :: fs) = bare whole ++ .char '.' :: bare fs := by
  rw [reduced_append, reduced_cons (c := .char '.') (by decide) (by decide), reduced_digits hfs]
  congr 1
  refine reduced_eq_bare fun c hc => ?_
  rcases isDigitPoint_whole h hd hds hg c (mem_bare.mp hc).1 with rfl | hp
  · decide
  · exact lowerPoint_digit (mem_isDigitPoint hp (mem_bare.mp hc).2)

theorem ascii_sixty (hfs : ∀ c ∈ fs, isDigitPoint c = true) :
    ∀ c ∈ whole ++ .char '.' :: fs, c.toNat < 128 := by
  simp only [List.forall_mem_append, List.forall_mem_cons]
  refine ⟨fun c hc => ?_, by decide, fun c hc => (isDigitPoint_lt (hfs c hc)).1⟩
  rcases isDigitPoint_whole h hd hds hg c hc with rfl | hc
  · decide
  · exact (isDigitPoint_lt hc).1

theorem numberScalar_sixty {t : Text} (hb : dropSign t = whole ++ .char '.' :: fs)
    (hne : groups ≠ []) (hfs : ∀ c ∈ fs, isDigitPoint c = true) (f : ScalarFault) :
    numberScalar t = .error f ↔ f = .placeTooLarge ∧ 174 ≤ t.count (.char ':') := by
  have hchars : ∀ c ∈ t, c.toNat < 128 := by
    refine forall_mem_of_dropSign (by decide) (by decide) ?_
    rw [hb]
    exact ascii_sixty h hd hds hg hfs
  have hred : reduced (dropSign t) = bare whole ++ .char '.' :: bare fs := by
    rw [hb]
    exact reduced_sixty h hd hds hg hfs
  have hsign : dropSign (reduced t) = reduced (dropSign t) := by
    obtain ⟨r, rfl⟩ := head_of_splitAt h
    exact dropSign_reduced_head hb (.inl hd)
  have hcount : t.count (.char ':') = whole.count (.char ':') := by
    have hf : fs.count (.char ':') = 0 := List.count_eq_zero.mpr fun hm =>
      (isDigitPoint_lt (hfs _ hm)).2.1 rfl
    rw [count_dropSign, hb, List.count_append, List.count_cons_of_ne (by decide), hf, Nat.add_zero]
  have hcolon : CodePoint.char ':' ∈ bare whole ++ .char '.' :: bare fs := by
    have hl := length_splitAt (.char ':') whole
    have hpos := List.length_pos_iff.mpr hne
    rw [h, List.length_cons] at hl
    have hm : CodePoint.char ':' ∈ whole := List.count_pos_iff.mp (by omega)
    exact List.mem_append_left _ (mem_bare.mpr ⟨hm, by decide⟩)
  obtain ⟨hdec, hlen⟩ := isDecimal_parts h hd hds hg hfs
  obtain ⟨xs, hxs⟩ := exists_forall₂ fun part hp => floatScalar_decimal (hdec part hp)
  have hparts : sixtyParts floatScalar (bare whole ++ .char '.' :: bare fs) = .ok xs.reverse := by
    rw [sixtyParts, (mapM_eq_ok _ _ _).mpr hxs]
    rfl
  rw [numberScalar_eq_error hchars (hsign.trans hred) (List.ne_nil_of_mem hcolon), if_pos, hparts]
  · show sixtyFloatSum 0 (.zero false) xs.reverse = .error f ↔ _
    rw [sixtyFloatSum_error_iff (by omega), List.length_reverse, ← hxs.length_eq, hlen, hcount]
    refine and_congr_right fun _ => ?_
    omega
  · simpa using hcolon
  · intro he
    rw [he] at hcolon
    exact absurd hcolon (by decide)
  · intro he
    rw [he] at hcolon
    exact absurd hcolon (by decide)

end Sixty

/-- A floating-point number of the right form has a value unless it has too many places. -/
theorem numberScalar_error_iff {t : Text} (h : isFloatForm t = true) (f : ScalarFault) :
    numberScalar t = .error f ↔ f = .placeTooLarge ∧ 174 ≤ t.count (.char ':') := by
  have noError : (∃ a, numberScalar t = .ok a) ∧ .char ':' ∉ t →
      (numberScalar t = .error f ↔ f = .placeTooLarge ∧ 174 ≤ t.count (.char ':')) := by
    rintro ⟨⟨a, ha⟩, hc⟩
    rw [ha, List.count_eq_zero.mpr hc]
    simp
  have hform := floatForm_of_isFloatForm h
  generalize hb : dropSign t = body at hform
  cases hform with
  | special hw =>
    refine noError ⟨numberScalar_special hb hw, ?_⟩
    rw [← List.count_eq_zero, count_dropSign, hb]
    have hall : ∀ w ∈ infinitySpellings ++ nanSpellings,
        (CodePoint.char '.' :: w).count (.char ':') = 0 := by decide
    exact hall _ hw
  | decimal hds hfs hne hhead hex => exact noError (numberScalar_decimal hb hds hfs hne hhead hex)
  | sixty h hne hd hds hg hfs => exact numberScalar_sixty h hd hds hg hb hne hfs f

end Formulary.Yaml
