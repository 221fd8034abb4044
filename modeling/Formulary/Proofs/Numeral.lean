import Formulary.Number.Numeral
import Formulary.Proofs.CodePoint
import Formulary.Proofs.Yaml.Cursor
import Mathlib.Tactic.Tauto

/-! # Numerals of digits

What becomes of a text that holds digits alone: a whole number has a value unless it is empty or, in
base ten, too long; a decimal fraction always has one.
-/

namespace Formulary
set_option autoImplicit false

namespace Text

theorem isAsciiDigit_iff (c : CodePoint) : isAsciiDigit c = true ↔ 48 ≤ c.toNat ∧ c.toNat ≤ 57 := by
  simp only [isAsciiDigit, Bool.and_eq_true, decide_eq_true_eq]
  exact Iff.rfl

theorem isSome_hexValue?_iff (c : CodePoint) : (hexValue? c).isSome = true ↔
    (48 ≤ c.toNat ∧ c.toNat ≤ 57) ∨ (97 ≤ c.toNat ∧ c.toNat ≤ 102) ∨
      (65 ≤ c.toNat ∧ c.toNat ≤ 70) := by
  have h0 : ('0' ≤ c && c ≤ '9') = true ↔ 48 ≤ c.toNat ∧ c.toNat ≤ 57 := isAsciiDigit_iff c
  have ha : ('a' ≤ c && c ≤ 'f') = true ↔ 97 ≤ c.toNat ∧ c.toNat ≤ 102 := by
    simp only [Bool.and_eq_true, decide_eq_true_eq]
    exact Iff.rfl
  have hA : ('A' ≤ c && c ≤ 'F') = true ↔ 65 ≤ c.toNat ∧ c.toNat ≤ 70 := by
    simp only [Bool.and_eq_true, decide_eq_true_eq]
    exact Iff.rfl
  rw [← h0, ← ha, ← hA, hexValue?]
  split
  · simp [*]
  · split
    · simp [*]
    · split <;> simp [*]

theorem trimBy_eq_self {p : CodePoint → Bool} {t : Text} (h : ∀ c ∈ t, p c = false) :
    trimBy p t = t := by
  have hd : ∀ s : Text, (∀ c ∈ s, p c = false) → s.dropWhile p = s := by
    intro s hs
    cases s with
    | nil => rfl
    | cons c s => rw [List.dropWhile_cons_of_neg (by simp [hs c (List.mem_cons_self ..)])]
  rw [trimBy, hd t h, trimEndBy, hd _ fun c hc => h c (List.mem_reverse.mp hc),
    List.reverse_reverse]

end Text

namespace Numeral
open Text

theorem isAround_of_toNat {c : CodePoint} (h : 0x21 ≤ c.toNat ∧ c.toNat < 0x7F) :
    isAround c = false := by
  have hb : ∀ n < 0x7F, 0x21 ≤ n → Ranges.has blankRanges n = false := by decide
  rw [isAround, isBlank, hb _ h.2 h.1]
  rfl

theorem digit?_ascii (base : Nat) {c : CodePoint} (h : isAsciiDigit c = true) :
    digit? base c = if c.toNat - 48 < base then some (c.toNat - 48) else none := by
  rw [isAsciiDigit_iff] at h
  have ha : ('a' ≤ c && c ≤ 'z') = false := by
    have : ¬ CodePoint.char 'a' ≤ c := fun hc => by
      have : 97 ≤ c.toNat := hc
      omega
    simp [this]
  have hA : ('A' ≤ c && c ≤ 'Z') = false := by
    have : ¬ CodePoint.char 'A' ≤ c := fun hc => by
      have : 65 ≤ c.toNat := hc
      omega
    simp [this]
  have hv : digitValue? c = some (c.toNat - 48) := by
    simp only [digitValue?]
    rw [if_pos (by omega), if_pos (by simp; omega)]
  simp only [digit?, ha, hA, hv, Bool.false_eq_true, if_false, Option.filter_some,
    decide_eq_true_eq]

theorem isSome_digit?_hex {c : CodePoint} (h : (hexValue? c).isSome = true) :
    (digit? 16 c).isSome = true := by
  rw [isSome_hexValue?_iff] at h
  rcases h with h | h | h
  · rw [digit?_ascii 16 ((isAsciiDigit_iff c).mpr h), if_pos (by omega)]
    rfl
  · have ha : ('a' ≤ c && c ≤ 'z') = true := by
      have h1 : CodePoint.char 'a' ≤ c := h.1
      have h2 : c ≤ CodePoint.char 'z' := (Nat.le_trans h.2 (by decide) : c.toNat ≤ 122)
      simp [h1, h2]
    have : c.toNat - 87 < 16 := by omega
    simp [digit?, ha, Option.filter, this]
  · have ha : ('a' ≤ c && c ≤ 'z') = false := by
      have : ¬ CodePoint.char 'a' ≤ c := fun hc => by
        have : 97 ≤ c.toNat := hc
        omega
      simp [this]
    have hA : ('A' ≤ c && c ≤ 'Z') = true := by
      have h1 : CodePoint.char 'A' ≤ c := h.1
      have h2 : c ≤ CodePoint.char 'Z' := (Nat.le_trans h.2 (by decide) : c.toNat ≤ 90)
      simp [h1, h2]
    have : c.toNat - 55 < 16 := by omega
    simp [digit?, ha, hA, Option.filter, this]

theorem isAround_run {t : Text} (hx : ∀ c ∈ t, (hexValue? c).isSome = true) :
    ∀ c ∈ t, isAround c = false := fun c hc =>
  isAround_of_toNat (by have := (isSome_hexValue?_iff c).mp (hx c hc); omega)

theorem splitSign_run {t : Text} (hx : ∀ c ∈ t, (hexValue? c).isSome = true) :
    splitSign t = (false, t) := by
  unfold splitSign
  split
  · exact absurd (hx (.char '-') (List.mem_cons_self ..)) (by decide)
  · exact absurd (hx (.char '+') (List.mem_cons_self ..)) (by decide)
  · rfl

section Whole

variable {base : Nat} {t : Text} (hd : ∀ c ∈ t, (digit? base c).isSome = true)
include hd

theorem spanDigits_run : spanDigits base t = (t.filterMap (digit? base), []) := by
  simp only [spanDigits]
  rw [List.takeWhile_eq_self_iff.mpr hd, List.dropWhile_eq_nil_iff.mpr hd]

theorem length_spanDigits : (t.filterMap (digit? base)).length = t.length :=
  List.filterMap_length_eq_length.mpr hd

variable (hx : ∀ c ∈ t, (hexValue? c).isSome = true)
include hx

theorem dropMark_run : dropMark base t = t := by
  unfold dropMark
  split
  · rename_i m rest
    have hm := hx (.char m) (by simp)
    have hdm := hd (.char m) (by simp)
    have hne : ∀ k : Char, hexValue? (.char k) = none → m ≠ k := by
      rintro k hk rfl
      rw [hk] at hm
      cases hm
    have hb : ¬ (base = 2 ∧ (m = 'b' ∨ m = 'B')) := by
      rintro ⟨rfl, rfl | rfl⟩ <;> exact absurd hdm (by decide)
    rw [if_neg]
    have h1 := hne 'x' (by decide)
    have h2 := hne 'X' (by decide)
    have h3 := hne 'o' (by decide)
    have h4 := hne 'O' (by decide)
    simp only [Bool.or_eq_true, Bool.and_eq_true, decide_eq_true_eq]
    tauto
  · rfl

/-- A run of digits is a whole number unless there is none or, in base ten, there are too many. -/
theorem whole_run : whole base t =
    if base = 10 && digitLimit < t.length then .error (.tooLong t.length)
    else if t.isEmpty then .error (.notWhole base t)
    else .ok (value base (t.filterMap (digit? base)) : Nat) := by
  have he : (t.filterMap (digit? base)).isEmpty = t.isEmpty := by
    rw [Bool.eq_iff_iff, List.isEmpty_iff_length_eq_zero, List.isEmpty_iff_length_eq_zero,
      length_spanDigits hd]
  simp only [whole, trimBy_eq_self (isAround_run hx), splitSign_run hx, dropMark_run hd hx,
    spanDigits_run hd, length_spanDigits hd, he, List.isEmpty_nil, Bool.not_true, Bool.or_false]
  rfl

end Whole

/-! ## Decimal fractions -/

/-- Decimal digits of ASCII. -/
def AreDigits (t : Text) : Prop := ∀ c ∈ t, isAsciiDigit c = true

theorem AreDigits.isSome_digit? {t : Text} (h : AreDigits t) :
    ∀ c ∈ t, (digit? 10 c).isSome = true := by
  intro c hc
  have hn := (isAsciiDigit_iff c).mp (h c hc)
  rw [digit?_ascii 10 (h c hc), if_pos (by omega)]
  rfl

theorem AreDigits.isSome_hexValue? {t : Text} (h : AreDigits t) :
    ∀ c ∈ t, (hexValue? c).isSome = true := fun c hc =>
  (isSome_hexValue?_iff c).mpr (.inl ((isAsciiDigit_iff c).mp (h c hc)))

theorem AreDigits.run {t : Text} (h : AreDigits t) :
    ∀ c ∈ t, (digit? 10 c).isSome = true ∧ (hexValue? c).isSome = true :=
  fun c hc => ⟨h.isSome_digit? c hc, h.isSome_hexValue? c hc⟩

theorem spanDigits_append {ds r : Text} (h : AreDigits ds)
    (hr : ∀ c ∈ r.head?, digit? 10 c = none) :
    spanDigits 10 (ds ++ r) = (ds.filterMap (digit? 10), r) := by
  have hp : ∀ c ∈ r.head?, (digit? 10 c).isSome = false := fun c hc => by rw [hr c hc]; rfl
  simp only [spanDigits]
  rw [Yaml.takeWhile_run h.isSome_digit? hp, Yaml.dropWhile_run h.isSome_digit? hp]

theorem filterMap_ne_nil {ds : Text} (h : AreDigits ds) (hne : ds ≠ []) :
    ds.filterMap (digit? 10) ≠ [] := by
  intro he
  have hl := length_spanDigits h.isSome_digit?
  rw [he] at hl
  exact hne (List.eq_nil_of_length_eq_zero hl.symm)

/-- Nothing, or the mark of an exponent with its sign and digits. -/
inductive IsExponent : Text → Prop where
  | none : IsExponent []
  | digits {s : CodePoint} {ds : Text} (hs : s = '-' ∨ s = '+') (h : AreDigits ds)
    (hne : ds ≠ []) : IsExponent (.char 'e' :: s :: ds)

theorem IsExponent.head {ex : Text} (h : IsExponent ex) : ∀ c ∈ ex.head?, digit? 10 c = .none := by
  cases h with
  | none => simp
  | digits hs h hne =>
    intro c hc
    cases hc
    decide

theorem IsExponent.exponent? {ex : Text} (h : IsExponent ex) : (exponent? ex).isSome = true := by
  cases h with
  | none => rfl
  | @digits s ds hs h hne =>
    have hspan := spanDigits_append (r := []) h (by simp)
    rw [List.append_nil] at hspan
    obtain ⟨v, vs, hv⟩ := List.exists_cons_of_ne_nil (filterMap_ne_nil h hne)
    rw [hv] at hspan
    have hsign : ∃ b, splitSign (s :: ds) = (b, ds) := by
      rcases hs with rfl | rfl <;> exact ⟨_, rfl⟩
    obtain ⟨b, hb⟩ := hsign
    simp [Numeral.exponent?, hb, hspan]

/-- The forms of an unsigned decimal: digits, with a point among them or before an exponent. -/
inductive IsDecimal : Text → Prop where
  | whole {ds : Text} (h : AreDigits ds) (hne : ds ≠ []) : IsDecimal ds
  | fraction {ds fs ex : Text} (h : AreDigits ds) (h' : AreDigits fs) (hne : ds ≠ [] ∨ fs ≠ [])
    (hex : IsExponent ex) : IsDecimal (ds ++ .char '.' :: (fs ++ ex))

theorem IsDecimal.decimal? {t : Text} (h : IsDecimal t) (negative : Bool) :
    (decimal? negative t).isSome = true := by
  cases h with
  | whole h hne =>
    have hspan := spanDigits_append (r := []) h (by simp)
    rw [List.append_nil] at hspan
    have hds := filterMap_ne_nil h hne
    simp [Numeral.decimal?, hspan, hds, exponent?]
  | @fraction ds fs ex h h' hne hex =>
    have hspan := spanDigits_append (r := .char '.' :: (fs ++ ex)) h (by
      intro c hc
      cases hc
      decide)
    have hspan' := spanDigits_append h' hex.head
    have hds : ds.filterMap (digit? 10) ++ fs.filterMap (digit? 10) ≠ [] := by
      rw [Ne, List.append_eq_nil_iff]
      rintro ⟨h1, h2⟩
      rcases hne with hne | hne
      · exact filterMap_ne_nil h hne h1
      · exact filterMap_ne_nil h' hne h2
    obtain ⟨e, he⟩ := Option.isSome_iff_exists.mp hex.exponent?
    simp only [Numeral.decimal?, hspan, hspan', List.isEmpty_iff]
    rw [if_neg hds, he]
    rfl

theorem IsExponent.chars {ex : Text} (h : IsExponent ex) :
    ∀ c ∈ ex, isAsciiDigit c = true ∨ c = 'e' ∨ c = '-' ∨ c = '+' := by
  cases h with
  | none => simp
  | digits hs h hne =>
    rw [List.forall_mem_cons, List.forall_mem_cons]
    exact ⟨by simp, .inr (.inr hs), fun c hc => .inl (h c hc)⟩

theorem IsDecimal.chars {t : Text} (h : IsDecimal t) :
    ∀ c ∈ t, isAsciiDigit c = true ∨ c = '.' ∨ c = 'e' ∨ c = '-' ∨ c = '+' := by
  cases h with
  | whole h hne => exact fun c hc => .inl (h c hc)
  | fraction h h' hne hex =>
    simp only [List.forall_mem_append, List.forall_mem_cons]
    refine ⟨fun c hc => .inl (h c hc), by simp, fun c hc => .inl (h' c hc), fun c hc => ?_⟩
    exact (hex.chars c hc).imp_right .inr

theorem IsDecimal.isAround {t : Text} (h : IsDecimal t) : ∀ c ∈ t, isAround c = false := by
  intro c hc
  rcases h.chars c hc with hd | rfl | rfl | rfl | rfl
  · exact isAround_of_toNat (by have := (isAsciiDigit_iff c).mp hd; omega)
  all_goals decide

theorem IsDecimal.head {t : Text} (h : IsDecimal t) :
    ∃ c r, t = c :: r ∧ (isAsciiDigit c = true ∨ c = '.') := by
  cases h with
  | whole h hne =>
    obtain ⟨c, r, rfl⟩ := List.exists_cons_of_ne_nil hne
    exact ⟨c, r, rfl, .inl (h c (List.mem_cons_self ..))⟩
  | @fraction ds fs ex h h' hne hex =>
    cases ds with
    | nil => exact ⟨_, _, rfl, .inr rfl⟩
    | cons c ds => exact ⟨c, _, rfl, .inl (h c (List.mem_cons_self ..))⟩

theorem asciiLower_digit {c : CodePoint} (h : isAsciiDigit c = true) : c.asciiLower = c := by
  rw [isAsciiDigit_iff] at h
  exact CodePoint.asciiLower_eq_self (by omega)

/-- A decimal has a value. -/
theorem IsDecimal.float {t : Text} (h : IsDecimal t) : ∃ x, float t = .ok x := by
  obtain ⟨x, hx⟩ := Option.isSome_iff_exists.mp (h.decimal? false)
  obtain ⟨c, r, rfl, hc⟩ := h.head
  have hsign : splitSign (c :: r) = (false, c :: r) := by
    unfold splitSign
    split
    · rename_i heq
      cases heq
      exact absurd hc (by decide)
    · rename_i heq
      cases heq
      exact absurd hc (by decide)
    · rfl
  have hlower : c.asciiLower = c := by
    rcases hc with hc | rfl
    · exact asciiLower_digit hc
    · decide
  have hword : ∀ (s : Text) (d : CodePoint) (w : Text), s = d :: w →
      isAsciiDigit d = false ∧ d ≠ '.' → ((c :: r).map CodePoint.asciiLower == s) = false := by
    rintro s d w rfl ⟨hd, hp⟩
    have hcd : c ≠ d := by
      rintro rfl
      rcases hc with hc | hc
      · rw [hc] at hd
        cases hd
      · exact hp hc
    rw [List.map_cons, hlower, List.cons_beq_cons, beq_eq_false_iff_ne.mpr hcd, Bool.false_and]
  refine ⟨x, ?_⟩
  have h1 := hword "inf" _ _ rfl (by decide)
  have h2 := hword "infinity" _ _ rfl (by decide)
  have h3 := hword "nan" _ _ rfl (by decide)
  simp only [Numeral.float, trimBy_eq_self h.isAround, hsign, h1, h2, h3, hx, Bool.or_self,
    Bool.false_eq_true, if_false]

end Numeral
end Formulary
