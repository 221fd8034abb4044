import Mathlib.Data.List.TakeWhile
import Formulary.Configuration
import Formulary.Proofs.Lowercase

/-! # The flag for invalid formulas

The flag is on for four words and off for four others, for a blank text and where it is unset. Blanks
around a word and the case of its letters make no difference, and nothing else is read as a word: no
letter beyond ASCII stands for one of its letters.
-/

namespace Formulary
set_option autoImplicit false

/-! ## Texts without the blanks around them -/

namespace Text

section Trim

variable {p : CodePoint → Bool} {t before after : Text}

theorem dropWhile_head (h : ∀ c ∈ t.head?, p c = false) : t.dropWhile p = t := by
  cases t with
  | nil => rfl
  | cons c t =>
    refine List.dropWhile_cons_of_neg ?_
    rw [h c rfl]
    exact Bool.false_ne_true

theorem head?_dropWhile (p : CodePoint → Bool) (t : Text) :
    ∀ c ∈ (t.dropWhile p).head?, p c = false := by
  intro c hc
  have h := List.head?_dropWhile_not p t
  rw [Option.mem_def.mp hc] at h
  exact h

theorem trimEndBy_append (h : ∀ c ∈ after, p c = true) :
    trimEndBy p (t ++ after) = trimEndBy p t := by
  rw [trimEndBy, List.reverse_append, List.dropWhile_append_of_pos, trimEndBy]
  exact fun c hc => h c (List.mem_reverse.mp hc)

theorem trimBy_append (h : ∀ c ∈ after, p c = true) : trimBy p (t ++ after) = trimBy p t := by
  rw [trimBy, trimBy, List.dropWhile_append]
  split
  · rename_i he
    rw [List.isEmpty_iff.mp he, List.dropWhile_eq_nil_iff.mpr h]
  · exact trimEndBy_append h

theorem trimBy_around (hb : ∀ c ∈ before, p c = true) (ha : ∀ c ∈ after, p c = true) :
    trimBy p (before ++ t ++ after) = trimBy p t := by
  rw [trimBy_append ha, trimBy, List.dropWhile_append_of_pos hb, trimBy]

theorem map_trimBy {f : CodePoint → CodePoint} (h : p ∘ f = p) :
    trimBy p (t.map f) = (trimBy p t).map f := by
  simp only [trimBy, trimEndBy, ← List.map_reverse, List.dropWhile_map, h]

end Trim

/-- A text is another with blanks around it, which has none at its ends. -/
structure Trimmed (t core : Text) : Prop where
  around : ∃ before after, t = before ++ core ++ after ∧ (∀ c ∈ before, isBlank c = true) ∧
    ∀ c ∈ after, isBlank c = true
  first : ∀ c ∈ core.head?, isBlank c = false
  last : ∀ c ∈ core.getLast?, isBlank c = false

theorem Trimmed.eq_trim {t core : Text} (h : Trimmed t core) : core = trim t := by
  obtain ⟨⟨before, after, rfl, hb, ha⟩, hf, hl⟩ := h
  rw [← List.head?_reverse] at hl
  rw [trim, trimBy_around hb ha, trimBy, dropWhile_head hf, trimEndBy, dropWhile_head hl,
    List.reverse_reverse]

theorem trimmed_trim (t : Text) : Trimmed t (trim t) := by
  let inner := t.dropWhile isBlank
  have hinner : inner = trim t ++ (inner.reverse.takeWhile isBlank).reverse := by
    rw [trim, trimBy, trimEndBy, ← List.reverse_append, List.takeWhile_append_dropWhile,
      List.reverse_reverse]
  have ht : t = t.takeWhile isBlank ++ inner := List.takeWhile_append_dropWhile.symm
  refine ⟨⟨t.takeWhile isBlank, (inner.reverse.takeWhile isBlank).reverse, ?_, ?_, ?_⟩, ?_, ?_⟩
  · rw [List.append_assoc, ← hinner]
    exact ht
  · exact fun c hc => List.mem_takeWhile_imp hc
  · exact fun c hc => List.mem_takeWhile_imp (List.mem_reverse.mp hc)
  · -- what is left starts as it did before blanks were taken off its end
    intro c hc
    refine head?_dropWhile isBlank t c ?_
    show c ∈ inner.head?
    rw [hinner, List.head?_append, Option.mem_def.mp hc]
    rfl
  · rw [trim, trimBy, trimEndBy, List.getLast?_reverse]
    exact head?_dropWhile isBlank _

theorem trimmed_iff {t core : Text} : Trimmed t core ↔ core = trim t := by
  refine ⟨Trimmed.eq_trim, ?_⟩
  rintro rfl
  exact trimmed_trim t

theorem trim_asciiLower (t : Text) :
    trim (t.map CodePoint.asciiLower) = (trim t).map CodePoint.asciiLower :=
  map_trimBy (funext isBlank_asciiLower)

end Text

/-! ## Words -/

namespace Configuration
open Text

/-- Two texts are equal up to the case of ASCII letters. -/
def SameLetters (s t : Text) : Prop := asciiLower s = asciiLower t

/-- Without the blanks around it, a text is one of the words up to the case of ASCII letters. -/
def Says (words : List Text) (t : Text) : Prop :=
  ∃ core, Trimmed t core ∧ ∃ w ∈ words, SameLetters core w

theorem says_iff {words : List Text} {t : Text} :
    Says words t ↔ ∃ w ∈ words, SameLetters (trim t) w := by
  simp only [Says, trimmed_iff, exists_eq_left]

theorem says_falseWords {t : Text} :
    Says falseWords t ↔ Trimmed t [] ∨ Says ["0", "false", "no", "off"] t := by
  have hnil : SameLetters (trim t) [] ↔ [] = trim t := by
    rw [SameLetters, asciiLower, asciiLower, List.map_nil, List.map_eq_nil_iff, eq_comm]
  have hwords : falseWords = (["0", "false", "no", "off"] : List Text) ++ [[]] := rfl
  simp only [says_iff, trimmed_iff, hwords, List.mem_append, or_and_right, exists_or,
    List.mem_singleton, exists_eq_left, hnil]
  exact or_comm

/-- The words of the flag are in lower case, of ASCII and without a `k`. -/
theorem words_spelled : ∀ w ∈ trueWords ++ falseWords,
    (∀ d ∈ w, d ≠ 'k' ∧ d.toNat < 0x80) ∧ asciiLower w = w := by
  decide +kernel

theorem contains_lowercase {words : List Text} (hw : words ⊆ trueWords ++ falseWords) (t : Text) :
    words.contains (lowercase t) = true ↔ ∃ w ∈ words, SameLetters t w := by
  have hword : ∀ w ∈ words, (lowercase t = w ↔ SameLetters t w) := by
    intro w hmem
    obtain ⟨hascii, hlower⟩ := words_spelled w (hw hmem)
    rw [lowercase_eq_iff hascii hlower, SameLetters, hlower]
    rfl
  rw [List.contains_iff_mem]
  constructor
  · intro h
    exact ⟨lowercase t, h, (hword _ h).mp rfl⟩
  · rintro ⟨w, hmem, h⟩
    rw [(hword w hmem).mpr h]
    exact hmem

theorem SameLetters.ascii {words : List Text} (hw : words ⊆ trueWords ++ falseWords) {t w : Text}
    (hmem : w ∈ words) (h : SameLetters t w) : ∀ c ∈ t, c.toNat < 0x80 := by
  obtain ⟨hascii, hlower⟩ := words_spelled w (hw hmem)
  rw [SameLetters, hlower] at h
  intro c hc
  have hc' : c.asciiLower ∈ w := h ▸ List.mem_map_of_mem hc
  exact (CodePoint.toNat_asciiLower_lt c).mp (hascii _ hc').2

/-! ## The flag -/

theorem contains_or_not (words : List Text) (hw : words ⊆ trueWords ++ falseWords) (t : Text) :
    (Says words t ∧ words.contains (lowercase (trim t)) = true) ∨
      (¬ Says words t ∧ words.contains (lowercase (trim t)) = false) := by
  have h := contains_lowercase hw (trim t)
  rw [← says_iff] at h
  by_cases hs : Says words t
  · exact .inl ⟨hs, h.mpr hs⟩
  · exact .inr ⟨hs, Bool.eq_false_iff.mpr fun hc => hs (h.mp hc)⟩

theorem not_says_both {t : Text} (h : Says trueWords t) : ¬ Says falseWords t := by
  have hdisjoint : ∀ w ∈ trueWords, falseWords.contains w = false := by decide +kernel
  rw [says_iff, ← contains_lowercase (List.subset_append_left ..), List.contains_iff_mem] at h
  rw [says_iff, ← contains_lowercase (List.subset_append_right ..), hdisjoint _ h]
  exact Bool.false_ne_true

theorem readFlag_cases (t : Text) :
    (Says trueWords t ∧ readFlag t = .ok true) ∨ (Says falseWords t ∧ readFlag t = .ok false) ∨
      (¬ Says trueWords t ∧ ¬ Says falseWords t ∧
        readFlag t = .error ⟨lowercase (trim t)⟩) := by
  rcases contains_or_not trueWords (List.subset_append_left ..) t with ⟨hy, hyc⟩ | ⟨hy, hyc⟩
  · left
    simp only [readFlag, hyc, if_true]
    exact ⟨hy, trivial⟩
  right
  rcases contains_or_not falseWords (List.subset_append_right ..) t with ⟨hn, hnc⟩ | ⟨hn, hnc⟩
  · left
    simp only [readFlag, hyc, hnc, if_true, Bool.false_eq_true, if_false]
    exact ⟨hn, trivial⟩
  · right
    simp only [readFlag, hyc, hnc, Bool.false_eq_true, if_false]
    exact ⟨hy, hn, trivial⟩

theorem readFlag_eq_true {t : Text} : readFlag t = .ok true ↔ Says trueWords t := by
  rcases readFlag_cases t with ⟨hy, h⟩ | ⟨hn, h⟩ | ⟨hy, hn, h⟩
  · exact iff_of_true h hy
  · exact iff_of_false (by simp [h]) fun hy => not_says_both hy hn
  · exact iff_of_false (by simp [h]) hy

theorem readFlag_eq_false {t : Text} : readFlag t = .ok false ↔ Says falseWords t := by
  rcases readFlag_cases t with ⟨hy, h⟩ | ⟨hn, h⟩ | ⟨hy, hn, h⟩
  · exact iff_of_false (by simp [h]) (not_says_both hy)
  · exact iff_of_true h hn
  · exact iff_of_false (by simp [h]) hn

theorem readFlag_eq_error {t : Text} :
    (∃ f, readFlag t = .error f) ↔ ¬ Says trueWords t ∧ ¬ Says falseWords t := by
  rw [← readFlag_eq_true, ← readFlag_eq_false]
  rcases readFlag_cases t with ⟨-, h⟩ | ⟨-, h⟩ | ⟨-, -, h⟩ <;> simp [h]

theorem readFlag_around {before after t : Text} (hb : ∀ c ∈ before, isBlank c = true)
    (ha : ∀ c ∈ after, isBlank c = true) : readFlag (before ++ t ++ after) = readFlag t := by
  have htrim : trim (before ++ t ++ after) = trim t := trimBy_around hb ha
  simp only [readFlag, htrim]

theorem readFlag_sameLetters {s t : Text} (h : SameLetters s t) : readFlag s = readFlag t := by
  have hvalue : ∀ t : Text, lowercase (trim (asciiLower t)) = lowercase (trim t) := fun t => by
    rw [asciiLower, trim_asciiLower, lowercase_asciiLower]
  have hst : lowercase (trim s) = lowercase (trim t) := by
    rw [← hvalue s, h, hvalue t]
  simp only [readFlag, hst]

theorem readFlag_beyond_ascii {t : Text} {c : CodePoint} (hc : c ∈ trim t) (h : 0x80 ≤ c.toNat) :
    ∃ f, readFlag t = .error f := by
  have hnot : ∀ words : List Text, words ⊆ trueWords ++ falseWords → ¬ Says words t := by
    intro words hw hs
    obtain ⟨w, hmem, hl⟩ := says_iff.mp hs
    have := hl.ascii hw hmem c hc
    omega
  rw [readFlag_eq_error]
  exact ⟨hnot _ (List.subset_append_left ..), hnot _ (List.subset_append_right ..)⟩

/-! ## The environment -/

section Environment

variable (e : Environment)

theorem ofEnvironment_allowInvalid (allow : Bool) :
    (∃ k, ofEnvironment e = .ok k ∧ k.allowInvalid = allow) ↔
      readFlag (e.allowInvalid?.getD "") = .ok allow := by
  unfold ofEnvironment
  cases readFlag (e.allowInvalid?.getD "") with
  | error f => simp [Except.map]
  | ok b => simp [Except.map]

theorem ofEnvironment_eq_error :
    (∃ f, ofEnvironment e = .error f) ↔ ∃ f, readFlag (e.allowInvalid?.getD "") = .error f := by
  unfold ofEnvironment
  cases readFlag (e.allowInvalid?.getD "") with
  | error f => simp [Except.map]
  | ok b => simp [Except.map]

end Environment

/-- Invalid formulas may be submitted when the variable is one of four words, and may not when it is
unset, blank or one of four others; any other text is refused, and so is each that has a character
beyond ASCII between the blanks around it. Blanks around a text and the case of its ASCII letters make
no difference. -/
theorem flag_outcome (e : Environment) :
    ((∃ k, ofEnvironment e = .ok k ∧ k.allowInvalid = true) ↔
      ∃ value, e.allowInvalid? = some value ∧ Says ["1", "true", "yes", "on"] value) ∧
    ((∃ k, ofEnvironment e = .ok k ∧ k.allowInvalid = false) ↔
      e.allowInvalid? = none ∨ ∃ value, e.allowInvalid? = some value ∧
        (Trimmed value [] ∨ Says ["0", "false", "no", "off"] value)) ∧
    ((∃ f, ofEnvironment e = .error f) ↔
      ∃ value, e.allowInvalid? = some value ∧ ¬ Says ["1", "true", "yes", "on"] value ∧
        ¬ Trimmed value [] ∧ ¬ Says ["0", "false", "no", "off"] value) ∧
    (∀ value core c, e.allowInvalid? = some value → Trimmed value core → c ∈ core →
      0x80 ≤ c.toNat → ∃ f, ofEnvironment e = .error f) ∧
    (∀ value before after, (∀ c ∈ before, isBlank c = true) → (∀ c ∈ after, isBlank c = true) →
      ofEnvironment ⟨some (before ++ value ++ after), e.catalogPath?⟩ =
        ofEnvironment ⟨some value, e.catalogPath?⟩) ∧
    ∀ value value', SameLetters value value' →
      ofEnvironment ⟨some value, e.catalogPath?⟩ = ofEnvironment ⟨some value', e.catalogPath?⟩ := by
  obtain ⟨value?, path?⟩ := e
  have hwords : trueWords = (["1", "true", "yes", "on"] : List Text) := rfl
  have hunset : readFlag "" = .ok false := by decide +kernel
  simp only [ofEnvironment_allowInvalid, ofEnvironment_eq_error, ← hwords, ← not_or,
    ← says_falseWords]
  refine ⟨?_, ?_, ?_, ?_, ?_, ?_⟩
  · cases value? with
    | none => simp [hunset]
    | some value => simp [readFlag_eq_true]
  · cases value? with
    | none => simp [hunset]
    | some value => simp [readFlag_eq_false]
  · cases value? with
    | none => simp [hunset]
    | some value => simp [readFlag_eq_error]
  · rintro value core c rfl hcore hc h
    rw [hcore.eq_trim] at hc
    exact readFlag_beyond_ascii hc h
  · intro value before after hb ha
    simp only [ofEnvironment, Option.getD_some, readFlag_around hb ha]
  · intro value value' h
    simp only [ofEnvironment, Option.getD_some, readFlag_sameLetters h]

end Configuration
end Formulary
