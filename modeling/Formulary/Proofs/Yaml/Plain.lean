import Formulary.Proofs.Yaml.Cursor
import Formulary.Yaml.Token.Plain
import Mathlib.Tactic.Tauto

/-! # Plain scalars read back

A plain scalar is written word by word. Between two words stand the spaces of the text, or in place
of one space a line break and the indentation. The reader goes word by word as well, and takes both
for the spaces of the text as long as it is indented further than the block around it.
-/

namespace Formulary.Yaml
set_option autoImplicit false

/-! ## Words -/

/-- What a plain scalar is made of: characters that end no word, with neither a number sign in front
nor a colon behind. -/
structure IsWord (w : Text) : Prop where
  ne_nil : w ≠ []
  solid : ∀ c ∈ w, isGap c = false ∧ c ≠ byteOrderMark
  readable : ∀ c ∈ w, isReadable c = true
  head : ∀ c ∈ w.head?, c ≠ '#'
  last : ∀ c ∈ w.getLast?, c ≠ ':'

theorem isGap_false_iff (c : CodePoint) :
    isGap c = false ↔ isSpaceOrTab c = false ∧ isBreak c = false ∧ c ≠ endMark := by
  simp [isGap, isBreakOrEnd]

theorem IsWord.inline {w : Text} (h : IsWord w) : ∀ c ∈ w, Cursor.IsInline c := fun c hc =>
  ⟨((isGap_false_iff c).mp (h.solid c hc).1).2.1, (h.solid c hc).2⟩

theorem plainWord_gap {r : Text} (hr : isGap (r.headD endMark) = true) : plainWord false r = [] := by
  cases r with
  | nil => rfl
  | cons c r =>
    have hc : isGap c = true := hr
    simp [plainWord, endsPlain, hc]

theorem plainWord_run {w r : Text} (hs : ∀ c ∈ w, isGap c = false)
    (hl : ∀ c ∈ w.getLast?, c ≠ ':') (hr : plainWord false r = []) :
    plainWord false (w ++ r) = w := by
  induction w with
  | nil => exact hr
  | cons c w ih =>
    have hc := hs c (List.mem_cons_self ..)
    have hw : plainWord false (w ++ r) = w := by
      cases w with
      | nil => exact hr
      | cons d w =>
        refine ih (fun x hx => hs x (List.mem_cons_of_mem _ hx)) fun x hx => hl x ?_
        rwa [List.getLast?_cons_cons]
    have he : endsPlain false c ((w ++ r).headD endMark) = false := by
      cases w with
      | nil =>
        have hne : c ≠ ':' := hl c rfl
        simp [endsPlain, hc, hne]
      | cons d w =>
        have hd := hs d (by simp)
        simp [endsPlain, hc, hd]
    rw [List.cons_append, plainWord, he, hw]
    rfl

/-! ## What is written -/

/-- A text with some of its single spaces written as a line break and an indentation. -/
inductive Folded (indent : Nat) : Text → Text → Prop where
  | word {w : Text} (hw : IsWord w) : Folded indent w w
  | spaced {w t out : Text} (p : Nat) (hw : IsWord w) (h : Folded indent t out) :
    Folded indent (w ++ (spaces (p + 1) ++ t)) (w ++ (spaces (p + 1) ++ out))
  | broken {w t out : Text} (hw : IsWord w) (h : Folded indent t out) :
    Folded indent (w ++ (spaces 1 ++ t)) (w ++ (newLine indent ++ out))

/-- The texts that can be written plain. -/
structure IsPhrase (t : Text) : Prop where
  ne_nil : t ≠ []
  chars : ∀ c ∈ t, c = ' ' ∨ (isGap c = false ∧ c ≠ byteOrderMark)
  readable : ∀ c ∈ t, isReadable c = true
  head : t.head? ≠ some (.char ' ')
  last : t.getLast? ≠ some (.char ' ')
  marks : hasInnerMark ' ' t = false

theorem hasInnerMark_cons (b c : CodePoint) (t : Text) :
    hasInnerMark b (c :: t) = false ↔
      (c = ':' → isGap (t.headD endMark) = false) ∧ (c = '#' → isGap b = false) ∧
        hasInnerMark c t = false := by
  simp [hasInnerMark, and_assoc]

theorem hasInnerMark_append {b d : CodePoint} {a t : Text}
    (h : hasInnerMark b (a ++ d :: t) = false) : hasInnerMark d t = false := by
  induction a generalizing b with
  | nil => exact ((hasInnerMark_cons _ _ _).mp h).2.2
  | cons c a ih => exact ih ((hasInnerMark_cons _ _ _).mp h).2.2

theorem hasInnerMark_last {b d : CodePoint} {a t : Text}
    (h : hasInnerMark b (a ++ d :: t) = false) (hd : d = ':') :
    isGap (t.headD endMark) = false := by
  induction a generalizing b with
  | nil => exact ((hasInnerMark_cons _ _ _).mp h).1 hd
  | cons c a ih => exact ih ((hasInnerMark_cons _ _ _).mp h).2.2

theorem isGap_of_not_special {c : CodePoint} (hs : isSpecial c = false)
    (hb : isTextBreak c = false) : c = ' ' ∨ (isGap c = false ∧ c ≠ byteOrderMark) := by
  by_cases hc : c = ' '
  · exact .inl hc
  refine .inr ⟨?_, ?_⟩
  · rw [isGap_false_iff]
    refine ⟨?_, ?_, ?_⟩
    · by_contra h
      simp only [isSpaceOrTab, Bool.or_eq_false_iff, decide_eq_false_iff_not, hc, not_false_iff,
        true_and, not_not] at h
      subst h
      revert hs
      decide
    · by_contra h
      simp only [isBreak, isTextBreak, Bool.or_eq_false_iff, decide_eq_false_iff_not] at h hb
      have hr : c = '\r' := by
        by_contra hr
        exact h ⟨⟨⟨⟨hr, hb.1.1.1⟩, hb.1.1.2⟩, hb.1.2⟩, hb.2⟩
      subst hr
      revert hs
      decide
    · rintro rfl
      revert hs
      decide
  · rintro rfl
    revert hs
    decide

theorem isReadable_of_not_special {c : CodePoint} (hs : isSpecial c = false) :
    isReadable c = true := by
  simp only [isSpecial, isPlainPoint, Bool.not_eq_false', Bool.or_eq_true, Bool.and_eq_true,
    decide_eq_true_eq] at hs
  simp only [isReadable, Bool.or_eq_true, Bool.and_eq_true, decide_eq_true_eq]
  tauto

theorem isPhrase_of_allowsPlain {t : Text} (h : allowsPlain t = true) (hne : t ≠ []) :
    IsPhrase t := by
  simp only [allowsPlain, Bool.not_eq_true', Bool.or_eq_false_iff, decide_eq_false_iff_not,
    List.any_eq_false, Bool.not_eq_true] at h
  obtain ⟨⟨⟨⟨hh, hl⟩, hb⟩, hs⟩, hm⟩ := h
  refine ⟨hne, fun c hc => isGap_of_not_special (hs c hc) (hb c hc),
    fun c hc => isReadable_of_not_special (hs c hc), hh, hl, ?_⟩
  cases t with
  | nil => exact absurd rfl hne
  | cons c t =>
    simp only [hasBlockMark, Bool.or_eq_false_iff] at hm
    obtain ⟨⟨⟨-, hfirst⟩, hgap⟩, hin⟩ := hm
    refine (hasInnerMark_cons _ _ _).mpr ⟨?_, ?_, hin⟩
    · rintro rfl
      simpa using hgap
    · rintro rfl
      revert hfirst
      decide

theorem exists_word (t : Text) : ∃ w p t', t = w ++ (spaces p ++ t') ∧ (∀ c ∈ w, c ≠ ' ') ∧
    t'.head? ≠ some (.char ' ') ∧ (p = 0 → t' = []) := by
  induction t with
  | nil => exact ⟨[], 0, [], rfl, by simp, by simp, fun _ => rfl⟩
  | cons c t ih =>
    obtain ⟨w, p, t', rfl, hw, ht, hp⟩ := ih
    by_cases hc : c = ' '
    · subst hc
      cases w with
      | nil => exact ⟨[], p + 1, t', rfl, by simp, ht, by simp⟩
      | cons d w =>
        have hd : d ≠ ' ' := hw d (List.mem_cons_self ..)
        exact ⟨[], 1, d :: w ++ (spaces p ++ t'), rfl, by simp, by simpa using hd, by simp⟩
    · refine ⟨c :: w, p, t', rfl, ?_, ht, hp⟩
      exact List.forall_mem_cons.mpr ⟨hc, hw⟩

/-- What stands in a phrase up to a gap is a word. -/
theorem IsPhrase.word {w r : Text} (h : IsPhrase (w ++ r)) (hw : ∀ c ∈ w, c ≠ ' ') (hne : w ≠ [])
    (hr : isGap (r.headD endMark) = true) : IsWord w := by
  have hhead : ∀ c ∈ w.head?, c ≠ '#' := by
    rintro c hc rfl
    cases w with
    | nil => cases hc
    | cons d w =>
      cases hc
      exact absurd (((hasInnerMark_cons _ _ _).mp h.marks).2.1 rfl) (by decide)
  have hlast : ∀ c ∈ w.getLast?, c ≠ ':' := by
    rintro c hc rfl
    have hm := h.marks
    obtain ⟨a, rfl⟩ := List.getLast?_eq_some_iff.mp hc
    rw [List.append_assoc, List.singleton_append] at hm
    rw [hasInnerMark_last hm rfl] at hr
    cases hr
  exact ⟨hne, fun c hc => (h.chars c (List.mem_append_left _ hc)).resolve_left (hw c hc),
    fun c hc => h.readable c (List.mem_append_left _ hc), hhead, hlast⟩

/-- What stands in a phrase after spaces is a phrase. -/
theorem IsPhrase.rest {w t : Text} {p : Nat} (h : IsPhrase (w ++ (spaces (p + 1) ++ t)))
    (ht : t.head? ≠ some (.char ' ')) : IsPhrase t := by
  have hne : t ≠ [] := by
    rintro rfl
    apply h.last
    rw [List.append_nil, List.getLast?_append, spaces, List.getLast?_replicate]
    simp
  refine ⟨hne, fun c hc => h.chars c (by simp [hc]), fun c hc => h.readable c (by simp [hc]), ht,
    ?_, ?_⟩
  · intro hl
    apply h.last
    rw [List.getLast?_append, List.getLast?_append, hl]
    rfl
  · have hm := h.marks
    have e : w ++ (spaces (p + 1) ++ t) = (w ++ spaces p) ++ .char ' ' :: t := by
      rw [spaces, List.replicate_succ', ← spaces]
      simp
    rw [e] at hm
    exact hasInnerMark_append hm

/-- A phrase is a word, or a word, spaces and a phrase. -/
theorem IsPhrase.cases {t : Text} (h : IsPhrase t) :
    IsWord t ∨ ∃ w p t', t = w ++ (spaces (p + 1) ++ t') ∧ IsWord w ∧ IsPhrase t' := by
  obtain ⟨w, p, t', rfl, hw, ht, hp⟩ := exists_word t
  have hne : w ≠ [] := by
    rintro rfl
    cases p with
    | zero => exact h.ne_nil (by rw [hp rfl]; rfl)
    | succ p => exact h.head rfl
  cases p with
  | zero =>
    obtain rfl := hp rfl
    have hword := h.word hw hne rfl
    rw [spaces, List.replicate_zero, List.append_nil, List.append_nil]
    exact .inl hword
  | succ p => exact .inr ⟨w, p, t', rfl, h.word hw hne rfl, h.rest ht⟩

section Writing

variable (fold : Bool) (indent : Nat)

theorem plainText_word {w : Text} (hw : ∀ c ∈ w, c ≠ ' ') (column : Nat) (t : Text) :
    plainText fold indent column 0 (w ++ t) =
      w ++ plainText fold indent (column + w.length) 0 t := by
  induction w generalizing column with
  | nil => rfl
  | cons c w ih =>
    have hc := hw c (List.mem_cons_self ..)
    rw [List.cons_append, plainText, if_neg hc]
    simp only [Nat.zero_ne_one, decide_false, Bool.and_false, Bool.false_and, Bool.false_eq_true,
      if_false]
    rw [ih fun x hx => hw x (List.mem_cons_of_mem _ hx), List.length_cons]
    have e : column + 0 + 1 + w.length = column + (w.length + 1) := by omega
    rw [e]
    rfl

theorem plainText_spaces (column pending p : Nat) (t : Text) :
    plainText fold indent column pending (spaces p ++ t) =
      plainText fold indent column (pending + p) t := by
  induction p generalizing pending with
  | zero => rfl
  | succ p ih =>
    rw [spaces_succ, List.cons_append, plainText, if_pos rfl, ih]
    have e : pending + 1 + p = pending + (p + 1) := by omega
    rw [e]

/-- Spaces before a word are written as they are, or one as a line break. -/
theorem plainText_pending {t : Text} (hne : t ≠ []) (ht : t.head? ≠ some (.char ' '))
    (column pending : Nat) : ∃ column', plainText fold indent column pending t =
        spaces pending ++ plainText fold indent column' 0 t ∨
      (pending = 1 ∧ plainText fold indent column pending t =
        newLine indent ++ plainText fold indent column' 0 t) := by
  cases t with
  | nil => exact absurd rfl hne
  | cons c t =>
    have hc : c ≠ ' ' := by simpa using ht
    have hw : ∀ col, plainText fold indent col 0 (c :: t) =
        c :: plainText fold indent (col + 1) 0 t := fun col =>
      plainText_word fold indent (w := [c]) (by simpa using hc) col t
    rw [plainText, if_neg hc]
    split
    · rename_i hf
      simp only [Bool.and_eq_true, decide_eq_true_eq] at hf
      exact ⟨indent, .inr ⟨hf.1.2, by rw [hw]⟩⟩
    · exact ⟨column + pending, .inl (by rw [hw])⟩

theorem folded_plainText {t : Text} (h : IsPhrase t) (column : Nat) :
    Folded indent t (plainText fold indent column 0 t) := by
  rcases h.cases with hw | ⟨w, p, t', he, hw, ht⟩
  · have e := plainText_word fold indent (t := [])
      (fun c hc e => by subst e; exact absurd (hw.solid _ hc).1 (by decide)) column
    rw [List.append_nil] at e
    rw [e, plainText, spaces, List.replicate_zero, List.append_nil]
    exact .word hw
  · rw [he, plainText_word fold indent
      (fun c hc e => by subst e; exact absurd (hw.solid _ hc).1 (by decide)),
      plainText_spaces, Nat.zero_add]
    obtain ⟨column', e | ⟨hp, e⟩⟩ :=
      plainText_pending fold indent ht.ne_nil ht.head (column + w.length) (p + 1)
    · rw [e]
      exact .spaced p hw (folded_plainText ht column')
    · obtain rfl : p = 0 := by omega
      rw [e]
      exact .broken hw (folded_plainText ht column')
termination_by t.length
decreasing_by
  all_goals
    have := List.length_pos_iff.mpr hw.ne_nil
    rw [he]
    simp only [List.length_append]
    omega

end Writing

theorem isReadable_newLine {indent : Nat} {c : CodePoint} (h : c ∈ newLine indent) :
    isReadable c = true := by
  rcases List.mem_cons.mp h with rfl | h
  · decide
  · rw [mem_spaces h]
    decide

theorem Folded.readable {indent : Nat} {t out : Text} (h : Folded indent t out) :
    ∀ c ∈ out, isReadable c = true := by
  induction h with
  | word hw => exact hw.readable
  | spaced p hw h ih =>
    refine List.forall_mem_append.mpr ⟨hw.readable, List.forall_mem_append.mpr ⟨?_, ih⟩⟩
    intro c hc
    rw [mem_spaces hc]
    decide
  | broken hw h ih =>
    exact List.forall_mem_append.mpr ⟨hw.readable,
      List.forall_mem_append.mpr ⟨fun c => isReadable_newLine, ih⟩⟩

/-! ## What is read -/

/-- What stands at the head of a line that is indented by `k`: a character that is neither blank nor
the start of a comment, and no mark of a document; or the end of the text. -/
structure Resumes (k : Nat) (r : Text) : Prop where
  notBlank : isSpaceOrTab (r.headD endMark) = false
  notBreak : isBreak (r.headD endMark) = false
  notComment : r.headD endMark ≠ '#'
  notMark : k = 0 → startsWithMark r = false

theorem IsWord.resumes {w : Text} (hw : IsWord w) {k : Nat} (hk : 0 < k) (r : Text) :
    Resumes k (w ++ r) := by
  cases w with
  | nil => exact absurd rfl hw.ne_nil
  | cons c w =>
    obtain ⟨h1, h2, -⟩ := (isGap_false_iff c).mp (hw.solid c (List.mem_cons_self ..)).1
    exact ⟨h1, h2, hw.head c rfl, fun h => absurd h (by omega)⟩

theorem Folded.resumes {indent : Nat} {t out : Text} (h : Folded indent t out) {k : Nat}
    (hk : 0 < k) (r : Text) : Resumes k (out ++ r) := by
  cases h with
  | word hw => exact hw.resumes hk r
  | spaced p hw h => rw [List.append_assoc]; exact hw.resumes hk _
  | broken hw h => rw [List.append_assoc]; exact hw.resumes hk _

theorem Resumes.not_space {k : Nat} {r : Text} (h : Resumes k r) : r.headD endMark ≠ ' ' := by
  intro e
  have := h.notBlank
  rw [e] at this
  cases this

theorem Resumes.atSeparator {k : Nat} {r : Text} (h : Resumes k r) {c : Cursor}
    (hc : c.rest = spaces k ++ r) : c.atSeparator = false := by
  cases k with
  | succ k => exact Cursor.atSeparator_false hc (by decide) (by decide)
  | zero =>
    have hm := h.notMark rfl
    rw [startsWithMark, Bool.or_eq_false_iff] at hm
    have hc' : c.rest = r := hc
    simp [Cursor.atSeparator, Cursor.atMark, hc', hm.1, hm.2]

theorem plainBreaks_spaces {c : Cursor} {k : Nat} {r : Text} (h : c.rest = spaces k ++ r)
    (hs : r.headD endMark ≠ ' ') (hb : isBreak (r.headD endMark) = false) (fuel : Nat) :
    plainBreaks (fuel + k + 1) c = (some [], c.skip k) := by
  induction k generalizing c with
  | zero =>
    have hp : c.peek = r.headD endMark := by rw [Cursor.peek_eq, h]; rfl
    rw [plainBreaks, hp, if_neg hs, Cursor.lineBreak?_none (by rw [hp]; exact hb)]
    rfl
  | succ k ih =>
    have hp : c.peek = ' ' := Cursor.peek_cons h
    have h1 : c.advance.rest = spaces k ++ r := by rw [Cursor.rest_advance, h]; rfl
    rw [plainBreaks, if_pos hp]
    exact ih h1

theorem plainBreaks_lines {c : Cursor} {j k : Nat} {r : Text}
    (h : c.rest = List.replicate j (.char '\n') ++ (spaces k ++ r)) (hr : Resumes k r)
    (fuel : Nat) :
    plainBreaks (fuel + k + 1 + j) c = (some (List.replicate j (.char '\n')), c.skip (j + k)) := by
  induction j generalizing c with
  | zero =>
    rw [Nat.zero_add]
    exact plainBreaks_spaces h hr.not_space hr.notBreak fuel
  | succ j ih =>
    have h1 : c.advance.rest = List.replicate j (.char '\n') ++ (spaces k ++ r) := by
      rw [Cursor.rest_advance, h]
      rfl
    have hsep : c.advance.atSeparator = false := by
      cases j with
      | zero => exact hr.atSeparator h1
      | succ j => exact Cursor.atSeparator_false h1 (by decide) (by decide)
    have hb := Cursor.lineBreak?_break h (by decide)
    have hp : ¬ c.peek = ' ' := by rw [Cursor.peek_cons h]; decide
    rw [← Nat.add_assoc, plainBreaks, if_neg hp, hb]
    simp only [hsep, Bool.false_eq_true, if_false, ih h1]
    have e : j + 1 + k = (j + k) + 1 := by omega
    rw [e]
    rfl

/-- What the end of a line means inside a scalar: a space, or the empty lines after it. -/
def foldedLines (j : Nat) : Text := if j = 0 then spaces 1 else List.replicate j (.char '\n')

theorem foldedLines_ne_nil (j : Nat) : foldedLines j ≠ [] := by
  cases j with
  | zero => exact List.cons_ne_nil _ _
  | succ j => exact List.cons_ne_nil _ _

theorem plainBlanks_lineEnd {c : Cursor} {j k : Nat} {r : Text} (h : c.rest = lineEnd j k ++ r)
    (hr : Resumes k r) : plainBlanks c = (foldedLines j, true, c.skip (j + 1 + k)) := by
  rw [lineEnd_append] at h
  have h1 : c.advance.rest = List.replicate j (.char '\n') ++ (spaces k ++ r) := by
    rw [Cursor.rest_advance, h]
    rfl
  have hsep : c.advance.atSeparator = false := by
    cases j with
    | zero => exact hr.atSeparator h1
    | succ j => exact Cursor.atSeparator_false h1 (by decide) (by decide)
  have hspan : c.span (· = ' ') = ([], c) := Cursor.span_run (a := []) h (by simp) (by simp)
  have hfuel : ∃ fuel, c.advance.rest.length + 1 = fuel + k + 1 + j := by
    refine ⟨r.length, ?_⟩
    rw [h1]
    simp only [List.length_append, List.length_replicate, length_spaces]
    omega
  obtain ⟨fuel, hfuel⟩ := hfuel
  have hb : asRead (.char '\n') = .char '\n' := by decide
  simp only [plainBlanks, hspan, Cursor.lineBreak?_break h (by decide), hsep, Bool.false_eq_true,
    if_false, hfuel, plainBreaks_lines h1 hr, hb]
  have e : j + 1 + k = (j + k) + 1 := by omega
  rw [e]
  cases j with
  | zero => rfl
  | succ j => rfl

theorem plainBlanks_spaces {c : Cursor} {p : Nat} {r : Text} (h : c.rest = spaces p ++ r)
    (hs : r.headD endMark ≠ ' ') (hb : isBreak (r.headD endMark) = false) :
    plainBlanks c = (spaces p, false, c.skip p) := by
  have hspan : c.span (· = ' ') = (spaces p, c.skip p) := by
    rw [Cursor.span_run h (fun x hx => by simp [mem_spaces hx]), length_spaces]
    cases r with
    | nil => simp
    | cons x r => simpa using hs
  have hp : (c.skip p).peek = r.headD endMark := by
    have e := Cursor.rest_skip_append h
    rw [length_spaces] at e
    rw [Cursor.peek_eq, e]
  simp only [plainBlanks, hspan, Cursor.lineBreak?_none (hp ▸ hb)]

section Words

variable {i : Int} {fuel : Nat} {blanks w : Text} {ended : Bool} {c : Cursor}

/-- One word, where the reader goes on or stops by what comes after it. -/
theorem plainWords_word {r further : Text} {ended' : Bool} {c' : Cursor} (hw : IsWord w)
    (hc : c.rest = w ++ r) (hr : plainWord false r = [])
    (hb : plainBlanks (c.skip w.length) = (further, ended', c')) :
    plainWords false i (fuel + 1) blanks ended c =
      if further = [] ∨ c'.peek = '#' ∨ (c'.column : Int) ≤ i then (blanks ++ w, ended', c')
      else
        let q := plainWords false i fuel further ended' c'
        (blanks ++ w ++ q.1, q.2) := by
  have hword : plainWord false c.rest = w := by
    rw [hc]
    exact plainWord_run (fun x hx => (hw.solid x hx).1) hw.last hr
  have hp : ¬ c.peek = '#' := by
    rw [Cursor.peek_eq, hc]
    cases w with
    | nil => exact absurd rfl hw.ne_nil
    | cons x w => exact hw.head x rfl
  have hne : w.isEmpty = false := by
    rw [List.isEmpty_eq_false_iff]
    exact hw.ne_nil
  rw [plainWords]
  simp only [hp, if_false, hword, hne, Bool.false_eq_true, hb, Bool.or_eq_true,
    List.isEmpty_iff, decide_eq_true_eq, Bool.not_false, Bool.true_and, or_assoc]

theorem plainWords_more {r further : Text} {ended' : Bool} {c' : Cursor} (hw : IsWord w)
    (hc : c.rest = w ++ r) (hr : plainWord false r = [])
    (hb : plainBlanks (c.skip w.length) = (further, ended', c')) (hne : further ≠ [])
    (hp : c'.rest.headD endMark ≠ '#') (hcol : i < c'.column) :
    plainWords false i (fuel + 1) blanks ended c =
      let q := plainWords false i fuel further ended' c'
      (blanks ++ w ++ q.1, q.2) := by
  rw [plainWords_word hw hc hr hb, Cursor.peek_eq]
  refine if_neg ?_
  rintro (h | h | h)
  · exact hne h
  · exact hp h
  · omega

theorem plainWords_last {j k : Nat} {r : Text} (hw : IsWord w)
    (hc : c.rest = w ++ (lineEnd j k ++ r)) (hr : Resumes k r) (hk : (k : Int) ≤ i) :
    plainWords false i (fuel + 1) blanks ended c =
      (blanks ++ w, true, c.skip (w.length + (j + 1 + k))) := by
  have h1 := Cursor.rest_skip_append hc
  rw [plainWords_word hw hc (plainWord_gap rfl) (plainBlanks_lineEnd h1 hr), Cursor.skip_skip]
  refine if_pos (.inr (.inr ?_))
  rw [← Cursor.skip_skip, Cursor.skip_lineEnd h1]
  exact hk

/-- A key is read up to its colon. -/
theorem plainScalar_key {r : Text} (hw : IsWord w) (hc : c.rest = w ++ .char ':' :: r)
    (hr : isGap (r.headD endMark) = true) :
    plainScalar false i c = (w, false, c.skip w.length) := by
  have h1 := Cursor.rest_skip_append hc
  have hend : plainWord false (.char ':' :: r) = [] := by
    have he : endsPlain false ':' (r.headD endMark) = true := by rw [endsPlain, hr]; rfl
    rw [plainWord, if_pos he]
  have hb := plainBlanks_spaces (p := 0) h1 (by simp) rfl
  rw [plainScalar, plainWords_word hw hc hend hb]
  exact if_pos (.inl rfl)

end Words

/-- What is written of a phrase is read as the phrase. -/
theorem plainWords_folded {indent : Nat} {t out : Text} (hf : Folded indent t out) {i : Int}
    (hi : i < indent) (hpos : 0 < indent) {j k : Nat} {r : Text} (hr : Resumes k r)
    (hk : (k : Int) ≤ i) {fuel : Nat} {blanks : Text} {ended : Bool} {c : Cursor}
    (hc : c.rest = out ++ (lineEnd j k ++ r)) (hcol : i < c.column) (hfuel : out.length < fuel) :
    plainWords false i fuel blanks ended c =
      (blanks ++ t, true, c.skip (out.length + (j + 1 + k))) := by
  induction hf generalizing fuel blanks ended c with
  | word hw =>
    obtain ⟨fuel, rfl⟩ : ∃ n, fuel = n + 1 := ⟨fuel - 1, by omega⟩
    exact plainWords_last hw hc hr hk
  | @spaced w t out p hw hf ih =>
    obtain ⟨fuel, rfl⟩ : ∃ n, fuel = n + 1 := ⟨fuel - 1, by omega⟩
    simp only [List.append_assoc] at hc
    simp only [List.length_append, length_spaces] at hfuel ⊢
    have hout := hf.resumes (k := 1) Nat.one_pos (lineEnd j k ++ r)
    have h1 := Cursor.rest_skip_append hc
    have h2 := Cursor.skip_inline hc hw.inline
    have h3 := Cursor.skip_spaces h1
    have hcol' : i < ((c.skip w.length).skip (p + 1)).column := by
      rw [h3, h2]
      show i < ((c.column + w.length + (p + 1) : Nat) : Int)
      omega
    have h4 : ((c.skip w.length).skip (p + 1)).rest = out ++ (lineEnd j k ++ r) := by rw [h3]
    rw [plainWords_more hw hc (plainWord_gap rfl)
      (plainBlanks_spaces h1 hout.not_space hout.notBreak) (List.cons_ne_nil _ _)
      (h4 ▸ hout.notComment) hcol', ih h4 hcol' (by omega), Cursor.skip_skip, Cursor.skip_skip]
    simp only [List.append_assoc, Nat.add_assoc]
  | @broken w t out hw hf ih =>
    obtain ⟨fuel, rfl⟩ : ∃ n, fuel = n + 1 := ⟨fuel - 1, by omega⟩
    rw [← lineEnd_zero] at hc hfuel ⊢
    simp only [List.append_assoc] at hc
    simp only [List.length_append, length_lineEnd] at hfuel ⊢
    have hout := hf.resumes hpos (lineEnd j k ++ r)
    have h1 := Cursor.rest_skip_append hc
    have h3 := Cursor.skip_lineEnd h1
    have hcol' : i < ((c.skip w.length).skip (0 + 1 + indent)).column := by
      rw [h3]
      exact hi
    have h4 : ((c.skip w.length).skip (0 + 1 + indent)).rest = out ++ (lineEnd j k ++ r) := by
      rw [h3]
    rw [plainWords_more hw hc (plainWord_gap rfl) (plainBlanks_lineEnd h1 hout)
      (foldedLines_ne_nil 0) (h4 ▸ hout.notComment) hcol', ih h4 hcol' (by omega),
      Cursor.skip_skip, Cursor.skip_skip]
    simp only [List.append_assoc, Nat.add_assoc]
    rfl

end Formulary.Yaml
