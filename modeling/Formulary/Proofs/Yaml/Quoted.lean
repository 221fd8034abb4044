import Formulary.Proofs.CodePoint
import Formulary.Proofs.Yaml.Plain
import Formulary.Yaml.Token.Quoted
import Mathlib.Algebra.Group.Nat.Defs
import Mathlib.Data.List.Induction

/-! # Quoted scalars read back

A quoted scalar is read part by part: a character, a run of blanks, line breaks with the
indentation after them, an escape. `Quoted` lists the parts that are written and what each is read
as. In double quotes everything comes back. In single quotes the next-line character does not: it
stands there as a line break, and line breaks are folded.
-/

namespace Formulary.Yaml
set_option autoImplicit false

/-! ## Numbers of escapes -/

section Hexadecimal

theorem hexNumber?_concat (t : Text) (c : CodePoint) : Text.hexNumber? (t ++ [c]) =
    (Text.hexNumber? t).bind fun n => (Text.hexValue? c).map (16 * n + ·) := by
  rw [Text.hexNumber?, List.foldl_append]
  rfl

theorem hexValue?_digit {n : Nat} (h : n < 16) :
    Text.hexValue? (.char n.digitChar.toUpper) = some n := by
  revert n
  decide

theorem hexNumber?_toDigits (n : Nat) :
    Text.hexNumber? (Text.ofChars ((Nat.toDigits 16 n).map Char.toUpper)) = some n := by
  induction n using Nat.strongRecOn with
  | ind n ih =>
    by_cases h : n < 16
    · rw [Nat.toDigits_of_lt_base h]
      have e := hexNumber?_concat [] (.char n.digitChar.toUpper)
      rw [hexValue?_digit h] at e
      have z : 16 * 0 + n = n := by omega
      exact e.trans (congrArg some z)
    · have h1 := ih (n / 16) (by omega)
      have h2 := hexValue?_digit (n := n % 16) (by omega)
      rw [Nat.toDigits_of_base_le (by omega) (by omega), List.map_append, Text.ofChars,
        List.map_append, ← Text.ofChars]
      have e := hexNumber?_concat (Text.ofChars ((Nat.toDigits 16 (n / 16)).map Char.toUpper))
        (.char (n % 16).digitChar.toUpper)
      rw [h1, h2] at e
      have z : 16 * (n / 16) + n % 16 = n := by omega
      exact e.trans (congrArg some z)

theorem hexNumber?_zeros (k : Nat) (t : Text) :
    Text.hexNumber? (List.replicate k (.char '0') ++ t) = Text.hexNumber? t := by
  induction k with
  | zero => rfl
  | succ k ih => exact ih

theorem hexNumber?_hexDigitsUpper (width n : Nat) :
    Text.hexNumber? (Text.hexDigitsUpper width n) = some n := by
  rw [Text.hexDigitsUpper, Text.padded, Text.ofChars, List.map_append, List.map_replicate,
    hexNumber?_zeros, ← Text.ofChars, hexNumber?_toDigits]

theorem length_hexDigitsUpper {width n : Nat} (hw : 0 < width) (hn : n < 16 ^ width) :
    (Text.hexDigitsUpper width n).length = width := by
  have h := (Nat.length_toDigits_le_iff (by omega) hw).mpr hn
  simp only [Text.hexDigitsUpper, Text.padded, Text.ofChars, List.length_map, List.length_append,
    List.length_replicate]
  omega

end Hexadecimal

theorem isSome_hexValue? {t : Text} {n : Nat} (h : Text.hexNumber? t = some n) :
    ∀ c ∈ t, (Text.hexValue? c).isSome = true := by
  induction t using List.reverseRecOn generalizing n with
  | nil => simp
  | append_singleton t c ih =>
    rw [hexNumber?_concat] at h
    obtain ⟨m, hm, hc⟩ := Option.bind_eq_some_iff.mp h
    obtain ⟨d, hd, -⟩ := Option.map_eq_some_iff.mp hc
    refine List.forall_mem_append.mpr ⟨ih hm, List.forall_mem_singleton.mpr ?_⟩
    rw [hd]
    rfl

theorem isReadable_hexDigit {c : CodePoint} (h : (Text.hexValue? c).isSome = true) :
    isReadable c = true := by
  have hr : '0' ≤ c ∧ c ≤ '9' ∨ 'a' ≤ c ∧ c ≤ 'f' ∨ 'A' ≤ c ∧ c ≤ 'F' := by
    by_contra hn
    simp only [not_or] at hn
    simp [Text.hexValue?, hn.1, hn.2.1, hn.2.2] at h
  have hs : (' ' : CodePoint) ≤ c ∧ c ≤ '~' := by
    show (32 : Nat) ≤ c.toNat ∧ c.toNat ≤ 126
    have h0 : ((48 : Nat) ≤ c.toNat ∧ c.toNat ≤ 57) ∨ ((97 : Nat) ≤ c.toNat ∧ c.toNat ≤ 102) ∨
      ((65 : Nat) ≤ c.toNat ∧ c.toNat ≤ 70) := hr
    omega
  simp [isReadable, hs]

/-! ## Escapes -/

section Escapes

variable {c : Cursor} {r : Text}

theorem map_ahead {a : Text} (h : c.rest = a ++ r) : (List.range a.length).map c.ahead = a := by
  apply List.ext_getElem
  · simp
  · intro n h1 h2
    have h3 : n < a.length := h2
    simp [Cursor.ahead, h, List.getElem?_append_left h3, h3]

theorem quotedEscape_letter {e ch : CodePoint} (h : c.rest = e :: r)
    (he : letterEscape? e = some ch) : quotedEscape c = .ok ([ch], c.skip 1) := by
  rw [quotedEscape, Cursor.peek_cons h]
  simp only [he]
  rfl

theorem quotedEscape_code {e : CodePoint} {size : Nat} (ch : CodePoint)
    (h : c.rest = e :: (Text.hexDigitsUpper size ch.toNat ++ r)) (hl : letterEscape? e = none)
    (he : codeEscape? e = some size) (hs : 0 < size) (hn : ch.toNat < 16 ^ size) :
    quotedEscape c = .ok ([ch], c.skip (1 + size)) := by
  have h1 : c.advance.rest = Text.hexDigitsUpper size ch.toNat ++ r := by
    rw [Cursor.rest_advance, h]
    rfl
  have h2 := map_ahead h1
  rw [length_hexDigitsUpper hs hn] at h2
  have hp : codePoint ch.toNat = .ok ch := by rw [codePoint, CodePoint.ofNat?_toNat]
  rw [quotedEscape, Cursor.peek_cons h]
  simp only [hl, he, h2, hexNumber?_hexDigitsUpper, hp]
  rw [← Cursor.skip_skip]
  rfl

theorem letterEscape?_escapeLetters :
    ∀ p ∈ escapeLetters, letterEscape? p.2 = some p.1 := by
  decide

/-- The escape of a code point starts with a backslash, and what follows is read as it. -/
theorem quotedEscape_escapeText (ch : CodePoint) : ∃ e, escapeText ch = .char '\\' :: e ∧
    ∀ (c : Cursor) (r : Text), c.rest = e ++ r → quotedEscape c = .ok ([ch], c.skip e.length) := by
  unfold escapeText
  split
  · rename_i l hl
    refine ⟨[l], rfl, fun c r h => quotedEscape_letter h ?_⟩
    obtain ⟨l₁, l₂, he, -⟩ := List.lookup_eq_some_iff.mp hl
    exact letterEscape?_escapeLetters (ch, l) (by rw [he]; simp)
  · have code : ∀ (e : CodePoint) (size : Nat), letterEscape? e = none →
        codeEscape? e = some size → 0 < size → ch.toNat < 16 ^ size → ∀ (c : Cursor) (r : Text),
        c.rest = (e :: Text.hexDigitsUpper size ch.toNat) ++ r →
          quotedEscape c = .ok ([ch], c.skip (e :: Text.hexDigitsUpper size ch.toNat).length) := by
      intro e size hl he hs hn c r h
      rw [List.length_cons, length_hexDigitsUpper hs hn, Nat.add_comm]
      exact quotedEscape_code ch h hl he hs hn
    have hlt := ch.toNat_lt
    simp only
    split
    · exact ⟨_, rfl, code 'x' 2 (by decide) (by decide) (by decide) (by omega)⟩
    · split
      · exact ⟨_, rfl, code 'u' 4 (by decide) (by decide) (by decide) (by omega)⟩
      · exact ⟨_, rfl, code 'U' 8 (by decide) (by decide) (by decide) (by omega)⟩

theorem isReadable_escapeText (ch : CodePoint) : ∀ c ∈ escapeText ch, isReadable c = true := by
  have digits : ∀ width n, ∀ c ∈ Text.hexDigitsUpper width n, isReadable c = true := fun _ _ c hc =>
    isReadable_hexDigit (isSome_hexValue? (hexNumber?_hexDigitsUpper ..) c hc)
  have letters : ∀ p ∈ escapeLetters, isReadable p.2 = true := by decide
  unfold escapeText
  split
  · rename_i l hl
    obtain ⟨l₁, l₂, he, -⟩ := List.lookup_eq_some_iff.mp hl
    have h1 := letters (ch, l) (by rw [he]; simp)
    exact List.forall_mem_cons.mpr ⟨by decide, List.forall_mem_singleton.mpr h1⟩
  · simp only
    split
    · exact List.forall_mem_append.mpr ⟨by decide, digits 2 _⟩
    · split
      · exact List.forall_mem_append.mpr ⟨by decide, digits 4 _⟩
      · exact List.forall_mem_append.mpr ⟨by decide, digits 8 _⟩

end Escapes

/-! ## Blanks and line breaks -/

section Blanks

variable {c : Cursor} {r : Text}

theorem solid_head (hr : isGap (r.headD endMark) = false) :
    isSpaceOrTab (r.headD endMark) = false ∧ isBreak (r.headD endMark) = false :=
  ((isGap_false_iff _).mp hr).imp_right And.left

theorem head?_blank (hr : isSpaceOrTab (r.headD endMark) = false) :
    ∀ x ∈ r.head?, isSpaceOrTab x = false := by
  cases r with
  | nil => simp
  | cons x r => simpa using hr

theorem ne_of_isTextBreak {b x : CodePoint} (hb : isTextBreak b = true)
    (hx : isTextBreak x = false) : b ≠ x := by
  rintro rfl
  rw [hb] at hx
  cases hx

theorem isSpaceOrTab_break {b : CodePoint} (hb : isTextBreak b = true) :
    isSpaceOrTab b = false := by
  have h1 := ne_of_isTextBreak (x := ' ') hb (by decide)
  have h2 := ne_of_isTextBreak (x := '\t') hb (by decide)
  simp [isSpaceOrTab, h1, h2]

theorem span_blanks {p : Nat} (h : c.rest = spaces p ++ r)
    (hr : isSpaceOrTab (r.headD endMark) = false) :
    c.span isSpaceOrTab = (spaces p, c.skip p) := by
  rw [Cursor.span_run h (fun x hx => by rw [mem_spaces hx]; rfl) (head?_blank hr), length_spaces]

theorem peek_skip_spaces {p : Nat} (h : c.rest = spaces p ++ r) :
    (c.skip p).peek = r.headD endMark := by
  have e := Cursor.rest_skip_append h
  rw [length_spaces] at e
  rw [Cursor.peek_eq, e]

theorem furtherBreaks_run {bs : Text} {k fuel : Nat} (h : c.rest = bs ++ (spaces k ++ r))
    (hb : ∀ b ∈ bs, isTextBreak b = true) (hk : 0 < k) (hr : isGap (r.headD endMark) = false)
    (hf : bs.length < fuel) :
    furtherBreaks fuel c = .ok (bs.map asRead, c.skip (bs.length + k)) := by
  obtain ⟨fuel, rfl⟩ : ∃ n, fuel = n + 1 := ⟨fuel - 1, by omega⟩
  induction bs generalizing c fuel with
  | nil =>
    obtain ⟨k, rfl⟩ : ∃ n, k = n + 1 := ⟨k - 1, by omega⟩
    have hsep := Cursor.atSeparator_false h (by decide) (by decide)
    have hnone : (c.skip (k + 1)).lineBreak? = none := by
      apply Cursor.lineBreak?_none
      rw [peek_skip_spaces h]
      exact (solid_head hr).2
    rw [furtherBreaks]
    simp only [hsep, Bool.false_eq_true, if_false, Cursor.skipWhile,
      span_blanks h (solid_head hr).1, hnone, List.length_nil, Nat.zero_add]
    rfl
  | cons b bs ih =>
    have hbb := hb b (List.mem_cons_self ..)
    have hsep := Cursor.atSeparator_false h (ne_of_isTextBreak hbb (by decide))
      (ne_of_isTextBreak hbb (by decide))
    have hspan := span_blanks (c := c) (p := 0) h (isSpaceOrTab_break hbb)
    have h1 : c.advance.rest = bs ++ (spaces k ++ r) := by
      rw [Cursor.rest_advance, h]
      rfl
    obtain ⟨fuel, rfl⟩ : ∃ n, fuel = n + 1 := ⟨fuel - 1, by simp only [List.length_cons] at hf; omega⟩
    have hrec := ih h1 (fun x hx => hb x (List.mem_cons_of_mem _ hx)) fuel
      (by simp only [List.length_cons] at hf; omega)
    have e : (b :: bs).length + k = bs.length + k + 1 := by rw [List.length_cons]; omega
    rw [furtherBreaks]
    simp only [hsep, Bool.false_eq_true, if_false, Cursor.skipWhile, hspan, Cursor.skip,
      Cursor.lineBreak?_break h hbb, hrec, e]
    rfl

/-- What a line break and those after it are read as. -/
def foldedBreaks (b : CodePoint) (bs : Text) : Text :=
  (if asRead b ≠ '\n' then [asRead b] else if bs.isEmpty then spaces 1 else []) ++ bs.map asRead

theorem quotedBlanks_breaks {b : CodePoint} {bs : Text} {k : Nat}
    (h : c.rest = b :: (bs ++ (spaces k ++ r))) (hbb : isTextBreak b = true)
    (hb : ∀ b ∈ bs, isTextBreak b = true) (hk : 0 < k) (hr : isGap (r.headD endMark) = false) :
    quotedBlanks c = .ok (foldedBreaks b bs, c.skip (1 + bs.length + k)) := by
  have hspan := span_blanks (c := c) (p := 0) h (isSpaceOrTab_break hbb)
  have h1 : c.advance.rest = bs ++ (spaces k ++ r) := by
    rw [Cursor.rest_advance, h]
    rfl
  have hf : bs.length < c.advance.rest.length + 1 := by
    rw [h1, List.length_append]
    omega
  have e : 1 + bs.length + k = bs.length + k + 1 := by omega
  simp only [quotedBlanks, hspan, Cursor.skip, Cursor.lineBreak?_break h hbb,
    furtherBreaks_run h1 hb hk hr hf, e, foldedBreaks]
  cases bs with
  | nil => rfl
  | cons x bs => rfl

theorem quotedBlanks_spaces {p : Nat} (h : c.rest = spaces p ++ r)
    (hr : isGap (r.headD endMark) = false) : quotedBlanks c = .ok (spaces p, c.skip p) := by
  have hnone : (c.skip p).lineBreak? = none := by
    apply Cursor.lineBreak?_none
    rw [peek_skip_spaces h]
    exact (solid_head hr).2
  simp only [quotedBlanks, span_blanks h (solid_head hr).1, hnone]

/-- A backslash at the end of a line stands for nothing. -/
theorem quotedEscape_fold {k : Nat} (h : c.rest = newLine k ++ r) (hk : 0 < k)
    (hr : isGap (r.headD endMark) = false) : quotedEscape c = .ok ([], c.skip (k + 1)) := by
  have h1 : c.advance.rest = [] ++ (spaces k ++ r) := by
    rw [Cursor.rest_advance, h]
    rfl
  have hl : letterEscape? '\n' = none := by decide
  have hc : codeEscape? '\n' = none := by decide
  rw [quotedEscape, Cursor.peek_cons h]
  simp only [hl, hc, Cursor.lineBreak?_break h (by decide),
    furtherBreaks_run h1 (by simp) hk hr (Nat.succ_pos _)]
  rw [List.length_nil, Nat.zero_add]
  rfl

end Blanks

/-! ## Parts of a quoted scalar -/

def quoteOf (double : Bool) : CodePoint := if double then '"' else '\''

/-- What stands between quotes, and what it is read as. -/
inductive Quoted (double : Bool) : Text → Text → Prop where
  | nil : Quoted double [] []
  | char {ch : CodePoint} {w t : Text} (hr : isReadable ch = true) (hg : isGap ch = false)
    (hq : ch ≠ quoteOf double) (hb : double = true → ch ≠ '\\') (h : Quoted double w t) : Quoted double (ch :: w) (ch :: t)
  | space {w t : Text} (hw : ∀ x ∈ w.head?, x = ' ' ∨ isGap x = false) (h : Quoted double w t) :
    Quoted double (.char ' ' :: w) (.char ' ' :: t)
  | quote {w t : Text} (hd : double = false) (h : Quoted double w t) :
    Quoted double (.char '\'' :: .char '\'' :: w) (.char '\'' :: t)
  | breaks {b : CodePoint} {bs w t : Text} {k : Nat} (hd : double = false)
    (hbb : isTextBreak b = true) (hb : ∀ x ∈ bs, isTextBreak x = true) (hk : 0 < k)
    (hw : ∀ x ∈ w.head?, isGap x = false) (h : Quoted double w t) :
    Quoted double (b :: (bs ++ (spaces k ++ w))) (foldedBreaks b bs ++ t)
  | escape {w t : Text} (ch : CodePoint) (hd : double = true) (h : Quoted double w t) :
    Quoted double (escapeText ch ++ w) (ch :: t)
  | guard {w t : Text} (hd : double = true) (h : Quoted double w t) :
    Quoted double (.char '\\' :: .char ' ' :: w) (.char ' ' :: t)
  | fold {w t : Text} {k : Nat} (hd : double = true) (hk : 0 < k)
    (hw : ∀ x ∈ w.head?, isGap x = false) (h : Quoted double w t) :
    Quoted double (.char '\\' :: (newLine k ++ w)) t

theorem isReadable_break {b : CodePoint} (hb : isTextBreak b = true) : isReadable b = true := by
  simp only [isTextBreak, Bool.or_eq_true, decide_eq_true_eq] at hb
  rcases hb with ((rfl | rfl) | rfl) | rfl <;> decide

theorem Quoted.readable {double : Bool} {w t : Text} (h : Quoted double w t) :
    ∀ c ∈ w, isReadable c = true := by
  induction h with
  | nil => simp
  | char hr hg hq hb h ih => exact List.forall_mem_cons.mpr ⟨hr, ih⟩
  | space hw h ih => exact List.forall_mem_cons.mpr ⟨by decide, ih⟩
  | quote hd h ih =>
    exact List.forall_mem_cons.mpr ⟨by decide, List.forall_mem_cons.mpr ⟨by decide, ih⟩⟩
  | breaks hd hbb hb hk hw h ih =>
    refine List.forall_mem_cons.mpr ⟨isReadable_break hbb, List.forall_mem_append.mpr
      ⟨fun c hc => isReadable_break (hb c hc), List.forall_mem_append.mpr ⟨?_, ih⟩⟩⟩
    intro c hc
    rw [mem_spaces hc]
    decide
  | escape ch hd h ih => exact List.forall_mem_append.mpr ⟨isReadable_escapeText ch, ih⟩
  | guard hd h ih =>
    exact List.forall_mem_cons.mpr ⟨by decide, List.forall_mem_cons.mpr ⟨by decide, ih⟩⟩
  | fold hd hk hw h ih =>
    exact List.forall_mem_cons.mpr ⟨by decide,
      List.forall_mem_append.mpr ⟨fun c => isReadable_newLine, ih⟩⟩

section Body

variable {double : Bool} {fuel : Nat} {c c' c'' : Cursor} {part t : Text} {ch : CodePoint}

theorem quotedBody_blanks (hp : c.peek = ch) (he : ch ≠ endMark) (hg : isGap ch = true)
    (hb : quotedBlanks c = .ok (part, c')) (h : quotedBody double fuel c' = .ok (t, c'')) :
    quotedBody double (fuel + 1) c = .ok (part ++ t, c'') := by
  rw [quotedBody]
  simp only [hp, he, if_false, hg, if_true, hb]
  show (quotedBody double fuel c' >>= _) = _
  rw [h]
  rfl

theorem quotedBody_char (hp : c.peek = ch) (hg : isGap ch = false) (hq : ch ≠ quoteOf double)
    (hb : double = true → ch ≠ '\\') (h : quotedBody double fuel c.advance = .ok (t, c'')) :
    quotedBody double (fuel + 1) c = .ok (ch :: t, c'') := by
  have he : ch ≠ endMark := ((isGap_false_iff ch).mp hg).2.2
  rw [quotedBody]
  simp only [hp, he, if_false, hg, Bool.false_eq_true]
  cases double with
  | true =>
    have hq' : ch ≠ '"' := hq
    have hb' := hb rfl
    simp only [if_true, hq', hb', if_false, h]
    rfl
  | false =>
    have hq' : ch ≠ '\'' := hq
    simp only [Bool.false_eq_true, if_false, hq', h]
    rfl

theorem quotedBody_escape (hp : c.peek = '\\') (he : quotedEscape c.advance = .ok (part, c'))
    (h : quotedBody true fuel c' = .ok (t, c'')) :
    quotedBody true (fuel + 1) c = .ok (part ++ t, c'') := by
  have h1 : CodePoint.char '\\' ≠ endMark := by decide
  have h2 : isGap '\\' = false := by decide
  have h3 : CodePoint.char '\\' ≠ .char '"' := by decide
  rw [quotedBody]
  simp only [hp, h1, if_false, h2, Bool.false_eq_true, h3, if_true, he]
  show (quotedBody true fuel c' >>= _) = _
  rw [h]
  rfl

theorem quotedBody_quote (hp : c.peek = '\'') (ha : c.ahead 1 = '\'')
    (h : quotedBody false fuel (c.skip 2) = .ok (t, c'')) :
    quotedBody false (fuel + 1) c = .ok (.char '\'' :: t, c'') := by
  have h1 : CodePoint.char '\'' ≠ endMark := by decide
  have h2 : isGap '\'' = false := by decide
  rw [quotedBody]
  simp only [hp, h1, if_false, h2, Bool.false_eq_true, if_true, ha, h]
  rfl

theorem quotedBody_close (hp : c.peek = quoteOf double)
    (ha : double = false → c.ahead 1 ≠ '\'') :
    quotedBody double (fuel + 1) c = .ok ([], c.advance) := by
  rw [quotedBody]
  cases double with
  | true =>
    have hp' : c.peek = '"' := hp
    have h1 : CodePoint.char '"' ≠ endMark := by decide
    have h2 : isGap '"' = false := by decide
    simp only [hp', h1, if_false, h2, Bool.false_eq_true, if_true]
  | false =>
    have hp' : c.peek = '\'' := hp
    have h1 : CodePoint.char '\'' ≠ endMark := by decide
    have h2 : isGap '\'' = false := by decide
    simp only [hp', h1, if_false, h2, Bool.false_eq_true, if_true, ha rfl]

end Body

theorem isGap_break {b : CodePoint} (hb : isTextBreak b = true) : isGap b = true := by
  simp only [isTextBreak, Bool.or_eq_true, decide_eq_true_eq] at hb
  rcases hb with ((rfl | rfl) | rfl) | rfl <;> decide

/-- The spaces in front of a quoted text are read as themselves. -/
theorem Quoted.run {double : Bool} {w t : Text} (h : Quoted double w t)
    (hw : ∀ x ∈ w.head?, x = ' ' ∨ isGap x = false) :
    ∃ p w' t', w = spaces p ++ w' ∧ t = spaces p ++ t' ∧ Quoted double w' t' ∧
      ∀ x ∈ w'.head?, isGap x = false := by
  have backslash : ∀ {e : Text}, ∀ x ∈ (CodePoint.char '\\' :: e).head?, isGap x = false := by
    rintro e x ⟨⟩
    decide
  induction h with
  | nil => exact ⟨0, _, _, rfl, rfl, .nil, by simp⟩
  | char hr hg hq hb h ih =>
    refine ⟨0, _, _, rfl, rfl, .char hr hg hq hb h, ?_⟩
    rintro x ⟨⟩
    exact hg
  | space hw' h ih =>
    obtain ⟨p, w', t', rfl, rfl, h', hs⟩ := ih hw'
    exact ⟨p + 1, w', t', rfl, rfl, h', hs⟩
  | quote hd h ih =>
    refine ⟨0, _, _, rfl, rfl, .quote hd h, ?_⟩
    rintro x ⟨⟩
    decide
  | @breaks b bs w t k hd hbb hb hk hw' h ih =>
    have hg := isGap_break hbb
    rcases hw b rfl with rfl | hb'
    · cases hbb
    · rw [hg] at hb'
      cases hb'
  | escape ch hd h ih =>
    obtain ⟨e, he, -⟩ := quotedEscape_escapeText ch
    refine ⟨0, _, _, rfl, rfl, .escape ch hd h, ?_⟩
    rw [he]
    exact backslash
  | guard hd h ih => exact ⟨0, _, _, rfl, rfl, .guard hd h, backslash⟩
  | fold hd hk hw' h ih => exact ⟨0, _, _, rfl, rfl, .fold hd hk hw' h, backslash⟩

theorem isGap_quoteOf (double : Bool) : isGap (quoteOf double) = false := by
  cases double <;> decide

theorem solid_before_quote {double : Bool} {w r : Text} (hw : ∀ x ∈ w.head?, isGap x = false) :
    isGap ((w ++ quoteOf double :: r).headD endMark) = false := by
  cases w with
  | nil => exact isGap_quoteOf double
  | cons x w => exact hw x rfl

/-- A reader before `a ++ r` takes `a` for a part of the text and goes on at `r`. -/
def Takes (double : Bool) (a part r : Text) : Prop :=
  ∀ (c c' : Cursor) (fuel : Nat) (t : Text), c.rest = a ++ r →
    quotedBody double fuel (c.skip a.length) = .ok (t, c') →
    quotedBody double (fuel + 1) c = .ok (part ++ t, c')

theorem takes_char {double : Bool} {ch : CodePoint} (hg : isGap ch = false)
    (hq : ch ≠ quoteOf double) (hb : double = true → ch ≠ '\\') (r : Text) :
    Takes double [ch] [ch] r :=
  fun _ _ _ _ hc h => quotedBody_char (Cursor.peek_cons hc) hg hq hb h

theorem takes_spaces (double : Bool) (p : Nat) {r : Text} (hr : isGap (r.headD endMark) = false) :
    Takes double (spaces (p + 1)) (spaces (p + 1)) r := by
  intro c c' fuel t hc h
  rw [length_spaces] at h
  exact quotedBody_blanks (Cursor.peek_cons hc) (by decide) (by decide)
    (quotedBlanks_spaces hc hr) h

theorem takes_quote (r : Text) : Takes false [.char '\'', .char '\''] [.char '\''] r :=
  fun _ _ _ _ hc h => quotedBody_quote (Cursor.peek_cons hc) (Cursor.ahead_succ hc 0) h

theorem takes_breaks {double : Bool} {b : CodePoint} {bs r : Text} {k : Nat}
    (hbb : isTextBreak b = true) (hb : ∀ x ∈ bs, isTextBreak x = true) (hk : 0 < k)
    (hr : isGap (r.headD endMark) = false) :
    Takes double (b :: (bs ++ spaces k)) (foldedBreaks b bs) r := by
  intro c c' fuel t hc h
  have hc' : c.rest = b :: (bs ++ (spaces k ++ r)) := by
    rw [hc]
    simp
  have el : (b :: (bs ++ spaces k)).length = 1 + bs.length + k := by
    simp only [List.length_cons, List.length_append, length_spaces]
    omega
  rw [el] at h
  exact quotedBody_blanks (Cursor.peek_cons hc') (ne_of_isTextBreak hbb (by decide))
    (isGap_break hbb) (quotedBlanks_breaks hc' hbb hb hk hr) h

theorem takes_escape {e part r : Text}
    (he : ∀ c : Cursor, c.rest = e ++ r → quotedEscape c = .ok (part, c.skip e.length)) :
    Takes true (.char '\\' :: e) part r := by
  intro c c' fuel t hc h
  have h1 : c.advance.rest = e ++ r := by
    rw [Cursor.rest_advance, hc]
    rfl
  exact quotedBody_escape (Cursor.peek_cons hc) (he _ h1) h

theorem Quoted.step {double : Bool} {w t : Text} (h : Quoted double w t) (r : Text) :
    w = [] ∧ t = [] ∨ ∃ a part w' t', w = a ++ w' ∧ t = part ++ t' ∧ a ≠ [] ∧ Quoted double w' t' ∧
      Takes double a part (w' ++ quoteOf double :: r) := by
  cases h with
  | nil => exact .inl ⟨rfl, rfl⟩
  | @char ch w t hr hg hq hb h =>
    exact .inr ⟨[ch], [ch], w, t, rfl, rfl, by simp, h, takes_char hg hq hb _⟩
  | space hw h =>
    obtain ⟨p, w', t', rfl, rfl, h', hs⟩ := h.run hw
    exact .inr ⟨spaces (p + 1), spaces (p + 1), w', t', rfl, rfl, List.cons_ne_nil _ _, h',
      takes_spaces double p (solid_before_quote hs)⟩
  | @quote w t hd h =>
    subst hd
    exact .inr ⟨[.char '\'', .char '\''], [.char '\''], w, t, rfl, rfl, by simp, h, takes_quote _⟩
  | @breaks b bs w t k hd hbb hb hk hw h =>
    exact .inr ⟨b :: (bs ++ spaces k), foldedBreaks b bs, w, t, by simp, rfl, by simp, h,
      takes_breaks hbb hb hk (solid_before_quote hw)⟩
  | @escape w t ch hd h =>
    subst hd
    obtain ⟨e, he, hread⟩ := quotedEscape_escapeText ch
    exact .inr ⟨.char '\\' :: e, [ch], w, t, by rw [he], rfl, by simp, h,
      takes_escape fun c => hread c _⟩
  | @guard w t hd h =>
    subst hd
    exact .inr ⟨[.char '\\', .char ' '], [.char ' '], w, t, rfl, rfl, by simp, h,
      takes_escape (e := [.char ' ']) fun c hc => quotedEscape_letter hc (by decide)⟩
  | @fold w t k hd hk hw h =>
    subst hd
    have el : (newLine k).length = k + 1 := by rw [newLine, List.length_cons, length_spaces]
    refine .inr ⟨.char '\\' :: newLine k, [], w, t, rfl, rfl, by simp, h, takes_escape ?_⟩
    intro c hc
    rw [el]
    exact quotedEscape_fold hc hk (solid_before_quote hw)

/-- What is written between quotes is read up to the closing quote. -/
theorem quotedBody_quoted {double : Bool} {w t : Text} (h : Quoted double w t) {c : Cursor}
    {r : Text} {fuel : Nat} (hc : c.rest = w ++ quoteOf double :: r)
    (hr : double = false → r.headD endMark ≠ '\'') (hf : w.length < fuel) :
    quotedBody double fuel c = .ok (t, c.skip (w.length + 1)) := by
  induction fuel generalizing w t c with
  | zero => omega
  | succ fuel ih =>
    rcases h.step r with ⟨rfl, rfl⟩ | ⟨a, part, w', t', rfl, rfl, ha, h', htake⟩
    · refine quotedBody_close (Cursor.peek_cons hc) fun hd => ?_
      rw [Cursor.ahead_succ (r := r) hc 0, List.getD_eq_getElem?_getD, ← List.head?_eq_getElem?,
        ← List.headD_eq_head?_getD]
      exact hr hd
    · rw [List.append_assoc] at hc
      have hpos := List.length_pos_iff.mpr ha
      rw [List.length_append] at hf
      have hrec := ih h' (Cursor.rest_skip_append hc) (by omega)
      rw [htake c _ fuel t' hc hrec, Cursor.skip_skip, List.length_append, Nat.add_assoc]

theorem quotedScalar_quoted {double : Bool} {w t : Text} (h : Quoted double w t) {c : Cursor}
    {r : Text} (hc : c.rest = quoteOf double :: (w ++ quoteOf double :: r))
    (hr : double = false → r.headD endMark ≠ '\'') :
    quotedScalar double c = .ok (t, c.skip (w.length + 2)) := by
  have h1 : c.advance.rest = w ++ quoteOf double :: r := by
    rw [Cursor.rest_advance, hc]
    rfl
  have hf : w.length < c.rest.length + 1 := by
    rw [hc]
    simp only [List.length_cons, List.length_append]
    omega
  rw [quotedScalar, quotedBody_quoted h h1 hr hf]
  rfl

/-! ## Double quotes -/

theorem isReadable_of_not_escaped {ch : CodePoint} (h : isEscaped ch = false) :
    isReadable ch = true := by
  simp only [isEscaped, isPlainPoint, Bool.or_eq_false_iff, Bool.not_eq_false', Bool.or_eq_true,
    Bool.and_eq_true, decide_eq_true_eq] at h
  simp only [isReadable, Bool.or_eq_true, Bool.and_eq_true, decide_eq_true_eq]
  tauto

theorem isGap_of_not_escaped {ch : CodePoint} (h : isEscaped ch = false) :
    ch = ' ' ∨ (isGap ch = false ∧ ch ≠ '"' ∧ ch ≠ '\\') := by
  simp only [isEscaped, Bool.or_eq_false_iff, decide_eq_false_iff_not] at h
  obtain ⟨⟨⟨⟨⟨⟨h1, h2⟩, h3⟩, h4⟩, h5⟩, -⟩, h6⟩ := h
  have ne : ∀ x : CodePoint, (!((' ' ≤ x && x ≤ '~') || isPlainPoint x)) = true → ch ≠ x := by
    rintro x hx rfl
    rw [hx] at h6
    cases h6
  by_cases hs : ch = ' '
  · exact .inl hs
  · refine .inr ⟨(isGap_false_iff ch).mpr ⟨?_, ?_, ne endMark (by decide)⟩, h1, h2⟩
    · simp [isSpaceOrTab, hs, ne '\t' (by decide)]
    · simp [isBreak, ne '\r' (by decide), ne '\n' (by decide), h3, h4, h5]

theorem Quoted.head_double {w t : Text} (h : Quoted true w t) :
    ∀ x ∈ w.head?, isGap x = false ∨ (x = ' ' ∧ t.head? = some (.char ' ')) := by
  have backslash : ∀ {e : Text}, ∀ x ∈ (CodePoint.char '\\' :: e).head?,
      isGap x = false ∨ (x = ' ' ∧ t.head? = some (.char ' ')) := by
    rintro e x ⟨⟩
    exact .inl (by decide)
  cases h with
  | nil => simp
  | char hr hg hq hb h =>
    rintro x ⟨⟩
    exact .inl hg
  | space hw h =>
    rintro x ⟨⟩
    exact .inr ⟨rfl, rfl⟩
  | quote hd h => cases hd
  | breaks hd => cases hd
  | escape ch hd h =>
    obtain ⟨e, he, -⟩ := quotedEscape_escapeText ch
    rw [he]
    exact backslash
  | guard hd h => exact backslash
  | fold hd hk hw h => exact backslash

/-- A character that needs no escape stands for itself. -/
theorem Quoted.plain {ch : CodePoint} {w t : Text} (h : Quoted true w t)
    (hch : isEscaped ch = false) : Quoted true (ch :: w) (ch :: t) := by
  rcases isGap_of_not_escaped hch with rfl | ⟨hg, hq, hb⟩
  · exact .space (fun x hx => (h.head_double x hx).symm.imp_left And.left) h
  · exact .char (isReadable_of_not_escaped hch) hg hq (fun _ => hb) h

section DoubleWriting

variable (fold : Bool) {indent : Nat}

/-- The backslash that keeps a space at the head of a line. -/
def foldGuard (following : CodePoint) : Text := if following = ' ' then [.char '\\'] else []

theorem doubleText_escaped {ch : CodePoint} (hch : isEscaped ch = true) (index column : Nat)
    (pending t : Text) :
    (∃ column', doubleText fold indent index column pending (ch :: t) =
      pending ++ (escapeText ch ++ doubleText fold indent (index + 1) column' [] t)) ∨
    (t ≠ [] ∧ doubleText fold indent index column pending (ch :: t) =
      pending ++ (escapeText ch ++ .char '\\' :: (newLine indent ++ (foldGuard (t.headD 'x') ++
        doubleText fold indent (index + 1) (indent + (foldGuard (t.headD 'x')).length) [] t)))) := by
  rw [doubleText]
  simp only [hch, if_true]
  split
  · rename_i hf
    simp only [Bool.and_eq_true, Bool.not_eq_true', List.isEmpty_eq_false_iff] at hf
    refine .inr ⟨hf.1.1.2, ?_⟩
    simp only [List.append_assoc, List.append_nil]
    rfl
  · exact .inl ⟨column + (pending ++ escapeText ch).length, List.append_assoc ..⟩

theorem doubleText_plain {ch : CodePoint} (hch : isEscaped ch = false) (index column : Nat)
    (pending t : Text) :
    (doubleText fold indent index column pending (ch :: t) =
      doubleText fold indent (index + 1) column (pending ++ [ch]) t) ∨
    (lineWidth < column + pending.length ∧
      doubleText fold indent index column pending (ch :: t) =
        pending ++ .char '\\' :: (newLine indent ++ (foldGuard ch ++
          doubleText fold indent (index + 1) (indent + (foldGuard ch).length) [ch] t))) := by
  rw [doubleText]
  simp only [hch, Bool.false_eq_true, if_false]
  split
  · rename_i hf
    simp only [Bool.and_eq_true, decide_eq_true_eq] at hf
    refine .inr ⟨hf.2, ?_⟩
    simp only [List.nil_append, List.append_assoc]
    rfl
  · exact .inl rfl

/-- In double quotes a text comes back as it was. -/
theorem quoted_doubleText (hpos : 0 < indent) (hw : indent < lineWidth) :
    ∀ (t : Text) (index column : Nat) (pending : Text),
      ∃ X, doubleText fold indent index column pending t = pending ++ X ∧ Quoted true X t
  | [], index, column, pending => ⟨[], (List.append_nil _).symm, .nil⟩
  | ch :: t, index, column, pending => by
    cases hch : isEscaped ch with
    | true =>
      rcases doubleText_escaped fold hch index column pending t with ⟨column', e⟩ | ⟨hne, e⟩
      · obtain ⟨X, hX, hq⟩ := quoted_doubleText hpos hw t (index + 1) column' []
        exact ⟨_, e, by rw [hX]; exact .escape ch rfl hq⟩
      · refine ⟨_, e, .escape ch rfl ?_⟩
        match t, hne with
        | d :: t, _ =>
          by_cases hd : d = ' '
          · subst hd
            -- The guarded space is the next character, since the new line is short of the width.
            have hsp : isEscaped ' ' = false := by decide
            rcases doubleText_plain fold hsp (index + 1) (indent + 1) [] t with e | ⟨h, -⟩
            · obtain ⟨X, hX, hq⟩ := quoted_doubleText hpos hw t (index + 1 + 1) (indent + 1)
                [.char ' ']
              rw [List.nil_append, hX] at e
              have e' : foldGuard ((CodePoint.char ' ' :: t).headD 'x') = [.char '\\'] := rfl
              rw [e', List.length_singleton, e]
              exact .fold rfl hpos (by rintro x ⟨⟩; decide) (.guard rfl hq)
            · rw [List.length_nil] at h
              omega
          · have e' : foldGuard ((d :: t).headD 'x') = [] := if_neg hd
            obtain ⟨X, hX, hq⟩ := quoted_doubleText hpos hw (d :: t) (index + 1) (indent + 0) []
            rw [e', List.length_nil, hX]
            refine .fold rfl hpos (fun x hx => ?_) hq
            refine (hq.head_double x hx).resolve_right fun h => hd ?_
            exact Option.some.inj h.2
    | false =>
      rcases doubleText_plain fold hch index column pending t with e | ⟨-, e⟩
      · obtain ⟨X, hX, hq⟩ := quoted_doubleText hpos hw t (index + 1) column (pending ++ [ch])
        refine ⟨ch :: X, by rw [e, hX, List.append_assoc]; rfl, hq.plain hch⟩
      · refine ⟨_, e, ?_⟩
        obtain ⟨X, hX, hq⟩ := quoted_doubleText hpos hw t (index + 1)
          (indent + (foldGuard ch).length) [ch]
        rw [hX]
        by_cases hs : ch = ' '
        · subst hs
          exact .fold rfl hpos (by rintro x ⟨⟩; decide) (.guard rfl hq)
        · have e' : foldGuard ch = [] := if_neg hs
          rw [e']
          refine .fold rfl hpos ?_ (hq.plain hch)
          rintro x ⟨⟩
          exact ((isGap_of_not_escaped hch).resolve_left hs).1

end DoubleWriting

/-! ## Single quotes -/

/-- The character that single quotes lose. -/
def nextLine : CodePoint := '\x85'

theorem asRead_ne (b : CodePoint) : asRead b ≠ nextLine := by
  by_cases h : b = '\x85'
  · rw [asRead, if_pos h]
    decide
  · rw [asRead, if_neg h]
    exact h

theorem map_asRead {bs : Text} (h : nextLine ∉ bs) : bs.map asRead = bs := by
  rw [List.map_congr_left (g := id), List.map_id]
  intro b hb
  refine if_neg ?_
  rintro rfl
  exact h hb

theorem notMem_map_asRead (bs : Text) : nextLine ∉ bs.map asRead := by
  intro h
  obtain ⟨b, -, hb⟩ := List.mem_map.mp h
  exact asRead_ne b hb

theorem nextLine_notMem_spaces (p : Nat) : nextLine ∉ spaces p :=
  fun h => absurd (mem_spaces h) (by decide)

theorem notMem_foldedBreaks (b : CodePoint) (bs : Text) : nextLine ∉ foldedBreaks b bs := by
  rw [foldedBreaks, List.mem_append, not_or]
  refine ⟨?_, notMem_map_asRead bs⟩
  split
  · exact fun h => asRead_ne b (List.mem_singleton.mp h).symm
  · split
    · exact nextLine_notMem_spaces 1
    · exact List.not_mem_nil

/-- What the line breaks of a text are read as. -/
def flushed : Text → Text
  | [] => []
  | b :: bs => if b = '\n' then (b :: bs).map asRead else foldedBreaks b bs

/-- What single quotes make of line breaks and a text after them. -/
def refolded : Text → Text → Text
  | breaks, [] => flushed breaks
  | breaks, ch :: t =>
    if isTextBreak ch then refolded (breaks ++ [ch]) t else flushed breaks ++ ch :: refolded [] t

theorem notMem_flushed (breaks : Text) : nextLine ∉ flushed breaks := by
  cases breaks with
  | nil => exact List.not_mem_nil
  | cons b bs =>
    rw [flushed]
    split
    · exact notMem_map_asRead _
    · exact notMem_foldedBreaks b bs

theorem flushed_eq {breaks : Text} (h : nextLine ∉ breaks) : flushed breaks = breaks := by
  cases breaks with
  | nil => rfl
  | cons b bs =>
    rw [flushed]
    split
    · exact map_asRead h
    · rename_i hn
      rw [List.mem_cons, not_or] at h
      have hr : asRead b = b := if_neg (Ne.symm h.1)
      rw [foldedBreaks, hr, if_pos hn, map_asRead h.2]
      rfl

theorem notMem_refolded (breaks t : Text) : nextLine ∉ refolded breaks t := by
  induction t generalizing breaks with
  | nil => exact notMem_flushed breaks
  | cons ch t ih =>
    rw [refolded]
    split
    · exact ih _
    · rename_i hb
      rw [List.mem_append, List.mem_cons, not_or, not_or]
      refine ⟨notMem_flushed breaks, ?_, ih []⟩
      rintro rfl
      exact hb (by decide)

theorem refolded_eq {breaks t : Text} (hb : nextLine ∉ breaks) (ht : nextLine ∉ t) :
    refolded breaks t = breaks ++ t := by
  induction t generalizing breaks with
  | nil => rw [refolded, flushed_eq hb, List.append_nil]
  | cons ch t ih =>
    rw [List.mem_cons, not_or] at ht
    rw [refolded]
    split
    · rw [ih (by simp [hb, ht.1]) ht.2, List.append_assoc]
      rfl
    · rw [flushed_eq hb, ih List.not_mem_nil ht.2]
      rfl

theorem quoted_breakRun {indent : Nat} {breaks w t : Text} (hne : breaks ≠ [])
    (hb : ∀ b ∈ breaks, isTextBreak b = true) (hpos : 0 < indent)
    (hw : ∀ x ∈ w.head?, isGap x = false) (h : Quoted false w t) :
    Quoted false (breakRun indent breaks ++ w) (flushed breaks ++ t) := by
  cases breaks with
  | nil => exact absurd rfl hne
  | cons b bs =>
    obtain ⟨hbb, hbs⟩ := List.forall_mem_cons.mp hb
    by_cases hn : b = '\n'
    · subst hn
      have e : breakRun indent (.char '\n' :: bs) ++ w =
          .char '\n' :: ((.char '\n' :: bs) ++ (spaces indent ++ w)) := by
        have hh : (CodePoint.char '\n' :: bs).head? = some (.char '\n') := rfl
        rw [breakRun, if_pos hh, List.append_assoc, List.append_assoc]
        rfl
      rw [e]
      exact .breaks rfl hbb hb hpos hw h
    · have e : breakRun indent (b :: bs) ++ w = b :: (bs ++ (spaces indent ++ w)) := by
        have hh : ¬ (b :: bs).head? = some (.char '\n') := by simpa using hn
        rw [breakRun, if_neg hh, List.append_assoc, List.append_assoc]
        rfl
      rw [e, flushed, if_neg hn]
      exact .breaks rfl hbb hbs hpos hw h

theorem hasAdjacent_cons (p q : CodePoint → Bool) (a : CodePoint) (t : Text) :
    hasAdjacent p q (a :: t) = false ↔
      (p a = true → ∀ x ∈ t.head?, q x = false) ∧ hasAdjacent p q t = false := by
  cases t with
  | nil => simp [hasAdjacent]
  | cons b t =>
    simp only [hasAdjacent, Bool.or_eq_false_iff, Bool.and_eq_false_iff, List.head?_cons,
      Option.mem_some_iff, forall_eq']
    cases p a <;> simp

/-- The spaces or line breaks that are not written yet, and a text that single quotes allow after
them. -/
structure Between (pending : Nat) (breaks t : Text) : Prop where
  areBreaks : ∀ b ∈ breaks, isTextBreak b = true
  oneKind : pending = 0 ∨ breaks = []
  afterBreak : breaks ≠ [] → ∀ x ∈ t.head?, x ≠ ' '
  afterSpace : 0 < pending → ∀ x ∈ t.head?, isTextBreak x = false
  breakSpace : hasBreakBeforeSpace t = false
  spaceBreak : hasSpaceBeforeBreak t = false
  chars : ∀ x ∈ t, isSpecial x = false

namespace Between

variable {pending : Nat} {breaks t : Text} {ch : CodePoint}

theorem start (h : allowsSingle t = true) : Between 0 [] t := by
  simp only [allowsSingle, Bool.not_eq_true', Bool.or_eq_false_iff, List.any_eq_false,
    Bool.not_eq_true] at h
  exact ⟨by simp, .inl rfl, by simp, by simp, h.1.1, h.1.2, h.2⟩

theorem space (h : Between pending breaks (.char ' ' :: t)) :
    breaks = [] ∧ Between (pending + 1) [] t := by
  have hb : breaks = [] := by
    by_contra hne
    exact h.afterBreak hne _ rfl rfl
  obtain ⟨h1, h2⟩ := (hasAdjacent_cons _ _ _ _).mp h.spaceBreak
  exact ⟨hb, by simp, .inr rfl, by simp, fun _ => h1 (by simp),
    ((hasAdjacent_cons _ _ _ _).mp h.breakSpace).2, h2,
    fun x hx => h.chars x (List.mem_cons_of_mem _ hx)⟩

theorem lineBreak (h : Between pending breaks (ch :: t)) (hch : isTextBreak ch = true) :
    pending = 0 ∧ Between 0 (breaks ++ [ch]) t := by
  have hp : pending = 0 := by
    by_contra hne
    have := h.afterSpace (by omega) ch rfl
    rw [hch] at this
    cases this
  obtain ⟨h1, h2⟩ := (hasAdjacent_cons _ _ _ _).mp h.breakSpace
  refine ⟨hp, ?_, .inl rfl, fun _ x hx => by simpa using h1 hch x hx, by simp, h2,
    ((hasAdjacent_cons _ _ _ _).mp h.spaceBreak).2,
    fun x hx => h.chars x (List.mem_cons_of_mem _ hx)⟩
  intro b hb
  rcases List.mem_append.mp hb with hb | hb
  · exact h.areBreaks b hb
  · rw [List.mem_singleton.mp hb]
    exact hch

theorem char (h : Between pending breaks (ch :: t)) : Between 0 [] t :=
  ⟨by simp, .inl rfl, by simp, by simp, ((hasAdjacent_cons _ _ _ _).mp h.breakSpace).2,
    ((hasAdjacent_cons _ _ _ _).mp h.spaceBreak).2,
    fun x hx => h.chars x (List.mem_cons_of_mem _ hx)⟩

end Between

theorem Quoted.spaces {w t : Text} (h : Quoted false w t) (hw : ∀ x ∈ w.head?, isGap x = false)
    (p : Nat) : Quoted false (spaces p ++ w) (Yaml.spaces p ++ t) := by
  induction p with
  | zero => exact h
  | succ p ih =>
    refine .space ?_ ih
    cases p with
    | zero => exact fun x hx => .inr (hw x hx)
    | succ p =>
      rintro x ⟨⟩
      exact .inl rfl

section SingleWriting

variable (fold : Bool) {indent : Nat}

/-- What is written before a character that is neither a space nor a break, and read as what was
pending. -/
def leadText (indent column pending : Nat) (inside : Bool) (breaks : Text) : Text × Nat :=
  if !breaks.isEmpty then (breakRun indent breaks, indent)
  else if fold && inside && pending = 1 && lineWidth < column then (newLine indent, indent)
  else (spaces pending, column + pending)

theorem singleText_char {ch : CodePoint} (hs : ch ≠ ' ') (hb : isTextBreak ch = false)
    (column pending : Nat) (inside : Bool) (breaks t : Text) :
    ∃ column', singleText fold indent column inside pending breaks (ch :: t) =
      (leadText fold indent column pending inside breaks).1 ++
        ((if ch = '\'' then [.char '\'', .char '\''] else [ch]) ++
          singleText fold indent column' true 0 [] t) := by
  rw [singleText, if_neg hs, hb]
  simp only [Bool.false_eq_true, if_false]
  exact ⟨(leadText fold indent column pending inside breaks).2 +
    (if ch = '\'' then [.char '\'', .char '\''] else [ch]).length, List.append_assoc ..⟩

theorem quoted_leadText {pending : Nat} {breaks t w u : Text} (h : Between pending breaks t)
    (hpos : 0 < indent) (hw : ∀ x ∈ w.head?, isGap x = false) (hq : Quoted false w u)
    (column : Nat) (inside : Bool) :
    Quoted false ((leadText fold indent column pending inside breaks).1 ++ w)
      (spaces pending ++ (flushed breaks ++ u)) := by
  unfold leadText
  split
  · rename_i hne
    rw [Bool.not_eq_true', List.isEmpty_eq_false_iff] at hne
    have hp : pending = 0 := h.oneKind.resolve_right hne
    subst hp
    exact quoted_breakRun hne h.areBreaks hpos hw hq
  · rename_i he
    have he : breaks = [] := by simpa using he
    subst he
    split
    · rename_i hf
      simp only [Bool.and_eq_true, decide_eq_true_eq] at hf
      rw [hf.1.2]
      have hn : Quoted false (.char '\n' :: ([] ++ (spaces indent ++ w))) _ :=
        .breaks rfl (by decide) (by simp) hpos hw hq
      exact hn
    · exact hq.spaces hw pending

/-- In single quotes a text comes back with its line breaks folded. -/
theorem quoted_singleText (hpos : 0 < indent) {t : Text} {pending : Nat} {breaks : Text}
    (h : Between pending breaks t) (column : Nat) (inside : Bool) :
    Quoted false (singleText fold indent column inside pending breaks t)
      (spaces pending ++ refolded breaks t) := by
  induction t generalizing pending breaks column inside with
  | nil =>
    rw [singleText, refolded]
    split
    · rename_i he
      rw [List.isEmpty_iff] at he
      subst he
      have hq := Quoted.nil.spaces (by simp) pending
      rw [List.append_nil] at hq
      rw [flushed, List.append_nil]
      exact hq
    · rename_i hne
      rw [List.isEmpty_iff] at hne
      have hp : pending = 0 := h.oneKind.resolve_right hne
      have hq := quoted_breakRun hne h.areBreaks hpos (by simp) .nil
      rw [List.append_nil, List.append_nil] at hq
      rw [hp]
      exact hq
  | cons ch t ih =>
    by_cases hs : ch = ' '
    · subst hs
      obtain ⟨rfl, h'⟩ := h.space
      have hq := ih h' column inside
      rw [← spaces_add, List.append_assoc] at hq
      rw [singleText, if_pos rfl, if_pos List.isEmpty_nil]
      exact hq
    · cases hb : isTextBreak ch with
      | true =>
        obtain ⟨rfl, h'⟩ := h.lineBreak hb
        have hq := ih h' (column + 0) (inside || decide (0 < 0))
        rw [singleText, if_neg hs, if_pos hb, refolded, if_pos hb]
        exact hq
      | false =>
        obtain ⟨column', e⟩ := singleText_char fold hs hb column pending inside breaks t
        have hq := ih h.char column' true
        have hc := h.chars ch (List.mem_cons_self ..)
        have hg : isGap ch = false := ((isGap_of_not_special hc hb).resolve_left hs).1
        rw [e, refolded, hb]
        by_cases hch : ch = '\''
        · rw [if_pos hch]
          subst hch
          exact quoted_leadText fold h hpos (by rintro x ⟨⟩; decide) (.quote rfl hq) column inside
        · rw [if_neg hch]
          exact quoted_leadText fold h hpos (by rintro x ⟨⟩; exact hg)
            (.char (isReadable_of_not_special hc) hg hch (by simp) hq) column inside

end SingleWriting

end Formulary.Yaml
