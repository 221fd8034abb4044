import Formulary.Yaml.Writer
import Mathlib.Data.List.TakeWhile

/-! # Where a cursor goes

All that is read is read by skipping. So a place is known by the number of characters passed, and
its line and column follow from what they were: characters of a line move the column, a line feed
and the spaces after it set it.
-/

namespace Formulary.Yaml
set_option autoImplicit false

/-! ## Runs at the front of a text -/

section Runs

variable {p : CodePoint → Bool} {a r : Text}

theorem takeWhile_run (ha : ∀ x ∈ a, p x = true) (hr : ∀ x ∈ r.head?, p x = false) :
    (a ++ r).takeWhile p = a := by
  rw [List.takeWhile_append_of_pos ha]
  cases r with
  | nil => simp
  | cons x r => simp [hr x rfl]

theorem dropWhile_run (ha : ∀ x ∈ a, p x = true) (hr : ∀ x ∈ r.head?, p x = false) :
    (a ++ r).dropWhile p = r := by
  rw [List.dropWhile_append_of_pos ha]
  cases r with
  | nil => rfl
  | cons x r => simp [hr x rfl]

end Runs

/-- What a line break of a scalar is read as. -/
def asRead (b : CodePoint) : CodePoint := if b = '\x85' then '\n' else b

theorem mem_spaces {n : Nat} {x : CodePoint} (h : x ∈ spaces n) : x = ' ' :=
  List.eq_of_mem_replicate h

theorem length_spaces (n : Nat) : (spaces n).length = n := List.length_replicate

theorem spaces_succ (n : Nat) : spaces (n + 1) = .char ' ' :: spaces n := rfl

theorem spaces_add (m n : Nat) : spaces m ++ spaces n = spaces (m + n) :=
  List.replicate_append_replicate

/-- A line feed, further empty lines, and the indentation of the line after them. -/
def lineEnd (j k : Nat) : Text := List.replicate (j + 1) (.char '\n') ++ spaces k

theorem lineEnd_zero (k : Nat) : lineEnd 0 k = newLine k := rfl

theorem lineEnd_append (j k : Nat) (r : Text) :
    lineEnd j k ++ r = .char '\n' :: (List.replicate j (.char '\n') ++ (spaces k ++ r)) := by
  rw [lineEnd, List.append_assoc]
  rfl

theorem length_lineEnd (j k : Nat) : (lineEnd j k).length = j + 1 + k := by
  simp [lineEnd, length_spaces]

namespace Cursor

/-! ## Skipping -/

theorem rest_advance (c : Cursor) : c.advance.rest = c.rest.tail := by
  unfold advance
  split
  · rename_i h
    rw [h]
    rfl
  · rename_i h
    rw [h]
    split
    · rfl
    · split <;> rfl

theorem rest_skip (n : Nat) (c : Cursor) : (c.skip n).rest = c.rest.drop n := by
  induction n generalizing c with
  | zero => rfl
  | succ n ih => rw [skip, ih, rest_advance, List.drop_tail]

theorem rest_skip_append {c : Cursor} {a r : Text} (h : c.rest = a ++ r) :
    (c.skip a.length).rest = r := by
  rw [rest_skip, h, List.drop_left]

theorem skip_skip (m n : Nat) (c : Cursor) : (c.skip m).skip n = c.skip (m + n) := by
  induction m generalizing c with
  | zero => rw [Nat.zero_add]; rfl
  | succ m ih => rw [Nat.succ_add, skip, skip, ih]

theorem line_le_advance (c : Cursor) : c.line ≤ c.advance.line := by
  unfold advance
  split
  · exact Nat.le_refl _
  · split
    · exact Nat.le_succ _
    · split <;> exact Nat.le_refl _

theorem line_le_skip (n : Nat) (c : Cursor) : c.line ≤ (c.skip n).line := by
  induction n generalizing c with
  | zero => exact Nat.le_refl _
  | succ n ih => exact Nat.le_trans c.line_le_advance (ih c.advance)

/-! ## Lines and columns -/

/-- A character that stays on its line and takes a column. -/
def IsInline (ch : CodePoint) : Prop := isBreak ch = false ∧ ch ≠ byteOrderMark

theorem isInline_space : IsInline ' ' := ⟨by decide, by decide⟩

theorem advance_inline {c : Cursor} {ch : CodePoint} {r : Text} (h : c.rest = ch :: r)
    (hi : IsInline ch) : c.advance = ⟨r, c.index + 1, c.line, c.column + 1⟩ := by
  simp [advance, h, hi.1, hi.2]

theorem skip_inline {c : Cursor} {a r : Text} (h : c.rest = a ++ r)
    (ha : ∀ ch ∈ a, IsInline ch) :
    c.skip a.length = ⟨r, c.index + a.length, c.line, c.column + a.length⟩ := by
  induction a generalizing c with
  | nil =>
    rw [List.nil_append] at h
    rw [List.length_nil, skip, ← h]
    rfl
  | cons ch a ih =>
    have h1 := advance_inline (r := a ++ r) h (ha ch (List.mem_cons_self ..))
    rw [List.length_cons, skip, ih (by rw [h1]) fun x hx => ha x (List.mem_cons_of_mem _ hx), h1]
    simp only [Cursor.mk.injEq, true_and]
    omega

theorem advance_lineFeed {c : Cursor} {r : Text} (h : c.rest = .char '\n' :: r) :
    c.advance = ⟨r, c.index + 1, c.line + 1, 0⟩ := by
  simp [advance, h, isBreak]

theorem skip_spaces {c : Cursor} {k : Nat} {r : Text} (h : c.rest = spaces k ++ r) :
    c.skip k = ⟨r, c.index + k, c.line, c.column + k⟩ := by
  have h1 := skip_inline h fun x hx => mem_spaces hx ▸ isInline_space
  rwa [length_spaces] at h1

/-- After line feeds the spaces that follow make the column. -/
theorem skip_lineEnd {c : Cursor} {j k : Nat} {r : Text} (h : c.rest = lineEnd j k ++ r) :
    c.skip (j + 1 + k) = ⟨r, c.index + (j + 1 + k), c.line + (j + 1), k⟩ := by
  rw [lineEnd_append] at h
  have h1 := advance_lineFeed h
  rw [Nat.add_right_comm, skip, h1]
  clear h h1
  generalize c.index = i
  generalize c.line = l
  induction j generalizing i l with
  | zero =>
    rw [Nat.zero_add, skip_spaces (k := k) (r := r) rfl]
    simp only [Cursor.mk.injEq, true_and]
    omega
  | succ j ih =>
    have h1 := advance_lineFeed (c := ⟨List.replicate (j + 1) (.char '\n') ++ (spaces k ++ r),
      i + 1, l + 1, 0⟩) (r := List.replicate j (.char '\n') ++ (spaces k ++ r)) rfl
    have e : j + 1 + k = (j + k) + 1 := by omega
    rw [e, skip, h1, ih]
    simp only [Cursor.mk.injEq, true_and, and_true]
    omega

/-! ## Looking ahead -/

theorem peek_eq (c : Cursor) : c.peek = c.rest.headD endMark := by
  simp [peek, ahead, List.headD_eq_head?_getD, List.head?_eq_getElem?, List.getD_eq_getElem?_getD]

theorem peek_cons {c : Cursor} {ch : CodePoint} {r : Text} (h : c.rest = ch :: r) :
    c.peek = ch := by
  rw [peek_eq, h]
  rfl

theorem ahead_succ {c : Cursor} {ch : CodePoint} {r : Text} (h : c.rest = ch :: r) (n : Nat) :
    c.ahead (n + 1) = r.getD n endMark := by
  simp [ahead, h]

theorem span_run {c : Cursor} {p : CodePoint → Bool} {a r : Text} (h : c.rest = a ++ r)
    (ha : ∀ x ∈ a, p x = true) (hr : ∀ x ∈ r.head?, p x = false) :
    c.span p = (a, c.skip a.length) := by
  simp only [span, h, takeWhile_run ha hr]

theorem skipWhile_run {c : Cursor} {p : CodePoint → Bool} {a r : Text} (h : c.rest = a ++ r)
    (ha : ∀ x ∈ a, p x = true) (hr : ∀ x ∈ r.head?, p x = false) :
    c.skipWhile p = c.skip a.length := by
  rw [skipWhile, span_run h ha hr]

/-! ## Line breaks -/

theorem lineBreak?_break {c : Cursor} {b : CodePoint} {r : Text} (h : c.rest = b :: r)
    (hb : isTextBreak b = true) : c.lineBreak? = some (asRead b, c.advance) := by
  simp only [isTextBreak, Bool.or_eq_true, decide_eq_true_eq] at hb
  rw [lineBreak?, peek_cons h]
  rcases hb with ((rfl | rfl) | rfl) | rfl <;> simp [asRead]

theorem lineBreak?_none {c : Cursor} (h : isBreak c.peek = false) : c.lineBreak? = none := by
  simp only [isBreak, Bool.or_eq_false_iff, decide_eq_false_iff_not] at h
  obtain ⟨⟨⟨⟨h1, h2⟩, h3⟩, h4⟩, h5⟩ := h
  simp [lineBreak?, h1, h2, h3, h4, h5]

theorem atSeparator_false {c : Cursor} {ch : CodePoint} {r : Text} (h : c.rest = ch :: r)
    (h1 : ch ≠ '-') (h2 : ch ≠ '.') : c.atSeparator = false := by
  have e1 : List.isPrefixOf ("---" : Text) (ch :: r) = false := by
    simp [Text.ofString, Text.ofChars, List.isPrefixOf, Ne.symm h1]
  have e2 : List.isPrefixOf ("..." : Text) (ch :: r) = false := by
    simp [Text.ofString, Text.ofChars, List.isPrefixOf, Ne.symm h2]
  simp [atSeparator, atMark, h, e1, e2]

end Cursor

end Formulary.Yaml
