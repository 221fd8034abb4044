import Formulary.Json.Reader
import Formulary.Json.Writer
import Formulary.Proofs.CodePoint

/-! # JSON texts read back

What is written on several lines is read as the value that it was written for. Strings come back
code point by code point, surrogates included, since every escape that is written is read as the
code point it stands for. Lists and objects come back part by part; an object needs distinct names,
because of two fields with one name only one is kept.
-/

namespace Formulary.Json
set_option autoImplicit false

/-! ## Strings -/

/-- What is written for a code point: a backslash and a letter, its number, or itself. -/
theorem escaped_cases (c : CodePoint) :
    (∃ e : CodePoint, escaped c = [.char '\\', e] ∧ e ≠ 'u' ∧ simpleEscape? e = some c) ∨
    (c.toNat < 0x20 ∧ escaped c = "\\u" ++ Text.hexDigits 4 c.toNat) ∨
    (c ≠ '"' ∧ c ≠ '\\' ∧ ¬ c.toNat < 0x20 ∧ escaped c = [c]) := by
  unfold escaped
  split
  · rename_i h
    exact .inl ⟨'"', rfl, by decide, by rw [h]; rfl⟩
  split
  · rename_i h
    exact .inl ⟨'\\', rfl, by decide, by rw [h]; rfl⟩
  split
  · rename_i h
    exact .inl ⟨'n', rfl, by decide, by rw [h]; rfl⟩
  split
  · rename_i h
    exact .inl ⟨'r', rfl, by decide, by rw [h]; rfl⟩
  split
  · rename_i h
    exact .inl ⟨'t', rfl, by decide, by rw [h]; rfl⟩
  split
  · rename_i h
    exact .inl ⟨'f', rfl, by decide, by rw [h]; rfl⟩
  split
  · rename_i h
    exact .inl ⟨'b', rfl, by decide, by rw [h]; rfl⟩
  split
  · exact .inr (.inl ⟨‹_›, rfl⟩)
  · exact .inr (.inr ⟨‹_›, ‹_›, ‹_›, rfl⟩)

theorem stringBody_letter (start pos : Nat) {e c : CodePoint} (he : e ≠ 'u')
    (h : simpleEscape? e = some c) (rest : Text) :
    stringBody start pos (.char '\\' :: e :: rest) =
      consPoint c (stringBody start (pos + 2) rest) := by
  rw [stringBody]
  · simp only [he, h, if_false]
  · intro _ _ _ _ _ hu
    exact absurd hu he

theorem stringBody_self (start pos : Nat) {c : CodePoint} (hq : c ≠ '"') (hb : c ≠ '\\')
    (hc : ¬ c.toNat < 0x20) (rest : Text) :
    stringBody start pos (c :: rest) = consPoint c (stringBody start (pos + 1) rest) := by
  rw [stringBody]
  · simp only [hc, if_false]
  · exact hq
  · exact fun h => absurd h hb
  · exact fun _ _ _ _ _ h => absurd h hb
  · exact fun _ _ h => absurd h hb

theorem hexDigits_control {n : Nat} (hn : n < 0x20) :
    ∃ a b c d, Text.hexDigits 4 n = [a, b, c, d] ∧ Text.hexNumber? [a, b, c, d] = some n := by
  have hall : ∀ n < 0x20, (Text.hexDigits 4 n).length = 4 ∧
      Text.hexNumber? (Text.hexDigits 4 n) = some n := by
    decide
  obtain ⟨hl, hx⟩ := hall n hn
  match hd : Text.hexDigits 4 n, hl with
  | [a, b, c, d], _ => exact ⟨a, b, c, d, rfl, hd ▸ hx⟩

theorem stringBody_code (start pos : Nat) {ch : CodePoint} (h : ch.toNat < 0x20) {rest : Text}
    (hr : rest ≠ []) :
    stringBody start pos ("\\u" ++ Text.hexDigits 4 ch.toNat ++ rest) =
      consPoint ch (stringBody start (pos + 6) rest) := by
  obtain ⟨a, b, c, d, hd, hx⟩ := hexDigits_control h
  have hh : Text.Encoding.isHighHalf ch.toNat = false := by
    simp only [Text.Encoding.isHighHalf, Bool.and_eq_false_iff, decide_eq_false_iff_not]
    omega
  have ht : ("\\u" ++ Text.hexDigits 4 ch.toNat ++ rest : Text) =
      .char '\\' :: .char 'u' :: a :: b :: c :: d :: rest := by
    rw [hd]
    rfl
  rw [ht, stringBody]
  simp only [List.isEmpty_iff, hr, if_false, hx, hh, CodePoint.ofNat_toNat, Bool.false_eq_true]

theorem stringBody_escaped (start pos : Nat) (c : CodePoint) {rest : Text} (hr : rest ≠ []) :
    ∃ p, stringBody start pos (escaped c ++ rest) = consPoint c (stringBody start p rest) := by
  rcases escaped_cases c with ⟨e, he, hu, hs⟩ | ⟨hc, he⟩ | ⟨hq, hb, hc, he⟩
  · rw [he]
    exact ⟨_, stringBody_letter start pos hu hs rest⟩
  · rw [he]
    exact ⟨_, stringBody_code start pos hc hr⟩
  · rw [he]
    exact ⟨_, stringBody_self start pos hq hb hc rest⟩

theorem stringBody_flatMap (start pos : Nat) (s rest : Text) :
    ∃ p, stringBody start pos (s.flatMap escaped ++ .char '"' :: rest) = .ok (s, p, rest) := by
  induction s generalizing pos with
  | nil => exact ⟨pos + 1, rfl⟩
  | cons c s ih =>
    rw [List.flatMap_cons, List.append_assoc]
    have hr : s.flatMap escaped ++ .char '"' :: rest ≠ [] := by simp
    obtain ⟨p, hp⟩ := stringBody_escaped start pos c hr
    obtain ⟨q, hq⟩ := ih p
    exact ⟨q, by rw [hp, hq]; rfl⟩

theorem quotedString_append (s rest : Text) :
    quotedString s ++ rest = .char '"' :: (s.flatMap escaped ++ .char '"' :: rest) := by
  have hq : quotedString s = [.char '"'] ++ s.flatMap escaped ++ [.char '"'] := rfl
  rw [hq]
  simp

/-! ## Blanks between the parts -/

/-- The text starts, and not with a blank. -/
def Solid (t : Text) : Prop := ∃ c rest, t = c :: rest ∧ isSpace c = false

theorem solid_cons (c : CodePoint) (t : Text) (h : isSpace c = false) : Solid (c :: t) :=
  ⟨c, t, rfl, h⟩

theorem Solid.append {s : Text} (h : Solid s) (t : Text) : Solid (s ++ t) := by
  obtain ⟨c, rest, rfl, hc⟩ := h
  exact ⟨c, rest ++ t, rfl, hc⟩

/-- One text is left of the other when the blanks in front are passed over. -/
def Skips (s t : Text) : Prop := ∀ pos, ∃ p, skipSpace pos s = (p, t)

theorem Solid.skips {t : Text} (h : Solid t) : Skips t t := by
  obtain ⟨c, rest, rfl, hc⟩ := h
  intro pos
  exact ⟨pos, by simp [skipSpace, hc]⟩

theorem Skips.cons {s t : Text} (h : Skips s t) {c : CodePoint} (hc : isSpace c = true) :
    Skips (c :: s) t := by
  intro pos
  obtain ⟨p, hp⟩ := h (pos + 1)
  exact ⟨p, by rw [skipSpace, if_pos hc, hp]⟩

theorem Skips.after_blanks {s t t' : Text} (h : Skips t t') (hs : ∀ c ∈ s, isSpace c = true) :
    Skips (s ++ t) t' := by
  induction s with
  | nil => exact h
  | cons c s ih =>
    have hrest := ih fun c hc => hs c (List.mem_cons_of_mem _ hc)
    exact hrest.cons (hs c (List.mem_cons_self ..))

theorem isSpace_lineBreak (level : Nat) : ∀ c ∈ lineBreak level, isSpace c = true := by
  intro c hc
  rcases List.mem_cons.mp hc with rfl | hc
  · rfl
  · rw [List.eq_of_mem_replicate hc]
    rfl

theorem skips_lineBreak (level : Nat) {t : Text} (h : Solid t) : Skips (lineBreak level ++ t) t :=
  h.skips.after_blanks (isSpace_lineBreak level)

/-! ## Values -/

/-- No number inside, no name twice in one object, and parts nested at most so deep. -/
inductive Plain : Nat → Json → Prop where
  | null {depth : Nat} : Plain depth .null
  | bool {depth : Nat} (b : Bool) : Plain depth (.bool b)
  | str {depth : Nat} (s : Text) : Plain depth (.str s)
  | list {depth : Nat} {items : List Json} (h : ∀ v ∈ items, Plain depth v) :
    Plain (depth + 1) (.list items)
  | object {depth : Nat} {fields : List (Text × Json)} (hn : (fields.map (·.1)).Nodup)
      (h : ∀ f ∈ fields, Plain depth f.2) : Plain (depth + 1) (.object fields)

/-- The text is read as the value, whatever follows it, and does not look like the end of a list. -/
structure Spells (depth : Nat) (t : Text) (v : Json) : Prop where
  starts : ∃ c rest, t = c :: rest ∧ isSpace c = false ∧ c ≠ ']'
  step : ∀ n pos rest, t.length ≤ n + 1 →
    ∃ p, value (n + 1) depth pos (t ++ rest) = .ok (v, p, rest)

theorem Spells.solid {depth : Nat} {t : Text} {v : Json} (h : Spells depth t v) : Solid t := by
  obtain ⟨c, rest, rfl, hc, -⟩ := h.starts
  exact solid_cons c rest hc

theorem Spells.reads {depth : Nat} {t : Text} {v : Json} (h : Spells depth t v) (n pos : Nat)
    (rest : Text) (hn : t.length ≤ n) : ∃ p, value n depth pos (t ++ rest) = .ok (v, p, rest) := by
  cases n with
  | zero =>
    obtain ⟨c, t, rfl, -⟩ := h.starts
    rw [List.length_cons] at hn
    omega
  | succ n => exact h.step n pos rest hn

/-! ### Lists -/

section Items

variable {n depth : Nat} {v : Json} {t r r' r'' : Text}

theorem items_last (hv : Spells depth t v) (hn : t.length ≤ n) (hr : Skips r (.char ']' :: r'))
    (pos : Nat) (done : List Json) :
    ∃ p, items (n + 1) depth pos (t ++ r) done = .ok (.list (v :: done).reverse, p, r') := by
  obtain ⟨p, hp⟩ := hv.reads n pos r hn
  obtain ⟨q, hq⟩ := hr p
  exact ⟨q + 1, by simp only [items, hp, hq]⟩

theorem items_next (hv : Spells depth t v) (hn : t.length ≤ n) (hr : Skips r (.char ',' :: r'))
    (hr' : Skips r' r'') (pos : Nat) (done : List Json) :
    ∃ p, items (n + 1) depth pos (t ++ r) done = items n depth p r'' (v :: done) := by
  obtain ⟨p, hp⟩ := hv.reads n pos r hn
  obtain ⟨q, hq⟩ := hr p
  obtain ⟨q', hq'⟩ := hr' (q + 1)
  exact ⟨q', by simp only [items, hp, hq, hq']⟩

end Items

section Layout

variable {depth : Nat} (level : Nat)

theorem prettyItems_nil_append (tail : Text) :
    prettyItems level [] ++ tail = lineBreak level ++ .char ']' :: tail := by
  rw [prettyItems, List.append_assoc]
  rfl

theorem prettyItems_cons_append (v : Json) (rest : List Json) (tail : Text) :
    prettyItems level (v :: rest) ++ tail = .char ',' ::
      (lineBreak (level + 1) ++ (prettyAt (level + 1) v ++ (prettyItems level rest ++ tail))) := by
  rw [prettyItems]
  simp only [List.cons_append, List.append_assoc]

/-- The items of a list, from one of them on. -/
theorem items_spelled {v : Json} {rest : List Json}
    (h : ∀ w ∈ v :: rest, Spells depth (prettyAt (level + 1) w) w) (fuel pos : Nat) (tail : Text)
    (done : List Json)
    (hf : (prettyAt (level + 1) v).length + (prettyItems level rest).length ≤ fuel) :
    ∃ p, items fuel depth pos (prettyAt (level + 1) v ++ (prettyItems level rest ++ tail)) done =
      .ok (.list (done.reverse ++ v :: rest), p, tail) := by
  have hv := h v (List.mem_cons_self ..)
  induction rest generalizing v fuel pos done with
  | nil =>
    have hlen := congrArg List.length (prettyItems_nil_append level [])
    simp only [List.append_nil, List.length_append, List.length_cons] at hlen
    obtain ⟨n, rfl⟩ : ∃ n, fuel = n + 1 := ⟨fuel - 1, by omega⟩
    have hn : (prettyAt (level + 1) v).length ≤ n := by omega
    rw [prettyItems_nil_append]
    obtain ⟨p, hp⟩ := items_last hv hn (skips_lineBreak level (solid_cons ']' tail rfl)) pos done
    exact ⟨p, by rw [hp, List.reverse_cons]⟩
  | cons w rest ih =>
    have hw := h w (List.mem_cons_of_mem _ (List.mem_cons_self ..))
    have hlen := congrArg List.length (prettyItems_cons_append level w rest [])
    simp only [List.append_nil, List.length_append, List.length_cons] at hlen
    obtain ⟨n, rfl⟩ : ∃ n, fuel = n + 1 := ⟨fuel - 1, by omega⟩
    have hn : (prettyAt (level + 1) v).length ≤ n := by omega
    have hr := skips_lineBreak (level + 1) (hw.solid.append (prettyItems level rest ++ tail))
    rw [prettyItems_cons_append]
    obtain ⟨p, hp⟩ := items_next hv hn (solid_cons ',' _ rfl).skips hr pos done
    obtain ⟨q, hq⟩ := ih (fun x hx => h x (List.mem_cons_of_mem _ hx)) n p (v :: done) (by omega) hw
    exact ⟨q, by rw [hp, hq, List.reverse_cons, List.append_assoc]; rfl⟩

end Layout

/-! ### Objects -/

theorem setField_new {done rest : List (Text × Json)} {f : Text × Json}
    (h : ((done ++ f :: rest).map (·.1)).Nodup) : setField done f.1 f.2 = done ++ [f] := by
  rw [List.map_append, List.map_cons] at h
  have hnew : (done.any fun g => g.1 == f.1) = false := by
    rw [List.any_eq_false]
    intro g hg he
    have hm : g.1 ∈ done.map (·.1) := List.mem_map_of_mem hg
    exact (List.nodup_append.mp h).2.2 _ hm _ (List.mem_cons_self ..) (beq_iff_eq.mp he)
  rw [setField, hnew]
  rfl

/-- A field with its name in front. -/
def fieldText (level : Nat) (f : Text × Json) : Text :=
  quotedString f.1 ++ ": " ++ prettyAt (level + 1) f.2

theorem fieldText_append (level : Nat) (f : Text × Json) (tail : Text) :
    fieldText level f ++ tail = .char '"' :: (f.1.flatMap escaped ++ .char '"' ::
      .char ':' :: .char ' ' :: (prettyAt (level + 1) f.2 ++ tail)) := by
  rw [fieldText, List.append_assoc, List.append_assoc, quotedString_append]
  rfl

theorem solid_fieldText (level : Nat) (f : Text × Json) : Solid (fieldText level f) := by
  have h := fieldText_append level f []
  rw [List.append_nil] at h
  rw [h]
  exact solid_cons _ _ rfl

section Fields

variable {n depth level : Nat} {f : Text × Json} {r r' r'' : Text}
variable (hv : Spells depth (prettyAt (level + 1) f.2) f.2)
variable (hn : (prettyAt (level + 1) f.2).length ≤ n)
include hv hn

/-- What is met in a field: its name in quotes, a colon and a blank, its value. -/
theorem field_read (r : Text) (pos : Nat) :
    ∃ t t' p q q' u, fieldText level f ++ r = .char '"' :: t ∧
      stringBody pos (pos + 1) t = .ok (f.1, p, .char ':' :: t') ∧
      skipSpace p (.char ':' :: t') = (q, .char ':' :: t') ∧
      skipSpace (q + 1) t' = (q', prettyAt (level + 1) f.2 ++ r) ∧
      value n depth q' (prettyAt (level + 1) f.2 ++ r) = .ok (f.2, u, r) := by
  have ht := fieldText_append level f r
  obtain ⟨p, hp⟩ := stringBody_flatMap pos (pos + 1) f.1
    (.char ':' :: .char ' ' :: (prettyAt (level + 1) f.2 ++ r))
  obtain ⟨q, hq⟩ := (solid_cons ':' (.char ' ' :: (prettyAt (level + 1) f.2 ++ r)) rfl).skips p
  obtain ⟨q', hq'⟩ := (hv.solid.append r).skips.cons (c := ' ') rfl (q + 1)
  obtain ⟨u, hu⟩ := hv.reads n q' r hn
  exact ⟨_, _, p, q, q', u, ht, hp, hq, hq', hu⟩

theorem fields_last (hr : Skips r (.char '\x7d' :: r')) (pos : Nat) (done : List (Text × Json)) :
    ∃ p, fields (n + 1) depth pos (fieldText level f ++ r) done =
      .ok (.object (setField done f.1 f.2), p, r') := by
  obtain ⟨t, t', p, q, q', u, ht, hp, hq, hq', hu⟩ := field_read hv hn r pos
  obtain ⟨w, hw⟩ := hr u
  exact ⟨w + 1, by simp only [ht, fields, hp, hq, hq', hu, hw]⟩

theorem fields_next (hr : Skips r (.char ',' :: r')) (hr' : Skips r' r'') (pos : Nat)
    (done : List (Text × Json)) :
    ∃ p, fields (n + 1) depth pos (fieldText level f ++ r) done =
      fields n depth p r'' (setField done f.1 f.2) := by
  obtain ⟨t, t', p, q, q', u, ht, hp, hq, hq', hu⟩ := field_read hv hn r pos
  obtain ⟨w, hw⟩ := hr u
  obtain ⟨w', hw'⟩ := hr' (w + 1)
  exact ⟨w', by simp only [ht, fields, hp, hq, hq', hu, hw, hw']⟩

end Fields

section Layout

variable {depth : Nat} (level : Nat)

theorem prettyFields_nil_append (tail : Text) :
    prettyFields level [] ++ tail = lineBreak level ++ .char '\x7d' :: tail := by
  rw [prettyFields, List.append_assoc]
  rfl

theorem prettyFields_cons_append (f : Text × Json) (rest : List (Text × Json)) (tail : Text) :
    prettyFields level (f :: rest) ++ tail = .char ',' ::
      (lineBreak (level + 1) ++ (fieldText level f ++ (prettyFields level rest ++ tail))) := by
  rw [prettyFields, fieldText]
  simp only [List.cons_append, List.append_assoc]

/-- The fields of an object, from one of them on. -/
theorem fields_spelled {f : Text × Json} {rest : List (Text × Json)}
    (h : ∀ g ∈ f :: rest, Spells depth (prettyAt (level + 1) g.2) g.2) (fuel pos : Nat)
    (tail : Text) (done : List (Text × Json)) (hnames : ((done ++ f :: rest).map (·.1)).Nodup)
    (hf : (fieldText level f).length + (prettyFields level rest).length ≤ fuel) :
    ∃ p, fields fuel depth pos (fieldText level f ++ (prettyFields level rest ++ tail)) done =
      .ok (.object (done ++ f :: rest), p, tail) := by
  have hv := h f (List.mem_cons_self ..)
  induction rest generalizing f fuel pos done with
  | nil =>
    have hlen := congrArg List.length (prettyFields_nil_append level [])
    have hlen' := congrArg List.length (fieldText_append level f [])
    simp only [List.append_nil, List.length_append, List.length_cons] at hlen hlen'
    obtain ⟨n, rfl⟩ : ∃ n, fuel = n + 1 := ⟨fuel - 1, by omega⟩
    have hn : (prettyAt (level + 1) f.2).length ≤ n := by omega
    rw [prettyFields_nil_append]
    obtain ⟨p, hp⟩ := fields_last hv hn (skips_lineBreak level (solid_cons '\x7d' tail rfl)) pos done
    exact ⟨p, by rw [hp, setField_new hnames]⟩
  | cons g rest ih =>
    have hg := h g (List.mem_cons_of_mem _ (List.mem_cons_self ..))
    have hlen := congrArg List.length (prettyFields_cons_append level g rest [])
    have hlen' := congrArg List.length (fieldText_append level f [])
    simp only [List.append_nil, List.length_append, List.length_cons] at hlen hlen'
    obtain ⟨n, rfl⟩ : ∃ n, fuel = n + 1 := ⟨fuel - 1, by omega⟩
    have hn : (prettyAt (level + 1) f.2).length ≤ n := by omega
    have hr := skips_lineBreak (level + 1)
      ((solid_fieldText level g).append (prettyFields level rest ++ tail))
    rw [prettyFields_cons_append]
    obtain ⟨p, hp⟩ := fields_next hv hn (solid_cons ',' _ rfl).skips hr pos done
    have happ : done ++ [f] ++ g :: rest = done ++ f :: g :: rest := by simp
    rw [hp, setField_new hnames, ← happ]
    rw [← happ] at hnames
    exact ih (fun x hx => h x (List.mem_cons_of_mem _ hx)) n p (done ++ [f]) hnames (by omega) hg

end Layout

/-! ### All values -/

section Values

variable {depth : Nat}

theorem spells_word {c : CodePoint} {t : Text} {v : Json} (hs : isSpace c = false) (hc : c ≠ ']')
    (hq : c ≠ '"') (hl : c ≠ '[') (ho : c ≠ '\x7b')
    (hw : ∀ rest, (words.find? fun w => w.1.isPrefixOf (c :: t ++ rest)) = some (c :: t, v)) :
    Spells depth (c :: t) v where
  starts := ⟨c, t, rfl, hs, hc⟩
  step n pos rest _ := by
    have hv : value (n + 1) depth pos (c :: t ++ rest) = wordOrNumber pos (c :: t ++ rest) := by
      rw [value]
      · exact fun r h => hq (List.cons.inj h).1
      · exact fun r h => hl (List.cons.inj h).1
      · exact fun r h => ho (List.cons.inj h).1
    have hd : (c :: t ++ rest).drop (c :: t).length = rest := List.drop_left
    refine ⟨pos + (c :: t).length, ?_⟩
    simp only [hv, wordOrNumber, hw, hd]

theorem spells_null : Spells depth (atom .null) .null :=
  spells_word rfl (by decide) (by decide) (by decide) (by decide) fun _ => rfl

theorem spells_bool (b : Bool) : Spells depth (atom (.bool b)) (.bool b) := by
  cases b with
  | true => exact spells_word rfl (by decide) (by decide) (by decide) (by decide) fun _ => rfl
  | false => exact spells_word rfl (by decide) (by decide) (by decide) (by decide) fun _ => rfl

theorem spells_str (s : Text) : Spells depth (quotedString s) (.str s) where
  starts := by
    have h := quotedString_append s []
    rw [List.append_nil] at h
    exact ⟨_, _, h, rfl, by decide⟩
  step n pos rest _ := by
    obtain ⟨p, hp⟩ := stringBody_flatMap pos (pos + 1) s rest
    rw [quotedString_append]
    exact ⟨p, by simp only [value, hp]⟩

theorem value_emptyList (n pos : Nat) {t t' : Text} (h : Skips t (.char ']' :: t')) :
    ∃ p, value (n + 1) (depth + 1) pos (.char '[' :: t) = .ok (.list [], p, t') := by
  obtain ⟨p, hp⟩ := h (pos + 1)
  exact ⟨p + 1, by simp only [value, hp]⟩

theorem value_list (n pos : Nat) {t t' : Text} {c : CodePoint} (h : Skips t (c :: t'))
    (hc : c ≠ ']') :
    ∃ p, value (n + 1) (depth + 1) pos (.char '[' :: t) = items n depth p (c :: t') [] := by
  obtain ⟨p, hp⟩ := h (pos + 1)
  refine ⟨p, ?_⟩
  simp only [value, hp]
  split
  · rename_i hb
    exact absurd (List.cons.inj (Prod.mk.inj hb).2).1 hc
  · rename_i hb
    cases hb
    rfl

theorem value_emptyObject (n pos : Nat) {t t' : Text} (h : Skips t (.char '\x7d' :: t')) :
    ∃ p, value (n + 1) (depth + 1) pos (.char '\x7b' :: t) = .ok (.object [], p, t') := by
  obtain ⟨p, hp⟩ := h (pos + 1)
  exact ⟨p + 1, by simp only [value, hp]⟩

theorem value_object (n pos : Nat) {t t' : Text} {c : CodePoint} (h : Skips t (c :: t'))
    (hc : c ≠ '\x7d') :
    ∃ p, value (n + 1) (depth + 1) pos (.char '\x7b' :: t) = fields n depth p (c :: t') [] := by
  obtain ⟨p, hp⟩ := h (pos + 1)
  refine ⟨p, ?_⟩
  simp only [value, hp]
  split
  · rename_i hb
    exact absurd (List.cons.inj (Prod.mk.inj hb).2).1 hc
  · rename_i hb
    cases hb
    rfl

theorem spells_list (level : Nat) {items : List Json}
    (h : ∀ v ∈ items, Spells depth (prettyAt (level + 1) v) v) :
    Spells (depth + 1) (prettyAt level (.list items)) (.list items) := by
  cases items with
  | nil =>
    refine ⟨⟨.char '[', _, rfl, rfl, by decide⟩, fun n pos rest _ => ?_⟩
    exact value_emptyList n pos (solid_cons ']' rest rfl).skips
  | cons v rest =>
    have ht : ∀ tail, prettyAt level (.list (v :: rest)) ++ tail = .char '[' ::
        (lineBreak (level + 1) ++ (prettyAt (level + 1) v ++ (prettyItems level rest ++ tail))) := by
      intro tail
      rw [prettyAt]
      simp only [List.cons_append, List.append_assoc]
    have hlen := congrArg List.length (ht [])
    simp only [List.append_nil, List.length_cons, List.length_append] at hlen
    have hv := h v (List.mem_cons_self ..)
    obtain ⟨c, t, hc, -, hne⟩ := hv.starts
    refine ⟨⟨.char '[', _, by rw [prettyAt], rfl, by decide⟩, fun n pos tail hn => ?_⟩
    have hs := skips_lineBreak (level + 1) (hv.solid.append (prettyItems level rest ++ tail))
    have hitems := items_spelled level h n
    rw [ht]
    rw [hc] at hs hitems ⊢
    obtain ⟨p, hp⟩ := value_list n pos hs hne
    rw [hp]
    exact hitems p tail [] (by rw [← hc]; omega)

theorem spells_object (level : Nat) {fields : List (Text × Json)} (hn : (fields.map (·.1)).Nodup)
    (h : ∀ f ∈ fields, Spells depth (prettyAt (level + 1) f.2) f.2) :
    Spells (depth + 1) (prettyAt level (.object fields)) (.object fields) := by
  cases fields with
  | nil =>
    refine ⟨⟨.char '\x7b', _, rfl, rfl, by decide⟩, fun n pos rest _ => ?_⟩
    exact value_emptyObject n pos (solid_cons '\x7d' rest rfl).skips
  | cons f rest =>
    have ht : ∀ tail, prettyAt level (.object (f :: rest)) ++ tail = .char '\x7b' ::
        (lineBreak (level + 1) ++ (fieldText level f ++ (prettyFields level rest ++ tail))) := by
      intro tail
      rw [prettyAt, fieldText]
      simp only [List.cons_append, List.append_assoc]
    have hlen := congrArg List.length (ht [])
    simp only [List.append_nil, List.length_cons, List.length_append] at hlen
    refine ⟨⟨.char '\x7b', _, by rw [prettyAt], rfl, by decide⟩, fun n pos tail hf => ?_⟩
    have hs := skips_lineBreak (level + 1)
      ((solid_fieldText level f).append (prettyFields level rest ++ tail))
    have hfields := fun p => fields_spelled level h n p tail [] hn (by omega)
    rw [ht]
    rw [fieldText_append] at hs hfields ⊢
    obtain ⟨p, hp⟩ := value_object n pos hs (by decide)
    rw [hp]
    exact hfields p

theorem Plain.spells {v : Json} (h : Plain depth v) (level : Nat) :
    Spells depth (prettyAt level v) v := by
  induction h generalizing level with
  | null => exact spells_null
  | bool b => exact spells_bool b
  | str s => exact spells_str s
  | list h ih => exact spells_list level fun v hv => ih v hv (level + 1)
  | object hn h ih => exact spells_object level hn fun f hf => ih f hf (level + 1)

end Values

/-- Plain data that is written on several lines is read back, if its nesting is allowed. Blanks may
follow it. -/
theorem readWithin_pretty {depth : Nat} {v : Json} (h : Plain depth v) {s : Text}
    (hs : ∀ c ∈ s, isSpace c = true) : readWithin depth (pretty v ++ s) = .ok v := by
  have hv : Spells depth (pretty v) v := h.spells 0
  obtain ⟨p, hp⟩ := (hv.solid.append s).skips 0
  have hlen : (pretty v ++ s).length = (pretty v).length + s.length := List.length_append
  obtain ⟨q, hq⟩ := hv.reads (2 * (pretty v ++ s).length + 2) p s (by omega)
  have hnil : Skips [] [] := fun pos => ⟨pos, rfl⟩
  obtain ⟨u, hu⟩ := hnil.after_blanks hs q
  rw [List.append_nil] at hu
  simp only [readWithin, hp, hq, hu]

end Formulary.Json
