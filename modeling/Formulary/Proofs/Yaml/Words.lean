import Formulary.Proofs.Yaml.Lexer

/-! # The words of written data

Data of strings, lists and mappings is written line by line. Its words come back in the order of
the writer: what a value adds to the words, and that the lexer then stands before the next line
with the block collections of the value closed.
-/

namespace Formulary.Yaml
set_option autoImplicit false

open Lexer

/-- Data that is nested to a depth and can be written and read: strings, lists, and mappings with
different keys. -/
inductive Writable : Nat → Json → Prop where
  | str (n : Nat) (t : Text) : Writable n (.str t)
  | list {n : Nat} {vs : List Json} (h : ∀ v ∈ vs, Writable n v) : Writable (n + 1) (.list vs)
  | object {n : Nat} {fs : List (Text × Json)} (hne : fs ≠ []) (hk : ∀ f ∈ fs, IsKey f.1)
    (hd : (fs.map (·.1)).Nodup) (h : ∀ f ∈ fs, Writable n f.2) : Writable (n + 1) (.object fs)

mutual

/-- The words of the value of a key. A list stands at the indentation of the key, without a start
and an end. -/
def entryWords : Json → List Word
  | .str t => [scalarWord t]
  | .list [] => [.flowSequenceStart, .flowSequenceEnd]
  | .list (v :: rest) => itemsWords (v :: rest)
  | .object fields => .blockMappingStart :: (entriesWords fields ++ [.blockEnd])
  | _ => []

def itemsWords : List Json → List Word
  | [] => []
  | v :: rest => .blockEntry :: (itemWords v ++ itemsWords rest)

/-- The words of an item. -/
def itemWords : Json → List Word
  | .str t => [scalarWord t]
  | .list [] => [.flowSequenceStart, .flowSequenceEnd]
  | .list (v :: rest) => .blockSequenceStart :: (itemsWords (v :: rest) ++ [.blockEnd])
  | .object fields => .blockMappingStart :: (entriesWords fields ++ [.blockEnd])
  | _ => []

def entriesWords : List (Text × Json) → List Word
  | [] => []
  | (key, v) :: rest => [.key, .scalar key true, .value] ++ (entryWords v ++ entriesWords rest)

end

/-- Further line feeds, the indentation of the next line, and what stands there. -/
def nextLines (j k : Nat) (r : Text) : Text := List.replicate j (.char '\n') ++ (spaces k ++ r)

theorem lineFeed_nextLines (j k : Nat) (r : Text) :
    Text.ofString "\n" ++ nextLines j k r = lineEnd j k ++ r := (lineEnd_append j k r).symm

/-! ## What stands at the head of a line -/

theorem resumes_string (indent column : Nat) (t : Text) {k : Nat} (hk : 0 < k) (r : Text) :
    Resumes k (stringText false indent column t ++ r) := by
  have hm : ∀ {b : Text}, k = 0 → startsWithMark b = false := fun h => absurd h (by omega)
  rcases style_cases t with hs | ⟨hs, -⟩ | hs
  · obtain ⟨-, ha, hne⟩ := plain_style hs
    rw [stringText, hs]
    exact (folded_plainText true indent (isPhrase_of_allowsPlain ha hne) column).resumes hk r
  · rw [stringText, hs]
    exact ⟨rfl, rfl, by simp [Text.ofString, Text.ofChars], hm⟩
  · rw [stringText, hs]
    exact ⟨rfl, rfl, by simp [Text.ofString, Text.ofChars], hm⟩

theorem resumes_dash (k : Nat) (r : Text) : Resumes k (.char '-' :: .char ' ' :: r) :=
  ⟨rfl, rfl, by simp, fun _ => by
    simp [startsWithMark, Text.ofString, Text.ofChars, List.isPrefixOf]⟩

theorem resumes_key {key : Text} (hkey : IsKey key) (k : Nat) (r : Text) : Resumes k (key ++ r) := by
  obtain ⟨h1, h2, h3, -⟩ := hkey.isWord.resumes Nat.one_pos r
  refine ⟨h1, h2, h3, fun _ => ?_⟩
  obtain ⟨-, -, hne⟩ := plain_style hkey.plain
  cases key with
  | nil => exact absurd rfl hne
  | cons ch u =>
    obtain ⟨n1, n2⟩ := hkey.head ch rfl
    simp [startsWithMark, Text.ofString, Text.ofChars, List.isPrefixOf, Ne.symm n1, Ne.symm n2]

theorem stringText_key {key : Text} (hkey : IsKey key) (indent column : Nat) :
    stringText true indent column key = key := by
  have h := plainText_word false indent (t := []) hkey.noSpace column
  rw [List.append_nil] at h
  rw [stringText, hkey.plain]
  exact h.trans (List.append_nil key)

theorem resumes_item {n : Nat} {v : Json} (hv : Writable n v) (col : Nat) {k : Nat} (hk : 0 < k)
    (r : Text) : Resumes k (itemText col v ++ r) := by
  have hm : ∀ {b : Text}, k = 0 → startsWithMark b = false := fun h => absurd h (by omega)
  cases hv with
  | str n t =>
    rw [itemText, List.append_assoc]
    · exact resumes_string col col t hk _
    · simp
    · simp
  | @list n vs h =>
    cases vs with
    | nil =>
      rw [itemText, List.append_assoc]
      · exact ⟨rfl, rfl, by simp [atomText, Text.ofString, Text.ofChars], hm⟩
      · simp
      · simp
    | cons v vs =>
      rw [itemText, List.append_assoc, List.append_assoc]
      exact resumes_dash k _
  | @object n fs hne hkeys hd h =>
    cases fs with
    | nil => exact absurd rfl hne
    | cons f fs =>
      obtain ⟨key, v⟩ := f
      have hkey : IsKey key := hkeys (key, v) (List.mem_cons_self ..)
      rw [itemText, entriesText]
      simp only [stringText_key hkey, List.append_assoc]
      exact resumes_key hkey k _

theorem isGap_entryText (indent column : Nat) (v : Json) (r : Text) :
    isGap ((entryText indent column v ++ r).headD endMark) = true := by
  unfold entryText
  split <;> rfl

/-! ## What is read of a value -/

/-- The lexer comes to the head of a line. -/
def Arrives (s : Lexer) (ws : List Word) (σ : List Int) (k : Nat) (r : Text) : Prop :=
  ∃ s', Leads s s' ∧ Reaches s' ws σ true k r

theorem Arrives.after {s s' : Lexer} {ws : List Word} {σ : List Int} {k : Nat} {r : Text}
    (h' : Arrives s' ws σ k r) (h : Leads s s') : Arrives s ws σ k r := by
  obtain ⟨s'', h1, h2⟩ := h'
  exact ⟨s'', h.trans h1, h2⟩

/-- An item is read up to a line that is not indented further than the collection around it. -/
def ReadsItem (n : Nat) (v : Json) : Prop :=
  ∀ (s : Lexer) (ws : List Word) (i : Int) (σ : List Int) (col j k : Nat) (r : Text),
    Reaches s ws (i :: σ) true col (itemText col v ++ nextLines j k r) → i < col → (k : Int) ≤ i →
    Resumes k r → col + 2 * n < lineWidth →
    Arrives s (ws ++ itemWords v ++ closers k (i :: σ)) (kept k (i :: σ)) k r

/-- The value of a key is read up to a line that is not indented further than the key. -/
def ReadsEntry (n : Nat) (v : Json) : Prop :=
  ∀ (s : Lexer) (ws : List Word) (σ : List Int) (indent column place j k : Nat) (r : Text),
    Stands s ws ((indent : Int) :: σ) false place (entryText indent column v ++ nextLines j k r) →
    indent < place → k ≤ indent → Resumes k r → indent + 2 + 2 * n < lineWidth →
    Arrives s (ws ++ entryWords v ++ closers k ((indent : Int) :: σ)) (kept k ((indent : Int) :: σ))
      k r

section Lists

variable {n : Nat} {s : Lexer} {ws : List Word} {σ : List Int} {c j k : Nat} {r : Text}

/-- The items after a dash at column `c`, where a collection is open. -/
theorem reads_items {v : Json} {vs : List Json} (hv : ∀ x ∈ v :: vs, Writable n x)
    (hread : ∀ x ∈ v :: vs, ReadsItem n x)
    (h : Reaches s ws ((c : Int) :: σ) true (c + 2)
      (itemText (c + 2) v ++ (itemsText c vs ++ nextLines j k r)))
    (hk : k ≤ c) (hr : Resumes k r) (hwidth : c + 2 + 2 * n < lineWidth) :
    Arrives s (ws ++ itemWords v ++ itemsWords vs ++ closers k ((c : Int) :: σ))
      (kept k ((c : Int) :: σ)) k r := by
  induction vs generalizing s ws v with
  | nil =>
    have h1 := hread v (List.mem_cons_self ..) s ws c σ (c + 2) j k r h (by omega) (by omega) hr hwidth
    rw [itemsWords, List.append_nil]
    exact h1
  | cons w vs ih =>
    have e : itemsText c (w :: vs) ++ nextLines j k r = nextLines 0 c (.char '-' :: .char ' ' ::
        (itemText (c + 2) w ++ (itemsText c vs ++ nextLines j k r))) := by
      rw [itemsText]
      simp only [List.append_assoc]
      rfl
    rw [e] at h
    obtain ⟨s1, hlead1, h1⟩ := hread v (List.mem_cons_self ..) s ws c σ (c + 2) 0 c _ h (by omega)
      (by omega) (resumes_dash c _) hwidth
    rw [closers_cons_of_le (by omega), kept_cons_of_le (by omega), List.append_nil] at h1
    have hw := hv w (by simp)
    obtain ⟨s2, hlead2, h2⟩ := h1.dash (by omega) (resumes_item hw (c + 2) (by omega) _)
    rw [if_neg (by omega), if_neg (by omega), List.append_nil] at h2
    have h3 := ih (fun x hx => hv x (List.mem_cons_of_mem _ hx))
      (fun x hx => hread x (List.mem_cons_of_mem _ hx)) h2
    rw [itemsWords]
    simp only [List.append_assoc, List.cons_append, List.nil_append] at h3 ⊢
    exact h3.after (hlead1.trans hlead2)

/-- The entries of a mapping at column `c`, after the colon of the first key. -/
theorem reads_entries {key : Text} {v : Json} {fs : List (Text × Json)} {column place : Nat}
    (hk : ∀ f ∈ fs, IsKey f.1) (hread : ∀ f ∈ (key, v) :: fs, ReadsEntry n f.2)
    (h : Stands s ws ((c : Int) :: σ) false place (entryText c column v ++
      ((if fs.isEmpty then [] else spaces c ++ entriesText c fs) ++ nextLines j k r)))
    (hat : c < place) (hkc : k ≤ c) (hr : Resumes k r) (hwidth : c + 2 + 2 * n < lineWidth) :
    Arrives s (ws ++ entryWords v ++ entriesWords fs ++ closers k ((c : Int) :: σ))
      (kept k ((c : Int) :: σ)) k r := by
  induction fs generalizing s ws key v column place with
  | nil =>
    have h1 := hread (key, v) (List.mem_cons_self ..) s ws σ c column place j k r h hat hkc hr hwidth
    rw [entriesWords, List.append_nil]
    exact h1
  | cons f fs ih =>
    obtain ⟨key', w⟩ := f
    have hkey : IsKey key' := hk (key', w) (List.mem_cons_self ..)
    have e : (if ((key', w) :: fs).isEmpty then [] else spaces c ++ entriesText c ((key', w) :: fs)) ++
        nextLines j k r = nextLines 0 c (key' ++ .char ':' :: (entryText c (c + key'.length + 1) w ++
        ((if fs.isEmpty then [] else spaces c ++ entriesText c fs) ++ nextLines j k r))) := by
      rw [entriesText]
      simp only [stringText_key hkey, List.append_assoc, List.isEmpty_cons, Bool.false_eq_true,
        if_false]
      rfl
    rw [e] at h
    obtain ⟨s1, hlead1, h1⟩ := hread (key, v) (List.mem_cons_self ..) s ws σ c column place 0 c _ h hat
      (Nat.le_refl c) (resumes_key hkey c _) hwidth
    rw [closers_cons_of_le (by omega), kept_cons_of_le (by omega), List.append_nil] at h1
    obtain ⟨s2, hlead2, h2⟩ := h1.key hkey (isGap_entryText _ _ _ _) (by omega)
    rw [if_neg (by omega), if_neg (by omega), List.append_nil] at h2
    have h3 := ih (fun x hx => hk x (List.mem_cons_of_mem _ hx))
      (fun x hx => hread x (List.mem_cons_of_mem _ hx)) h2 (by omega)
    rw [entriesWords]
    simp only [List.append_assoc, List.cons_append, List.nil_append] at h3 ⊢
    exact h3.after (hlead1.trans hlead2)

/-- A mapping at a column where none is open. -/
theorem reads_mapping {i : Int} {fs : List (Text × Json)} (hne : fs ≠ [])
    (hk : ∀ f ∈ fs, IsKey f.1) (hread : ∀ f ∈ fs, ReadsEntry n f.2)
    (h : Reaches s ws (i :: σ) true c (entriesText c fs ++ nextLines j k r)) (hi : i < c)
    (hkc : k ≤ c) (hr : Resumes k r) (hwidth : c + 2 + 2 * n < lineWidth) :
    Arrives s (ws ++ .blockMappingStart :: (entriesWords fs ++ closers k ((c : Int) :: i :: σ)))
      (kept k ((c : Int) :: i :: σ)) k r := by
  cases fs with
  | nil => exact absurd rfl hne
  | cons f fs =>
    obtain ⟨key, v⟩ := f
    have hkey : IsKey key := hk (key, v) (List.mem_cons_self ..)
    have e : entriesText c ((key, v) :: fs) ++ nextLines j k r =
        key ++ .char ':' :: (entryText c (c + key.length + 1) v ++
        ((if fs.isEmpty then [] else spaces c ++ entriesText c fs) ++ nextLines j k r)) := by
      rw [entriesText]
      simp only [stringText_key hkey, List.append_assoc]
      rfl
    rw [e] at h
    obtain ⟨s1, hlead, h1⟩ := h.key hkey (isGap_entryText _ _ _ _) (by omega)
    rw [if_pos hi, if_pos hi] at h1
    have h2 := reads_entries (fun x hx => hk x (List.mem_cons_of_mem _ hx)) hread h1 (by omega) hkc
      hr hwidth
    rw [entriesWords]
    simp only [List.append_assoc, List.cons_append, List.nil_append] at h2 ⊢
    exact h2.after hlead

end Lists

/-! ## All values -/

/-- A line feed after the colon, with the value on the next lines. -/
theorem Stands.newLine {s : Lexer} {ws : List Word} {i : Int} {σ : List Int} {allowed : Bool}
    {col k : Nat} {r : Text} (h : Stands s ws (i :: σ) allowed col (lineEnd 0 k ++ r))
    (hi : i ≤ k) (hr : Resumes k r) : Reaches s ws (i :: σ) true k r := by
  have hq : ∀ q ∈ s.candidates, q.required = false ∧ q.start.line ≤ s.cursor.line := by
    rw [h.candidates]
    simp
  have h1 := Ends.reaches_line ⟨h.words, h.stack, h.bottom, h.depth, fun q hq' => (hq q hq').1⟩
    h.rest hr fun q hq' => (hq q hq').2
  rwa [closers_cons_of_le hi, kept_cons_of_le hi, List.append_nil] at h1

theorem readsItem_str (n : Nat) (t : Text) : ReadsItem n (.str t) := by
  intro s ws i σ col j k r h hi hk hr hwidth
  rw [itemText, List.append_assoc, lineFeed_nextLines] at h
  · exact h.string hi hi (by omega) (by omega) hk hr
  · simp
  · simp

theorem readsEntry_str (n : Nat) (t : Text) : ReadsEntry n (.str t) := by
  intro s ws σ indent column place j k r h hplace hk hr hwidth
  rw [entryText, List.append_assoc, List.append_assoc, lineFeed_nextLines] at h
  · have h1 := h.reaches_blank (by omega) (resumes_string _ _ t (by omega) _)
    exact h1.string (by omega) (by omega) (by omega) (by omega) (by omega) hr
  · simp
  · simp

theorem readsItem_nil (n : Nat) : ReadsItem n (.list []) := by
  intro s ws i σ col j k r h hi hk hr hwidth
  rw [itemText, List.append_assoc, lineFeed_nextLines] at h
  · exact h.emptyList hi hr
  · simp
  · simp

theorem readsEntry_nil (n : Nat) : ReadsEntry n (.list []) := by
  intro s ws σ indent column place j k r h hplace hk hr hwidth
  rw [entryText, List.append_assoc, List.append_assoc, lineFeed_nextLines] at h
  · have h1 := h.reaches_blank (by omega) ⟨rfl, rfl, by simp [atomText, Text.ofString, Text.ofChars],
      fun h0 => absurd h0 (by omega)⟩
    exact h1.emptyList (by omega) hr
  · simp
  · simp

section Collections

variable {n : Nat} {v : Json} {vs : List Json} {fs : List (Text × Json)}

theorem readsItem_list (hv : ∀ x ∈ v :: vs, Writable n x) (hread : ∀ x ∈ v :: vs, ReadsItem n x) :
    ReadsItem (n + 1) (.list (v :: vs)) := by
  intro s ws i σ col j k r h hi hk hr hwidth
  have e : itemText col (.list (v :: vs)) ++ nextLines j k r = .char '-' :: .char ' ' ::
      (itemText (col + 2) v ++ (itemsText col vs ++ nextLines j k r)) := by
    rw [itemText]
    simp only [List.append_assoc]
    rfl
  rw [e] at h
  have hw := hv v (List.mem_cons_self ..)
  obtain ⟨s1, hlead, h1⟩ := h.dash (by omega) (resumes_item hw (col + 2) (by omega) _)
  rw [if_pos hi, if_pos hi] at h1
  have h2 := reads_items hv hread h1 (by omega) hr (by omega)
  rw [closers_cons_of_lt (by omega), kept_cons_of_lt (by omega)] at h2
  rw [itemWords, itemsWords]
  simp only [List.append_assoc, List.cons_append, List.nil_append] at h2 ⊢
  exact h2.after hlead

theorem readsEntry_list (hv : ∀ x ∈ v :: vs, Writable n x) (hread : ∀ x ∈ v :: vs, ReadsItem n x) :
    ReadsEntry (n + 1) (.list (v :: vs)) := by
  intro s ws σ indent column place j k r h hplace hk hr hwidth
  have e : entryText indent column (.list (v :: vs)) ++ nextLines j k r =
      lineEnd 0 indent ++ (.char '-' :: .char ' ' ::
        (itemText (indent + 2) v ++ (itemsText indent vs ++ nextLines j k r))) := by
    rw [entryText, itemsText]
    simp only [List.append_assoc]
    rfl
  rw [e] at h
  have h1 := Stands.newLine h (by omega) (resumes_dash indent _)
  have hw := hv v (List.mem_cons_self ..)
  obtain ⟨s2, hlead, h2⟩ := h1.dash (by omega) (resumes_item hw (indent + 2) (by omega) _)
  rw [if_neg (by omega), if_neg (by omega), List.append_nil] at h2
  have h3 := reads_items hv hread h2 hk hr (by omega)
  rw [entryWords, itemsWords]
  simp only [List.append_assoc, List.cons_append, List.nil_append] at h3 ⊢
  exact h3.after hlead

theorem readsItem_object (hne : fs ≠ []) (hkeys : ∀ f ∈ fs, IsKey f.1)
    (hread : ∀ f ∈ fs, ReadsEntry n f.2) : ReadsItem (n + 1) (.object fs) := by
  intro s ws i σ col j k r h hi hk hr hwidth
  have e : itemText col (.object fs) = entriesText col fs := by
    cases fs with
    | nil => exact absurd rfl hne
    | cons f fs => rw [itemText]
  rw [e] at h
  have h1 := reads_mapping hne hkeys hread h hi (by omega) hr (by omega)
  rw [closers_cons_of_lt (by omega), kept_cons_of_lt (by omega)] at h1
  rw [itemWords]
  simp only [List.append_assoc, List.cons_append, List.nil_append] at h1 ⊢
  exact h1

theorem readsEntry_object (hne : fs ≠ []) (hkeys : ∀ f ∈ fs, IsKey f.1)
    (hread : ∀ f ∈ fs, ReadsEntry n f.2) : ReadsEntry (n + 1) (.object fs) := by
  intro s ws σ indent column place j k r h hplace hk hr hwidth
  have e : entryText indent column (.object fs) =
      lineEnd 0 (indent + 2) ++ entriesText (indent + 2) fs := by
    cases fs with
    | nil => exact absurd rfl hne
    | cons f fs => rw [entryText]; rfl
  rw [e, List.append_assoc] at h
  have hres : Resumes (indent + 2) (entriesText (indent + 2) fs ++ nextLines j k r) := by
    cases fs with
    | nil => exact absurd rfl hne
    | cons f fs =>
      have hkey := hkeys f (List.mem_cons_self ..)
      rw [entriesText]
      simp only [stringText_key hkey, List.append_assoc]
      exact resumes_key hkey _ _
  have h1 := Stands.newLine h (by omega) hres
  have h2 := reads_mapping hne hkeys hread h1 (by omega) (by omega) hr (by omega)
  rw [closers_cons_of_lt (by omega), kept_cons_of_lt (by omega)] at h2
  rw [entryWords]
  simp only [List.append_assoc, List.cons_append, List.nil_append] at h2 ⊢
  exact h2

end Collections

theorem reads_writable {n : Nat} {v : Json} (h : Writable n v) : ReadsItem n v ∧ ReadsEntry n v := by
  induction h with
  | str n t => exact ⟨readsItem_str n t, readsEntry_str n t⟩
  | @list n vs h ih =>
    cases vs with
    | nil => exact ⟨readsItem_nil _, readsEntry_nil _⟩
    | cons v vs =>
      exact ⟨readsItem_list h fun x hx => (ih x hx).1, readsEntry_list h fun x hx => (ih x hx).1⟩
  | object hne hk hd h ih =>
    exact ⟨readsItem_object hne hk fun f hf => (ih f hf).2,
      readsEntry_object hne hk fun f hf => (ih f hf).2⟩

/-! ## Whole texts -/

/-- A text may hold all its characters. -/
def Readable (t : Text) : Prop := ∀ c ∈ t, isReadable c = true

instance (t : Text) : Decidable (Readable t) :=
  inferInstanceAs (Decidable (∀ c ∈ t, isReadable c = true))

theorem Readable.append {a b : Text} (ha : Readable a) (hb : Readable b) : Readable (a ++ b) :=
  List.forall_mem_append.mpr ⟨ha, hb⟩

theorem readable_spaces (k : Nat) : Readable (spaces k) := by
  intro c hc
  rw [mem_spaces hc]
  decide

theorem readable_string {indent : Nat} (hpos : 0 < indent) (hwidth : indent < lineWidth)
    (column : Nat) (t : Text) : Readable (stringText false indent column t) := by
  rcases style_cases t with hs | ⟨hs, ha⟩ | hs
  · obtain ⟨-, ha, hne⟩ := plain_style hs
    rw [stringText, hs]
    exact (folded_plainText true indent (isPhrase_of_allowsPlain ha hne) column).readable
  · have hq := quoted_singleText true hpos (Between.start ha) (column + 1) false
    rw [stringText, hs]
    exact Readable.append (Readable.append (by decide) hq.readable) (by decide)
  · obtain ⟨X, hX, hq⟩ := quoted_doubleText true hpos hwidth t 0 (column + 1) []
    rw [stringText, hs]
    simp only [Bool.not_false, hX, List.nil_append]
    exact Readable.append (Readable.append (by decide) hq.readable) (by decide)

theorem readable_items {c : Nat} {vs : List Json}
    (h : ∀ v ∈ vs, Readable (itemText (c + 2) v)) : Readable (itemsText c vs) := by
  induction vs with
  | nil =>
    rw [itemsText]
    exact List.forall_mem_nil _
  | cons v vs ih =>
    rw [itemsText]
    exact Readable.append (Readable.append (Readable.append (readable_spaces c) (by decide))
      (h v (List.mem_cons_self ..))) (ih fun x hx => h x (List.mem_cons_of_mem _ hx))

theorem readable_entries {c : Nat} {fs : List (Text × Json)} (hk : ∀ f ∈ fs, IsKey f.1)
    (h : ∀ f ∈ fs, ∀ column, Readable (entryText c column f.2)) : Readable (entriesText c fs) := by
  induction fs with
  | nil =>
    rw [entriesText]
    exact List.forall_mem_nil _
  | cons f fs ih =>
    have hkey := hk f (List.mem_cons_self ..)
    have hrest := ih (fun x hx => hk x (List.mem_cons_of_mem _ hx))
      fun x hx => h x (List.mem_cons_of_mem _ hx)
    rw [entriesText]
    simp only [stringText_key hkey]
    refine Readable.append (Readable.append (Readable.append hkey.isWord.readable (by decide))
      (h f (List.mem_cons_self ..) _)) ?_
    split
    · exact List.forall_mem_nil _
    · exact Readable.append (readable_spaces c) hrest

theorem readable_writable {n : Nat} {v : Json} (h : Writable n v) :
    (∀ col, 0 < col → col + 2 * n < lineWidth → Readable (itemText col v)) ∧
      ∀ indent column, indent + 2 + 2 * n < lineWidth → Readable (entryText indent column v) := by
  induction h with
  | str n t =>
    refine ⟨fun col hpos hw => ?_, fun indent column hw => ?_⟩
    · rw [itemText]
      · exact Readable.append (readable_string hpos (by omega) col t) (by decide)
      · simp
      · simp
    · rw [entryText]
      · exact Readable.append (Readable.append (by decide)
          (readable_string (by omega) (by omega) _ t)) (by decide)
      · simp
      · simp
  | @list n vs h ih =>
    cases vs with
    | nil =>
      have hb : Readable "[]" := by decide
      refine ⟨fun col hpos hw => ?_, fun indent column hw => ?_⟩
      · rw [itemText]
        · exact Readable.append hb (by decide)
        · simp
        · simp
      · rw [entryText]
        · exact Readable.append (Readable.append (by decide) hb) (by decide)
        · simp
        · simp
    | cons v vs =>
      refine ⟨fun col hpos hw => ?_, fun indent column hw => ?_⟩
      · have hv := (ih v (List.mem_cons_self ..)).1 (col + 2) (by omega) (by omega)
        have hvs := readable_items (c := col) fun x hx =>
          (ih x (List.mem_cons_of_mem _ hx)).1 (col + 2) (by omega) (by omega)
        rw [itemText]
        exact Readable.append (Readable.append (by decide) hv) hvs
      · have hvs := readable_items (c := indent) fun x hx =>
          (ih x hx).1 (indent + 2) (by omega) (by omega)
        rw [entryText]
        exact Readable.append (by decide) hvs
  | @object n fs hne hk hd h ih =>
    cases fs with
    | nil => exact absurd rfl hne
    | cons f fs =>
      refine ⟨fun col hpos hw => ?_, fun indent column hw => ?_⟩
      · rw [itemText]
        exact readable_entries hk fun f hf column => (ih f hf).2 col column (by omega)
      · rw [entryText]
        exact Readable.append (fun c => isReadable_newLine)
          (readable_entries hk fun f hf column => (ih f hf).2 (indent + 2) column (by omega))

theorem tokens_eq_run {text : Text} (hread : Readable text)
    (hbom : text.headD endMark ≠ byteOrderMark) :
    tokens text = (Lexer.start text).run (text.length + 2) := by
  have hfind : text.find? (fun c => !isReadable c) = none := by
    rw [List.find?_eq_none]
    intro c hc
    simp [hread c hc]
  have hpeek : ¬ (Lexer.start text).cursor.peek = byteOrderMark := by
    rw [Cursor.peek_eq]
    exact hbom
  rw [tokens, hfind]
  simp only [hpeek, if_false]

theorem reaches_start {text : Text} (hr : Resumes 0 text) :
    Reaches (Lexer.start text) [] [-1] true 0 text := by
  have h : Ends (Lexer.start text) [] [-1] :=
    ⟨rfl, rfl, List.mem_singleton_self _, rfl, List.forall_mem_nil _⟩
  have h1 := h.reaches_here rfl rfl rfl hr (List.forall_mem_nil _)
  rwa [closers_cons_of_le (by omega), kept_cons_of_le (by omega), List.append_nil] at h1

theorem readable_write {n : Nat} {fs : List (Text × Json)} (h : Writable (n + 1) (.object fs))
    (hw : 2 + 2 * n < lineWidth) : Readable (write fs) := by
  cases h with
  | object hne hk hd h =>
    refine readable_entries hk fun f hf column => ?_
    exact (readable_writable (h f hf)).2 0 column (by omega)

/-- The words of a written mapping, also with empty lines after it. -/
theorem words_write {n : Nat} {fs : List (Text × Json)} (h : Writable (n + 1) (.object fs))
    (hw : 2 + 2 * n < lineWidth) (j : Nat) :
    (tokens (write fs ++ List.replicate j (.char '\n'))).map (·.word) =
      .blockMappingStart :: (entriesWords fs ++ [.blockEnd, .streamEnd]) := by
  have hwritten := readable_write h hw
  cases h with
  | object hne hk hd h =>
    have e : write fs ++ List.replicate j (.char '\n') = entriesText 0 fs ++ nextLines j 0 [] := by
      rw [nextLines, spaces, List.replicate_zero, List.append_nil, List.append_nil]
      rfl
    have hread : Readable (entriesText 0 fs ++ nextLines j 0 []) := by
      rw [← e]
      refine hwritten.append fun c hc => ?_
      rw [List.eq_of_mem_replicate hc]
      decide
    have hhead : ∃ key r, entriesText 0 fs ++ nextLines j 0 [] = key ++ r ∧ IsKey key := by
      cases fs with
      | nil => exact absurd rfl hne
      | cons f fs =>
        have hkey := hk f (List.mem_cons_self ..)
        rw [entriesText]
        simp only [stringText_key hkey, List.append_assoc]
        exact ⟨f.1, _, rfl, hkey⟩
    obtain ⟨key, r, hkr, hkey⟩ := hhead
    have hres : Resumes 0 (entriesText 0 fs ++ nextLines j 0 []) := hkr ▸ resumes_key hkey 0 r
    have hbom : (entriesText 0 fs ++ nextLines j 0 []).headD endMark ≠ byteOrderMark := by
      have hword := hkey.isWord
      rw [hkr]
      cases key with
      | nil => exact absurd rfl hword.ne_nil
      | cons ch u => exact (hword.solid ch (List.mem_cons_self ..)).2
    have hread' := fun f hf => (reads_writable (h f hf)).2
    obtain ⟨s, hlead, hreach⟩ := reads_mapping hne hk hread' (reaches_start hres) (by omega)
      (Nat.le_refl 0) ⟨rfl, rfl, by decide, fun _ => rfl⟩ (by omega)
    rw [closers_cons_of_le (by omega), kept_cons_of_le (by omega), List.append_nil] at hreach
    obtain ⟨fuel, hf, hrun⟩ := hlead ((entriesText 0 fs ++ nextLines j 0 []).length + 2)
      (Nat.le_refl _)
    rw [e, tokens_eq_run hread hbom, hrun, hreach.run_end hf]
    rfl

end Formulary.Yaml
