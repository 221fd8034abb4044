import Formulary.Service
import Mathlib.Data.List.TakeWhile
import Mathlib.Tactic.NthRewrite

/-! # What can be sent

A response is sent as UTF-8, which has no bytes for a surrogate. A detail is written as a whole and
cannot hold a number that is not finite either; a document is written text by text. So a response
can be sent exactly if no text inside it holds a surrogate and, for a detail, every number is finite.
-/

namespace Formulary
set_option autoImplicit false

/-! ## Texts -/

namespace Text

/-- UTF-8 has bytes for every code point. -/
def Sendable (t : Text) : Prop := ∀ c ∈ t, c.isSurrogate = false

@[simp]
theorem sendable_cons (c : CodePoint) (t : Text) :
    Sendable (c :: t) ↔ c.isSurrogate = false ∧ Sendable t :=
  List.forall_mem_cons

@[simp]
theorem sendable_append (s t : Text) : Sendable (s ++ t) ↔ Sendable s ∧ Sendable t :=
  List.forall_mem_append

theorem sendable_ofChars (cs : List Char) : Sendable (ofChars cs) := by
  intro c hc
  obtain ⟨ch, -, rfl⟩ := List.mem_map.mp hc
  rfl

@[simp]
theorem sendable_ofString (s : String) : Sendable (s : Text) := sendable_ofChars s.toList

theorem sendable_ofInt (i : Int) : Sendable (ofInt i) := by
  unfold ofInt
  split
  · exact (sendable_cons _ _).mpr ⟨rfl, sendable_ofChars _⟩
  · exact sendable_ofChars _

theorem Utf8.surrogateFault?_eq_none (t : Text) : surrogateFault? t = none ↔ Sendable t := by
  have hdrop : t.drop (t.takeWhile fun c => !c.isSurrogate).length =
      t.dropWhile fun c => !c.isSurrogate := by
    nth_rewrite 2 [← List.takeWhile_append_dropWhile (p := fun c => !c.isSurrogate) (l := t)]
    exact List.drop_left
  have hnone : surrogateFault? t = none ↔ t.dropWhile (fun c => !c.isSurrogate) = [] := by
    unfold surrogateFault? faultBy?
    dsimp only
    rw [hdrop]
    split <;> simp_all
  rw [hnone, List.dropWhile_eq_nil_iff]
  simp [Sendable]

end Text

namespace DecimalStyle
open Text

theorem sendable_layout (style : DecimalStyle) (cs : List Char) (power : Int) :
    Sendable (style.layout cs power) := by
  unfold layout
  split
  · split
    · exact (sendable_append _ _).mpr ⟨sendable_ofString _, sendable_ofChars _⟩
    · dsimp only
      rw [sendable_append, sendable_append]
      exact ⟨⟨sendable_ofChars _, sendable_ofString _⟩, sendable_ofChars _⟩
  · dsimp only
    rw [sendable_append, sendable_append, sendable_append]
    refine ⟨⟨⟨sendable_ofChars _, sendable_ofString _⟩, ?_⟩, sendable_ofChars _⟩
    split <;> exact sendable_ofString _

theorem sendable_text {style : DecimalStyle} (hn : Sendable style.nan)
    (hi : Sendable style.infinity) (x : Binary64) : Sendable (style.text x) := by
  cases x with
  | nan => exact hn
  | infinite negative => exact (sendable_append _ _).mpr ⟨sendable_ofString _, hi⟩
  | finite negative m e =>
    refine (sendable_append _ _).mpr ⟨sendable_ofString _, ?_⟩
    split <;> exact sendable_layout style _ _

end DecimalStyle

/-! ## Plain data -/

namespace Json
open Text

/-- Every text inside can be sent. -/
def Sendable (v : Json) : Prop := ∀ t ∈ v.texts, Text.Sendable t

theorem sendable_escaped (c : CodePoint) :
    Text.Sendable (escaped c) ↔ c.isSurrogate = false := by
  cases c with
  | surrogate k =>
    have hlarge : ¬ (CodePoint.surrogate k).toNat < 0x20 := by
      simp only [CodePoint.toNat]
      omega
    simp [escaped, hlarge, Text.Sendable]
  | char ch =>
    refine iff_of_true ?_ rfl
    unfold escaped
    -- seven characters have a short escape
    iterate 7
      split
      · exact sendable_ofChars [_, _]
    split
    · exact (sendable_append _ _).mpr ⟨sendable_ofChars _, sendable_ofChars _⟩
    · exact sendable_ofChars [ch]

theorem sendable_quotedString (t : Text) :
    Text.Sendable (quotedString t) ↔ Text.Sendable t := by
  have hquote : Text.Sendable ("\"" : Text) := sendable_ofString _
  unfold quotedString
  rw [sendable_append, sendable_append]
  constructor
  · rintro ⟨⟨-, h⟩, -⟩ c hc
    exact (sendable_escaped c).mp fun x hx => h x (List.mem_flatMap.mpr ⟨c, hc, hx⟩)
  · intro h
    refine ⟨⟨hquote, fun x hx => ?_⟩, hquote⟩
    obtain ⟨c, hc, hx⟩ := List.mem_flatMap.mp hx
    exact (sendable_escaped c).mpr (h c hc) x hx

@[simp]
theorem sendable_null : Json.null.Sendable := List.forall_mem_nil _

@[simp]
theorem sendable_bool (b : Bool) : (Json.bool b).Sendable := List.forall_mem_nil _

@[simp]
theorem sendable_int (i : Int) : (Json.int i).Sendable := List.forall_mem_nil _

@[simp]
theorem sendable_str (t : Text) : (Json.str t).Sendable ↔ Text.Sendable t := by
  simp [Sendable, texts]

theorem mem_textsOfItems (items : List Json) (t : Text) :
    t ∈ textsOfItems items ↔ ∃ v ∈ items, t ∈ v.texts := by
  induction items with
  | nil => simp [textsOfItems]
  | cons v items ih => simp [textsOfItems, ih]

theorem mem_textsOfFields (fields : List (Text × Json)) (t : Text) :
    t ∈ textsOfFields fields ↔ ∃ f ∈ fields, t = f.1 ∨ t ∈ f.2.texts := by
  induction fields with
  | nil => simp [textsOfFields]
  | cons f fields ih => simp [textsOfFields, ih, or_assoc]

@[simp]
theorem sendable_list (items : List Json) :
    (Json.list items).Sendable ↔ ∀ v ∈ items, v.Sendable := by
  simp only [Sendable, texts, mem_textsOfItems]
  constructor
  · intro h v hv t ht
    exact h t ⟨v, hv, ht⟩
  · rintro h t ⟨v, hv, ht⟩
    exact h v hv t ht

@[simp]
theorem sendable_object (fields : List (Text × Json)) :
    (Json.object fields).Sendable ↔ ∀ f ∈ fields, Text.Sendable f.1 ∧ f.2.Sendable := by
  simp only [Sendable, texts, mem_textsOfFields]
  constructor
  · intro h f hf
    exact ⟨h f.1 ⟨f, hf, .inl rfl⟩, fun t ht => h t ⟨f, hf, .inr ht⟩⟩
  · rintro h t ⟨f, hf, rfl | ht⟩
    · exact (h f hf).1
    · exact (h f hf).2 t ht

mutual

/-- The text of a value on one line can be sent exactly if the value can. -/
theorem sendable_compact : ∀ v : Json, Text.Sendable v.compact ↔ v.Sendable
  | .null => iff_of_true (sendable_ofString _) (List.forall_mem_nil _)
  | .bool true => iff_of_true (sendable_ofString _) (List.forall_mem_nil _)
  | .bool false => iff_of_true (sendable_ofString _) (List.forall_mem_nil _)
  | .int i => iff_of_true (sendable_ofInt i) (List.forall_mem_nil _)
  | .float x =>
    iff_of_true (DecimalStyle.sendable_text (sendable_ofString _) (sendable_ofString _) x)
      (List.forall_mem_nil _)
  | .str t => by
    rw [sendable_str]
    exact sendable_quotedString t
  | .list [] => iff_of_true (sendable_ofString _) (List.forall_mem_nil _)
  | .list (v :: rest) => by
    rw [compact, sendable_cons, sendable_append, sendable_compact v, sendable_compactItems rest,
      sendable_list, List.forall_mem_cons]
    exact and_iff_right rfl
  | .object [] => iff_of_true (sendable_ofString _) (List.forall_mem_nil _)
  | .object ((k, v) :: rest) => by
    rw [compact, sendable_cons, sendable_append, sendable_append, sendable_append,
      sendable_quotedString, sendable_compact v, sendable_compactFields rest, sendable_object,
      List.forall_mem_cons]
    simp only [sendable_ofString, and_true]
    exact and_iff_right rfl

theorem sendable_compactItems :
    ∀ items : List Json, Text.Sendable (compactItems items) ↔ ∀ v ∈ items, v.Sendable
  | [] => iff_of_true (sendable_ofString _) (List.forall_mem_nil _)
  | v :: rest => by
    rw [compactItems, sendable_cons, sendable_append, sendable_compact v,
      sendable_compactItems rest, List.forall_mem_cons]
    exact and_iff_right rfl

theorem sendable_compactFields : ∀ fields : List (Text × Json),
    Text.Sendable (compactFields fields) ↔ ∀ f ∈ fields, Text.Sendable f.1 ∧ f.2.Sendable
  | [] => iff_of_true (sendable_ofString _) (List.forall_mem_nil _)
  | (k, v) :: rest => by
    rw [compactFields, sendable_cons, sendable_append, sendable_append, sendable_append,
      sendable_quotedString, sendable_compact v, sendable_compactFields rest,
      List.forall_mem_cons]
    simp only [sendable_ofString, and_true]
    exact and_iff_right rfl

end

theorem sendable_lineBreak (level : Nat) : Text.Sendable (lineBreak level) := by
  intro c hc
  rcases List.mem_cons.mp hc with rfl | hc
  · rfl
  · rw [List.eq_of_mem_replicate hc]
    rfl

mutual

/-- The text of a value over several lines can be sent exactly if the value can. -/
theorem sendable_prettyAt : ∀ (v : Json) (level : Nat), Text.Sendable (prettyAt level v) ↔ v.Sendable
  | .null, _ => iff_of_true (sendable_ofString _) (List.forall_mem_nil _)
  | .bool true, _ => iff_of_true (sendable_ofString _) (List.forall_mem_nil _)
  | .bool false, _ => iff_of_true (sendable_ofString _) (List.forall_mem_nil _)
  | .int i, _ => iff_of_true (sendable_ofInt i) (List.forall_mem_nil _)
  | .float x, _ =>
    iff_of_true (DecimalStyle.sendable_text (sendable_ofString _) (sendable_ofString _) x)
      (List.forall_mem_nil _)
  | .str t, _ => by
    rw [sendable_str]
    exact sendable_quotedString t
  | .list [], _ => iff_of_true (sendable_ofString _) (List.forall_mem_nil _)
  | .list (v :: rest), level => by
    rw [prettyAt, sendable_cons, sendable_append, sendable_append, sendable_prettyAt v (level + 1),
      sendable_prettyItems rest level, sendable_list, List.forall_mem_cons]
    simp only [sendable_lineBreak, true_and]
    exact and_iff_right rfl
  | .object [], _ => iff_of_true (sendable_ofString _) (List.forall_mem_nil _)
  | .object ((k, v) :: rest), level => by
    rw [prettyAt, sendable_cons, sendable_append, sendable_append, sendable_append, sendable_append,
      sendable_quotedString, sendable_prettyAt v (level + 1), sendable_prettyFields rest level,
      sendable_object, List.forall_mem_cons]
    simp only [sendable_lineBreak, sendable_ofString, true_and, and_true]
    exact and_iff_right rfl

theorem sendable_prettyItems : ∀ (items : List Json) (level : Nat),
    Text.Sendable (prettyItems level items) ↔ ∀ v ∈ items, v.Sendable
  | [], level => iff_of_true
      ((sendable_append _ _).mpr ⟨sendable_lineBreak level, sendable_ofString _⟩) (List.forall_mem_nil _)
  | v :: rest, level => by
    rw [prettyItems, sendable_cons, sendable_append, sendable_append, sendable_prettyAt v (level + 1),
      sendable_prettyItems rest level, List.forall_mem_cons]
    simp only [sendable_lineBreak, true_and]
    exact and_iff_right rfl

theorem sendable_prettyFields : ∀ (fields : List (Text × Json)) (level : Nat),
    Text.Sendable (prettyFields level fields) ↔ ∀ f ∈ fields, Text.Sendable f.1 ∧ f.2.Sendable
  | [], level => iff_of_true
      ((sendable_append _ _).mpr ⟨sendable_lineBreak level, sendable_ofString _⟩) (List.forall_mem_nil _)
  | (k, v) :: rest, level => by
    rw [prettyFields, sendable_cons, sendable_append, sendable_append, sendable_append,
      sendable_append, sendable_quotedString, sendable_prettyAt v (level + 1),
      sendable_prettyFields rest level, List.forall_mem_cons]
    simp only [sendable_lineBreak, sendable_ofString, true_and, and_true]
    exact and_iff_right rfl

end

theorem sendable_pretty (v : Json) : Text.Sendable v.pretty ↔ v.Sendable := sendable_prettyAt v 0

end Json

/-! ## Values that can be sent back -/

namespace Json

theorem depthOfItems_le {items : List Json} {n : Nat} :
    depthOfItems items ≤ n ↔ ∀ v ∈ items, v.depth ≤ n := by
  induction items with
  | nil => simp [depthOfItems]
  | cons v items ih => rw [depthOfItems, Nat.max_le, ih, List.forall_mem_cons]

theorem depthOfFields_le {fields : List (Text × Json)} {n : Nat} :
    depthOfFields fields ≤ n ↔ ∀ f ∈ fields, f.2.depth ≤ n := by
  induction fields with
  | nil => simp [depthOfFields]
  | cons f fields ih => rw [depthOfFields, Nat.max_le, ih, List.forall_mem_cons]

theorem allFiniteItems_iff {items : List Json} :
    allFiniteItems items = true ↔ ∀ v ∈ items, v.allFinite = true := by
  induction items with
  | nil => simp [allFiniteItems]
  | cons v items ih => rw [allFiniteItems, Bool.and_eq_true, ih, List.forall_mem_cons]

theorem allFiniteFields_iff {fields : List (Text × Json)} :
    allFiniteFields fields = true ↔ ∀ f ∈ fields, f.2.allFinite = true := by
  induction fields with
  | nil => simp [allFiniteFields]
  | cons f fields ih => rw [allFiniteFields, Bool.and_eq_true, ih, List.forall_mem_cons]

/-- A value can be sent back where there is room for so many lists and objects. -/
structure Echoable (room : Nat) (v : Json) : Prop where
  shallow : v.depth ≤ room
  finite : v.allFinite = true
  sendable : v.Sendable

section Echoable

variable {room : Nat} {items : List Json} {fields : List (Text × Json)}

theorem echoable_str {t : Text} (h : Text.Sendable t) : (Json.str t).Echoable room :=
  ⟨Nat.zero_le _, rfl, (sendable_str t).mpr h⟩

theorem echoable_list (h : ∀ v ∈ items, v.Echoable room) : (Json.list items).Echoable (room + 1) where
  shallow := Nat.succ_le_succ (depthOfItems_le.mpr fun v hv => (h v hv).shallow)
  finite := allFiniteItems_iff.mpr fun v hv => (h v hv).finite
  sendable := (sendable_list items).mpr fun v hv => (h v hv).sendable

theorem echoable_object (h : ∀ f ∈ fields, Text.Sendable f.1 ∧ f.2.Echoable room) :
    (Json.object fields).Echoable (room + 1) where
  shallow := Nat.succ_le_succ (depthOfFields_le.mpr fun f hf => (h f hf).2.shallow)
  finite := allFiniteFields_iff.mpr fun f hf => (h f hf).2.finite
  sendable := (sendable_object fields).mpr fun f hf => ⟨(h f hf).1, (h f hf).2.sendable⟩

/-- What a field holds can be sent back if the object can. -/
theorem Echoable.field {name : Text} {v : Json} (h : (Json.object fields).Echoable room)
    (hv : field? fields name = some v) : v.Echoable room := by
  have hmem : (name, v) ∈ fields := by
    obtain ⟨front, rest, rfl, -⟩ := List.lookup_eq_some_iff.mp hv
    simp
  exact ⟨depthOfFields_le.mp (Nat.le_of_succ_le h.shallow) _ hmem,
    allFiniteFields_iff.mp h.finite _ hmem, ((sendable_object fields).mp h.sendable _ hmem).2⟩

end Echoable

end Json

/-! ## Responses -/

namespace Response

theorem surrogateFault?_detail (d : Json) :
    Text.Utf8.surrogateFault? (Json.object [("detail", d)]).compact = none ↔ d.Sendable := by
  rw [Text.Utf8.surrogateFault?_eq_none, Json.sendable_compact, Json.sendable_object,
    List.forall_mem_singleton]
  exact and_iff_right (Text.sendable_ofString _)

section Detail

variable (status : Nat) {d : Json}

variable (hd : d.allFinite = true)
include hd

theorem detail_finite : detail status d =
    (Text.Utf8.surrogateFault? (Json.object [("detail", d)]).compact).elim
      (.ok ⟨status, .object [("detail", d)]⟩) fun f => .error (.detailNotText f) := by
  have hfinite : (Json.object [("detail", d)]).allFinite = true := by
    simp only [Json.allFinite, Json.allFiniteFields, hd, Bool.and_self]
  unfold detail
  simp only [hfinite, Bool.not_true, Bool.false_eq_true, if_false]
  cases Text.Utf8.surrogateFault? (Json.object [("detail", d)]).compact <;> rfl

theorem detail_ok (hs : d.Sendable) :
    detail status d = .ok ⟨status, .object [("detail", d)]⟩ := by
  rw [detail_finite status hd, (surrogateFault?_detail d).mpr hs]
  rfl

theorem detail_error (hs : ¬ d.Sendable) : ∃ f, detail status d = .error (.detailNotText f) := by
  obtain ⟨f, hf⟩ := Option.ne_none_iff_exists'.mp (mt (surrogateFault?_detail d).mp hs)
  refine ⟨f, ?_⟩
  rw [detail_finite status hd, hf]
  rfl

omit hd in
theorem detail_eq_ok {x : Response} (h : detail status d = .ok x) :
    x = ⟨status, .object [("detail", d)]⟩ := by
  unfold detail at h
  dsimp only at h
  split at h
  · cases h
  · split at h
    · cases h
    · cases h
      rfl

end Detail

section Document

variable {d : Json}

theorem surrogateFault?_texts :
    d.texts.findSome? Text.Utf8.surrogateFault? = none ↔ d.Sendable := by
  simp only [List.findSome?_eq_none_iff, Text.Utf8.surrogateFault?_eq_none, Json.Sendable]

theorem document_ok (hs : d.Sendable) : document d = .ok ⟨200, d⟩ := by
  simp only [document, surrogateFault?_texts.mpr hs]

theorem document_error (hs : ¬ d.Sendable) : ∃ f, document d = .error (.documentNotText f) := by
  obtain ⟨f, hf⟩ := Option.ne_none_iff_exists'.mp (mt surrogateFault?_texts.mp hs)
  refine ⟨f, ?_⟩
  simp only [document, hf]

theorem document_eq_ok {x : Response} (h : document d = .ok x) : x = ⟨200, d⟩ := by
  unfold document at h
  split at h
  · cases h
  · cases h
    rfl

end Document

end Response

end Formulary
