import Formulary.Proofs.Yaml.Breaks
import Formulary.Proofs.Yaml.Parse

/-! # Where nodes come from

Words are refused for their form, where the text breaks off, or where too many collections are open.
Else each node comes of the words: its text is a scalar among them, and its tag is written out, or
is that of its kind, or is asked for by the form of a plain scalar. Each reader is shown to keep to
this at some fuel if those that it calls do at less.

Not every collection is opened by a word: a sequence at the indentation of its parent is not, nor is
a pair in square brackets. But none of these stands right inside another, so that at least every
second collection is.
-/

namespace Formulary.Yaml
set_option autoImplicit false

/-! ## Nodes and words -/

/-- The name of a tag that is written out. It ends as the word does. -/
def IsTagName (ws : List Word) (name : Text) : Prop :=
  ∃ handle? suffix, .tag handle? suffix ∈ ws ∧ suffix <:+ name

def IsWritten (ws : List Word) (tag : Tag) : Prop := ∃ name, IsTagName ws name ∧ tag = .ofName name

/-- Some tag is written out. -/
def HasTag (ws : List Word) : Prop := ∃ name, IsTagName ws name

/-- The text of a scalar, or of nothing. -/
def IsText (ws : List Word) (t : Text) : Prop := t = [] ∨ ∃ plain, .scalar t plain ∈ ws

/-- The tags of collections. A collection is marked as text only where a tag makes it a key. -/
def IsCollectionTag (ws : List Word) (tag : Tag) : Prop :=
  tag = .seq ∨ tag = .map ∨ tag = .str ∧ HasTag ws ∨ IsWritten ws tag

/-- A node that comes of words. The form of a scalar decides if it is plain or has the open tag. -/
def Node.ComesOf (ws : List Word) : Node → Prop
  | ⟨tag, .scalar t⟩ => IsText ws t ∧ (tag = .str ∨ IsWritten ws tag ∨
      tag = .ofPlain t ∧ (t = [] ∨ .scalar t true ∈ ws ∨ IsTagName ws "!"))
  | ⟨tag, .sequence _⟩ => IsCollectionTag ws tag
  | ⟨tag, .mapping _⟩ => IsCollectionTag ws tag

theorem IsCollectionTag.sequence {ws : List Word} {tag : Tag} (h : IsCollectionTag ws tag)
    (items : List NodeId) : (⟨tag, .sequence items⟩ : Node).ComesOf ws := h

theorem IsCollectionTag.mapping {ws : List Word} {tag : Tag} (h : IsCollectionTag ws tag)
    (entries : List Entry) : (⟨tag, .mapping entries⟩ : Node).ComesOf ws := h

theorem comesOf_empty (ws : List Word) : Node.empty.ComesOf ws :=
  ⟨.inl rfl, .inr (.inr ⟨by decide, .inl rfl⟩)⟩

namespace Graph

variable {ws : List Word} {g : Graph}

def ComesOf (ws : List Word) (g : Graph) : Prop := ∀ id, (g.node id).ComesOf ws

theorem ComesOf.of_content (h : g.ComesOf ws) {id : NodeId} {c : Content} (hc : g.content id = c) :
    (⟨g.tag id, c⟩ : Node).ComesOf ws := hc ▸ h id

theorem comesOf_start (ws : List Word) : ComesOf ws .empty := by
  intro id
  rw [node_of_le (Nat.zero_le id)]
  exact comesOf_empty ws

theorem ComesOf.add (h : g.ComesOf ws) {n : Node} (hn : n.ComesOf ws) :
    (g.add n).2.ComesOf ws := by
  intro id
  rcases Nat.lt_trichotomy id g.size with hid | rfl | hid
  · rw [node_add_of_lt g n hid]
    exact h id
  · rw [node_add_self]
    exact hn
  · rw [node_of_le (by rw [size_add]; exact hid)]
    exact comesOf_empty ws

theorem ComesOf.setContent (h : g.ComesOf ws) {id : NodeId} {c : Content}
    (hc : (⟨(g.node id).tag, c⟩ : Node).ComesOf ws) : (g.setContent id c).ComesOf ws := by
  intro x
  by_cases hx : x = id
  · subst hx
    by_cases hlt : x < g.size
    · rw [node_setContent_self hlt]
      exact hc
    · have hle : (g.setContent x c).size ≤ x := by
        rw [size_setContent]
        exact Nat.not_lt.mp hlt
      rw [node_of_le hle]
      exact comesOf_empty ws
  · rw [node_setContent_ne hx]
    exact h x

end Graph

/-! ## Open collections -/

def Word.opens : Word → Bool
  | .flowSequenceStart | .flowMappingStart | .blockSequenceStart | .blockMappingStart => true
  | _ => false

def Word.closes : Word → Bool
  | .flowSequenceEnd | .flowMappingEnd | .blockEnd => true
  | _ => false

/-- So many of the collections that words open are open after them. -/
def LeaveOpen (ws : List Word) (e : Nat) : Prop := ws.countP Word.opens = ws.countP Word.closes + e

section LeaveOpen

variable {ws : List Word} {w : Word} {e : Nat}

theorem LeaveOpen.pass (h : LeaveOpen ws e) (ho : w.opens = false) (hc : w.closes = false) :
    LeaveOpen (ws ++ [w]) e := by
  simpa [LeaveOpen, List.countP_cons, ho, hc] using h

theorem LeaveOpen.opened (h : LeaveOpen ws e) (ho : w.opens = true) :
    LeaveOpen (ws ++ [w]) (e + 1) := by
  have hc : w.closes = false := by cases w <;> first | rfl | cases ho
  simp only [LeaveOpen, List.countP_append, List.countP_singleton, ho, hc] at h ⊢
  simp only [if_true, Bool.false_eq_true, if_false]
  omega

theorem LeaveOpen.closed (h : LeaveOpen ws (e + 1)) (hc : w.closes = true) :
    LeaveOpen (ws ++ [w]) e := by
  have ho : w.opens = false := by cases w <;> first | rfl | cases hc
  simp only [LeaveOpen, List.countP_append, List.countP_singleton, ho, hc] at h ⊢
  simp only [if_true, Bool.false_eq_true, if_false]
  omega

end LeaveOpen

/-! ## Reading nodes -/

/-- What the reader refuses words for, if it opens no more collections than a limit says. -/
inductive ParseFault (ws : List Word) (limit : Nat) : Fault → Prop where
  | form (p : Problem) (spot? : Option Spot) : ParseFault ws limit (.problem p spot?)
  | broken {f : Fault} (h : .broken f ∈ ws) : ParseFault ws limit f
  | nested {front rest : List Word} {e : Nat} (hw : ws = front ++ rest) (he : LeaveOpen front e)
      (hl : limit < 2 * e) : ParseFault ws limit (.tooDeep .collections)

namespace Reading

variable {ws : List Word} {limit k e e' : Nat} {s s' : Reading} {α β : Type}

/-- The reader is at the words, those before it leave so many collections open, and it has made nodes
of them so far. -/
structure Within (ws : List Word) (e : Nat) (s : Reading) : Prop where
  words : ∃ front, ws = front ++ s.words ∧ LeaveOpen front e
  graph : s.graph.ComesOf ws

/-- The collections that the reader has used up room for are at most twice those that words have
opened, and fewer by `k`. -/
def Fits (limit k e : Nat) (s : Reading) : Prop := limit + k ≤ s.room + 2 * e

theorem Fits.follows (h : Fits limit k e s) (hs : Follows s s') : Fits limit k e s' := by
  rw [Fits, hs.room]
  exact h

theorem Fits.advance (h : Fits limit k e s) : Fits limit k e s.advance := h

theorem Fits.zero (h : Fits limit k e s) : Fits limit 0 e s :=
  Nat.le_trans (Nat.add_le_add_left (Nat.zero_le k) limit) h

theorem Fits.opened (h : Fits limit k e s) : Fits limit 2 (e + 1) s.advance := by
  have hr : s.advance.room = s.room := rfl
  unfold Fits at h ⊢
  omega

/-- A reader that stays within the words and keeps all nodes, or refuses a word. -/
def Stays (ws : List Word) (limit e : Nat) (s : Reading) (x : Except Fault (α × Reading)) : Prop :=
  Ensures (ParseFault ws limit) (fun r => r.2.Within ws e ∧ Follows s r.2) x

theorem Stays.of_follows (hs : Follows s s') {x : Except Fault (α × Reading)}
    (h : Stays ws limit e s' x) : Stays ws limit e s x :=
  Ensures.mono h fun _ hq => ⟨hq.1, hs.trans hq.2⟩

theorem Stays.bind {x : Except Fault (α × Reading)} {f : α × Reading → Except Fault (β × Reading)}
    (h : Stays ws limit e s x)
    (hf : ∀ a s', s'.Within ws e → Follows s s' → Stays ws limit e' s' (f (a, s'))) :
    Stays ws limit e' s (x >>= f) :=
  Ensures.bind h fun r hr => Stays.of_follows hr.2 (hf r.1 r.2 hr.1 hr.2)

theorem stays_ok {a : α} (h : s'.Within ws e) (hs : Follows s s') :
    Stays ws limit e s (.ok (a, s')) := ⟨h, hs⟩

theorem Within.mem (h : s.Within ws e) : ∀ tk ∈ s.tokens, tk.word ∈ ws := by
  obtain ⟨front, rfl, -⟩ := h.words
  exact fun tk htk => List.mem_append_right _ (List.mem_map_of_mem htk)

theorem Within.word (h : s.Within ws e) : s.word ∈ ws ∨ s.word = .streamEnd := by
  unfold Reading.word
  split
  · rename_i tk _ ht
    exact .inl (h.mem tk (ht ▸ List.mem_cons_self ..))
  · exact .inr rfl

/-- The next word is taken. -/
theorem Within.take (h : s.Within ws e) (hne : s.word ≠ .streamEnd)
    (hw : ∀ front, LeaveOpen front e → LeaveOpen (front ++ [s.word]) e') :
    s.advance.Within ws e' := by
  obtain ⟨front, rfl, he⟩ := h.words
  refine ⟨⟨front ++ [s.word], ?_, hw front he⟩, h.graph⟩
  cases ht : s.tokens with
  | nil => exact absurd (by rw [Reading.word, ht]) hne
  | cons t ts => simp [Reading.words, Reading.word, Reading.advance, ht]

theorem Within.opened (h : s.Within ws e) (ho : s.word.opens = true) :
    s.advance.Within ws (e + 1) :=
  h.take (fun hw => by rw [hw] at ho; cases ho) fun _ he => he.opened ho

theorem Within.closed (h : s.Within ws (e + 1)) (hc : s.word.closes = true) :
    s.advance.Within ws e :=
  h.take (fun hw => by rw [hw] at hc; cases hc) fun _ he => he.closed hc

theorem Within.pass (h : s.Within ws e) (ho : s.word.opens = false) (hc : s.word.closes = false) :
    s.advance.Within ws e := by
  cases ht : s.tokens with
  | nil =>
    have hs : s.advance = s := by rw [advance, ht, List.tail_nil, ← ht]
    rw [hs]
    exact h
  | cons t ts =>
    obtain ⟨front, rfl, he⟩ := h.words
    refine ⟨⟨front ++ [s.word], ?_, he.pass ho hc⟩, h.graph⟩
    simp [Reading.words, Reading.word, Reading.advance, ht]

/-- A word that is known is passed. -/
theorem Within.pass_word (h : s.Within ws e) {w : Word} (hw : s.word = w)
    (hn : w.opens = false ∧ w.closes = false) : s.advance.Within ws e :=
  h.pass (by rw [hw]; exact hn.1) (by rw [hw]; exact hn.2)

theorem Within.add (h : s.Within ws e) (anchor? : Option Text) {n : Node} (hn : n.ComesOf ws) :
    Stays ws limit e s (.ok (s.add anchor? n)) :=
  ⟨⟨h.words, h.graph.add hn⟩, Graph.grows_add _ _, rfl⟩

theorem Within.addEmpty (h : s.Within ws e) : Stays ws limit e s (.ok s.addEmpty) :=
  h.add none (comesOf_empty ws)

theorem parseFault_refuse (h : s.Within ws e) {Q : α → Prop} :
    Ensures (ParseFault ws limit) Q (s.refuse : Except Fault α) := by
  unfold refuse
  split
  · rename_i ht
    exact .broken (h.mem _ (ht ▸ List.mem_cons_self ..))
  · exact .form _ _
  · exact .form _ _

theorem parseFault_fail (s : Reading) (p : Problem) {Q : α → Prop} :
    Ensures (ParseFault ws limit) Q (s.fail p : Except Fault α) := .form p _

theorem parseFault_look (h : s.Within ws e) :
    Ensures (ParseFault ws limit) (fun _ => True) s.look := by
  unfold look
  split
  · rename_i f hw
    rcases h.word with hmem | hend
    · exact .broken (hw ▸ hmem)
    · rw [hw] at hend
      cases hend
  · trivial

theorem parseFault_checkAnchor (s : Reading) (name? : Option Text) :
    Ensures (ParseFault ws limit) (fun _ => True) (s.checkAnchor name?) := by
  unfold checkAnchor
  split
  · trivial
  · split
    · exact parseFault_fail s _
    · trivial

theorem parseFault_resolve (s : Reading) (name : Text) :
    Ensures (ParseFault ws limit) (fun _ => True) (s.resolve name) := by
  unfold resolve
  split
  · exact parseFault_fail s _
  · trivial

/-- A collection whose parts are read within the words. Its own node comes of them before and after
its parts are put in, and its parts have the room that it leaves. -/
theorem stays_collect (h : s.Within ws e) (hf : Fits limit (k + 1) e s) (anchor? : Option Text)
    {tag : Tag} {start : Content} (hn : (⟨tag, start⟩ : Node).ComesOf ws)
    {read : Reading → Except Fault (Content × Reading)}
    (hr : ∀ s' : Reading, s'.Within ws e → Fits limit k e s' → s'.word = s.word →
      Ensures (ParseFault ws limit) (fun r =>
        (⟨tag, r.1⟩ : Node).ComesOf ws ∧ r.2.Within ws e' ∧ Follows s' r.2) (read s')) :
    Stays ws limit e' s (s.collect anchor? tag start read) := by
  unfold collect
  split
  · rename_i hroom
    obtain ⟨front, hw, he⟩ := h.words
    rw [Fits, hroom] at hf
    exact .nested hw he (by omega)
  · rename_i room hroom
    have hadd := h.graph.add hn
    have hfits : Fits limit k e { (s.add anchor? ⟨tag, start⟩).2 with room := room } := by
      unfold Fits at hf ⊢
      dsimp only
      omega
    refine Ensures.bind (hr _ ⟨h.words, hadd⟩ hfits rfl) ?_
    rintro ⟨content, s'⟩ ⟨hc, hs', hg, hroom'⟩
    -- reading the parts keeps the node that was added for the collection
    have hlt : s.graph.size < (s.graph.add ⟨tag, start⟩).2.size := by
      rw [Graph.size_add]
      exact Nat.lt_succ_self _
    have htag : (s'.graph.node s.graph.size).tag = tag := by
      have hnode : s'.graph.node s.graph.size = _ := hg.eq _ hlt
      rw [hnode]
      exact congrArg Node.tag (Graph.node_add_self s.graph ⟨tag, start⟩)
    refine ⟨⟨hs'.words, hs'.graph.setContent ?_⟩,
      ((Graph.grows_add _ _).trans hg).setContent (Nat.le_refl _) content, ?_⟩
    · show (⟨(s'.graph.node s.graph.size).tag, content⟩ : Node).ComesOf ws
      rw [htag]
      exact hc
    · show s'.room + 1 = s.room
      rw [hroom, hroom']

theorem stays_sequence (h : s.Within ws e) (hf : Fits limit (k + 1) e s) (anchor? : Option Text)
    {tag : Tag} (ht : IsCollectionTag ws tag) {read : Reading → Except Fault (List NodeId × Reading)}
    (hr : ∀ s' : Reading, s'.Within ws e → Fits limit k e s' → Stays ws limit e' s' (read s')) :
    Stays ws limit e' s (s.collect anchor? tag (.sequence []) fun s => do
      let (items, s) ← read s
      return (.sequence items, s)) :=
  stays_collect h hf anchor? (ht.sequence []) fun s' hs' hf' _ =>
    Ensures.bind (hr s' hs' hf') fun _ hq => ⟨ht.sequence _, hq⟩

theorem stays_mapping (h : s.Within ws e) (hf : Fits limit (k + 1) e s) (anchor? : Option Text)
    {tag : Tag} (ht : IsCollectionTag ws tag) {read : Reading → Except Fault (List Entry × Reading)}
    (hr : ∀ s' : Reading, s'.Within ws e → Fits limit k e s' → Stays ws limit e' s' (read s')) :
    Stays ws limit e' s (s.collect anchor? tag (.mapping []) fun s => do
      let (entries, s) ← read s
      return (.mapping entries, s)) :=
  stays_collect h hf anchor? (ht.mapping []) fun s' hs' hf' _ =>
    Ensures.bind (hr s' hs' hf') fun _ hq => ⟨ht.mapping _, hq⟩

end Reading

open Reading

section Reading

variable {ws : List Word} {limit k e : Nat} {s : Reading}

/-! ### Properties -/

/-- The tag in front of a node is among the words. -/
def Properties.Within (ws : List Word) (p : Properties) : Prop := ∀ name ∈ p.tag?, IsTagName ws name

theorem ensures_expandTag (handles : Handles) (s' : Reading) {handle? : Option Text} {suffix : Text}
    (h : .tag handle? suffix ∈ ws) :
    Ensures (ParseFault ws limit) (IsTagName ws) (expandTag handles s' handle? suffix) := by
  unfold expandTag
  split
  · exact ⟨_, suffix, h, List.suffix_refl _⟩
  · split
    · exact ⟨_, suffix, h, List.suffix_append _ _⟩
    · exact parseFault_fail s' _

theorem mem_of_word (h : s.Within ws e) {w : Word} (hw : s.word = w) (hne : w ≠ .streamEnd) :
    w ∈ ws := by
  rcases h.word with hmem | hend
  · exact hw ▸ hmem
  · exact absurd (hw.symm.trans hend) hne

theorem ensures_properties (handles : Handles) (h : s.Within ws e) :
    Ensures (ParseFault ws limit) (fun r => r.1.Within ws ∧ r.2.Within ws e ∧ Follows s r.2)
      (properties handles s) := by
  have one : ∀ {anchor? name}, IsTagName ws name → (⟨anchor?, some name⟩ : Properties).Within ws := by
    rintro anchor? name hn _ ⟨⟩
    exact hn
  have none : ∀ {anchor?}, (⟨anchor?, none⟩ : Properties).Within ws := by
    rintro anchor? _ ⟨⟩
  have first := follows_advance s
  have second := first.trans (follows_advance s.advance)
  unfold properties
  split
  · have h₁ := h.pass_word ‹_› ⟨rfl, rfl⟩
    split
    · have hmem := mem_of_word h₁ ‹_› (by simp)
      have h₂ := h₁.pass_word ‹s.advance.word = _› ⟨rfl, rfl⟩
      exact Ensures.bind (ensures_expandTag handles s hmem) fun _ hn => ⟨one hn, h₂, second⟩
    · exact ⟨none, h₁, first⟩
  · have hmem := mem_of_word h ‹_› (by simp)
    have h₁ := h.pass_word ‹_› ⟨rfl, rfl⟩
    refine Ensures.bind (parseFault_look h₁) fun _ _ => ?_
    refine Ensures.bind (ensures_expandTag handles s hmem) fun _ hn => ?_
    split
    · exact ⟨one hn, h₁.pass_word ‹_› ⟨rfl, rfl⟩, second⟩
    · exact ⟨one hn, h₁, first⟩
  · exact ⟨none, h, .refl _, rfl⟩

theorem Properties.Within.collection {p : Properties} (hp : p.Within ws) {tag : Tag}
    (ht : tag = .seq ∨ tag = .map) : IsCollectionTag ws (p.collection tag) := by
  have hdefault : IsCollectionTag ws tag := ht.imp_right .inl
  unfold Properties.collection
  split
  · split
    · exact hdefault
    · exact .inr (.inr (.inr ⟨_, hp _ ‹_›, rfl⟩))
  · exact hdefault

theorem Properties.Within.scalar {p : Properties} (hp : p.Within ws) {t : Text} {plain : Bool}
    (ht : IsText ws t) (hplain : plain = true → t = [] ∨ .scalar t true ∈ ws) :
    (⟨p.scalar t plain, .scalar t⟩ : Node).ComesOf ws := by
  refine ⟨ht, ?_⟩
  unfold Properties.scalar
  split
  · rename_i name hname
    split
    · rename_i hopen
      rw [beq_iff_eq] at hopen
      exact .inr (.inr ⟨rfl, .inr (.inr (hopen ▸ hp name hname))⟩)
    · exact .inr (.inl ⟨name, hp name hname, rfl⟩)
  · cases plain with
    | false => exact .inl rfl
    | true => exact .inr (.inr ⟨rfl, (hplain rfl).imp_right .inl⟩)

/-! ### Readers -/

theorem stays_absent {p : Properties} (hp : p.Within ws) (h : s.Within ws e) :
    Stays ws limit e s (readAbsent p s) := by
  unfold readAbsent
  split
  · exact h.add p.anchor? (hp.scalar (.inl rfl) fun _ => .inl rfl)
  · exact parseFault_refuse h

theorem stays_scalar {p : Properties} (hp : p.Within ws) {t : Text} {plain : Bool}
    (hw : s.word = .scalar t plain) (h : s.Within ws e) :
    Stays ws limit e s (.ok (s.advance.add p.anchor? ⟨p.scalar t plain, .scalar t⟩)) := by
  have hmem := mem_of_word h hw (by simp)
  refine .of_follows (follows_advance s)
    ((h.pass_word hw ⟨rfl, rfl⟩).add p.anchor? (hp.scalar (.inr ⟨plain, hmem⟩) fun he => ?_))
  exact .inr (he ▸ hmem)

/-- The readers of nodes and of their parts stay within the words at some fuel. Those that read up to
the word which closes their collection start with one more open than they end with. -/
structure Readers (ws : List Word) (limit fuel : Nat) : Prop where
  node (handles : Handles) (block indentless : Bool) {e : Nat} {s : Reading} (h : s.Within ws e)
      (hf : Fits limit indentless.toNat e s) :
    Stays ws limit e s (readNode handles block indentless fuel s)
  blockItems (handles : Handles) {e : Nat} {s : Reading} (h : s.Within ws (e + 1))
      (hf : Fits limit 1 (e + 1) s) :
    Stays ws limit e s (readBlockItems handles fuel s)
  indentless (handles : Handles) {e : Nat} {s : Reading} (h : s.Within ws e)
      (hf : Fits limit 0 e s) :
    Stays ws limit e s (readIndentless handles fuel s)
  blockEntries (handles : Handles) {e : Nat} {s : Reading} (h : s.Within ws (e + 1))
      (hf : Fits limit 1 (e + 1) s) :
    Stays ws limit e s (readBlockEntries handles fuel s)
  flowValue (handles : Handles) (close : Word) {e : Nat} {s : Reading} (h : s.Within ws e)
      (hf : Fits limit 0 e s) :
    Stays ws limit e s (readFlowValue handles close fuel s)
  flowPair (handles : Handles) (close : Word) {e : Nat} {s : Reading} (h : s.Within ws e)
      (hf : Fits limit 0 e s) (hw : s.word = .key) :
    Stays ws limit e s (readFlowPair handles close fuel s)
  flowItems (handles : Handles) (first : Bool) {e : Nat} {s : Reading} (h : s.Within ws (e + 1))
      (hf : Fits limit 1 (e + 1) s) :
    Stays ws limit e s (readFlowItems handles first fuel s)
  flowEntries (handles : Handles) (first : Bool) {e : Nat} {s : Reading} (h : s.Within ws (e + 1))
      (hf : Fits limit 1 (e + 1) s) :
    Stays ws limit e s (readFlowEntries handles first fuel s)

section Step

variable {fuel : Nat} (ih : Readers ws limit fuel) (handles : Handles)
include ih

theorem stays_node (h : s.Within ws e) (block indentless : Bool)
    (hf : Fits limit indentless.toNat e s) :
    Stays ws limit e s (readNode handles block indentless (fuel + 1) s) := by
  rw [readNode]
  split
  · exact Ensures.bind (parseFault_resolve s _) fun _ _ =>
      stays_ok (h.pass_word ‹_› ⟨rfl, rfl⟩) (follows_advance s)
  · refine Ensures.bind (ensures_properties handles h) ?_
    rintro ⟨p, s'⟩ ⟨hp, hs', hg⟩
    dsimp only at hp hs' hg
    have hseq := hp.collection (.inl rfl : Tag.seq = .seq ∨ _)
    have hmap := hp.collection (.inr rfl : Tag.map = .seq ∨ _)
    have hf' := hf.follows hg
    refine Ensures.bind (parseFault_look hs') fun _ _ => ?_
    refine Ensures.bind (parseFault_checkAnchor s' _) fun _ _ => ?_
    refine Stays.of_follows hg ?_
    dsimp only
    -- a word that opens a collection leaves room for one more inside it
    have opened : ∀ {w : Word}, s'.word = w → w.opens = true →
        s'.advance.Within ws (e + 1) ∧ Fits limit 2 (e + 1) s'.advance ∧ Follows s' s'.advance := by
      rintro w rfl ho
      exact ⟨hs'.opened ho, hf'.opened, follows_advance s'⟩
    split
    · exact stays_scalar hp ‹_› hs'
    · obtain ⟨ha, hfa, hfol⟩ := opened ‹_› rfl
      exact .of_follows hfol (stays_sequence ha hfa p.anchor? hseq fun _ => ih.flowItems handles true)
    · obtain ⟨ha, hfa, hfol⟩ := opened ‹_› rfl
      exact .of_follows hfol (stays_mapping ha hfa p.anchor? hmap fun _ => ih.flowEntries handles true)
    · split
      · rename_i hi
        subst hi
        exact stays_sequence hs' hf' p.anchor? hseq fun _ => ih.indentless handles
      · exact stays_absent hp hs'
    · split
      · obtain ⟨ha, hfa, hfol⟩ := opened ‹_› rfl
        exact .of_follows hfol (stays_sequence ha hfa p.anchor? hseq fun _ => ih.blockItems handles)
      · exact stays_absent hp hs'
    · split
      · obtain ⟨ha, hfa, hfol⟩ := opened ‹_› rfl
        exact .of_follows hfol (stays_mapping ha hfa p.anchor? hmap fun _ => ih.blockEntries handles)
      · exact stays_absent hp hs'
    · exact stays_absent hp hs'

/-- A node that may be absent before the word that follows. -/
theorem stays_part (h : s.Within ws e) (absent : Bool) (block indentless : Bool)
    (hf : Fits limit indentless.toNat e s) :
    Stays ws limit e s
      (if absent then .ok s.addEmpty else readNode handles block indentless fuel s) := by
  split
  · exact h.addEmpty
  · exact ih.node handles block indentless h hf

theorem stays_blockItems (h : s.Within ws (e + 1)) (hf : Fits limit 1 (e + 1) s) :
    Stays ws limit e s (readBlockItems handles (fuel + 1) s) := by
  rw [readBlockItems]
  split
  · have ha := h.pass_word ‹_› ⟨rfl, rfl⟩
    refine .of_follows (follows_advance s) (.bind (stays_part ih handles ha _ true false hf.zero) ?_)
    intro n s' hs' hfol
    exact (ih.blockItems handles hs' (hf.advance.follows hfol)).bind fun items s'' hs'' _ =>
      stays_ok hs'' ⟨.refl _, rfl⟩
  · exact stays_ok (h.closed (by rw [‹s.word = _›]; rfl)) (follows_advance s)
  · exact parseFault_refuse h

theorem stays_indentless (h : s.Within ws e) (hf : Fits limit 0 e s) :
    Stays ws limit e s (readIndentless handles (fuel + 1) s) := by
  rw [readIndentless]
  split
  · have ha := h.pass_word ‹_› ⟨rfl, rfl⟩
    refine .of_follows (follows_advance s) (.bind (stays_part ih handles ha _ true false hf) ?_)
    intro n s' hs' hfol
    exact (ih.indentless handles hs' (hf.advance.follows hfol)).bind fun items s'' hs'' _ =>
      stays_ok hs'' ⟨.refl _, rfl⟩
  · exact stays_ok h ⟨.refl _, rfl⟩

/-- The value of an entry: absent without its mark, and perhaps absent after it. -/
theorem stays_value (h : s.Within ws e) (absent : Word → Bool) (block indentless : Bool)
    (hf : Fits limit indentless.toNat e s) :
    Stays ws limit e s (if s.word = .value then
        if absent s.advance.word then .ok s.advance.addEmpty
        else readNode handles block indentless fuel s.advance
      else .ok s.addEmpty) := by
  split
  · have ha := h.pass_word ‹_› ⟨rfl, rfl⟩
    exact .of_follows (follows_advance s) (stays_part ih handles ha _ block indentless hf)
  · exact h.addEmpty

theorem stays_blockEntries (h : s.Within ws (e + 1)) (hf : Fits limit 1 (e + 1) s) :
    Stays ws limit e s (readBlockEntries handles (fuel + 1) s) := by
  rw [readBlockEntries]
  split
  · have ha := h.pass_word ‹_› ⟨rfl, rfl⟩
    refine .of_follows (follows_advance s) (.bind (stays_part ih handles ha _ true true hf) ?_)
    intro n s' hs' hfol
    have hf' := hf.advance.follows hfol
    refine Stays.bind (stays_value ih handles hs' absentInMapping true true hf') ?_
    intro v s'' hs'' hfol'
    exact (ih.blockEntries handles hs'' (hf'.follows hfol')).bind fun entries s₃ hs₃ _ =>
      stays_ok hs₃ ⟨.refl _, rfl⟩
  · exact stays_ok (h.closed (by rw [‹s.word = _›]; rfl)) (follows_advance s)
  · exact parseFault_refuse h

theorem stays_flowValue (h : s.Within ws e) (hf : Fits limit 0 e s) (close : Word) :
    Stays ws limit e s (readFlowValue handles close (fuel + 1) s) := by
  rw [readFlowValue]
  exact stays_value ih handles h (absentInFlow close) false false hf

theorem stays_flowPair (h : s.Within ws e) (hf : Fits limit 0 e s) (hw : s.word = .key)
    (close : Word) : Stays ws limit e s (readFlowPair handles close (fuel + 1) s) := by
  have ha := h.pass_word hw ⟨rfl, rfl⟩
  rw [readFlowPair]
  refine .of_follows (follows_advance s) (.bind (stays_part ih handles ha _ false false hf) ?_)
  intro k s' hs' hfol
  exact (ih.flowValue handles close hs' (hf.advance.follows hfol)).bind fun v s'' hs'' _ =>
    stays_ok hs'' ⟨.refl _, rfl⟩

omit ih in
/-- Between the parts of a collection in brackets stands a comma, and none in front of the first. -/
theorem within_first (h : s.Within ws e) {first : Bool}
    (hw : ¬ (!first && s.word ≠ .flowEntry) = true) :
    (if first then s else s.advance).Within ws e ∧
      Follows s (if first then s else s.advance) := by
  cases first with
  | true => exact ⟨h, .refl _, rfl⟩
  | false => exact ⟨h.pass_word (by simpa using hw) ⟨rfl, rfl⟩, follows_advance s⟩

theorem stays_flowItems (h : s.Within ws (e + 1)) (hf : Fits limit 1 (e + 1) s) (first : Bool) :
    Stays ws limit e s (readFlowItems handles first (fuel + 1) s) := by
  rw [readFlowItems]
  split
  · exact stays_ok (h.closed (by rw [‹s.word = _›]; rfl)) (follows_advance s)
  · split
    · exact parseFault_refuse h
    · obtain ⟨hs', hg⟩ := within_first h ‹_›
      dsimp only
      generalize (if first then s else s.advance) = s' at hs' hg
      have hf' := hf.follows hg
      refine .of_follows hg ?_
      split
      · rename_i hw
        have htag : IsCollectionTag ws .map := .inr (.inl rfl)
        refine .bind (e := e + 1) (stays_collect hs' hf' none (htag.mapping []) ?_)
          fun n s₃ hs₃ hfol => ?_
        · intro s₂ hs₂ hf₂ hw₂
          exact Ensures.bind (ih.flowPair handles .flowSequenceEnd hs₂ hf₂ (hw₂.trans hw))
            fun _ hq => ⟨htag.mapping _, hq⟩
        · exact (ih.flowItems handles false hs₃ (hf'.follows hfol)).bind fun items s₄ hs₄ _ =>
            stays_ok hs₄ ⟨.refl _, rfl⟩
      · split
        · exact stays_ok (hs'.closed (by rw [‹s'.word = _›]; rfl)) (follows_advance s')
        · refine (ih.node handles false false hs' hf'.zero).bind fun n s₃ hs₃ hfol => ?_
          exact (ih.flowItems handles false hs₃ (hf'.follows hfol)).bind fun items s₄ hs₄ _ =>
            stays_ok hs₄ ⟨.refl _, rfl⟩

theorem stays_flowEntries (h : s.Within ws (e + 1)) (hf : Fits limit 1 (e + 1) s) (first : Bool) :
    Stays ws limit e s (readFlowEntries handles first (fuel + 1) s) := by
  rw [readFlowEntries]
  split
  · exact stays_ok (h.closed (by rw [‹s.word = _›]; rfl)) (follows_advance s)
  · split
    · exact parseFault_refuse h
    · obtain ⟨hs', hg⟩ := within_first h ‹_›
      dsimp only
      generalize (if first then s else s.advance) = s' at hs' hg
      have hf' := hf.follows hg
      refine .of_follows hg ?_
      split
      · refine (ih.flowPair handles .flowMappingEnd hs' hf'.zero ‹_›).bind fun e s₃ hs₃ hfol => ?_
        exact (ih.flowEntries handles false hs₃ (hf'.follows hfol)).bind fun entries s₄ hs₄ _ =>
          stays_ok hs₄ ⟨.refl _, rfl⟩
      · split
        · exact stays_ok (hs'.closed (by rw [‹s'.word = _›]; rfl)) (follows_advance s')
        · refine (ih.node handles false false hs' hf'.zero).bind fun k s₃ hs₃ hfol => ?_
          obtain ⟨hs₄, hfol₄⟩ : Stays ws limit (e + 1) s₃ (.ok s₃.addEmpty) := hs₃.addEmpty
          refine .of_follows hfol₄ ?_
          exact (ih.flowEntries handles false hs₄ ((hf'.follows hfol).follows hfol₄)).bind
            fun entries s₅ hs₅ _ => stays_ok hs₅ ⟨.refl _, rfl⟩

end Step

theorem readers (ws : List Word) (limit fuel : Nat) : Readers ws limit fuel := by
  induction fuel with
  | zero =>
    constructor <;> intros <;> exact parseFault_refuse ‹_›
  | succ fuel ih =>
    exact
      { node := fun handles block indentless _ _ h hf => stays_node ih handles h block indentless hf
        blockItems := fun handles _ _ h hf => stays_blockItems ih handles h hf
        indentless := fun handles _ _ h hf => stays_indentless ih handles h hf
        blockEntries := fun handles _ _ h hf => stays_blockEntries ih handles h hf
        flowValue := fun handles close _ _ h hf => stays_flowValue ih handles h hf close
        flowPair := fun handles close _ _ h hf hw => stays_flowPair ih handles h hf hw close
        flowItems := fun handles first _ _ h hf => stays_flowItems ih handles h hf first
        flowEntries := fun handles first _ _ h hf => stays_flowEntries ih handles h hf first }

/-! ## Documents -/

theorem stays_directives (version? : Option Nat) (handles : Handles) (fuel : Nat)
    (h : s.Within ws e) : Stays ws limit e s (readDirectives version? handles fuel s) := by
  induction fuel generalizing version? handles s with
  | zero => exact parseFault_refuse h
  | succ fuel ih =>
    rw [readDirectives]
    split
    · split
      · exact parseFault_fail s _
      · split
        · exact parseFault_fail s _
        · exact .of_follows (follows_advance s) (ih _ _ (h.pass_word ‹_› ⟨rfl, rfl⟩))
    · split
      · exact parseFault_fail s _
      · exact .of_follows (follows_advance s) (ih _ _ (h.pass_word ‹_› ⟨rfl, rfl⟩))
    · exact .of_follows (follows_advance s) (ih _ _ (h.pass_word ‹_› ⟨rfl, rfl⟩))
    · exact stays_ok h ⟨.refl _, rfl⟩

theorem within_skipEnds (h : s.Within ws e) : (skipEnds s).Within ws e := by
  unfold skipEnds
  generalize ht : s.tokens = ts
  induction ts generalizing s with
  | nil => exact ⟨by simpa [Reading.words, ht] using h.words, h.graph⟩
  | cons t ts ih =>
    rw [List.dropWhile_cons]
    split
    · rename_i hw
      have hword : s.word = .documentEnd := by simpa [Reading.word, ht] using hw
      exact ih (s := s.advance) (h.pass_word hword ⟨rfl, rfl⟩) (by rw [Reading.advance, ht]; rfl)
    · exact ⟨by simpa [Reading.words, ht] using h.words, h.graph⟩

theorem ensures_end (fuel : Nat) (h : s.Within ws e) :
    Ensures (ParseFault ws limit) (fun _ => True) (readEnd fuel s) := by
  have hends := within_skipEnds h
  unfold readEnd
  dsimp only
  split
  · trivial
  · refine Ensures.bind (stays_directives none [] fuel hends) ?_
    rintro ⟨_, s'⟩ ⟨hs', _⟩
    dsimp only
    split
    · exact parseFault_fail s' _
    · exact parseFault_refuse hs'

/-- A root and the end of its document. -/
theorem ensures_root {x : Except Fault (NodeId × Reading)} (hx : Stays ws limit e s x) (fuel : Nat) :
    Ensures (ParseFault ws limit) (fun d? => ∀ d ∈ d?, d.graph.ComesOf ws) (do
      let (n, s) ← x
      readEnd fuel s
      return some (⟨s.graph, n⟩ : Document)) := by
  refine Ensures.bind hx ?_
  rintro ⟨n, s'⟩ ⟨hs', _⟩
  refine Ensures.bind (ensures_end fuel hs') fun _ _ => ?_
  intro d hd
  cases hd
  exact hs'.graph

/-- A document that is set up by directives or a start mark. -/
theorem ensures_marked (fuel : Nat) (h : s.Within ws e) (hf : Fits limit 0 e s) :
    Ensures (ParseFault ws limit) (fun d? => ∀ d ∈ d?, d.graph.ComesOf ws) (do
      let (own, s) ← readDirectives none [] fuel s
      if s.word ≠ .documentStart then s.refuse
      else
        let s := s.advance
        let (n, s) ← (if endsDocument s.word then .ok s.addEmpty
          else readNode (own ++ defaultHandles) true false fuel s :
            Except Fault (NodeId × Reading))
        readEnd fuel s
        return some (⟨s.graph, n⟩ : Document)) := by
  refine Ensures.bind (stays_directives none [] fuel h) ?_
  rintro ⟨own, s'⟩ ⟨hs', hfol⟩
  dsimp only
  split
  · exact parseFault_refuse hs'
  · have ha := hs'.pass_word (not_not.mp ‹_›) ⟨rfl, rfl⟩
    refine ensures_root (e := e) (s := s'.advance) ?_ fuel
    split
    · exact ha.addEmpty
    · exact (readers ws limit fuel).node _ true false ha (hf.follows hfol).advance

end Reading

def wordsOf (text : Text) : List Word := (tokens text).map (·.word)

theorem ensures_document (d : Depths) (text : Text) :
    Ensures (ParseFault (wordsOf text) (d.room .collections))
      (fun d? => ∀ d ∈ d?, d.graph.ComesOf (wordsOf text)) (document d text) := by
  have hstart : (Reading.start d (tokens text)).Within (wordsOf text) 0 :=
    ⟨⟨[], rfl, rfl⟩, Graph.comesOf_start _⟩
  have hfits : Fits (d.room .collections) 0 0 (Reading.start d (tokens text)) := Nat.le_refl _
  unfold document readDocument
  dsimp only
  split
  · exact fun d hd => by cases hd
  · exact ensures_marked _ hstart hfits
  · exact ensures_marked _ hstart hfits
  · exact ensures_root ((readers _ _ _).node _ true false hstart hfits) _

end Formulary.Yaml
