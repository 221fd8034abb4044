import Formulary.Proofs.Yaml.Words
import Formulary.Yaml.Document
import Mathlib.Data.List.Forall2

/-! # From the words of written data to its nodes

The nodes of a value stand in the graph from its size on. Reading goes on to add nodes and to fill
in collections that are still open, which have smaller numbers; so what spells a value goes on to
spell it.
-/

namespace Formulary.Yaml
set_option autoImplicit false

/-! ## Graphs that grow -/

namespace Graph

variable {g g' : Graph}

theorem size_add (g : Graph) (n : Node) : (g.add n).2.size = g.size + 1 := Array.size_push ..

theorem node_add_self (g : Graph) (n : Node) : (g.add n).2.node g.size = n := by
  simp [add, node, size]

theorem node_add_of_lt (g : Graph) (n : Node) {x : NodeId} (h : x < g.size) :
    (g.add n).2.node x = g.node x := by
  have h' : x < g.nodes.size := h
  simp [add, node, Array.getD, h', Array.getElem_push_lt h', Nat.lt_succ_of_lt h']

theorem size_setContent (g : Graph) (id : NodeId) (c : Content) :
    (g.setContent id c).size = g.size := Array.size_modify ..

theorem node_setContent_self {id : NodeId} (h : id < g.size) (c : Content) :
    (g.setContent id c).node id = ⟨(g.node id).tag, c⟩ := by
  have h' : id < g.nodes.size := h
  simp [setContent, node, Array.getD, h', Array.getElem_modify]

theorem node_setContent_ne {id x : NodeId} (h : x ≠ id) (c : Content) :
    (g.setContent id c).node x = g.node x := by
  by_cases hx : x < g.nodes.size
  · simp [setContent, node, Array.getD, hx, Array.getElem_modify, Ne.symm h]
  · simp [setContent, node, Array.getD, hx]

theorem node_of_le {x : NodeId} (h : g.size ≤ x) : g.node x = .empty := by
  have h' : ¬ x < g.nodes.size := Nat.not_lt.mpr h
  simp [node, Array.getD, h']

theorem lt_size_of_node {x : NodeId} (h : g.node x ≠ .empty) : x < g.size := by
  by_contra hle
  exact h (node_of_le (Nat.le_of_not_lt hle))

/-- All nodes are still there. -/
structure Grows (g g' : Graph) : Prop where
  le : g.size ≤ g'.size
  eq : ∀ x, x < g.size → g'.node x = g.node x

theorem Grows.refl (g : Graph) : Grows g g := ⟨Nat.le_refl _, fun _ _ => rfl⟩

theorem Grows.trans {g'' : Graph} (h : Grows g g') (h' : Grows g' g'') : Grows g g'' :=
  ⟨Nat.le_trans h.le h'.le,
    fun x hx => (h'.eq x (Nat.lt_of_lt_of_le hx h.le)).trans (h.eq x hx)⟩

theorem grows_add (g : Graph) (n : Node) : Grows g (g.add n).2 :=
  ⟨by rw [size_add]; omega, fun _ hx => g.node_add_of_lt n hx⟩

theorem Grows.node_eq (h : Grows g g') {x : NodeId} {n : Node} (hn : g.node x = n)
    (hne : n ≠ .empty) : g'.node x = n :=
  (h.eq x (lt_size_of_node (hn ▸ hne))).trans hn

theorem Grows.setContent (h : Grows g g') {id : NodeId} (hid : g.size ≤ id) (c : Content) :
    Grows g (g'.setContent id c) :=
  ⟨by rw [size_setContent]; exact h.le,
    fun x hx => (node_setContent_ne (Nat.ne_of_lt (Nat.lt_of_lt_of_le hx hid)) c).trans (h.eq x hx)⟩

end Graph

/-! ## What nodes spell -/

/-- The nodes from `lo` on that spell a value: strings as they are read back, keys as they are. -/
inductive Spells (g : Graph) (lo : Nat) : NodeId → Json → Prop where
  | str {id : NodeId} {t : Text} (hlo : lo ≤ id)
    (h : g.node id = ⟨.str, .scalar (Lexer.reread t)⟩) : Spells g lo id (.str t)
  | list {id : NodeId} {ids : List NodeId} {vs : List Json} (hlo : lo ≤ id)
    (h : g.node id = ⟨.seq, .sequence ids⟩) (hl : ids.length = vs.length)
    (hs : ∀ p ∈ ids.zip vs, Spells g lo p.1 p.2) : Spells g lo id (.list vs)
  | object {id : NodeId} {es : List Entry} {fs : List (Text × Json)} (hlo : lo ≤ id)
    (h : g.node id = ⟨.map, .mapping es⟩) (hl : es.length = fs.length)
    (hk : ∀ p ∈ es.zip fs, lo ≤ p.1.1 ∧ g.node p.1.1 = ⟨.str, .scalar p.2.1⟩)
    (hs : ∀ p ∈ es.zip fs, Spells g lo p.1.2 p.2.2) : Spells g lo id (.object fs)

/-- What is spelled depends on the nodes that there are from `lo` on. -/
theorem Spells.frame {g g' : Graph} {lo lo' : Nat} {id : NodeId} {v : Json}
    (h : Spells g lo id v) (hlo : lo' ≤ lo)
    (hg : ∀ x, lo ≤ x → x < g.size → g'.node x = g.node x) : Spells g' lo' id v := by
  have known : ∀ x, lo ≤ x → g.node x ≠ .empty → g'.node x = g.node x :=
    fun x hx hne => hg x hx (Graph.lt_size_of_node hne)
  induction h with
  | str hid h =>
    refine .str (Nat.le_trans hlo hid) ?_
    rw [known _ hid (by rw [h]; simp [Node.empty]), h]
  | list hid h hl hs ih =>
    refine .list (Nat.le_trans hlo hid) ?_ hl ih
    rw [known _ hid (by rw [h]; simp [Node.empty]), h]
  | object hid h hl hk hs ih =>
    refine .object (Nat.le_trans hlo hid) ?_ hl (fun p hp => ?_) ih
    · rw [known _ hid (by rw [h]; simp [Node.empty]), h]
    · obtain ⟨h1, h2⟩ := hk p hp
      refine ⟨Nat.le_trans hlo h1, ?_⟩
      rw [known _ h1 (by rw [h2]; simp [Node.empty]), h2]

theorem Spells.grow {g g' : Graph} {lo lo' : Nat} {id : NodeId} {v : Json}
    (h : Spells g lo id v) (hlo : lo' ≤ lo) (hg : Graph.Grows g g') : Spells g' lo' id v :=
  h.frame hlo fun x _ hx => hg.eq x hx

/-! ## Reading words -/

namespace Reading

def words (s : Reading) : List Word := s.tokens.map (·.word)

variable {s s' : Reading}

theorem word_of_words {w : Word} {rest : List Word} (h : s.words = w :: rest) :
    s.word = w ∧ s.advance.words = rest := by
  unfold words at h
  cases ht : s.tokens with
  | nil => simp [ht] at h
  | cons t ts =>
    rw [ht, List.map_cons, List.cons.injEq] at h
    simp [word, advance, words, ht, h.1, h.2]

/-- One state of the reader after another, in the same collection. -/
structure Follows (s s' : Reading) : Prop where
  grows : Graph.Grows s.graph s'.graph
  room : s'.room = s.room

theorem Follows.trans {s'' : Reading} (h : Follows s s') (h' : Follows s' s'') : Follows s s'' :=
  ⟨h.grows.trans h'.grows, h'.room.trans h.room⟩

theorem follows_advance (s : Reading) : Follows s s.advance := ⟨.refl _, rfl⟩

/-- The state in which the parts of a collection are read. -/
def opened (s : Reading) (tag : Tag) (start : Content) : Reading :=
  { s with graph := (s.graph.add ⟨tag, start⟩).2, room := s.room - 1 }

/-- A collection keeps its number and gets its parts; all else is as its parts left it. -/
theorem collect_opened {tag : Tag} {start content : Content}
    (read : Reading → Except Fault (Content × Reading)) (hroom : 0 < s.room)
    (h : read (s.opened tag start) = .ok (content, s')) (hf : Follows (s.opened tag start) s') :
    ∃ s'', s.collect none tag start read = .ok (s.graph.size, s'') ∧ s''.words = s'.words ∧
      Follows s s'' ∧ s''.graph.node s.graph.size = ⟨tag, content⟩ ∧
      ∀ x, s.graph.size + 1 ≤ x → s''.graph.node x = s'.graph.node x := by
  have hlt : s.graph.size < (s.opened tag start).graph.size := by
    rw [opened, Graph.size_add]
    exact Nat.lt_succ_self _
  have htag : (s'.graph.node s.graph.size).tag = tag := by
    rw [hf.grows.eq _ hlt, opened, Graph.node_add_self]
  refine ⟨{ s' with graph := s'.graph.setContent s.graph.size content, room := s'.room + 1 },
    ?_, rfl, ⟨?_, ?_⟩, ?_, fun x hx => ?_⟩
  · obtain ⟨room, hr⟩ := Nat.exists_eq_succ_of_ne_zero hroom.ne'
    have ho : s.opened tag start = { (s.add none ⟨tag, start⟩).2 with room := room } := by
      rw [opened, hr]
      rfl
    rw [collect, hr]
    show (read { (s.add none ⟨tag, start⟩).2 with room := room } >>= _) = _
    rw [← ho, h]
    rfl
  · exact ((Graph.grows_add _ _).trans hf.grows).setContent (Nat.le_refl _) content
  · show s'.room + 1 = s.room
    rw [hf.room, opened]
    exact Nat.sub_add_cancel hroom
  · rw [Graph.node_setContent_self (Nat.lt_of_lt_of_le hlt hf.grows.le), htag]
  · exact Graph.node_setContent_ne (Nat.ne_of_gt hx) content

end Reading

open Reading

/-- A value whose words are read as nodes that spell it. A sequence without a start is read only
where `indentless` allows it, up to a word that is no dash. -/
def Parses (n : Nat) (v : Json) (ws : List Word) (indentless : Bool) : Prop :=
  ∀ (handles : Handles) (fuel : Nat) (s : Reading) (rest : List Word), s.words = ws ++ rest →
    (indentless = true → rest.head? ≠ some .blockEntry) → n ≤ s.room →
    2 * ws.length + 2 ≤ fuel →
    ∃ id s', readNode handles true indentless fuel s = .ok (id, s') ∧ s'.words = rest ∧
      Follows s s' ∧ Spells s'.graph s.graph.size id v

section Nodes

variable (handles : Handles) (fuel : Nat) {s : Reading} {rest : List Word} (indentless : Bool)

theorem readNode_scalar {t : Text} {plain : Bool} (h : s.words = .scalar t plain :: rest)
    (ht : plain = true → Tag.ofPlain t = .str) :
    ∃ s', readNode handles true indentless (fuel + 1) s = .ok (s.graph.size, s') ∧
      s'.words = rest ∧ Follows s s' ∧
      s'.graph.node s.graph.size = ⟨.str, .scalar t⟩ := by
  obtain ⟨hw, hrest⟩ := word_of_words h
  have htag : Properties.scalar ⟨none, none⟩ t plain = .str := by
    cases plain with
    | true => exact ht rfl
    | false => rfl
  refine ⟨(s.advance.add none ⟨.str, .scalar t⟩).2, ?_, hrest, ⟨Graph.grows_add _ _, rfl⟩,
    Graph.node_add_self _ _⟩
  rw [readNode]
  simp only [hw, properties, look, checkAnchor, bind, Except.bind]
  rw [htag]
  rfl

/-- The content of a sequence from its items. -/
def itemsContent (x : Except Fault (List NodeId × Reading)) : Except Fault (Content × Reading) := do
  let (items, s) ← x
  return (.sequence items, s)

def entriesContent (x : Except Fault (List Entry × Reading)) : Except Fault (Content × Reading) := do
  let (entries, s) ← x
  return (.mapping entries, s)

theorem readNode_sequence (h : s.word = .blockSequenceStart) :
    readNode handles true indentless (fuel + 1) s =
      s.advance.collect none .seq (.sequence []) fun s =>
        itemsContent (readBlockItems handles fuel s) := by
  rw [readNode]
  simp only [h, properties, look, checkAnchor, bind, Except.bind]
  rfl

theorem readNode_indentless (h : s.word = .blockEntry) :
    readNode handles true true (fuel + 1) s =
      s.collect none .seq (.sequence []) fun s =>
        itemsContent (readIndentless handles fuel s) := by
  rw [readNode]
  simp only [h, properties, look, checkAnchor, bind, Except.bind]
  rfl

theorem readNode_mapping (h : s.word = .blockMappingStart) :
    readNode handles true indentless (fuel + 1) s =
      s.advance.collect none .map (.mapping []) fun s =>
        entriesContent (readBlockEntries handles fuel s) := by
  rw [readNode]
  simp only [h, properties, look, checkAnchor, bind, Except.bind]
  rfl

theorem readNode_flow (h : s.word = .flowSequenceStart) :
    readNode handles true indentless (fuel + 1) s =
      s.advance.collect none .seq (.sequence []) fun s =>
        itemsContent (readFlowItems handles true fuel s) := by
  rw [readNode]
  simp only [h, properties, look, checkAnchor, bind, Except.bind]
  rfl

end Nodes

theorem parses_str (n : Nat) (t : Text) (indentless : Bool) :
    Parses n (.str t) [Lexer.scalarWord t] indentless := by
  intro handles fuel s rest h hdash hroom hfuel
  obtain ⟨fuel, rfl⟩ : ∃ n, fuel = n + 1 := ⟨fuel - 1, by omega⟩
  have ht : decide (Style.of false t = .plain) = true → Tag.ofPlain (Lexer.reread t) = .str := by
    intro hp
    rw [decide_eq_true_eq] at hp
    rw [Lexer.reread, hp]
    exact (Lexer.plain_style hp).1
  obtain ⟨s', hread, hrest, hf, hnode⟩ := readNode_scalar handles fuel indentless h ht
  exact ⟨_, s', hread, hrest, hf, .str (Nat.le_refl _) hnode⟩

theorem parses_nil (n : Nat) (indentless : Bool) :
    Parses (n + 1) (.list []) [.flowSequenceStart, .flowSequenceEnd] indentless := by
  intro handles fuel s rest h hdash hroom hfuel
  obtain ⟨fuel, rfl⟩ : ∃ n, fuel = n + 2 := ⟨fuel - 2, by omega⟩
  obtain ⟨hw, hrest⟩ := word_of_words h
  have hrest' : (s.advance.opened .seq (.sequence [])).words = .flowSequenceEnd :: rest := hrest
  obtain ⟨hw', hend⟩ := word_of_words hrest'
  have hread : itemsContent (readFlowItems handles true (fuel + 1)
      (s.advance.opened .seq (.sequence []))) =
        .ok (.sequence [], (s.advance.opened .seq (.sequence [])).advance) := by
    rw [readFlowItems, if_pos hw']
    rfl
  obtain ⟨s', hs, hwords, hf, hnode, -⟩ := collect_opened (s := s.advance)
    (fun s => itemsContent (readFlowItems handles true (fuel + 1) s))
    (Nat.zero_lt_of_lt hroom) hread (follows_advance _)
  refine ⟨_, s', (readNode_flow handles _ indentless hw).trans hs, hwords.trans hend,
    (follows_advance s).trans hf, ?_⟩
  exact .list (Nat.le_refl _) hnode rfl (by simp)

/-! ## Items -/

theorem itemWords_front {n : Nat} {v : Json} (hv : Writable n v) : ∃ w ws, itemWords v = w :: ws ∧
    absentInSequence w = false ∧ absentInIndentless w = false := by
  cases hv with
  | str n t => exact ⟨_, _, by rw [itemWords], rfl, rfl⟩
  | @list n vs h =>
    cases vs with
    | nil => exact ⟨_, _, by rw [itemWords], rfl, rfl⟩
    | cons v vs => exact ⟨_, _, by rw [itemWords], rfl, rfl⟩
  | object hne hk hd h => exact ⟨_, _, by rw [itemWords], rfl, rfl⟩

/-- The nodes of items, in the graph of a state, from a number on. -/
def SpellAll (s : Reading) (lo : Nat) (ids : List NodeId) (vs : List Json) : Prop :=
  List.Forall₂ (Spells s.graph lo) ids vs

theorem SpellAll.cons {s s1 s2 : Reading} {id : NodeId} {ids : List NodeId} {v : Json}
    {vs : List Json} (h : Spells s1.graph s.graph.size id v) (hf : Follows s s1)
    (hf2 : Follows s1 s2) (hs : SpellAll s2 s1.graph.size ids vs) :
    SpellAll s2 s.graph.size (id :: ids) (v :: vs) :=
  List.Forall₂.cons (h.grow (Nat.le_refl _) hf2.grows)
    (hs.imp fun _ _ h' => h'.grow hf.grows.le (Graph.Grows.refl _))

section Items

variable {n : Nat} {vs : List Json} (handles : Handles)

/-- The dash and the words of one item, in front of more items. -/
theorem read_item {v : Json} (hv : Writable n v) (hp : Parses n v (itemWords v) false) (fuel : Nat)
    {s : Reading} {rest : List Word} (h : s.words = itemsWords (v :: vs) ++ rest)
    (hroom : n ≤ s.room) (hfuel : 2 * (itemWords v).length + 2 ≤ fuel) :
    s.word = .blockEntry ∧ absentInSequence s.advance.word = false ∧
      absentInIndentless s.advance.word = false ∧
      ∃ id s', readNode handles true false fuel s.advance = .ok (id, s') ∧
        s'.words = itemsWords vs ++ rest ∧ Follows s s' ∧ Spells s'.graph s.graph.size id v := by
  rw [itemsWords, List.cons_append] at h
  obtain ⟨hw, hrest⟩ := word_of_words h
  obtain ⟨w, ws, hfront, habsent, habsent'⟩ := itemWords_front hv
  have hnext : s.advance.word = w := by
    rw [hfront] at hrest
    exact (word_of_words hrest).1
  rw [List.append_assoc] at hrest
  obtain ⟨id, s', hread, hwords, hf, hspell⟩ :=
    hp handles fuel s.advance _ hrest (by simp) hroom hfuel
  exact ⟨hw, hnext ▸ habsent, hnext ▸ habsent', id, s', hread, hwords,
    (follows_advance s).trans hf, hspell⟩

theorem readBlockItems_words (hv : ∀ v ∈ vs, Writable n v)
    (hp : ∀ v ∈ vs, Parses n v (itemWords v) false) {fuel : Nat} {s : Reading} {rest : List Word}
    (h : s.words = itemsWords vs ++ .blockEnd :: rest) (hroom : n ≤ s.room)
    (hfuel : 2 * (itemsWords vs).length + 1 ≤ fuel) :
    ∃ ids s', readBlockItems handles fuel s = .ok (ids, s') ∧ s'.words = rest ∧ Follows s s' ∧
      SpellAll s' s.graph.size ids vs := by
  obtain ⟨fuel, rfl⟩ : ∃ n, fuel = n + 1 := ⟨fuel - 1, by omega⟩
  induction vs generalizing fuel s with
  | nil =>
    rw [itemsWords] at h
    obtain ⟨hw, hrest⟩ := word_of_words h
    refine ⟨[], s.advance, ?_, hrest, follows_advance s, .nil⟩
    rw [readBlockItems]
    simp only [hw]
  | cons v vs ih =>
    obtain ⟨hv0, hvs⟩ := List.forall_mem_cons.mp hv
    obtain ⟨hp0, hps⟩ := List.forall_mem_cons.mp hp
    rw [itemsWords, List.length_cons, List.length_append] at hfuel
    obtain ⟨hw, habsent, -, id, s1, hread, hwords, hf, hspell⟩ :=
      read_item handles hv0 hp0 fuel h hroom (by omega)
    obtain ⟨fuel, rfl⟩ : ∃ n, fuel = n + 1 := ⟨fuel - 1, by omega⟩
    obtain ⟨ids, s2, hread2, hwords2, hf2, hspell2⟩ :=
      ih hvs hps hwords (by rw [hf.room]; exact hroom) fuel (by omega)
    refine ⟨id :: ids, s2, ?_, hwords2, hf.trans hf2, SpellAll.cons hspell hf hf2 hspell2⟩
    rw [readBlockItems]
    simp only [hw, habsent, Bool.false_eq_true, if_false, hread, bind, Except.bind, hread2]
    rfl

theorem readIndentless_words (hv : ∀ v ∈ vs, Writable n v)
    (hp : ∀ v ∈ vs, Parses n v (itemWords v) false) {fuel : Nat} {s : Reading} {rest : List Word}
    (h : s.words = itemsWords vs ++ rest) (hdash : rest.head? ≠ some .blockEntry)
    (hroom : n ≤ s.room) (hfuel : 2 * (itemsWords vs).length + 1 ≤ fuel) :
    ∃ ids s', readIndentless handles fuel s = .ok (ids, s') ∧ s'.words = rest ∧ Follows s s' ∧
      SpellAll s' s.graph.size ids vs := by
  obtain ⟨fuel, rfl⟩ : ∃ n, fuel = n + 1 := ⟨fuel - 1, by omega⟩
  induction vs generalizing fuel s with
  | nil =>
    rw [itemsWords, List.nil_append] at h
    refine ⟨[], s, ?_, h, ⟨.refl _, rfl⟩, .nil⟩
    -- no dash follows, so the sequence ends here
    have hne : s.word ≠ .blockEntry := by
      cases rest with
      | nil =>
        have ht : s.tokens = [] := List.map_eq_nil_iff.mp h
        simp [word, ht]
      | cons w rest =>
        rw [(word_of_words h).1]
        simpa using hdash
    rw [readIndentless]
    split
    · rename_i hw
      exact absurd hw hne
    · rfl
  | cons v vs ih =>
    obtain ⟨hv0, hvs⟩ := List.forall_mem_cons.mp hv
    obtain ⟨hp0, hps⟩ := List.forall_mem_cons.mp hp
    rw [itemsWords, List.length_cons, List.length_append] at hfuel
    obtain ⟨hw, -, habsent, id, s1, hread, hwords, hf, hspell⟩ :=
      read_item handles hv0 hp0 fuel h hroom (by omega)
    obtain ⟨fuel, rfl⟩ : ∃ n, fuel = n + 1 := ⟨fuel - 1, by omega⟩
    obtain ⟨ids, s2, hread2, hwords2, hf2, hspell2⟩ :=
      ih hvs hps hwords (by rw [hf.room]; exact hroom) fuel (by omega)
    refine ⟨id :: ids, s2, ?_, hwords2, hf.trans hf2, SpellAll.cons hspell hf hf2 hspell2⟩
    rw [readIndentless]
    simp only [hw, habsent, Bool.false_eq_true, if_false, hread, bind, Except.bind, hread2]
    rfl

end Items

/-! ## Entries -/

theorem entryWords_front {n : Nat} {v : Json} (hv : Writable n v) : ∃ w ws, entryWords v = w :: ws ∧
    absentInMapping w = false := by
  cases hv with
  | str n t => exact ⟨_, _, by rw [entryWords], rfl⟩
  | @list n vs h =>
    cases vs with
    | nil => exact ⟨_, _, by rw [entryWords], rfl⟩
    | cons v vs => exact ⟨_, _, by rw [entryWords, itemsWords], rfl⟩
  | object hne hk hd h => exact ⟨_, _, by rw [entryWords], rfl⟩

/-- The nodes of a key and a value. -/
def SpellsEntry (g : Graph) (lo : Nat) (e : Entry) (f : Text × Json) : Prop :=
  lo ≤ e.1 ∧ g.node e.1 = ⟨.str, .scalar f.1⟩ ∧ Spells g lo e.2 f.2

theorem SpellsEntry.grow {g g' : Graph} {lo lo' : Nat} {e : Entry} {f : Text × Json}
    (h : SpellsEntry g lo e f) (hlo : lo' ≤ lo) (hg : Graph.Grows g g') : SpellsEntry g' lo' e f := by
  obtain ⟨h1, h2, h3⟩ := h
  exact ⟨Nat.le_trans hlo h1, hg.node_eq h2 (by simp [Node.empty]), h3.grow hlo hg⟩

section Entries

variable {n : Nat} (handles : Handles)

theorem entriesWords_front (fs : List (Text × Json)) (rest : List Word) :
    (entriesWords fs ++ .blockEnd :: rest).head? ≠ some .blockEntry := by
  cases fs with
  | nil => simp [entriesWords]
  | cons f fs => simp [entriesWords]

/-- A key is read as one scalar, up to the mark of its value. -/
theorem read_key {key : Text} (hk : Lexer.IsKey key) (fuel : Nat) {s : Reading} {rest : List Word}
    (h : s.words = .key :: .scalar key true :: .value :: rest) :
    s.word = .key ∧ absentInMapping s.advance.word = false ∧
      ∃ s', readNode handles true true (fuel + 1) s.advance = .ok (s.graph.size, s') ∧
        s'.word = .value ∧ s'.advance.words = rest ∧ Follows s s' ∧
        s'.graph.node s.graph.size = ⟨.str, .scalar key⟩ := by
  obtain ⟨hw, hrest⟩ := word_of_words h
  obtain ⟨hkw, -⟩ := word_of_words hrest
  obtain ⟨s', hread, hwords, hf, hnode⟩ := readNode_scalar handles fuel true hrest
    fun _ => (Lexer.plain_style hk.plain).1
  obtain ⟨hvw, hrest'⟩ := word_of_words hwords
  exact ⟨hw, by rw [hkw]; rfl, s', hread, hvw, hrest', (follows_advance s).trans hf, hnode⟩

/-- The value of a key, in front of more entries. -/
theorem read_value {v : Json} {fs : List (Text × Json)} (hv : Writable n v)
    (hp : Parses n v (entryWords v) true) (fuel : Nat) {s : Reading} {rest : List Word}
    (h : s.advance.words = entryWords v ++ (entriesWords fs ++ .blockEnd :: rest))
    (hroom : n ≤ s.room) (hfuel : 2 * (entryWords v).length + 2 ≤ fuel) :
    absentInMapping s.advance.word = false ∧
      ∃ id s', readNode handles true true fuel s.advance = .ok (id, s') ∧
        s'.words = entriesWords fs ++ .blockEnd :: rest ∧ Follows s s' ∧
        Spells s'.graph s.graph.size id v := by
  obtain ⟨w, ws, hfront, habsent⟩ := entryWords_front hv
  have hnext : s.advance.word = w := by
    rw [hfront] at h
    exact (word_of_words h).1
  obtain ⟨id, s', hread, hwords, hf, hspell⟩ := hp handles fuel s.advance _ h
    (fun _ => entriesWords_front fs rest) hroom hfuel
  exact ⟨hnext ▸ habsent, id, s', hread, hwords, (follows_advance s).trans hf, hspell⟩

theorem readBlockEntries_words {fs : List (Text × Json)}
    (hk : ∀ f ∈ fs, Lexer.IsKey f.1) (hv : ∀ f ∈ fs, Writable n f.2)
    (hp : ∀ f ∈ fs, Parses n f.2 (entryWords f.2) true) {fuel : Nat} {s : Reading}
    {rest : List Word} (h : s.words = entriesWords fs ++ .blockEnd :: rest)
    (hroom : n ≤ s.room) (hfuel : 2 * (entriesWords fs).length + 1 ≤ fuel) :
    ∃ es s', readBlockEntries handles fuel s = .ok (es, s') ∧ s'.words = rest ∧ Follows s s' ∧
      List.Forall₂ (SpellsEntry s'.graph s.graph.size) es fs := by
  obtain ⟨fuel, rfl⟩ : ∃ n, fuel = n + 1 := ⟨fuel - 1, by omega⟩
  induction fs generalizing fuel s with
  | nil =>
    rw [entriesWords] at h
    obtain ⟨hw, hrest⟩ := word_of_words h
    refine ⟨[], s.advance, ?_, hrest, follows_advance s, .nil⟩
    rw [readBlockEntries]
    simp only [hw]
  | cons f fs ih =>
    obtain ⟨key, v⟩ := f
    obtain ⟨hk0, hks⟩ := List.forall_mem_cons.mp hk
    obtain ⟨hv0, hvs⟩ := List.forall_mem_cons.mp hv
    obtain ⟨hp0, hps⟩ := List.forall_mem_cons.mp hp
    simp only at hk0 hv0 hp0
    rw [entriesWords] at h hfuel
    simp only [List.cons_append, List.nil_append, List.append_assoc] at h
    simp only [List.length_cons, List.length_append, List.length_nil] at hfuel
    obtain ⟨fuel, rfl⟩ : ∃ n, fuel = n + 1 := ⟨fuel - 1, by omega⟩
    obtain ⟨hw, hkw, s1, hread1, hvw, hwords1, hf1, hnode1⟩ := read_key handles hk0 fuel h
    obtain ⟨habsent, id, s2, hread2, hwords2, hf2, hspell2⟩ :=
      read_value handles hv0 hp0 (fuel + 1) hwords1 (by rw [hf1.room]; exact hroom)
        (by omega)
    obtain ⟨es, s3, hread3, hwords3, hf3, hspell3⟩ :=
      ih hks hvs hps hwords2 (by rw [hf2.room, hf1.room]; exact hroom) fuel (by omega)
    have hkey : s3.graph.node s.graph.size = ⟨.str, .scalar key⟩ :=
      (hf2.trans hf3).grows.node_eq hnode1 (by simp [Node.empty])
    refine ⟨(s.graph.size, id) :: es, s3, ?_, hwords3, hf1.trans (hf2.trans hf3),
      .cons ⟨Nat.le_refl _, hkey, hspell2.grow hf1.grows.le hf3.grows⟩
        (hspell3.imp fun _ _ h' => h'.grow (hf1.trans hf2).grows.le (.refl _))⟩
    rw [readBlockEntries]
    simp only [hw, hkw, Bool.false_eq_true, if_false, hread1, bind, Except.bind, hvw,
      if_true, habsent, hread2, hread3]
    rfl

end Entries

/-! ## Values and documents -/

theorem forall_zip {α β : Type} {R : α → β → Prop} {xs : List α} {ys : List β}
    (h : List.Forall₂ R xs ys) : ∀ p ∈ xs.zip ys, R p.1 p.2 := fun _ hp =>
  (List.forall₂_iff_zip.mp h).2 hp

section Values

variable {n : Nat} {vs : List Json} {fs : List (Text × Json)}

theorem collect_items {s s1 : Reading} {ids : List NodeId}
    (read : Reading → Except Fault (Content × Reading)) (hroom : 0 < s.room)
    (hread : read (s.opened .seq (.sequence [])) = .ok (.sequence ids, s1))
    (hf : Follows (s.opened .seq (.sequence [])) s1)
    (hspell : SpellAll s1 (s.opened .seq (.sequence [])).graph.size ids vs) :
    ∃ s', s.collect none .seq (.sequence []) read = .ok (s.graph.size, s') ∧
      s'.words = s1.words ∧ Follows s s' ∧ Spells s'.graph s.graph.size s.graph.size (.list vs) := by
  obtain ⟨s', hs, hwords, hf', hnode, hsame⟩ := collect_opened read hroom hread hf
  have hsize : (s.opened .seq (.sequence [])).graph.size = s.graph.size + 1 := Graph.size_add ..
  rw [hsize] at hspell
  refine ⟨s', hs, hwords, hf', .list (Nat.le_refl _) hnode hspell.length_eq fun p hp => ?_⟩
  exact (forall_zip hspell p hp).frame (Nat.le_succ _) fun x hx _ => hsame x hx

theorem collect_entries {s s1 : Reading} {es : List Entry}
    (read : Reading → Except Fault (Content × Reading)) (hroom : 0 < s.room)
    (hread : read (s.opened .map (.mapping [])) = .ok (.mapping es, s1))
    (hf : Follows (s.opened .map (.mapping [])) s1)
    (hspell : List.Forall₂ (SpellsEntry s1.graph (s.opened .map (.mapping [])).graph.size) es fs) :
    ∃ s', s.collect none .map (.mapping []) read = .ok (s.graph.size, s') ∧
      s'.words = s1.words ∧ Follows s s' ∧
      Spells s'.graph s.graph.size s.graph.size (.object fs) := by
  obtain ⟨s', hs, hwords, hf', hnode, hsame⟩ := collect_opened read hroom hread hf
  have hsize : (s.opened .map (.mapping [])).graph.size = s.graph.size + 1 := Graph.size_add ..
  rw [hsize] at hspell
  refine ⟨s', hs, hwords, hf', .object (Nat.le_refl _) hnode hspell.length_eq (fun p hp => ?_)
    fun p hp => ?_⟩
  · obtain ⟨h1, h2, -⟩ := forall_zip hspell p hp
    exact ⟨Nat.le_of_succ_le h1, (hsame _ h1).trans h2⟩
  · exact (forall_zip hspell p hp).2.2.frame (Nat.le_succ _) fun x hx _ => hsame x hx

theorem parses_sequence (hv : ∀ x ∈ vs, Writable n x)
    (hp : ∀ x ∈ vs, Parses n x (itemWords x) false) (indentless : Bool) :
    Parses (n + 1) (.list vs)
      (.blockSequenceStart :: (itemsWords vs ++ [.blockEnd])) indentless := by
  intro handles fuel s rest h hdash hroom hfuel
  obtain ⟨fuel, rfl⟩ : ∃ n, fuel = n + 1 := ⟨fuel - 1, by omega⟩
  simp only [List.cons_append, List.append_assoc, List.nil_append] at h
  simp only [List.length_cons, List.length_append, List.length_nil] at hfuel
  obtain ⟨hw, hrest⟩ := word_of_words h
  have hroom' : n ≤ (s.advance.opened .seq (.sequence [])).room := Nat.le_sub_of_add_le hroom
  obtain ⟨ids, s1, hread, hwords, hf, hspell⟩ := readBlockItems_words handles hv hp
    (s := s.advance.opened .seq (.sequence [])) hrest hroom' (by omega : _ ≤ fuel)
  obtain ⟨s', hs, hwords', hf', hspell'⟩ := collect_items (s := s.advance)
    (fun s => itemsContent (readBlockItems handles fuel s)) (Nat.zero_lt_of_lt hroom)
    (by rw [hread]; rfl) hf hspell
  exact ⟨_, s', (readNode_sequence handles fuel indentless hw).trans hs, hwords'.trans hwords,
    (follows_advance s).trans hf', hspell'⟩

theorem parses_indentless {v : Json} (hv : ∀ x ∈ v :: vs, Writable n x)
    (hp : ∀ x ∈ v :: vs, Parses n x (itemWords x) false) :
    Parses (n + 1) (.list (v :: vs)) (itemsWords (v :: vs)) true := by
  intro handles fuel s rest h hdash hroom hfuel
  obtain ⟨fuel, rfl⟩ : ∃ n, fuel = n + 1 := ⟨fuel - 1, by omega⟩
  have hw : s.word = .blockEntry := by
    rw [itemsWords] at h
    exact (word_of_words h).1
  have hroom' : n ≤ (s.opened .seq (.sequence [])).room := Nat.le_sub_of_add_le hroom
  obtain ⟨ids, s1, hread, hwords, hf, hspell⟩ := readIndentless_words handles hv hp
    (s := s.opened .seq (.sequence [])) h (hdash rfl) hroom' (by omega : _ ≤ fuel)
  obtain ⟨s', hs, hwords', hf', hspell'⟩ := collect_items
    (fun s => itemsContent (readIndentless handles fuel s)) (Nat.zero_lt_of_lt hroom)
    (by rw [hread]; rfl) hf hspell
  exact ⟨_, s', (readNode_indentless handles fuel hw).trans hs, hwords'.trans hwords, hf', hspell'⟩

theorem parses_mapping (hk : ∀ f ∈ fs, Lexer.IsKey f.1) (hv : ∀ f ∈ fs, Writable n f.2)
    (hp : ∀ f ∈ fs, Parses n f.2 (entryWords f.2) true) (indentless : Bool) :
    Parses (n + 1) (.object fs)
      (.blockMappingStart :: (entriesWords fs ++ [.blockEnd])) indentless := by
  intro handles fuel s rest h hdash hroom hfuel
  obtain ⟨fuel, rfl⟩ : ∃ n, fuel = n + 1 := ⟨fuel - 1, by omega⟩
  simp only [List.cons_append, List.append_assoc, List.nil_append] at h
  simp only [List.length_cons, List.length_append, List.length_nil] at hfuel
  obtain ⟨hw, hrest⟩ := word_of_words h
  have hroom' : n ≤ (s.advance.opened .map (.mapping [])).room := Nat.le_sub_of_add_le hroom
  obtain ⟨es, s1, hread, hwords, hf, hspell⟩ := readBlockEntries_words handles hk hv hp
    (s := s.advance.opened .map (.mapping [])) hrest hroom' (by omega : _ ≤ fuel)
  obtain ⟨s', hs, hwords', hf', hspell'⟩ := collect_entries (s := s.advance)
    (fun s => entriesContent (readBlockEntries handles fuel s))
    (Nat.zero_lt_of_lt hroom) (by rw [hread]; rfl) hf hspell
  exact ⟨_, s', (readNode_mapping handles fuel indentless hw).trans hs, hwords'.trans hwords,
    (follows_advance s).trans hf', hspell'⟩

end Values

theorem parses_writable {n : Nat} {v : Json} (h : Writable n v) :
    Parses n v (itemWords v) false ∧ Parses n v (entryWords v) true := by
  induction h with
  | str n t =>
    rw [itemWords, entryWords]
    exact ⟨parses_str n t false, parses_str n t true⟩
  | @list n vs h ih =>
    cases vs with
    | nil =>
      rw [itemWords, entryWords]
      exact ⟨parses_nil _ false, parses_nil _ true⟩
    | cons v vs =>
      rw [itemWords, entryWords]
      exact ⟨parses_sequence h (fun x hx => (ih x hx).1) false,
        parses_indentless h fun x hx => (ih x hx).1⟩
  | object hne hk hd h ih =>
    rw [itemWords, entryWords]
    exact ⟨parses_mapping hk h (fun f hf => (ih f hf).2) false,
      parses_mapping hk h (fun f hf => (ih f hf).2) true⟩

theorem skipEnds_eq {s : Reading} (h : s.word = .streamEnd) : skipEnds s = s := by
  have hdrop : s.tokens.dropWhile (·.word = .documentEnd) = s.tokens := by
    cases ht : s.tokens with
    | nil => rfl
    | cons t ts =>
      have hne : t.word = .streamEnd := by simpa [word, ht] using h
      simp [hne]
  rw [skipEnds, hdrop]

/-- The document of a written mapping, also with empty lines after it. -/
theorem document_write {d : Depths} {n : Nat} {fs : List (Text × Json)}
    (h : Writable (n + 1) (.object fs)) (hw : 2 + 2 * n < lineWidth)
    (hroom : n + 1 ≤ d.room .collections) (j : Nat) :
    ∃ g id, document d (write fs ++ List.replicate j (.char '\n')) = .ok (some ⟨g, id⟩) ∧
      Spells g 0 id (.object fs) := by
  have hwords := words_write h hw j
  rw [document]
  generalize tokens (write fs ++ List.replicate j (.char '\n')) = ts at hwords
  have hstart : (Reading.start d ts).words = itemWords (.object fs) ++ [.streamEnd] := by
    rw [itemWords]
    simp only [List.cons_append, List.append_assoc, List.nil_append]
    exact hwords
  have hlen : (itemWords (.object fs)).length + 1 = ts.length := by
    have e := congrArg List.length hstart
    rw [Reading.words, List.length_map, List.length_append] at e
    exact e.symm
  obtain ⟨id, s, hread, hrest, hf, hspell⟩ := (parses_writable h).1 defaultHandles
    (4 * ts.length + 4) (Reading.start d ts) _ hstart (by simp) hroom (by omega)
  have hfirst : (Reading.start d ts).word = .blockMappingStart :=
    (word_of_words (s := Reading.start d ts) hwords).1
  have hend : readEnd (4 * ts.length + 4) s = .ok () := by
    obtain ⟨hlast, -⟩ := word_of_words hrest
    rw [readEnd, skipEnds_eq hlast]
    simp only [hlast, if_true]
    rfl
  refine ⟨s.graph, id, ?_, hspell⟩
  rw [readDocument]
  simp only [hfirst, hread, bind, Except.bind, hend]
  rfl

end Formulary.Yaml
