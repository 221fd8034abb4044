import Formulary.Proofs.Yaml.Parse
import Formulary.Yaml.Building
import Mathlib.Data.List.Nodup

/-! # Building the value of plain nodes

A node that is begun is complete, or it waits to be filled. A round of filling leaves nothing
waiting unless it has begun a node, so there are no more rounds than nodes; and then all nodes that
were begun are complete, with their parts begun.
-/

namespace Formulary.Yaml
set_option autoImplicit false

/-! ## Plain nodes -/

/-- A node that is a text, a sequence, or a mapping whose keys are different texts, with its parts
in a set. -/
inductive PlainNode (g : Graph) (S : NodeId → Prop) (id : NodeId) : Prop where
  | text (t : Text) (h : g.node id = ⟨.str, .scalar t⟩)
  | sequence (ids : List NodeId) (h : g.node id = ⟨.seq, .sequence ids⟩) (hs : ∀ x ∈ ids, S x)
  | mapping (es : List Entry) (h : g.node id = ⟨.map, .mapping es⟩)
    (hk : ∀ e ∈ es, ∃ t, g.node e.1 = ⟨.str, .scalar t⟩) (hs : ∀ e ∈ es, S e.1 ∧ S e.2)
    (hd : (es.map fun e => g.node e.1).Nodup)

/-- A set of plain nodes with all their parts. -/
def PlainSet (g : Graph) (S : NodeId → Prop) : Prop := ∀ id, S id → PlainNode g S id

namespace Graph

/-- The datum of a plain node when it is complete. -/
def fullDatum (g : Graph) (id : NodeId) : Datum :=
  match g.content id with
  | .scalar t => .atom (.str t)
  | .sequence ids => .list ids
  | .mapping es => .map es

def parts (g : Graph) (id : NodeId) : List NodeId :=
  match g.content id with
  | .scalar _ => []
  | .sequence ids => ids
  | .mapping es => es.map (·.1) ++ es.map (·.2)

end Graph

theorem PlainNode.lt_size {g : Graph} {S : NodeId → Prop} {id : NodeId} (h : PlainNode g S id) :
    id < g.size := by
  apply Graph.lt_size_of_node
  cases h with
  | text t h => rw [h]; simp [Node.empty]
  | sequence ids h hs => rw [h]; simp [Node.empty]
  | mapping es h hk hs hd => rw [h]; simp [Node.empty]

namespace Building

/-! ## Data -/

section Data

variable {b : Building} {id x : NodeId} {d : Datum}

theorem datum?_put_self (h : id < b.data.size) : (b.put id d).datum? id = some d := by
  simp [put, datum?, Array.getD, h]

theorem datum?_put_ne (h : x ≠ id) : (b.put id d).datum? x = b.datum? x := by
  by_cases hx : x < b.data.size
  · simp [put, datum?, Array.getD, hx, Ne.symm h]
  · simp [put, datum?, Array.getD, hx]

theorem size_put : (b.put id d).data.size = b.data.size := Array.size_setIfInBounds ..

/-- The number of nodes that are not begun. -/
def unbegun (b : Building) : Nat := b.data.countP Option.isNone

theorem unbegun_put_new (h : id < b.data.size) (hn : b.datum? id = none) :
    (b.put id d).unbegun + 1 = b.unbegun := by
  have hget : b.data[id] = none := by simpa [datum?, Array.getD, h] using hn
  have hpos : 0 < b.data.countP Option.isNone :=
    Array.countP_pos_iff.mpr ⟨none, by rw [← hget]; exact Array.getElem_mem h, rfl⟩
  have e : b.data.setIfInBounds id (some d) = b.data.set id (some d) h := by
    simp [Array.setIfInBounds, h]
  rw [unbegun, put, unbegun]
  simp only [e]
  rw [Array.countP_set h, hget]
  simp only [Option.isNone_none, if_true, Option.isNone_some, Bool.false_eq_true, if_false]
  omega

theorem unbegun_put_old (hn : (b.datum? id).isSome = true) : (b.put id d).unbegun = b.unbegun := by
  by_cases h : id < b.data.size
  · have hget : b.data[id].isNone = false := by
      have e : b.datum? id = b.data[id] := by simp [datum?, Array.getD, h]
      rw [e] at hn
      cases hx : b.data[id] with
      | none => rw [hx] at hn; cases hn
      | some d => rfl
    have e : b.data.setIfInBounds id (some d) = b.data.set id (some d) h := by
      simp [Array.setIfInBounds, h]
    rw [unbegun, put, unbegun]
    simp only [e]
    rw [Array.countP_set h, hget]
    simp
  · have e : b.datum? id = none := by simp [datum?, Array.getD, h]
    rw [e] at hn
    cases hn

end Data

/-! ## What a building keeps -/

/-- A node that has its datum, with its parts begun. -/
def Complete (g : Graph) (b : Building) (id : NodeId) : Prop :=
  b.datum? id = some (g.fullDatum id) ∧ ∀ x ∈ g.parts id, (b.datum? x).isSome = true

/-- Of the nodes of a set that are begun, each is complete, or it waits or is to be filled. -/
structure Sound (g : Graph) (S : NodeId → Prop) (todo : List NodeId) (b : Building) : Prop where
  graph : b.graph = g
  size : b.data.size = g.size
  inSet : ∀ id, (b.datum? id).isSome = true → S id
  queued : ∀ id, id ∈ todo ∨ id ∈ b.waiting → (b.datum? id).isSome = true
  known : ∀ id, (b.datum? id).isSome = true → Complete g b id ∨
    (b.datum? id = emptyDatum? (g.tag id) ∧ (id ∈ todo ∨ id ∈ b.waiting))

/-- Nothing more waits, or something more is begun. -/
def Bound (n : Nat) (b : Building) : Prop := b.unbegun ≤ n ∧ (b.waiting ≠ [] → b.unbegun < n)

def Extends (b b' : Building) : Prop := ∀ x, (b.datum? x).isSome = true → (b'.datum? x).isSome = true

theorem Complete.mono {g : Graph} {b b' : Building} {id : NodeId} (h : Complete g b id)
    (he : Extends b b') (hd : b'.datum? id = b.datum? id) : Complete g b' id :=
  ⟨hd.trans h.1, fun x hx => he x (h.2 x hx)⟩

theorem extends_put (b : Building) (id : NodeId) (d : Datum) (h : id < b.data.size) :
    Extends b (b.put id d) := by
  intro x hx
  by_cases hxi : x = id
  · subst hxi
    rw [datum?_put_self h]
    rfl
  · rw [datum?_put_ne hxi]
    exact hx

section Begin

variable {g : Graph} {S : NodeId → Prop} {todo : List NodeId} {n : Nat} {b : Building}
  {id : NodeId}

theorem atom_text (d : Depths) {t : Text} (h : g.node id = ⟨.str, .scalar t⟩) :
    atom d g id = .ok (.str t) := by
  have htag : g.tag id = .str := by rw [Graph.tag, h]
  have hcontent : g.content id = .scalar t := by rw [Graph.content, h]
  obtain ⟨room, hroom⟩ := Nat.exists_eq_add_of_le' (d.ample .defaults)
  rw [atom, htag]
  simp only [scalarReader?]
  rw [hroom, scalarText, hcontent]
  rfl

/-- A node that is complete as soon as it is begun. -/
theorem Sound.put_complete (h : Sound g S todo b) (hlt : id < g.size) (hid : S id)
    (hp : g.parts id = []) : Sound g S todo (b.put id (g.fullDatum id)) := by
  have hlt' : id < b.data.size := by rw [h.size]; exact hlt
  have hext := extends_put b id (g.fullDatum id) hlt'
  refine ⟨h.graph, size_put.trans h.size, fun x hx => ?_, fun x hx => hext x (h.queued x hx),
    fun x hx => ?_⟩
  · by_cases hxi : x = id
    · rw [hxi]
      exact hid
    · rw [datum?_put_ne hxi] at hx
      exact h.inSet x hx
  · by_cases hxi : x = id
    · subst hxi
      exact .inl ⟨datum?_put_self hlt', by rw [hp]; simp⟩
    · have e := datum?_put_ne (b := b) (d := g.fullDatum id) hxi
      rw [e] at hx
      rcases h.known x hx with hc | hw
      · exact .inl (hc.mono hext e)
      · exact .inr ⟨e.trans hw.1, hw.2⟩

/-- A collection waits when it is begun. -/
theorem Sound.put_waiting (h : Sound g S todo b) (hlt : id < g.size) (hid : S id) {d : Datum}
    (hd : emptyDatum? (g.tag id) = some d) :
    Sound g S todo { b.put id d with waiting := id :: b.waiting } := by
  have hlt' : id < b.data.size := by rw [h.size]; exact hlt
  have hext := extends_put b id d hlt'
  have hself : (b.put id d).datum? id = some d := datum?_put_self hlt'
  refine ⟨h.graph, size_put.trans h.size, fun x hx => ?_, fun x hx => ?_, fun x hx => ?_⟩
  · by_cases hxi : x = id
    · rw [hxi]
      exact hid
    · have e : (b.put id d).datum? x = b.datum? x := datum?_put_ne hxi
      exact h.inSet x (by rw [← e]; exact hx)
  · rcases hx with hx | hx
    · exact hext x (h.queued x (.inl hx))
    · rcases List.mem_cons.mp hx with rfl | hx
      · exact Option.isSome_iff_exists.mpr ⟨d, hself⟩
      · exact hext x (h.queued x (.inr hx))
  · by_cases hxi : x = id
    · subst hxi
      exact .inr ⟨hself.trans hd.symm, .inr (List.mem_cons_self ..)⟩
    · have e : (b.put id d).datum? x = b.datum? x := datum?_put_ne hxi
      rcases h.known x (by rw [← e]; exact hx) with hc | hw
      · exact .inl (hc.mono hext e)
      · exact .inr ⟨e.trans hw.1, hw.2.imp_right (List.mem_cons_of_mem _)⟩

theorem Bound.put_new {d : Datum} (h : Bound n b) (hlt : id < b.data.size)
    (hn : b.datum? id = none) (ws : List NodeId) : Bound n { b.put id d with waiting := ws } := by
  have e : (b.put id d).unbegun + 1 = b.unbegun := unbegun_put_new hlt hn
  have hle := h.1
  have hlt' : (b.put id d).unbegun < n := by omega
  exact ⟨Nat.le_of_lt hlt', fun _ => hlt'⟩

/-- A plain node can be begun. -/
theorem begin_sound (hS : PlainSet g S) (h : Sound g S todo b) (hn : Bound n b) (hid : S id) :
    ∃ b', b.begin id = .ok b' ∧ Sound g S todo b' ∧ Bound n b' ∧ Extends b b' ∧
      (b'.datum? id).isSome = true := by
  have hlt := (hS id hid).lt_size
  have hlt' : id < b.data.size := by rw [h.size]; exact hlt
  cases hd : b.datum? id with
  | some d =>
    refine ⟨b, ?_, h, hn, fun _ hx => hx, by rw [hd]; rfl⟩
    rw [begin, hd]
  | none =>
    cases hS id hid with
    | text t ht =>
      have htag : g.tag id = .str := by rw [Graph.tag, ht]
      have hcontent : g.content id = .scalar t := by rw [Graph.content, ht]
      have hfull : g.fullDatum id = .atom (.str t) := by rw [Graph.fullDatum, hcontent]
      have hparts : g.parts id = [] := by rw [Graph.parts, hcontent]
      refine ⟨b.put id (.atom (.str t)), ?_, ?_, hn.put_new hlt' hd b.waiting,
        extends_put b id _ hlt', by rw [datum?_put_self hlt']; rfl⟩
      · rw [begin, hd, h.graph, htag]
        simp only [emptyDatum?, atom_text _ ht]
        rfl
      · rw [← hfull]
        exact h.put_complete hlt hid hparts
    | sequence ids hi hs =>
      have htag : g.tag id = .seq := by rw [Graph.tag, hi]
      have hext := extends_put b id (.list []) hlt'
      refine ⟨{ b.put id (.list []) with waiting := id :: b.waiting }, ?_,
        h.put_waiting hlt hid (by rw [htag]; rfl), hn.put_new hlt' hd _, hext, ?_⟩
      · rw [begin, hd, h.graph, htag]
        rfl
      · exact Option.isSome_iff_exists.mpr ⟨_, datum?_put_self hlt'⟩
    | mapping es he hk hs hdis =>
      have htag : g.tag id = .map := by rw [Graph.tag, he]
      have hext := extends_put b id (.map []) hlt'
      refine ⟨{ b.put id (.map []) with waiting := id :: b.waiting }, ?_,
        h.put_waiting hlt hid (by rw [htag]; rfl), hn.put_new hlt' hd _, hext, ?_⟩
      · rw [begin, hd, h.graph, htag]
        rfl
      · exact Option.isSome_iff_exists.mpr ⟨_, datum?_put_self hlt'⟩

theorem begin_all (hS : PlainSet g S) (h : Sound g S todo b) (hn : Bound n b) {ids : List NodeId}
    (hids : ∀ x ∈ ids, S x) : ∃ b', ids.foldlM begin b = .ok b' ∧ Sound g S todo b' ∧ Bound n b' ∧
      Extends b b' ∧ ∀ x ∈ ids, (b'.datum? x).isSome = true := by
  induction ids generalizing b with
  | nil => exact ⟨b, rfl, h, hn, fun _ hx => hx, by simp⟩
  | cons id ids ih =>
    obtain ⟨hid, hids⟩ := List.forall_mem_cons.mp hids
    obtain ⟨b1, h1, hs1, hn1, he1, hb1⟩ := begin_sound hS h hn hid
    obtain ⟨b2, h2, hs2, hn2, he2, hb2⟩ := ih hs1 hn1 hids
    refine ⟨b2, ?_, hs2, hn2, fun x hx => he2 x (he1 x hx),
      List.forall_mem_cons.mpr ⟨he2 id hb1, hb2⟩⟩
    rw [List.foldlM_cons, h1]
    exact h2

theorem Sound.datum_text (h : Sound g S todo b) {t : Text} (ht : g.node id = ⟨.str, .scalar t⟩)
    (hb : (b.datum? id).isSome = true) : b.datum? id = some (.atom (.str t)) := by
  have htag : g.tag id = .str := by rw [Graph.tag, ht]
  have hcontent : g.content id = .scalar t := by rw [Graph.content, ht]
  rcases h.known id hb with hc | hw
  · rw [hc.1, Graph.fullDatum, hcontent]
  · rw [hw.1, htag] at hb
    cases hb

theorem beginEntry_all (hS : PlainSet g S) (h : Sound g S todo b) (hn : Bound n b)
    {es : List Entry} (hk : ∀ e ∈ es, ∃ t, g.node e.1 = ⟨.str, .scalar t⟩)
    (hes : ∀ e ∈ es, S e.1 ∧ S e.2) :
    ∃ b', es.foldlM beginEntry b = .ok b' ∧ Sound g S todo b' ∧ Bound n b' ∧ Extends b b' ∧
      ∀ e ∈ es, (b'.datum? e.1).isSome = true ∧ (b'.datum? e.2).isSome = true := by
  induction es generalizing b with
  | nil => exact ⟨b, rfl, h, hn, fun _ hx => hx, by simp⟩
  | cons e es ih =>
    obtain ⟨⟨t, ht⟩, hk⟩ := List.forall_mem_cons.mp hk
    obtain ⟨⟨hk1, hv1⟩, hes⟩ := List.forall_mem_cons.mp hes
    obtain ⟨b1, h1, hs1, hn1, he1, hb1⟩ := begin_sound hS h hn hk1
    obtain ⟨b2, h2, hs2, hn2, he2, hb2⟩ := begin_sound hS hs1 hn1 hv1
    obtain ⟨b3, h3, hs3, hn3, he3, hb3⟩ := ih hs2 hn2 hk hes
    have hentry : beginEntry b e = .ok b2 := by
      rw [beginEntry, h1]
      simp only [bind, Except.bind, hs1.datum_text ht hb1]
      exact h2
    refine ⟨b3, ?_, hs3, hn3, fun x hx => he3 x (he2 x (he1 x hx)),
      List.forall_mem_cons.mpr ⟨⟨he3 _ (he2 _ hb1), he3 _ hb2⟩, hb3⟩⟩
    rw [List.foldlM_cons, hentry]
    exact h3

theorem sameKey_texts (h : Sound g S todo b) {k l : NodeId} {s t : Text}
    (hk : g.node k = ⟨.str, .scalar s⟩) (hl : g.node l = ⟨.str, .scalar t⟩)
    (hbk : (b.datum? k).isSome = true) (hbl : (b.datum? l).isSome = true)
    (hne : g.node k ≠ g.node l) : b.sameKey k l = false := by
  have hkl : k ≠ l := fun e => hne (congrArg g.node e)
  have hst : s ≠ t := by
    rintro rfl
    exact hne (hk.trans hl.symm)
  simp [sameKey, hkl, h.datum_text hk hbk, h.datum_text hl hbl, Atom.sameKey, hst]

/-- Different keys keep all entries. -/
theorem foldl_setEntry (h : Sound g S todo b) {es : List Entry}
    (hk : ∀ e ∈ es, ∃ t, g.node e.1 = ⟨.str, .scalar t⟩)
    (hb : ∀ e ∈ es, (b.datum? e.1).isSome = true) (hd : (es.map fun e => g.node e.1).Nodup) :
    es.foldl b.setEntry [] = es := by
  have hstep : ∀ rest acc, acc ++ rest = es → rest.foldl b.setEntry acc = es := by
    intro rest
    induction rest with
    | nil =>
      intro acc he
      rw [List.append_nil] at he
      exact he
    | cons e rest ih =>
      intro acc he
      have hset : b.setEntry acc e = acc ++ [e] := by
        have hany : (acc.any fun old => b.sameKey old.1 e.1) = false := by
          rw [List.any_eq_false]
          intro old hold
          have hmem : old ∈ es := by rw [← he]; simp [hold]
          have hmem' : e ∈ es := by rw [← he]; simp
          obtain ⟨s, hs⟩ := hk old hmem
          obtain ⟨t, ht⟩ := hk e hmem'
          rw [← he, List.map_append, List.nodup_append] at hd
          have hne := hd.2.2 _ (List.mem_map_of_mem hold) (g.node e.1) (by simp)
          simp [sameKey_texts h hs ht (hb old hmem) (hb e hmem') hne]
        rw [setEntry, hany]
        rfl
      rw [List.foldl_cons, hset]
      exact ih (acc ++ [e]) (by rw [List.append_assoc]; exact he)
  exact hstep es [] rfl

theorem merge_texts {d : Depths} {es : List Entry} (h : g.node id = ⟨.map, .mapping es⟩)
    (hk : ∀ e ∈ es, ∃ t, g.node e.1 = ⟨.str, .scalar t⟩) : g.merge d id = .ok g := by
  have hentries : g.entries id = es := by rw [Graph.entries, Graph.content, h]
  have hany : ((g.entries id).any fun e => g.isMergeEntry e || g.isDefaultEntry e) = false := by
    rw [hentries, List.any_eq_false]
    intro e he
    obtain ⟨t, ht⟩ := hk e he
    have htag : g.tag e.1 = .str := by rw [Graph.tag, ht]
    simp [Graph.isMergeEntry, Graph.isDefaultEntry, htag]
  rw [Graph.merge, hany]
  rfl

end Begin

/-! ## Filling -/

section Fill

variable {g : Graph} {S : NodeId → Prop} {todo : List NodeId} {n : Nat} {b : Building}
  {id : NodeId}

/-- A collection whose parts are begun becomes complete. -/
theorem Sound.complete (h : Sound g S (id :: todo) b)
    (hp : ∀ x ∈ g.parts id, (b.datum? x).isSome = true) (hlt : id < g.size) :
    Sound g S todo (b.put id (g.fullDatum id)) := by
  have hlt' : id < b.data.size := by rw [h.size]; exact hlt
  have hext := extends_put b id (g.fullDatum id) hlt'
  refine ⟨h.graph, size_put.trans h.size, fun x hx => ?_,
    fun x hx => hext x (h.queued x (hx.imp_left (List.mem_cons_of_mem _))), fun x hx => ?_⟩
  · by_cases hxi : x = id
    · rw [hxi]
      exact h.inSet id (h.queued id (.inl (List.mem_cons_self ..)))
    · rw [datum?_put_ne hxi] at hx
      exact h.inSet x hx
  · by_cases hxi : x = id
    · subst hxi
      exact .inl ⟨datum?_put_self hlt', fun y hy => hext y (hp y hy)⟩
    · have e := datum?_put_ne (b := b) (d := g.fullDatum id) hxi
      rw [e] at hx
      rcases h.known x hx with hc | ⟨hw, hq⟩
      · exact .inl (hc.mono hext e)
      · refine .inr ⟨e.trans hw, hq.imp_left fun hm => ?_⟩
        exact (List.mem_cons.mp hm).resolve_left hxi

theorem Sound.skip (h : Sound g S (id :: todo) b) (hc : Complete g b id) : Sound g S todo b := by
  refine ⟨h.graph, h.size, h.inSet, fun x hx => h.queued x (hx.imp_left (List.mem_cons_of_mem _)),
    fun x hx => ?_⟩
  rcases h.known x hx with hc' | ⟨hw, hq⟩
  · exact .inl hc'
  · by_cases hxi : x = id
    · rw [hxi]
      exact .inl hc
    · exact .inr ⟨hw, hq.imp_left fun hm => (List.mem_cons.mp hm).resolve_left hxi⟩

theorem Bound.put_old {d : Datum} (h : Bound n b) (hb : (b.datum? id).isSome = true) :
    Bound n (b.put id d) := by
  have e : (b.put id d).unbegun = b.unbegun := unbegun_put_old hb
  rw [Bound, e]
  exact h

/-- A node that is begun has all of its datum or none of it. -/
theorem Sound.datum_full_or_empty (h : Sound g S todo b) (hb : (b.datum? id).isSome = true) :
    b.datum? id = some (g.fullDatum id) ∨ b.datum? id = emptyDatum? (g.tag id) :=
  (h.known id hb).imp (fun hc => hc.1) fun hw => hw.1

/-- Filling a collection whose parts have been begun. -/
theorem Sound.filled {b' : Building} (h : Sound g S (id :: todo) b)
    (hs : Sound g S (id :: todo) b') (hn : Bound n b') (he : Extends b b') (hlt : id < g.size)
    (hp : ∀ x ∈ g.parts id, (b'.datum? x).isSome = true)
    (hfill : b.fill id = .ok (b'.put id (g.fullDatum id))) :
    ∃ b'', b.fill id = .ok b'' ∧ Sound g S todo b'' ∧ Bound n b'' ∧ Extends b b'' := by
  have hb := h.queued id (.inl (List.mem_cons_self ..))
  have hlt' : id < b'.data.size := by rw [hs.size]; exact hlt
  exact ⟨_, hfill, hs.complete hp hlt, hn.put_old (he id hb),
    fun x hx => extends_put b' id _ hlt' x (he x hx)⟩

theorem fill_sequence (hS : PlainSet g S) (h : Sound g S (id :: todo) b) (hn : Bound n b)
    {ids : List NodeId} (hi : g.node id = ⟨.seq, .sequence ids⟩) (hs : ∀ x ∈ ids, S x)
    (hlt : id < g.size) :
    ∃ b', b.fill id = .ok b' ∧ Sound g S todo b' ∧ Bound n b' ∧ Extends b b' := by
  have hb := h.queued id (.inl (List.mem_cons_self ..))
  have htag : g.tag id = .seq := by rw [Graph.tag, hi]
  have hcontent : g.content id = .sequence ids := by rw [Graph.content, hi]
  have hfull : g.fullDatum id = .list ids := by rw [Graph.fullDatum, hcontent]
  have hparts : g.parts id = ids := by rw [Graph.parts, hcontent]
  obtain ⟨b1, h1, hs1, hn1, he1, hb1⟩ := begin_all hS h hn hs
  have hlist : ∃ items, b.datum? id = some (.list items) := by
    rcases h.datum_full_or_empty hb with hd | hd
    · exact ⟨ids, hd.trans (congrArg some hfull)⟩
    · exact ⟨[], by rw [hd, htag]; rfl⟩
  obtain ⟨items, hitems⟩ := hlist
  refine h.filled hs1 hn1 he1 hlt (by rw [hparts]; exact hb1) ?_
  rw [fill, hitems, h.graph, hcontent, hfull]
  simp only [bind, Except.bind, h1]
  rfl

theorem fill_mapping (hS : PlainSet g S) (h : Sound g S (id :: todo) b) (hn : Bound n b)
    {es : List Entry} (he : g.node id = ⟨.map, .mapping es⟩)
    (hk : ∀ e ∈ es, ∃ t, g.node e.1 = ⟨.str, .scalar t⟩) (hs : ∀ e ∈ es, S e.1 ∧ S e.2)
    (hdis : (es.map fun e => g.node e.1).Nodup) (hlt : id < g.size) :
    ∃ b', b.fill id = .ok b' ∧ Sound g S todo b' ∧ Bound n b' ∧ Extends b b' := by
  have hb := h.queued id (.inl (List.mem_cons_self ..))
  have htag : g.tag id = .map := by rw [Graph.tag, he]
  have hcontent : g.content id = .mapping es := by rw [Graph.content, he]
  have hfull : g.fullDatum id = .map es := by rw [Graph.fullDatum, hcontent]
  have hparts : g.parts id = es.map (·.1) ++ es.map (·.2) := by rw [Graph.parts, hcontent]
  have hentries : g.entries id = es := by rw [Graph.entries, hcontent]
  obtain ⟨b1, h1, hs1, hn1, he1, hb1⟩ := beginEntry_all hS h hn hk hs
  have hmap : ∃ items, b.datum? id = some (.map items) := by
    rcases h.datum_full_or_empty hb with hd | hd
    · exact ⟨es, hd.trans (congrArg some hfull)⟩
    · exact ⟨[], by rw [hd, htag]; rfl⟩
  obtain ⟨items, hitems⟩ := hmap
  have hset := foldl_setEntry hs1 hk (fun e he => (hb1 e he).1) hdis
  have hfill : b.fillEntries id = .ok (b1, es) := by
    -- the keys are texts, so there is nothing to merge
    have hsame : ({ b with graph := g } : Building) = b := by rw [← h.graph]
    rw [fillEntries, h.graph, hcontent]
    simp only [merge_texts he hk, bind, Except.bind, hentries, hsame, h1, hset]
    rfl
  have hbegun : ∀ x ∈ g.parts id, (b1.datum? x).isSome = true := by
    rw [hparts]
    exact List.forall_mem_append.mpr ⟨List.forall_mem_map.mpr fun e he => (hb1 e he).1,
      List.forall_mem_map.mpr fun e he => (hb1 e he).2⟩
  refine h.filled hs1 hn1 he1 hlt hbegun ?_
  rw [fill, hitems, hfull]
  simp only [hfill, bind, Except.bind]
  rfl

theorem fill_sound (hS : PlainSet g S) (h : Sound g S (id :: todo) b) (hn : Bound n b) :
    ∃ b', b.fill id = .ok b' ∧ Sound g S todo b' ∧ Bound n b' ∧ Extends b b' := by
  have hb := h.queued id (.inl (List.mem_cons_self ..))
  have hid := h.inSet id hb
  have hlt := (hS id hid).lt_size
  cases hS id hid with
  | text t ht =>
    have hd := h.datum_text ht hb
    have hcontent : g.content id = .scalar t := by rw [Graph.content, ht]
    have hc : Complete g b id := by
      refine ⟨?_, by rw [Graph.parts, hcontent]; simp⟩
      rw [hd, Graph.fullDatum, hcontent]
    refine ⟨b, ?_, h.skip hc, hn, fun _ hx => hx⟩
    rw [fill, hd]
    rfl
  | sequence ids hi hs => exact fill_sequence hS h hn hi hs hlt
  | mapping es he hk hs hdis => exact fill_mapping hS h hn he hk hs hdis hlt

theorem fill_round (hS : PlainSet g S) {queue : List NodeId} (h : Sound g S queue b)
    (hn : Bound n b) :
    ∃ b', queue.foldlM fill b = .ok b' ∧ Sound g S [] b' ∧ Bound n b' ∧ Extends b b' := by
  induction queue generalizing b with
  | nil => exact ⟨b, rfl, h, hn, fun _ hx => hx⟩
  | cons id queue ih =>
    obtain ⟨b1, h1, hs1, hn1, he1⟩ := fill_sound hS h hn
    obtain ⟨b2, h2, hs2, hn2, he2⟩ := ih hs1 hn1
    refine ⟨b2, ?_, hs2, hn2, fun x hx => he2 x (he1 x hx)⟩
    rw [List.foldlM_cons, h1]
    exact h2

theorem fillAll_done {rounds : Nat} (hw : b.waiting = []) : b.fillAll rounds = .ok b := by
  unfold fillAll
  split
  · rename_i hw'
    rw [hw] at hw'
    cases hw'
  · rfl

theorem fillAll_round {rounds : Nat} {rest : List NodeId} (hw : b.waiting = id :: rest) :
    b.fillAll (rounds + 1) =
      ((id :: rest).reverse.foldlM fill { b with waiting := [] } >>= fillAll rounds) := by
  rw [fillAll]
  exact hw

theorem fillAll_sound (hS : PlainSet g S) {rounds : Nat} (h : Sound g S [] b)
    (hr : b.waiting = [] ∨ b.unbegun < rounds) :
    ∃ b', b.fillAll rounds = .ok b' ∧ Sound g S [] b' ∧ b'.waiting = [] ∧ Extends b b' := by
  induction rounds generalizing b with
  | zero =>
    have hw : b.waiting = [] := hr.resolve_right (Nat.not_lt_zero _)
    exact ⟨b, fillAll_done hw, h, hw, fun _ hx => hx⟩
  | succ rounds ih =>
    cases hw : b.waiting with
    | nil => exact ⟨b, fillAll_done hw, h, hw, fun _ hx => hx⟩
    | cons id rest =>
      have hlt : b.unbegun < rounds + 1 := hr.resolve_left (by rw [hw]; simp)
      have h0 : Sound g S (id :: rest).reverse { b with waiting := [] } := by
        refine ⟨h.graph, h.size, h.inSet, fun x hx => ?_, fun x hx => ?_⟩
        · refine h.queued x (.inr ?_)
          rw [hw, ← List.mem_reverse]
          exact hx.resolve_right List.not_mem_nil
        · refine (h.known x hx).imp (fun hc => hc) fun hq => ⟨hq.1, .inl ?_⟩
          rw [List.mem_reverse, ← hw]
          exact hq.2.resolve_left List.not_mem_nil
      have hn0 : Bound b.unbegun { b with waiting := [] } := ⟨Nat.le_refl _, fun hne => absurd rfl hne⟩
      obtain ⟨b1, h1, hs1, hn1, he1⟩ := fill_round hS h0 hn0
      -- a round that leaves something waiting has begun a node
      have hr1 : b1.waiting = [] ∨ b1.unbegun < rounds := by
        by_cases hw1 : b1.waiting = []
        · exact .inl hw1
        · have := hn1.2 hw1
          exact .inr (by omega)
      obtain ⟨b2, h2, hs2, hw2, he2⟩ := ih hs1 hr1
      refine ⟨b2, ?_, hs2, hw2, fun x hx => he2 x (he1 x hx)⟩
      rw [fillAll_round hw, h1]
      exact h2

end Fill

theorem start_sound (h : Host) (g : Graph) (S : NodeId → Prop) : Sound g S [] (start h g) := by
  have hnone : ∀ id, (start h g).datum? id = none := by
    intro id
    simp [start, datum?, Array.getD]
  refine ⟨rfl, Array.size_replicate, fun id hid => ?_, fun id hid => ?_, fun id hid => ?_⟩
  · rw [hnone] at hid
    cases hid
  · simp [start] at hid
  · rw [hnone] at hid
    cases hid

/-- The value of a plain node has the data of all nodes that are parts of it. -/
theorem value_plain (h : Host) {g : Graph} {S : NodeId → Prop} (hS : PlainSet g S) {root : NodeId}
    (hroot : S root) : ∃ b : Building, Document.value h ⟨g, root⟩ = .ok ⟨b.store, .node root⟩ ∧
      (b.datum? root).isSome = true ∧
      ∀ id, (b.datum? id).isSome = true → Complete g b id := by
  have hn : Bound g.size (start h g) := by
    refine ⟨?_, fun hne => absurd rfl hne⟩
    have hle : (start h g).unbegun ≤ (start h g).data.size := Array.countP_le_size
    rwa [(start_sound h g S).size] at hle
  obtain ⟨b1, h1, hs1, hn1, -, hb1⟩ := begin_sound hS (start_sound h g S) hn hroot
  obtain ⟨b2, h2, hs2, hw2, he2⟩ := fillAll_sound hS hs1 (.inr (Nat.lt_succ_of_le hn1.1))
  refine ⟨b2, ?_, he2 root hb1, fun id hid => ?_⟩
  · rw [Document.value]
    simp only [h1, bind, Except.bind]
    rw [h2]
    rfl
  · refine (hs2.known id hid).resolve_right fun hq => ?_
    simp [hw2] at hq

theorem datum_store {b : Building} {id : NodeId} {d : Datum} (h : b.datum? id = some d) :
    b.store.datum id = d := by
  by_cases hlt : id < b.data.size
  · have hget : b.data[id] = some d := by simpa [datum?, Array.getD, hlt] using h
    simp [store, Store.datum, Array.getD, hlt, hget]
  · simp [datum?, Array.getD, hlt] at h

end Building

/-! ## What a value shows -/

/-- A value that shows data: strings as they are read back, keys as they are. -/
inductive Shows : Value → Json → Prop where
  | str {v : Value} {t : Text} (h : v.layer = .str (Lexer.reread t)) : Shows v (.str t)
  | list {v : Value} {vs : List Value} {js : List Json} (h : v.layer = .list vs)
    (hl : vs.length = js.length) (hs : ∀ p ∈ vs.zip js, Shows p.1 p.2) : Shows v (.list js)
  | object {v : Value} {es : List (Value × Value)} {fs : List (Text × Json)}
    (h : v.layer = .map es) (hl : es.length = fs.length)
    (hk : ∀ p ∈ es.zip fs, p.1.1.layer = .str p.2.1)
    (hs : ∀ p ∈ es.zip fs, Shows p.1.2 p.2.2) : Shows v (.object fs)

section Showing

variable {g : Graph} {b : Building} {id : NodeId}

open Building

theorem layer_text (h : Complete g b id) {t : Text} (ht : g.node id = ⟨.str, .scalar t⟩) :
    (Value.mk b.store (.node id)).layer = .str t := by
  have hcontent : g.content id = .scalar t := by rw [Graph.content, ht]
  have hd : b.store.datum id = .atom (.str t) := by
    rw [datum_store h.1, Graph.fullDatum, hcontent]
  rw [Value.layer]
  simp only [Store.layer, hd]
  rfl

theorem layer_sequence (h : Complete g b id) {ids : List NodeId}
    (hi : g.node id = ⟨.seq, .sequence ids⟩) :
    (Value.mk b.store (.node id)).layer = .list (ids.map fun x => ⟨b.store, .node x⟩) := by
  have hcontent : g.content id = .sequence ids := by rw [Graph.content, hi]
  have hd : b.store.datum id = .list ids := by
    rw [datum_store h.1, Graph.fullDatum, hcontent]
  rw [Value.layer]
  simp only [Store.layer, hd, List.map_map]
  rfl

theorem layer_mapping (h : Complete g b id) {es : List Entry}
    (he : g.node id = ⟨.map, .mapping es⟩) :
    (Value.mk b.store (.node id)).layer =
      .map (es.map fun e => (⟨b.store, .node e.1⟩, ⟨b.store, .node e.2⟩)) := by
  have hcontent : g.content id = .mapping es := by rw [Graph.content, he]
  have hd : b.store.datum id = .map es := by
    rw [datum_store h.1, Graph.fullDatum, hcontent]
  rw [Value.layer]
  simp only [Store.layer, hd, List.map_map]
  rfl

theorem shows_of_spells {lo : Nat} {v : Json} (h : Spells g lo id v)
    (hb : (b.datum? id).isSome = true)
    (hc : ∀ x, (b.datum? x).isSome = true → Complete g b x) :
    Shows ⟨b.store, .node id⟩ v := by
  induction h with
  | str hlo h => exact .str (layer_text (hc _ hb) h)
  | @list id ids vs hlo h hl hs ih =>
    have hparts : g.parts id = ids := by rw [Graph.parts, Graph.content, h]
    refine .list (layer_sequence (hc _ hb) h) (by rw [List.length_map, hl]) fun p hp => ?_
    rw [List.zip_map_left] at hp
    obtain ⟨q, hq, rfl⟩ := List.mem_map.mp hp
    refine ih q hq ((hc id hb).2 q.1 ?_)
    rw [hparts]
    exact (List.of_mem_zip hq).1
  | @object id es fs hlo h hl hk hs ih =>
    have hparts : g.parts id = es.map (·.1) ++ es.map (·.2) := by
      rw [Graph.parts, Graph.content, h]
    have hbegun : ∀ e ∈ es, (b.datum? e.1).isSome = true ∧ (b.datum? e.2).isSome = true := by
      intro e he
      have hall := (hc id hb).2
      rw [hparts] at hall
      exact ⟨hall e.1 (List.mem_append_left _ (List.mem_map_of_mem he)),
        hall e.2 (List.mem_append_right _ (List.mem_map_of_mem he))⟩
    refine .object (layer_mapping (hc _ hb) h) (by rw [List.length_map, hl]) (fun p hp => ?_)
      fun p hp => ?_
    · rw [List.zip_map_left] at hp
      obtain ⟨q, hq, rfl⟩ := List.mem_map.mp hp
      exact layer_text (hc _ (hbegun q.1 (List.of_mem_zip hq).1).1) (hk q hq).2
    · rw [List.zip_map_left] at hp
      obtain ⟨q, hq, rfl⟩ := List.mem_map.mp hp
      exact ih q hq (hbegun q.1 (List.of_mem_zip hq).1).2

end Showing

/-! ## Written data -/

theorem exists_zip {α β : Type} {xs : List α} {ys : List β} (hl : xs.length = ys.length) {x : α}
    (hx : x ∈ xs) : ∃ y ∈ ys, (x, y) ∈ xs.zip ys := by
  have e : (xs.zip ys).map Prod.fst = xs := List.map_fst_zip (Nat.le_of_eq hl)
  rw [← e] at hx
  obtain ⟨p, hp, rfl⟩ := List.mem_map.mp hx
  exact ⟨p.2, (List.of_mem_zip hp).2, hp⟩

/-- The nodes of written data: keys, and nodes that spell a part. -/
def Meant (g : Graph) (id : NodeId) : Prop :=
  (∃ t, g.node id = ⟨.str, .scalar t⟩) ∨ ∃ n v, Writable n v ∧ Spells g 0 id v

theorem meant_plain (g : Graph) : PlainSet g (Meant g) := by
  rintro id (⟨t, ht⟩ | ⟨n, v, hv, hs⟩)
  · exact .text t ht
  · cases hs with
    | str hlo h => exact .text _ h
    | @list _ ids vs hlo h hl hs =>
      cases hv with
      | @list n _ hvs =>
        refine .sequence ids h fun x hx => ?_
        obtain ⟨v, hv, hp⟩ := exists_zip hl hx
        exact .inr ⟨n, v, hvs v hv, hs _ hp⟩
    | @object _ es fs hlo h hl hk hs =>
      cases hv with
      | @object n _ hne hkeys hd hvs =>
        have hnodes : (es.map fun e => g.node e.1) = fs.map fun f => ⟨.str, .scalar f.1⟩ := by
          rw [← List.forall₂_eq_eq_eq, List.forall₂_map_left_iff, List.forall₂_map_right_iff]
          exact List.forall₂_iff_zip.mpr ⟨hl, fun hp => (hk _ hp).2⟩
        have hinj : Function.Injective fun t : Text => Node.mk .str (.scalar t) := by
          intro s t h
          simpa using h
        refine .mapping es h (fun e he => ?_) (fun e he => ?_) ?_
        · obtain ⟨f, hf, hp⟩ := exists_zip hl he
          exact ⟨f.1, (hk _ hp).2⟩
        · obtain ⟨f, hf, hp⟩ := exists_zip hl he
          exact ⟨.inl ⟨f.1, (hk _ hp).2⟩, .inr ⟨n, f.2, hvs f hf, hs _ hp⟩⟩
        · have hmap := List.Nodup.map hinj hd
          rw [List.map_map] at hmap
          rw [hnodes]
          exact hmap

/-- What has been written can be read, also with empty lines after it, and shows what was written. -/
theorem read_write (host : Host) {n : Nat} {fs : List (Text × Json)}
    (h : Writable (n + 1) (.object fs)) (hw : 2 + 2 * n < lineWidth)
    (hroom : n + 1 ≤ host.room .collections) (j : Nat) :
    ∃ v, read host (write fs ++ List.replicate j (.char '\n')) = .ok v ∧ Shows v (.object fs) := by
  obtain ⟨g, root, hdoc, hs⟩ := document_write h hw hroom j
  have hroot : Meant g root := .inr ⟨n + 1, _, h, hs⟩
  obtain ⟨b, hvalue, hb, hc⟩ := Building.value_plain host (meant_plain g) hroot
  refine ⟨⟨b.store, .node root⟩, ?_, shows_of_spells hs hb hc⟩
  rw [read, hdoc]
  exact hvalue

end Formulary.Yaml
