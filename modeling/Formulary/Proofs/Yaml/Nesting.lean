import Formulary.Proofs.Reading
import Formulary.Proofs.Yaml.Building
import Formulary.Proofs.Yaml.Sources
import Mathlib.Logic.Relation

/-! # Things inside one another

Three tasks go down into a document after it has been parsed: mappings are merged into mappings, a
mapping can stand for the scalar in it, and values are spelled. A task that is given up for its depth
has taken as many steps as there was room for. For the first two the steps are in the graph that was
parsed, although merges change it: what they bring to a mapping stands in one that it merges, so that
a step in the changed graph is one or more in the graph that was parsed.
-/

namespace Formulary.Yaml
set_option autoImplicit false

/-! ## Steps -/

/-- So many steps can be taken one after the other from a point. -/
def Deep {α : Type} (R : α → α → Prop) : Nat → α → Prop
  | 0, _ => True
  | n + 1, a => ∃ b, R a b ∧ Deep R n b

section Deep

variable {α : Type} {R : α → α → Prop} {n : Nat} {a b : α}

theorem Deep.pred (h : Deep R (n + 1) a) : Deep R n a := by
  induction n generalizing a with
  | zero => trivial
  | succ n ih =>
    obtain ⟨b, hab, hb⟩ := h
    exact ⟨b, hab, ih hb⟩

theorem Deep.of_reflTransGen (hb : Deep R n b) (h : Relation.ReflTransGen R a b) : Deep R n a := by
  induction h using Relation.ReflTransGen.head_induction_on with
  | refl => exact hb
  | head hac _ ih => exact Deep.pred ⟨_, hac, ih⟩

theorem Deep.of_transGen (hb : Deep R n b) (h : Relation.TransGen R a b) : Deep R (n + 1) a := by
  obtain ⟨c, hac, hcb⟩ := Relation.TransGen.head'_iff.mp h
  exact ⟨c, hac, hb.of_reflTransGen hcb⟩

end Deep

/-- A task that starts at a node is given up for the form of something, or because so many steps can
be taken from the node. -/
inductive StepFault (t : Task) (R : NodeId → NodeId → Prop) (n : Nat) (id : NodeId) : Fault → Prop where
  | form (p : Problem) (spot? : Option Spot) : StepFault t R n id (.problem p spot?)
  | deep (h : Deep R n id) : StepFault t R n id (.tooDeep t)

theorem StepFault.step {t : Task} {R : NodeId → NodeId → Prop} {n : Nat} {a b : NodeId} {f : Fault}
    (h : StepFault t R n b f) (hab : Relation.TransGen R a b) : StepFault t R (n + 1) a f := by
  cases h with
  | form p spot? => exact .form p spot?
  | deep h => exact .deep (h.of_transGen hab)

/-! ## Merges -/

namespace Graph

variable {ws : List Word} {g₀ g g' : Graph} {id x a c : NodeId} {e : Entry}

theorem node_setTag (g : Graph) (id : NodeId) (t : Tag) (x : NodeId) :
    (g.setTag id t).node x =
      if x = id ∧ x < g.size then ⟨t, (g.node x).content⟩ else g.node x := by
  by_cases hx : x < g.nodes.size
  · by_cases he : x = id
    · subst he
      simp [setTag, node, size, Array.getD, hx, Array.getElem_modify]
    · simp [setTag, node, size, Array.getD, hx, Array.getElem_modify, he, Ne.symm he]
  · simp [setTag, node, size, Array.getD, hx]

theorem content_setTag (g : Graph) (id : NodeId) (t : Tag) (x : NodeId) :
    (g.setTag id t).content x = g.content x := by
  rw [content, node_setTag]
  split
  · rfl
  · rfl

theorem tag_setContent (g : Graph) (id : NodeId) (new : Content) (x : NodeId) :
    (g.setContent id new).tag x = g.tag x := by
  by_cases hx : x = id
  · subst hx
    by_cases hlt : x < g.size
    · rw [tag, node_setContent_self hlt]
      rfl
    · have hle := Nat.le_of_not_lt hlt
      rw [tag, tag, node_of_le hle, node_of_le (by rwa [size_setContent])]
  · rw [tag, node_setContent_ne hx]
    rfl

def IsMapping (g : Graph) (id : NodeId) : Prop := ∃ entries, g.content id = .mapping entries

theorem IsMapping.lt_size (h : g.IsMapping id) : id < g.size := by
  obtain ⟨entries, he⟩ := h
  refine lt_size_of_node fun hn => ?_
  rw [content, hn] at he
  cases he

/-- A merge mark of a mapping names a node, or a list that the node is in. -/
def Merges (g : Graph) (a c : NodeId) : Prop :=
  ∃ e ∈ g.entries a, g.isMergeEntry e = true ∧
    (c = e.2 ∨ ∃ items, g.content e.2 = .sequence items ∧ c ∈ items)

/-- The entries that a mapping can get by merges: its own, those of the mappings that it merges, and
so on. -/
def Brings (g : Graph) (a : NodeId) (e : Entry) : Prop :=
  ∃ b, Relation.ReflTransGen g.Merges a b ∧ e ∈ g.entries b

theorem Brings.of_transGen (h : g.Brings c e) (hac : Relation.TransGen g.Merges a c) :
    g.Brings a e := by
  obtain ⟨b, hcb, he⟩ := h
  exact ⟨b, hac.to_reflTransGen.trans hcb, he⟩

/-- A mapping stands for what its default entry holds. -/
def StandsFor (g : Graph) (a c : NodeId) : Prop :=
  ∃ e, g.Brings a e ∧ g.isDefaultEntry e = true ∧ c = e.2

/-- A graph that merges can make of another one, whose nodes come of some words. -/
structure Derived (ws : List Word) (g₀ g : Graph) : Prop where
  comesOf : g.ComesOf ws
  tag : ∀ x, g.tag x = g₀.tag x ∨ g.tag x = .str
  content : ∀ x, g₀.IsMapping x ∧ g.IsMapping x ∨ g.content x = g₀.content x
  brings : ∀ x, ∀ e ∈ g.entries x, g₀.Brings x e

namespace Derived

theorem refl (h : g.ComesOf ws) : Derived ws g g :=
  ⟨h, fun _ => .inl rfl, fun _ => .inr rfl, fun x _ he => ⟨x, .refl, he⟩⟩

theorem isMapping_iff (h : Derived ws g₀ g) (x : NodeId) : g.IsMapping x ↔ g₀.IsMapping x := by
  rcases h.content x with ⟨h₀, hx⟩ | he
  · exact iff_of_true hx h₀
  · rw [IsMapping, he, IsMapping]

theorem tag_eq (h : Derived ws g₀ g) {t : Tag} (ht : g.tag x = t) (hne : t ≠ .str) :
    g₀.tag x = t := by
  rcases h.tag x with he | he
  · exact he.symm.trans ht
  · exact absurd (ht.symm.trans he) hne

/-- A merge in a derived graph is one or more merges in the graph that it comes of. -/
theorem merges (h : Derived ws g₀ g) (h' : Derived ws g₀ g') (he : e ∈ g.entries a)
    (hm : g.isMergeEntry e = true)
    (hc : c = e.2 ∨ ∃ items, g'.content e.2 = .sequence items ∧ c ∈ items) :
    Relation.TransGen g₀.Merges a c := by
  obtain ⟨b, hab, heb⟩ := h.brings a e he
  have htag : g₀.tag e.1 = .merge := h.tag_eq (of_decide_eq_true hm) (by simp)
  refine .tail' hab ⟨e, heb, decide_eq_true htag, hc.imp_right ?_⟩
  rintro ⟨items, hitems, hmem⟩
  rcases h'.content e.2 with ⟨-, entries, hmap⟩ | heq
  · rw [hitems] at hmap
    cases hmap
  · exact ⟨items, heq ▸ hitems, hmem⟩

theorem standsFor (h : Derived ws g₀ g) (he : e ∈ g.entries a) (hd : g.isDefaultEntry e = true) :
    g₀.StandsFor a e.2 :=
  ⟨e, h.brings a e he, decide_eq_true (h.tag_eq (of_decide_eq_true hd) (by simp)), rfl⟩

/-- The mark of a default entry may be text. It is a scalar or has a tag that is written out. -/
theorem setText (h : Derived ws g₀ g) (hv : g.tag id = .value) : Derived ws g₀ (g.setTag id .str) := by
  have collection : ∀ {t : Tag}, IsCollectionTag ws t → t = .value → IsCollectionTag ws .str := by
    rintro t (rfl | rfl | ⟨rfl, -⟩ | ⟨name, hname, -⟩) hv
    · cases hv
    · cases hv
    · cases hv
    · exact .inr (.inr (.inl ⟨rfl, name, hname⟩))
  refine ⟨fun x => ?_, fun x => ?_, fun x => ?_, fun x e he => ?_⟩
  · rw [node_setTag]
    split
    · rename_i hx
      obtain ⟨rfl, -⟩ := hx
      show (⟨.str, g.content x⟩ : Node).ComesOf ws
      cases hc : g.content x with
      | scalar t => exact ⟨(h.comesOf.of_content hc).1, .inl rfl⟩
      | sequence items => exact (collection (h.comesOf.of_content hc) hv).sequence items
      | mapping entries => exact (collection (h.comesOf.of_content hc) hv).mapping entries
    · exact h.comesOf x
  · rw [Graph.tag, node_setTag]
    split
    · exact .inr rfl
    · exact h.tag x
  · rw [IsMapping, IsMapping, content_setTag]
    exact h.content x
  · rw [entries, content_setTag] at he
    exact h.brings x e he

theorem plainKeys (h : Derived ws g₀ g) (entries : List Entry) :
    Derived ws g₀ (g.plainKeys entries) := by
  unfold Graph.plainKeys
  induction entries generalizing g with
  | nil => exact h
  | cons e entries ih =>
    rw [List.foldl_cons]
    split
    · rename_i hv
      exact ih (h.setText (of_decide_eq_true hv))
    · exact ih h

theorem setMapping (h : Derived ws g₀ g) (hid : g₀.IsMapping id) {entries : List Entry}
    (he : ∀ e ∈ entries, g₀.Brings id e) :
    Derived ws g₀ (g.setContent id (.mapping entries)) := by
  have hmap := (h.isMapping_iff id).mpr hid
  obtain ⟨old, hold⟩ := hmap
  have htag : IsCollectionTag ws (g.tag id) := h.comesOf.of_content hold
  have hself : (g.setContent id (.mapping entries)).content id = .mapping entries := by
    rw [Graph.content, node_setContent_self (IsMapping.lt_size ⟨old, hold⟩)]
  have hother : ∀ x, x ≠ id → (g.setContent id (.mapping entries)).content x = g.content x := by
    intro x hx
    rw [Graph.content, node_setContent_ne hx]
    rfl
  refine ⟨h.comesOf.setContent (htag.mapping entries), fun x => ?_, fun x => ?_, fun x e hx => ?_⟩
  · rw [tag_setContent]
    exact h.tag x
  · by_cases hne : x = id
    · subst hne
      exact .inl ⟨hid, entries, hself⟩
    · rw [IsMapping, IsMapping, hother x hne]
      exact h.content x
  · rw [Graph.entries] at hx
    by_cases hne : x = id
    · subst hne
      rw [hself] at hx
      exact he e hx
    · rw [hother x hne] at hx
      exact h.brings x e hx

end Derived

/-- Where a list is cut in front of the first item from an index on that fails a test, the parts on
both sides of that item are parts of the list. -/
theorem mem_of_cut {test : Entry → Bool} {entries rest : List Entry} {index : Nat}
    (h : (entries.drop index).dropWhile test = e :: rest) : e ∈ entries ∧ test e = false ∧
      ∀ e' ∈ entries.take index ++ (entries.drop index).takeWhile test ++ rest, e' ∈ entries := by
  have hdrop : ∀ e' ∈ e :: rest, e' ∈ entries := fun e' he' =>
    List.mem_of_mem_drop ((List.dropWhile_sublist test).subset (h ▸ he'))
  have hhead := List.head?_dropWhile_not test (entries.drop index)
  rw [h] at hhead
  refine ⟨hdrop e (List.mem_cons_self ..), by simpa using hhead, fun e' he' => ?_⟩
  rw [List.mem_append, List.mem_append] at he'
  rcases he' with (htake | hwhile) | hrest
  · exact List.mem_of_mem_take htake
  · exact List.mem_of_mem_drop ((List.takeWhile_sublist test).subset hwhile)
  · exact hdrop e' (List.mem_cons_of_mem _ hrest)

/-- A mapping that is merged is merged first itself, with one less room, if it is one. -/
theorem ensures_inner (h : Derived ws g₀ g) (hc : Relation.TransGen g₀.Merges id c) (room : Nat)
    {again : Nat → Except Fault Graph}
    (ha : ∀ r, g₀.IsMapping c →
      Ensures (StepFault .merges g₀.Merges (r + 1) c) (Derived ws g₀) (again r)) :
    Ensures (StepFault .merges g₀.Merges (room + 1) id)
      (fun r => Derived ws g₀ r.1 ∧ ∀ e ∈ r.2, g₀.Brings id e)
      (match g.content c, room with
        | .mapping _, 0 => .error (.tooDeep .merges)
        | .mapping _, room + 1 => (again room).map fun g => (g, g.entries c)
        | _, _ => .error (.problem .mergeNotMap none)) := by
  split
  · exact .deep (Deep.of_transGen trivial hc)
  · have hmap := (h.isMapping_iff c).mp ⟨_, ‹_›⟩
    refine ((ha _ hmap).blame fun f hf => hf.step hc).map fun g' hg' => ⟨hg', fun e he => ?_⟩
    exact (hg'.brings c e he).of_transGen hc
  · exact .form _ _

/-- Merges keep to the graph that was parsed, or as many of them as there is room for and one more
stand inside one another there. -/
theorem ensures_mergeFrom (fuel room index : Nat) (merged : List Entry) (h : Derived ws g₀ g)
    (hid : g₀.IsMapping id) (hmerged : ∀ e ∈ merged, g₀.Brings id e) :
    Ensures (StepFault .merges g₀.Merges (room + 1) id) (Derived ws g₀)
      (mergeFrom fuel room id index merged g) := by
  -- an inner merge can reach the mapping around it, so that all is said of the graph that was parsed
  induction fuel generalizing room id index merged g with
  | zero => exact h
  | succ fuel ih =>
    have own : ∀ e ∈ g.entries id, g₀.Brings id e := h.brings id
    rw [mergeFrom]
    dsimp only
    have hkeys := h.plainKeys (((g.entries id).drop index).takeWhile fun e => !g.isMergeEntry e)
    split
    · split
      · exact hkeys
      · exact hkeys.setMapping hid fun e he => (List.mem_append.mp he).elim (hmerged e) (own e)
    · rename_i e rest hrest
      obtain ⟨hmem, hmark, hkept⟩ := mem_of_cut hrest
      have hset := hkeys.setMapping hid fun e' he' => own e' (hkept e' he')
      have merges : ∀ c, c = e.2 ∨ (∃ items, _ ∧ c ∈ items) → Relation.TransGen g₀.Merges id c :=
        fun c hc => h.merges hset hmem (by simpa using hmark) hc
      refine Ensures.bind (Q := fun r => Derived ws g₀ r.1 ∧ ∀ e ∈ r.2, g₀.Brings id e) ?_ ?_
      · split
        · rename_i items hitems
          refine ensures_foldlM (R := fun r : Graph × List Entry =>
            Derived ws g₀ r.1 ∧ ∀ e ∈ r.2, g₀.Brings id e) ?_ ⟨hset, List.forall_mem_nil _⟩
          intro r hr c hc
          refine (ensures_inner hr.1 (merges c (.inr ⟨items, hitems, hc⟩)) room fun room hmap =>
            ih room 0 [] hr.1 hmap (List.forall_mem_nil _)).bind fun r' hr' => ?_
          exact ⟨hr'.1, fun e he => (List.mem_append.mp he).elim (hr'.2 e) (hr.2 e)⟩
        · exact ensures_inner hset (merges e.2 (.inl rfl)) room fun room hmap =>
            ih room 0 [] hset hmap (List.forall_mem_nil _)
      · rintro ⟨g', found⟩ ⟨hg', hfound⟩
        refine ih room _ _ hg' hid fun e he => ?_
        exact (List.mem_append.mp he).elim (hmerged e) (hfound e)

theorem ensures_merge (d : Depths) (h : Derived ws g₀ g) (hid : g.IsMapping id) :
    Ensures (StepFault .merges g₀.Merges (d.room .merges + 1) id) (Derived ws g₀) (g.merge d id) := by
  unfold merge
  split
  · exact ensures_mergeFrom _ _ 0 [] h ((h.isMapping_iff id).mp hid) (List.forall_mem_nil _)
  · exact h

end Graph

/-! ## Mappings that stand for scalars -/

theorem Building.ensures_scalarText {ws : List Word} {g₀ g : Graph} (h : g₀.Derived ws g)
    (room : Nat) (id : NodeId) :
    Ensures (StepFault .defaults g₀.StandsFor room id) (IsText ws) (scalarText g room id) := by
  induction room generalizing id with
  | zero => exact .deep trivial
  | succ room ih =>
    rw [scalarText]
    split
    · rename_i hcontent
      exact (h.comesOf.of_content hcontent).1
    · rename_i e _ hfind
      have hstep := h.standsFor (List.mem_of_find?_eq_some hfind) (List.find?_some hfind)
      exact (ih e.2).blame fun f hf => hf.step (.single hstep)
    · exact .form _ _

/-! ## Spelling -/

/-- The places inside a value. -/
def Store.parts (s : Store) (p : Place) : List Place :=
  match s.layer p with
  | .pair first second => [first, second]
  | .list items => items
  | .set items => items
  | .map entries => entries.flatMap fun e => [e.1, e.2]
  | _ => []

/-- Spelling a value at a place below others goes on to one inside it. If the value is met again, it
is not gone into, unless it is a set. -/
def Store.Descends (s : Store) (x y : List Place × Place) : Prop :=
  y.1 = x.2 :: x.1 ∧ y.2 ∈ s.parts x.2 ∧ (x.2 ∈ x.1 → ∃ items, s.layer x.2 = .set items)

namespace Store

section Parts

variable {s : Store} {p : Place}

theorem parts_pair {first second : Place} (h : s.layer p = .pair first second) :
    s.parts p = [first, second] := by
  rw [parts, h]

theorem parts_list {items : List Place} (h : s.layer p = .list items) : s.parts p = items := by
  rw [parts, h]

theorem parts_set {items : List Place} (h : s.layer p = .set items) : s.parts p = items := by
  rw [parts, h]

theorem mem_parts_map {entries : List (Place × Place)} {e : Place × Place}
    (h : s.layer p = .map entries) (he : e ∈ entries) : e.1 ∈ s.parts p ∧ e.2 ∈ s.parts p := by
  rw [parts, h]
  exact ⟨List.mem_flatMap.mpr ⟨e, he, by simp⟩, List.mem_flatMap.mpr ⟨e, he, by simp⟩⟩

end Parts

theorem deep_of_notatedBelow (s : Store) (room : Nat) (above : List Place) (p : Place) :
    Ensures (fun u => u = .tooDeep → Deep s.Descends room (above, p)) (fun _ => True)
      (s.notatedBelow room above p) := by
  induction room generalizing above p with
  | zero => exact fun _ => trivial
  | succ room ih =>
    have inner : ∀ q ∈ s.parts p, (p ∈ above → ∃ items, s.layer p = .set items) →
        Ensures (fun u => u = .tooDeep → Deep s.Descends (room + 1) (above, p)) (fun _ => True)
          (s.notatedBelow room (p :: above) q) := fun q hq hset =>
      (ih (p :: above) q).blame fun u hu hd => ⟨(p :: above, q), ⟨rfl, hq, hset⟩, hu hd⟩
    have unmet : ∀ {P : Prop}, ¬ above.contains p = true → p ∈ above → P := fun hn hp =>
      absurd (List.contains_iff_mem.mpr hp) hn
    have listed : ∀ items, s.layer p = .list items → ¬ above.contains p = true →
        Ensures (fun u => u = .tooDeep → Deep s.Descends (room + 1) (above, p)) (fun _ => True)
          ((items.mapM (s.notatedBelow room (p :: above))).map Spelling.list) :=
      fun items hl hn => (ensures_mapM fun q hq =>
        inner q (parts_list hl ▸ hq) (unmet hn)).map fun _ _ => trivial
    cases p with
    | pair id index =>
      rw [notatedBelow]
      dsimp only
      split
      · trivial
      · rename_i hn
        have hparts := parts_pair (s := s) (p := .pair id index) rfl
        refine (inner _ (by simp [hparts]) (unmet hn)).bind fun _ _ => ?_
        exact (inner _ (by simp [hparts]) (unmet hn)).bind fun _ _ => trivial
    | node id =>
      rw [notatedBelow]
      dsimp only
      split
      · rename_i a _
        cases a.notated? with
        | some t => trivial
        | none => exact fun hu => by cases hu
      · split
        · trivial
        · exact listed _ (by simp only [layer, ‹s.datum id = _›]) ‹_›
      · split
        · trivial
        · exact listed _ (by simp only [layer, ‹s.datum id = _›]) ‹_›
      · rename_i items hd
        have hl : s.layer (.node id) = .set (items.map .node) := by simp only [layer, hd]
        refine (ensures_mapM fun n hn => inner _ ?_ fun _ => ⟨_, hl⟩).map fun _ _ => trivial
        rw [parts_set hl]
        exact List.mem_map_of_mem hn
      · split
        · trivial
        · rename_i entries hd hn
          have hl : s.layer (.node id) = .map (entries.map fun e => (.node e.1, .node e.2)) := by
            simp only [layer, hd]
          refine (ensures_mapM (R := fun _ => True) fun e he => ?_).map fun _ _ => trivial
          have hparts := mem_parts_map hl (List.mem_map_of_mem he)
          refine (inner _ hparts.1 (unmet hn)).bind fun _ _ => ?_
          exact (inner _ hparts.2 (unmet hn)).bind fun _ _ => trivial

end Store

namespace Value

/-- A value stands inside another, at any depth, or is the same. -/
def Holds (v w : Value) : Prop :=
  w.store = v.store ∧ Relation.ReflTransGen (fun p q => q ∈ v.store.parts p) v.place w.place

theorem Holds.part {v : Value} {p q : Place} (h : v.Holds ⟨v.store, p⟩) (hq : q ∈ v.store.parts p) :
    v.Holds ⟨v.store, q⟩ := ⟨rfl, h.2.tail hq⟩

/-- What the layer of a value shows stands inside it. -/
theorem Holds.shown {v w : Value} (h : v.Holds w) :
    match w.layer with
    | .pair a b => v.Holds a ∧ v.Holds b
    | .list items => ∀ x ∈ items, v.Holds x
    | .map entries => ∀ e ∈ entries, v.Holds e.1 ∧ v.Holds e.2
    | _ => True := by
  obtain ⟨s, p⟩ := w
  obtain rfl : s = v.store := h.1
  unfold Value.layer
  cases hl : v.store.layer p with
  | pair first second =>
    have hparts := Store.parts_pair hl
    exact ⟨h.part (by simp [hparts]), h.part (by simp [hparts])⟩
  | list items => exact List.forall_mem_map.mpr fun q hq => h.part (Store.parts_list hl ▸ hq)
  | map entries =>
    refine List.forall_mem_map.mpr fun e he => ?_
    have hparts := Store.mem_parts_map hl he
    exact ⟨h.part hparts.1, h.part hparts.2⟩
  | _ => trivial

theorem closed_holds (v : Value) : Catalog.Closed v.Holds where
  pair {w _ _} h hl := by
    have hl : w.layer = _ := hl
    simpa only [hl] using h.shown
  list {w _} h hl := by
    have hl : w.layer = _ := hl
    simpa only [hl] using h.shown
  map {w _} h hl := by
    have hl : w.layer = _ := hl
    simpa only [hl] using h.shown

theorem deep_of_notated {w : Value} (h : ValueLike.notated w = .error .tooDeep) :
    Deep w.store.Descends w.store.room ([], w.place) := by
  have hdeep := w.store.deep_of_notatedBelow w.store.room [] w.place
  have hnotated : w.store.notatedBelow w.store.room [] w.place = .error .tooDeep := h
  rw [hnotated] at hdeep
  exact hdeep rfl

end Value

end Formulary.Yaml
