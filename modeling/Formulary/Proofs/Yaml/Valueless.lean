import Formulary.Proofs.Yaml.Nesting
import Formulary.Proofs.Yaml.Scalar

/-! # Texts without a value

A text can be refused for its form. It can also be without a value although its form is right, and
then the reason stands in its words: a plain scalar asks for a value that it does not have, a tag
that is written out does not fit, an escape names no code point, or the number of a version is too
long. Else something in it goes down as far as the host has room.
-/

namespace Formulary.Yaml
set_option autoImplicit false

/-! ## Faults of values -/

/-- Why words of right form have no value. -/
inductive Unvalued (ws : List Word) : ScalarFault → Prop where
  /-- A plain scalar asks for a value by its form. -/
  | plain {t : Text} {f : ScalarFault} (h : .scalar t true ∈ ws) (hf : Unreadable t f) : Unvalued ws f
  /-- A text has a tag that is written out, or the open tag and the form of a plain scalar. -/
  | tagged {tag : Tag} {t : Text} {read : Text → Except Fault Atom} {f : ScalarFault}
    (h : IsWritten ws tag ∨ IsTagName ws "!" ∧ tag = .ofPlain t) (ht : IsText ws t)
    (hr : scalarReader? tag = some read) (hf : read t = .error (.scalar f)) : Unvalued ws f
  | mapping (h : IsWritten ws .timestamp) : Unvalued ws .timestampOfMapping

/-- What the nodes of a graph are refused for, which come of words. -/
inductive BuildFault (d : Depths) (ws : List Word) (g : Graph) : Fault → Prop where
  | form (p : Problem) (spot? : Option Spot) : BuildFault d ws g (.problem p spot?)
  | value {f : ScalarFault} (h : Unvalued ws f) : BuildFault d ws g (.scalar f)
  | merges {id : NodeId} (h : Deep g.Merges (d.room .merges + 1) id) :
    BuildFault d ws g (.tooDeep .merges)
  | defaults {id : NodeId} (h : Deep g.StandsFor (d.room .defaults) id) :
    BuildFault d ws g (.tooDeep .defaults)

section Readers

variable {d : Depths} {ws : List Word} {g₀ : Graph} {tag : Tag} {t : Text}
  {read : Text → Except Fault Atom}

theorem readers_not_deep (hread : scalarReader? tag = some read) (task : Task) :
    read t ≠ .error (.tooDeep task) := by
  have scalar : ∀ {α : Type} (x : Except ScalarFault α),
      x.mapError Fault.scalar ≠ .error (.tooDeep task) := by
    intro α x
    cases x <;> simp [Except.mapError]
  cases tag
  case bool | int | float | timestamp =>
    cases hread
    exact scalar _
  case binary =>
    cases hread
    unfold binaryScalar
    dsimp only
    split
    · simp
    · simp
  all_goals cases hread
  all_goals simp

/-- A reader fails for the form of a text or because the text has no value. -/
theorem ensures_read (hread : scalarReader? tag = some read)
    (h : ∀ f, read t = .error (.scalar f) → Unvalued ws f) :
    Ensures (BuildFault d ws g₀) (fun _ => True) (read t) := by
  cases hr : read t with
  | ok a => trivial
  | error f =>
    cases f with
    | problem p spot? => exact .form p spot?
    | scalar f => exact .value (h f hr)
    | tooDeep task => exact absurd hr (readers_not_deep hread task)

theorem ensures_reader (hmade : ∀ w ∈ ws, w.IsMade) (hn : (⟨tag, .scalar t⟩ : Node).ComesOf ws)
    (hread : scalarReader? tag = some read) :
    Ensures (BuildFault d ws g₀) (fun _ => True) (read t) := by
  obtain ⟨ht, rfl | hw | ⟨rfl, rfl | hmem | hopen⟩⟩ := hn
  · cases hread
    trivial
  · exact ensures_read hread fun f hf => .tagged (.inl hw) ht hread hf
  · have hnull : Tag.ofPlain [] = .null := by decide
    rw [hnull] at hread
    cases hread
    trivial
  · exact ensures_read hread fun f hf =>
      .plain hmem ((unreadable_iff (hmade _ hmem) f).mp ⟨read, hread, hf⟩)
  · exact ensures_read hread fun f hf => .tagged (.inr ⟨hopen, rfl⟩) ht hread hf

end Readers

/-! ## Values -/

namespace Building

variable {h : Host} {ws : List Word} {g₀ g : Graph}

/-- Values in the making for a host, of a graph that merges have made of one that was parsed. -/
structure Of (h : Host) (ws : List Word) (g₀ : Graph) (b : Building) : Prop where
  host : b.host = h
  graph : g₀.Derived ws b.graph

theorem ensures_text (d : Depths) (hg : g₀.Derived ws g) (id : NodeId) :
    Ensures (BuildFault d ws g₀) (IsText ws) (scalarText g (d.room .defaults) id) := by
  refine (ensures_scalarText hg _ id).blame fun f hf => ?_
  cases hf with
  | form p spot? => exact .form p spot?
  | deep hd => exact .defaults hd

/-- A collection that is to be a scalar has a tag that is written out. -/
theorem ensures_atom_collection (d : Depths) (hg : g₀.Derived ws g) {id : NodeId}
    (ht : IsCollectionTag ws (g.tag id)) (hd : emptyDatum? (g.tag id) = none) :
    Ensures (BuildFault d ws g₀) (fun _ => True) (atom d g id) := by
  have hcase : g.tag id = .str ∧ HasTag ws ∨ IsWritten ws (g.tag id) := by
    rcases ht with he | he | hcase
    · rw [he] at hd
      cases hd
    · rw [he] at hd
      cases hd
    · exact hcase
  unfold atom
  split
  · exact .form _ _
  · rename_i read hread
    refine (ensures_text d hg id).bind fun t htext => ?_
    split
    · rename_i htime _
      rw [htime] at hcase
      exact .value (.mapping (hcase.resolve_left fun hs => by cases hs.1))
    · rcases hcase with ⟨hstr, -⟩ | hw
      · rw [hstr] at hread
        cases hread
        trivial
      · exact ensures_read hread fun f hf => .tagged (.inl hw) htext hread hf

section Made

variable (hmade : ∀ w ∈ ws, w.IsMade) {b : Building}
include hmade

theorem ensures_atom (d : Depths) (hg : g₀.Derived ws g) {id : NodeId}
    (hd : emptyDatum? (g.tag id) = none) :
    Ensures (BuildFault d ws g₀) (fun _ => True) (atom d g id) := by
  cases hc : g.content id with
  | sequence items => exact ensures_atom_collection d hg (hg.comesOf.of_content hc) hd
  | mapping entries => exact ensures_atom_collection d hg (hg.comesOf.of_content hc) hd
  | scalar t =>
    obtain ⟨room, hroom⟩ : ∃ n, d.room .defaults = n + 1 :=
      Nat.exists_eq_add_of_le' (Nat.le_trans (by decide) (d.ample .defaults))
    have htext : scalarText g (d.room .defaults) id = .ok t := by rw [hroom, scalarText, hc]
    unfold atom
    rw [hc]
    split
    · exact .form _ _
    · rename_i read hread
      rw [htext]
      refine Ensures.bind (Q := (· = t)) rfl fun text ht => ?_
      subst ht
      split
      · cases ‹Content.scalar text = .mapping _›
      · exact ensures_reader hmade (hg.comesOf.of_content hc) hread

theorem ensures_begin (hb : b.Of h ws g₀) (id : NodeId) :
    Ensures (BuildFault h.toDepths ws g₀) (Of h ws g₀) (b.begin id) := by
  unfold begin
  split
  · exact hb
  · exact ⟨hb.host, hb.graph⟩
  · rename_i hd
    rw [hb.host]
    exact (ensures_atom hmade h.toDepths hb.graph hd).map fun _ _ => ⟨hb.host, hb.graph⟩

theorem ensures_beginEntry (hb : b.Of h ws g₀) (e : Entry) :
    Ensures (BuildFault h.toDepths ws g₀) (Of h ws g₀) (b.beginEntry e) := by
  unfold beginEntry
  refine (ensures_begin hmade hb e.1).bind fun b' hb' => ?_
  split
  · exact ensures_begin hmade hb' e.2
  · exact .form _ _

omit hmade in
theorem ensures_merge (hb : b.Of h ws g₀) {id : NodeId} (hid : b.graph.IsMapping id) :
    Ensures (BuildFault h.toDepths ws g₀) (g₀.Derived ws) (b.graph.merge b.host.toDepths id) := by
  rw [hb.host]
  refine (Graph.ensures_merge h.toDepths hb.graph hid).blame fun f hf => ?_
  cases hf with
  | form p spot? => exact .form p spot?
  | deep hd => exact .merges hd

theorem ensures_fillEntries (hb : b.Of h ws g₀) (id : NodeId) :
    Ensures (BuildFault h.toDepths ws g₀) (fun r => r.1.Of h ws g₀) (b.fillEntries id) := by
  unfold fillEntries
  split
  · refine (ensures_merge hb ⟨_, ‹_›⟩).bind fun g hg => ?_
    have start : Of h ws g₀ { b with graph := g } := ⟨hb.host, hg⟩
    exact (ensures_foldlM (fun b' hb' e _ => ensures_beginEntry hmade hb' e) start).bind
      fun b' hb' => hb'
  · exact .form _ _

theorem ensures_fillPairs (hb : b.Of h ws g₀) (id : NodeId) :
    Ensures (BuildFault h.toDepths ws g₀) (fun r => r.1.Of h ws g₀) (b.fillPairs id) := by
  unfold fillPairs
  split
  · refine (ensures_foldlM (R := fun r : Building × List Entry => r.1.Of h ws g₀)
      (fun r hr item _ => ?_) hb).bind fun r hr => hr
    split
    · refine (ensures_begin hmade hr _).bind fun b' hb' => ?_
      exact (ensures_begin hmade hb' _).bind fun b'' hb'' => hb''
    · exact .form _ _
  · exact .form _ _

theorem ensures_fill (hb : b.Of h ws g₀) (id : NodeId) :
    Ensures (BuildFault h.toDepths ws g₀) (Of h ws g₀) (b.fill id) := by
  have put : ∀ {b' : Building} {d : Datum}, b'.Of h ws g₀ → (b'.put id d).Of h ws g₀ :=
    fun hb' => ⟨hb'.host, hb'.graph⟩
  unfold fill
  split
  · split
    · exact (ensures_foldlM (R := Of h ws g₀)
        (fun b' hb' item _ => ensures_begin hmade hb' item) hb).bind fun b' hb' => put hb'
    · exact .form _ _
  · exact (ensures_fillEntries hmade hb id).bind fun r hr => put hr
  · exact (ensures_fillEntries hmade hb id).bind fun r hr => put hr
  · exact (ensures_fillPairs hmade hb id).bind fun r hr => put hr
  · exact hb

theorem ensures_fillAll (rounds : Nat) (hb : b.Of h ws g₀) :
    Ensures (BuildFault h.toDepths ws g₀) (Of h ws g₀) (b.fillAll rounds) := by
  induction rounds generalizing b with
  | zero => exact hb
  | succ rounds ih =>
    cases hw : b.waiting with
    | nil =>
      rw [fillAll_done hw]
      exact hb
    | cons id rest =>
      rw [fillAll_round hw]
      have start : Of h ws g₀ { b with waiting := [] } := ⟨hb.host, hb.graph⟩
      exact (ensures_foldlM (fun b' hb' item _ => ensures_fill hmade hb' item) start).bind
        fun b' hb' => ih hb'

/-- The value of a document can be spelled as deep as the host has room. -/
theorem ensures_value {d : Document} (hd : d.graph.ComesOf ws) :
    Ensures (BuildFault h.toDepths ws d.graph) (fun v => v.store.room = h.room .spelling)
      (d.value h) := by
  unfold Document.value
  have hstart : Of h ws d.graph (start h d.graph) := ⟨rfl, .refl hd⟩
  refine (ensures_begin hmade hstart d.root).bind fun b hb => ?_
  refine (ensures_fillAll hmade _ hb).bind fun b' hb' => ?_
  show b'.host.room .spelling = h.room .spelling
  rw [hb'.host]

end Made

end Building

/-! ## Texts without a value -/

/-- Why a text has no value although its form is right. -/
inductive Valueless (text : Text) : ScalarFault → Prop where
  | unvalued {f : ScalarFault} (h : Unvalued (wordsOf text) f) : Valueless text f
  | escape {n : Nat} (h : .broken (.scalar (.codePoint n)) ∈ wordsOf text) (hn : 0x110000 ≤ n) :
    Valueless text (.codePoint n)
  | version {n : Nat} (h : .broken (.scalar (.numeral (.tooLong n))) ∈ wordsOf text)
    (hn : Numeral.digitLimit < n) : Valueless text (.numeral (.tooLong n))

/-- What goes too deep in a text for a host. Of the collections that are open, at least every second
one is opened by a word. -/
inductive TooDeep (h : Host) (text : Text) : Task → Prop where
  | collections {front rest : List Word} {e : Nat} (hw : wordsOf text = front ++ rest)
    (he : LeaveOpen front e) (hd : h.room .collections < 2 * e) : TooDeep h text .collections
  | merges {d : Document} {id : NodeId} (hp : document h.toDepths text = .ok (some d))
    (hd : Deep d.graph.Merges (h.room .merges + 1) id) : TooDeep h text .merges
  | defaults {d : Document} {id : NodeId} (hp : document h.toDepths text = .ok (some d))
    (hd : Deep d.graph.StandsFor (h.room .defaults) id) : TooDeep h text .defaults
  | spelling {v w : Value} (hv : read h text = .ok v) (hw : v.Holds w)
    (hd : Deep w.store.Descends (h.room .spelling) ([], w.place)) : TooDeep h text .spelling

/-- Why a text has no value for a host, and what is known of it else. -/
inductive ReadFault (h : Host) (text : Text) : Fault → Prop where
  | form (p : Problem) (spot? : Option Spot) : ReadFault h text (.problem p spot?)
  | valueless {f : ScalarFault} (hv : Valueless text f) : ReadFault h text (.scalar f)
  | tooDeep {t : Task} (hd : TooDeep h text t) : ReadFault h text (.tooDeep t)

theorem made_words (text : Text) : ∀ w ∈ wordsOf text, w.IsMade :=
  List.forall_mem_map.mpr (made_tokens text)

theorem readFault_of_parseFault {h : Host} {text : Text} {f : Fault}
    (hf : ParseFault (wordsOf text) (h.room .collections) f) : ReadFault h text f := by
  cases hf with
  | form p spot? => exact .form p spot?
  | nested hw he hl => exact .tooDeep (.collections hw he hl)
  | broken hmem =>
    have hl : LexFault f := made_words text _ hmem
    cases hl with
    | form p spot? => exact .form p spot?
    | escape hn => exact .valueless (.escape hmem hn)
    | version hn => exact .valueless (.version hmem hn)

theorem ensures_read_text (h : Host) (text : Text) :
    Ensures (ReadFault h text) (fun v => v.store.room = h.room .spelling) (read h text) := by
  have hdoc := ensures_document h.toDepths text
  unfold read
  cases hr : document h.toDepths text with
  | error f =>
    rw [hr] at hdoc
    exact readFault_of_parseFault hdoc
  | ok d? =>
    rw [hr] at hdoc
    cases d? with
    | none => rfl
    | some d =>
      refine (Building.ensures_value (made_words text) (hdoc d rfl)).blame fun f hf => ?_
      cases hf with
      | form p spot? => exact .form p spot?
      | value hv => exact .valueless (.unvalued hv)
      | merges hd => exact .tooDeep (.merges hr hd)
      | defaults hd => exact .tooDeep (.defaults hr hd)

end Formulary.Yaml
