import Formulary.Catalog.Document
import Formulary.Proofs.Catalog
import Mathlib.Data.List.Forall2

/-! # When a reader succeeds

The readers of a document stop at their first fault. Here each is turned around: it gives a result
exactly if certain parts are there and have certain texts. The results of a list stand against its
items one by one.
-/

namespace Formulary
set_option autoImplicit false

/-! ## Results and lists of them -/

section Results

variable {α β ε : Type}

theorem bind_eq_ok (x : Except ε α) (f : α → Except ε β) (b : β) :
    (x >>= f) = .ok b ↔ ∃ a, x = .ok a ∧ f a = .ok b := by
  cases x <;> simp [bind, Except.bind]

theorem pure_eq_ok (a b : α) : (pure a : Except ε α) = .ok b ↔ a = b := by
  simp [pure, Except.pure]

theorem mapM_eq_ok (f : α → Except ε β) (xs : List α) (ys : List β) :
    xs.mapM f = .ok ys ↔ List.Forall₂ (fun x y => f x = .ok y) xs ys := by
  induction xs generalizing ys with
  | nil => rw [List.mapM_nil, pure_eq_ok, List.forall₂_nil_left_iff, eq_comm]
  | cons x xs ih =>
    rw [List.mapM_cons, bind_eq_ok, List.forall₂_cons_left_iff]
    refine exists_congr fun y => ?_
    rw [bind_eq_ok]
    constructor
    · rintro ⟨hy, zs, hzs, he⟩
      exact ⟨zs, hy, (ih zs).mp hzs, ((pure_eq_ok _ _).mp he).symm⟩
    · rintro ⟨zs, hy, hzs, rfl⟩
      exact ⟨hy, zs, (ih zs).mpr hzs, (pure_eq_ok _ _).mpr rfl⟩

theorem forall₂_append_left {R : α → β → Prop} (xs xs' : List α) (ys : List β) :
    List.Forall₂ R (xs ++ xs') ys ↔
      ∃ zs zs', ys = zs ++ zs' ∧ List.Forall₂ R xs zs ∧ List.Forall₂ R xs' zs' := by
  constructor
  · intro h
    induction xs generalizing ys with
    | nil => exact ⟨[], ys, rfl, .nil, h⟩
    | cons x xs ih =>
      rw [List.cons_append, List.forall₂_cons_left_iff] at h
      obtain ⟨y, ys, hy, hys, rfl⟩ := h
      obtain ⟨zs, zs', rfl, hzs, hzs'⟩ := ih ys hys
      exact ⟨y :: zs, zs', rfl, .cons hy hzs, hzs'⟩
  · rintro ⟨zs, zs', rfl, h, h'⟩
    exact List.rel_append h h'

/-- Where every item has a result, all have. -/
theorem exists_forall₂ {R : α → β → Prop} {xs : List α} (h : ∀ x ∈ xs, ∃ y, R x y) :
    ∃ ys, List.Forall₂ R xs ys := by
  induction xs with
  | nil => exact ⟨[], .nil⟩
  | cons x xs ih =>
    obtain ⟨y, hy⟩ := h x (List.mem_cons_self ..)
    obtain ⟨ys, hys⟩ := ih fun x' hx' => h x' (List.mem_cons_of_mem _ hx')
    exact ⟨y :: ys, .cons hy hys⟩

theorem forall₂_exists_right {R : α → β → Prop} {xs : List α} {ys : List β}
    (h : List.Forall₂ R xs ys) {x : α} (hx : x ∈ xs) : ∃ y ∈ ys, R x y := by
  induction h with
  | nil => cases hx
  | cons hr _ ih =>
    rcases List.mem_cons.mp hx with rfl | hx
    · exact ⟨_, List.mem_cons_self .., hr⟩
    · obtain ⟨y, hy, hr⟩ := ih hx
      exact ⟨y, List.mem_cons_of_mem _ hy, hr⟩

end Results

namespace OperandType

theorem ofName?_eq_some (s : Text) (t : OperandType) : ofName? s = some t ↔ s = t.name := by
  unfold ofName?
  constructor
  · intro h
    split at h
    · rename_i hs
      cases h
      exact beq_iff_eq.mp hs
    · split at h
      · rename_i hs
        cases h
        exact beq_iff_eq.mp hs
      · split at h
        · rename_i hs
          cases h
          exact beq_iff_eq.mp hs
        · cases h
  · rintro rfl
    cases t <;> decide

end OperandType

namespace Catalog
open ValueLike

variable {α : Type} [ValueLike α]

/-! ## Single values -/

theorem text?_str {v : α} {t : Text} (h : layer v = .str t) : text? v = some t := by
  rw [text?, text, h]
  rfl

theorem textOf_eq_ok (v : α) (t : Text) : textOf v = .ok t ↔ text? v = some t := by
  rw [textOf, text?]
  cases text v <;> simp [Except.mapError, Except.toOption]

theorem typeOfValue_eq_ok (v : α) (t : OperandType) :
    typeOfValue v = .ok t ↔ layer v = .str t.name := by
  have hn : namedType? v = some t ↔ layer v = .str t.name := by
    unfold namedType?
    split
    · rename_i s hs
      rw [OperandType.ofName?_eq_some, hs, Layer.str.injEq]
    · rename_i hs
      simp only [reduceCtorEq, false_iff]
      exact hs _
  unfold typeOfValue
  split
  · rename_i u hu
    rw [← hn, hu, Except.ok.injEq, Option.some.injEq]
  · rename_i hu
    rw [← hn, hu]
    split <;> simp

theorem readVariable_eq_ok (key name : α) (x : Variable) :
    readVariable key name = .ok x ↔ text? name = some x.name ∧ layer key = .str x.type.name := by
  unfold readVariable
  simp only [bind_eq_ok, textOf_eq_ok, typeOfValue_eq_ok, pure_eq_ok]
  constructor
  · rintro ⟨t, ht, u, hu, rfl⟩
    exact ⟨ht, hu⟩
  · rintro ⟨ht, hu⟩
    exact ⟨_, ht, _, hu, rfl⟩

theorem fieldOf_eq_ok (v : α) (name : Text) (x : α) :
    fieldOf v name = .ok x ↔ optionalField v name = some x := by
  unfold fieldOf optionalField
  split
  · split <;> simp [*]
  · simp

/-! ## Pairs and operators -/

theorem readPair_eq_ok (v : α) (p : TypePair) :
    readPair v = .ok p ↔ ∃ l r, optionalField v "left" = some l ∧ layer l = .str p.left.name ∧
      optionalField v "right" = some r ∧ layer r = .str p.right.name := by
  unfold readPair
  simp only [bind_eq_ok, fieldOf_eq_ok, typeOfValue_eq_ok, pure_eq_ok]
  constructor
  · rintro ⟨l, hl, tl, htl, r, hr, tr, htr, rfl⟩
    exact ⟨l, r, hl, htl, hr, htr⟩
  · rintro ⟨l, r, hl, htl, hr, htr⟩
    exact ⟨l, hl, _, htl, r, hr, _, htr, rfl⟩

theorem readOperator_eq_ok (v : α) (op : Operator) :
    readOperator v = .ok op ↔ ∃ s items, optionalField v "symbol" = some s ∧
      text? s = some op.symbol ∧
      itemsAt ("operators." ++ op.symbol ++ ".valid_types") (optionalField v "valid_types") =
        .ok items ∧
      List.Forall₂ (fun w p => readPair w = .ok p) items op.pairs := by
  unfold readOperator
  simp only [bind_eq_ok, fieldOf_eq_ok, textOf_eq_ok, mapM_eq_ok, pure_eq_ok]
  constructor
  · rintro ⟨s, hs, t, ht, items, hi, pairs, hp, rfl⟩
    exact ⟨s, items, hs, ht, hi, hp⟩
  · rintro ⟨s, items, hs, ht, hi, hp⟩
    exact ⟨s, hs, _, ht, items, hi, _, hp, rfl⟩

/-! ## Whole documents -/

theorem readParts_eq_ok (entries : List (α × α)) (vs : List Variable) (ops : List Operator) :
    readParts entries = .ok (vs, ops) ↔ readVariables (lookup? entries "variables") = .ok vs ∧
      readOperators (lookup? entries "operators") = .ok ops := by
  unfold readParts
  simp only [bind_eq_ok, pure_eq_ok, Prod.mk.injEq]
  constructor
  · rintro ⟨vs', hv, ops', ho, rfl, rfl⟩
    exact ⟨hv, ho⟩
  · rintro ⟨hv, ho⟩
    exact ⟨_, hv, _, ho, rfl, rfl⟩

/-- A document is a catalog if its parts can be read and can be put together. -/
theorem ofEntries_eq_ok (entries : List (α × α)) (c : Catalog) :
    ofEntries entries = .ok c ↔
      readVariables (lookup? entries "variables") = .ok c.declared ∧
      readOperators (lookup? entries "operators") = .ok c.operators := by
  rw [← readParts_eq_ok]
  unfold ofEntries
  cases readParts entries with
  | error m => simp
  | ok parts =>
    obtain ⟨vs, ops⟩ := parts
    have hm := make_eq_ok vs ops c
    simp only [Except.ok.injEq, Prod.mk.injEq]
    constructor
    · intro h
      cases hk : make vs ops with
      | error o => simp [hk, Except.mapError] at h
      | ok c' =>
        simp only [hk, Except.mapError, Except.ok.injEq] at h
        subst h
        obtain ⟨-, -, hd, ho⟩ := hm.mp hk
        exact ⟨hd.symm, ho.symm⟩
    · rintro ⟨rfl, rfl⟩
      rw [hm.mpr ⟨c.declarable, c.listable, rfl, rfl⟩]
      rfl

/-! ## Documents that are too deep -/

section Deep

variable {β γ : Type} {P : α → Prop}

/-- The values of a kind have only such values inside. -/
structure Closed (P : α → Prop) : Prop where
  pair {v a b : α} (h : P v) (hl : layer v = .pair a b) : P a ∧ P b
  list {v : α} {items : List α} (h : P v) (hl : layer v = .list items) : ∀ w ∈ items, P w
  map {v : α} {entries : List (α × α)} (h : P v) (hl : layer v = .map entries) :
    ∀ e ∈ entries, P e.1 ∧ P e.2

/-- If a reader is stopped by something too deep, it is because a value of a kind is too deep to be
spelled; else its result is as said. -/
def Blames (P : α → Prop) (Q : β → Prop) : Read β → Prop
  | .ok b => Q b
  | .error (.fault _) => True
  | .error .tooDeep => ∃ w, P w ∧ notated w = .error .tooDeep

theorem Blames.bind {Q : β → Prop} {R : γ → Prop} {x : Read β} {f : β → Read γ}
    (h : Blames P Q x) (hf : ∀ b, Q b → Blames P R (f b)) : Blames P R (x >>= f) := by
  match x, h with
  | .ok b, h => exact hf b h
  | .error (.fault m), _ => trivial
  | .error .tooDeep, h => exact h

theorem blames_mapM {f : β → Read γ} {xs : List β}
    (h : ∀ x ∈ xs, Blames P (fun _ => True) (f x)) : Blames P (fun _ => True) (xs.mapM f) := by
  induction xs with
  | nil => trivial
  | cons x xs ih =>
    obtain ⟨hx, hxs⟩ := List.forall_mem_cons.mp h
    rw [List.mapM_cons]
    exact hx.bind fun _ _ => (ih hxs).bind fun _ _ => trivial

theorem blames_textOf {v : α} (h : P v) : Blames P (fun _ => True) (textOf v) := by
  unfold textOf text
  split
  · trivial
  · trivial
  · trivial
  · cases hn : notated v with
    | ok t => trivial
    | error e =>
      cases e with
      | tooLong => trivial
      | tooDeep => exact ⟨v, h, hn⟩

theorem blames_typeOfValue {v : α} (h : P v) : Blames P (fun _ => True) (typeOfValue v) := by
  unfold typeOfValue
  split
  · trivial
  · cases hn : notated v with
    | ok t => trivial
    | error e =>
      cases e with
      | tooLong => trivial
      | tooDeep => exact ⟨v, h, hn⟩

section Closed

variable (hc : Closed P)
include hc

theorem blames_itemsIn (place : Text) {v : α} (h : P v) :
    Blames P (fun items => ∀ w ∈ items, P w) (itemsIn place v) := by
  unfold itemsIn
  split
  · exact List.forall_mem_nil _
  · exact hc.list h ‹_›
  · obtain ⟨ha, hb⟩ := hc.pair h ‹_›
    exact List.forall_mem_cons.mpr ⟨ha, List.forall_mem_singleton.mpr hb⟩
  · trivial

theorem blames_itemsAt (place : Text) {v? : Option α} (h : ∀ v ∈ v?, P v) :
    Blames P (fun items => ∀ w ∈ items, P w) (itemsAt place v?) := by
  cases v? with
  | none => exact List.forall_mem_nil _
  | some v => exact blames_itemsIn hc place (h v rfl)

omit hc in
theorem closed_lookup? {entries : List (α × α)} (h : ∀ e ∈ entries, P e.1 ∧ P e.2) (name : Text) :
    ∀ v ∈ lookup? entries name, P v := by
  intro v hv
  obtain ⟨e, he, rfl⟩ := Option.map_eq_some_iff.mp hv
  exact (h e (List.mem_of_find?_eq_some he)).2

theorem closed_optionalField {v : α} (h : P v) (name : Text) :
    ∀ w ∈ optionalField v name, P w := by
  unfold optionalField
  split
  · exact closed_lookup? (hc.map h ‹_›) name
  · exact fun w hw => by cases hw

theorem blames_fieldOf {v : α} (h : P v) (name : Text) : Blames P P (fieldOf v name) := by
  have hfield := closed_optionalField hc h name
  cases hf : fieldOf v name with
  | ok w => exact hfield w ((fieldOf_eq_ok v name w).mp hf)
  | error e =>
    unfold fieldOf at hf
    split at hf
    · split at hf
      · cases hf
      · cases hf
        trivial
    · cases hf
      trivial

theorem blames_readGroup {e : α × α} (h : P e.1 ∧ P e.2) :
    Blames P (fun _ => True) (readGroup e) := by
  refine (blames_textOf h.1).bind fun place _ => ?_
  refine (blames_itemsIn hc _ h.2).bind fun names hnames => blames_mapM fun name hname => ?_
  exact (blames_textOf (hnames name hname)).bind fun _ _ =>
    (blames_typeOfValue h.1).bind fun _ _ => trivial

theorem blames_readVariables {v? : Option α} (h : ∀ v ∈ v?, P v) :
    Blames P (fun _ => True) (readVariables v?) := by
  have hentries : Blames P (fun entries => ∀ e ∈ entries, P e.1 ∧ P e.2)
      (v?.elim (.ok []) entriesIn) := by
    cases v? with
    | none => exact List.forall_mem_nil _
    | some v =>
      show Blames P _ (entriesIn v)
      unfold entriesIn
      split
      · exact hc.map (h v rfl) ‹_›
      · split
        · exact List.forall_mem_nil _
        · trivial
  refine hentries.bind fun entries he => ?_
  exact (blames_mapM fun e hm => blames_readGroup hc (he e hm)).bind fun _ _ => trivial

theorem blames_readPair {v : α} (h : P v) : Blames P (fun _ => True) (readPair v) := by
  refine (blames_fieldOf hc h "left").bind fun left hleft => ?_
  refine (blames_typeOfValue hleft).bind fun _ _ => ?_
  refine (blames_fieldOf hc h "right").bind fun right hright => ?_
  exact (blames_typeOfValue hright).bind fun _ _ => trivial

theorem blames_readOperator {v : α} (h : P v) : Blames P (fun _ => True) (readOperator v) := by
  refine (blames_fieldOf hc h "symbol").bind fun field hfield => ?_
  refine (blames_textOf hfield).bind fun symbol _ => ?_
  refine (blames_itemsAt hc _ (closed_optionalField hc h "valid_types")).bind fun items hitems => ?_
  exact (blames_mapM fun w hw => blames_readPair hc (hitems w hw)).bind fun _ _ => trivial

theorem blames_readOperators {v? : Option α} (h : ∀ v ∈ v?, P v) :
    Blames P (fun _ => True) (readOperators v?) :=
  (blames_itemsAt hc _ h).bind fun _ hitems =>
    blames_mapM fun w hw => blames_readOperator hc (hitems w hw)

/-- What is too deep in a document is a value that is to be spelled. -/
theorem exists_deep_of_ofEntries {entries : List (α × α)} (h : ∀ e ∈ entries, P e.1 ∧ P e.2)
    (hd : ofEntries entries = .error .tooDeep) : ∃ w, P w ∧ notated w = .error .tooDeep := by
  have hparts : Blames P (fun _ => True) (readParts entries) :=
    (blames_readVariables hc (closed_lookup? h "variables")).bind fun _ _ =>
      (blames_readOperators hc (closed_lookup? h "operators")).bind fun _ _ => trivial
  unfold ofEntries at hd
  cases hr : readParts entries with
  | error m =>
    rw [hr] at hparts hd
    cases m with
    | fault m => cases hd
    | tooDeep => exact hparts
  | ok parts =>
    simp only [hr] at hd
    cases hm : make parts.1 parts.2 <;> simp [hm, Except.mapError] at hd

theorem exists_deep_of_ofDocument {v : α} (h : P v) (hd : ofDocument v = .error .tooDeep) :
    ∃ w, P w ∧ notated w = .error .tooDeep := by
  unfold ofDocument at hd
  split at hd
  · exact exists_deep_of_ofEntries hc (hc.map h ‹_›) hd
  · cases hd

end Closed

end Deep

end Catalog

end Formulary
