import Formulary.Proofs.Reading
import Mathlib.Data.Nat.Digits.Lemmas

/-! # Which documents are catalogs

Plain data is a catalog exactly if it has the shape that is described here field by field, if every
declared name and every symbol has a text, and if no text is declared twice. The description looks
at the data alone; it knows nothing of the order in which the reader looks at them.
-/

namespace Formulary
set_option autoImplicit false

open ValueLike

namespace Json

/-! ## Texts of plain data -/

/-- Inside the value stands a whole number of more than 4300 digits. -/
inductive HoldsLong : Json → Prop where
  | int {i : Int} (h : 4300 < (Nat.digits 10 i.natAbs).length) : HoldsLong (.int i)
  | item {items : List Json} {v : Json} (h : v ∈ items) (hv : HoldsLong v) : HoldsLong (.list items)
  | field {fields : List (Text × Json)} {f : Text × Json} (h : f ∈ fields) (hf : HoldsLong f.2) :
    HoldsLong (.object fields)

theorem holdsLong_int (i : Int) :
    HoldsLong (.int i) ↔ 4300 < (Nat.digits 10 i.natAbs).length :=
  ⟨fun | .int h => h, .int⟩

theorem holdsLong_list (items : List Json) : HoldsLong (.list items) ↔ ∃ v ∈ items, HoldsLong v :=
  ⟨fun | .item h hv => ⟨_, h, hv⟩, fun ⟨_, h, hv⟩ => .item h hv⟩

theorem holdsLong_object (fields : List (Text × Json)) :
    HoldsLong (.object fields) ↔ ∃ f ∈ fields, HoldsLong f.2 :=
  ⟨fun | .field h hf => ⟨_, h, hf⟩, fun ⟨_, h, hf⟩ => .field h hf⟩

theorem numeral_text?_eq_none (i : Int) :
    Numeral.text? i = none ↔ 4300 < (Nat.digits 10 i.natAbs).length := by
  have hl : 4300 = Numeral.digitLimit := rfl
  rw [hl, Nat.lt_digits_length_iff (by omega), ← Nat.not_lt, Numeral.text?, Nat.pow_eq]
  simp only [ite_eq_right_iff, reduceCtorEq, imp_false]

-- The three spellings recurse through each other, and so do the three statements.
mutual

theorem notated?_eq_none : ∀ v : Json, notated? v = none ↔ HoldsLong v
  | .null => by simp only [notated?, reduceCtorEq, false_iff]; nofun
  | .bool _ => by simp only [notated?, reduceCtorEq, false_iff]; nofun
  | .int i => by rw [notated?, numeral_text?_eq_none, holdsLong_int]
  | .float _ => by simp only [notated?, reduceCtorEq, false_iff]; nofun
  | .str _ => by simp only [notated?, reduceCtorEq, false_iff]; nofun
  | .list items => by
    rw [notated?, Option.map_eq_none_iff, notatedItems?_eq_none items, holdsLong_list]
  | .object fields => by
    rw [notated?, Option.map_eq_none_iff, notatedFields?_eq_none fields, holdsLong_object]

theorem notatedItems?_eq_none :
    ∀ items : List Json, notatedItems? items = none ↔ ∃ v ∈ items, HoldsLong v
  | [] => by simp [notatedItems?]
  | v :: rest => by
    rw [List.exists_mem_cons_iff, ← notated?_eq_none v, ← notatedItems?_eq_none rest, notatedItems?]
    cases notated? v <;> cases notatedItems? rest <;> simp

theorem notatedFields?_eq_none :
    ∀ fields : List (Text × Json), notatedFields? fields = none ↔ ∃ f ∈ fields, HoldsLong f.2
  | [] => by simp [notatedFields?]
  | (k, v) :: rest => by
    rw [List.exists_mem_cons_iff, ← notated?_eq_none v, ← notatedFields?_eq_none rest,
      notatedFields?]
    cases notated? v <;> cases notatedFields? rest <;> simp

end

theorem text?_eq_none (v : Json) : text? v = none ↔ HoldsLong v := by
  have hn : ∀ t? : Option Text, (Unspelled.unlessLong t?).toOption = t? := by
    intro t?
    cases t? <;> rfl
  rw [← notated?_eq_none]
  cases v with
  | str t => simp [text?, text, ValueLike.layer, layer, notated?, Except.toOption]
  | _ => simp only [text?, text, ValueLike.layer, layer, ValueLike.notated, hn]

/-! ## Parts of plain data -/

/-- The items of a list; nothing else has items. -/
def itemList : Json → List Json
  | .list items => items
  | _ => []

/-- The fields of an object; nothing else has fields. -/
def fieldList : Json → List (Text × Json)
  | .object fields => fields
  | _ => []

/-- The field of a name, null if there is none. -/
def part (v : Json) (name : Text) : Json := (v.get? name).getD .null

/-- Null, false, a zero, or empty. -/
def Falsy : Json → Prop
  | .null => True
  | .bool b => b = false
  | .int i => i = 0
  | .float x => x.isZero = true
  | .str t => t = []
  | .list items => items = []
  | .object fields => fields = []

/-- Null or a list. -/
def NullOrList (v : Json) : Prop := v = .null ∨ v = .list v.itemList

theorem layer_eq_str (v : Json) (t : Text) : ValueLike.layer v = .str t ↔ v = .str t := by
  cases v <;> simp [ValueLike.layer, layer]

theorem lookup?_fields (fields : List (Text × Json)) (name : Text) :
    lookup? (fields.map fun f => (Json.str f.1, f.2)) name = field? fields name := by
  unfold field? lookup?
  induction fields with
  | nil => rfl
  | cons f rest ih =>
    obtain ⟨k, v⟩ := f
    have hk : isText (Json.str k) name = (k == name) := rfl
    rw [List.map_cons, List.find?_cons, List.lookup_cons, hk, Bool.beq_comm]
    cases name == k with
    | true => rfl
    | false => exact ih

theorem optionalField_eq (v : Json) (name : Text) : Catalog.optionalField v name = v.get? name := by
  cases v with
  | object fields => exact lookup?_fields fields name
  | _ => rfl

theorem isNothing_iff (v : Json) : (ValueLike.layer v).isNothing = true ↔ v.Falsy := by
  cases v <;> simp [ValueLike.layer, layer, Layer.isNothing, Falsy]

end Json

namespace Catalog
open Json

theorem itemsIn_eq_ok (place : Text) (v : Json) (xs : List Json) :
    itemsIn place v = .ok xs ↔ v.NullOrList ∧ v.itemList = xs := by
  cases v <;> simp [NullOrList, itemsIn, ValueLike.layer, Json.layer, Json.itemList, eq_comm]

theorem itemsAt_eq_ok (place : Text) (v : Json) (name : Text) (xs : List Json) :
    itemsAt place (v.get? name) = .ok xs ↔
      (v.part name).NullOrList ∧ (v.part name).itemList = xs := by
  rw [← itemsIn_eq_ok place, part]
  cases v.get? name <;> rfl

theorem entriesIn_eq_ok (v : Json) (es : List (Json × Json)) :
    entriesIn v = .ok es ↔
      (v.Falsy ∨ v = .object v.fieldList) ∧
        v.fieldList.map (fun f => (Json.str f.1, f.2)) = es := by
  rw [← isNothing_iff]
  cases v with
  | object fields => simp [entriesIn, ValueLike.layer, Json.layer, Json.fieldList]
  | _ =>
    simp only [entriesIn, ValueLike.layer, Json.layer]
    split <;> simp_all [Json.fieldList]

/-! ## What a document declares -/

/-- The names of some groups in order, each with the key of its group. -/
def namesUnder (groups : List (Text × Json)) : List (Text × Json) :=
  groups.flatMap fun g => g.2.itemList.map fun name => (g.1, name)

def declaredNames (d : Json) : List (Text × Json) := namesUnder (d.part "variables").fieldList

def listedOperators (d : Json) : List Json := (d.part "operators").itemList

/-- The text of the symbol of an operator, if there is a symbol and it has a text. -/
def symbolText? (o : Json) : Option Text := (o.get? "symbol").bind text?

/-- A declared name stands for a variable of its text and of the type of its group. -/
def DenotesVariable (n : Text × Json) (x : Variable) : Prop :=
  text? n.2 = some x.name ∧ n.1 = x.type.name

def DenotesPair (v : Json) (p : TypePair) : Prop :=
  v.get? "left" = some (.str p.left.name) ∧ v.get? "right" = some (.str p.right.name)

def DenotesOperator (o : Json) (op : Operator) : Prop :=
  symbolText? o = some op.symbol ∧ List.Forall₂ DenotesPair (o.part "valid_types").itemList op.pairs

theorem mem_namesUnder (groups : List (Text × Json)) (n : Text × Json) :
    n ∈ namesUnder groups ↔ ∃ g ∈ groups, g.1 = n.1 ∧ n.2 ∈ g.2.itemList := by
  obtain ⟨k, v⟩ := n
  simp only [namesUnder, List.mem_flatMap, List.mem_map, Prod.mk.injEq]
  constructor
  · rintro ⟨g, hg, w, hw, hk, rfl⟩
    exact ⟨g, hg, hk, hw⟩
  · rintro ⟨g, hg, hk, hw⟩
    exact ⟨g, hg, v, hw, hk, rfl⟩

theorem readGroup_eq_ok (g : Text × Json) (vs : List Variable) :
    readGroup (Json.str g.1, g.2) = .ok vs ↔ g.2.NullOrList ∧
      List.Forall₂ DenotesVariable (g.2.itemList.map fun name => (g.1, name)) vs := by
  unfold readGroup
  simp only [bind_eq_ok, textOf_eq_ok, itemsIn_eq_ok, mapM_eq_ok, readVariable_eq_ok,
    List.forall₂_map_left_iff]
  constructor
  · rintro ⟨-, -, _, ⟨hg, rfl⟩, hvs⟩
    refine ⟨hg, hvs.imp fun name x hx => ⟨hx.1, ?_⟩⟩
    exact Json.str.inj ((layer_eq_str _ _).mp hx.2)
  · rintro ⟨hg, hvs⟩
    refine ⟨g.1, rfl, _, ⟨hg, rfl⟩, hvs.imp fun name x hx => ⟨hx.1, ?_⟩⟩
    exact (layer_eq_str _ _).mpr (congrArg Json.str hx.2)

/-- The groups are read one by one, their names all in a row. -/
theorem readGroups_eq_ok (groups : List (Text × Json)) (vs : List Variable) :
    (∃ parts, List.Forall₂ (fun g xs => readGroup (Json.str g.1, g.2) = .ok xs) groups parts ∧
        parts.flatten = vs) ↔
      (∀ g ∈ groups, g.2.NullOrList) ∧
        List.Forall₂ DenotesVariable (namesUnder groups) vs := by
  induction groups generalizing vs with
  | nil => simp [namesUnder, eq_comm]
  | cons g rest ih =>
    have hu : namesUnder (g :: rest) =
        (g.2.itemList.map fun name => (g.1, name)) ++ namesUnder rest := rfl
    rw [hu, forall₂_append_left, List.forall_mem_cons]
    constructor
    · rintro ⟨parts, hp, rfl⟩
      obtain ⟨xs, parts, hx, hparts, rfl⟩ := List.forall₂_cons_left_iff.mp hp
      obtain ⟨hg, hxs⟩ := (readGroup_eq_ok g xs).mp hx
      obtain ⟨hrest, hvs⟩ := (ih parts.flatten).mp ⟨parts, hparts, rfl⟩
      exact ⟨⟨hg, hrest⟩, xs, parts.flatten, rfl, hxs, hvs⟩
    · rintro ⟨⟨hg, hrest⟩, xs, ys, rfl, hxs, hys⟩
      obtain ⟨parts, hp, rfl⟩ := (ih ys).mpr ⟨hrest, hys⟩
      exact ⟨xs :: parts, .cons ((readGroup_eq_ok g xs).mpr ⟨hg, hxs⟩) hp, rfl⟩

theorem readVariables_eq_ok (d : Json) (vs : List Variable) :
    readVariables (d.get? "variables") = .ok vs ↔
      ((d.part "variables").Falsy ∨ d.part "variables" = .object (d.part "variables").fieldList) ∧
      (∀ g ∈ (d.part "variables").fieldList, g.2.NullOrList) ∧
      List.Forall₂ DenotesVariable (declaredNames d) vs := by
  have hp : (d.get? "variables").elim (.ok []) entriesIn = entriesIn (d.part "variables") := by
    unfold part
    cases d.get? "variables" <;> rfl
  unfold readVariables declaredNames
  simp only [hp, bind_eq_ok, entriesIn_eq_ok, mapM_eq_ok, pure_eq_ok, ← readGroups_eq_ok]
  constructor
  · rintro ⟨_, ⟨hv, rfl⟩, parts, hparts, rfl⟩
    exact ⟨hv, parts, List.forall₂_map_left_iff.mp hparts, rfl⟩
  · rintro ⟨hv, parts, hparts, rfl⟩
    exact ⟨_, ⟨hv, rfl⟩, parts, List.forall₂_map_left_iff.mpr hparts, rfl⟩

theorem readPair_iff (v : Json) (p : TypePair) : readPair v = .ok p ↔ DenotesPair v p := by
  simp only [readPair_eq_ok, optionalField_eq, layer_eq_str, DenotesPair]
  constructor
  · rintro ⟨_, _, hl, rfl, hr, rfl⟩
    exact ⟨hl, hr⟩
  · rintro ⟨hl, hr⟩
    exact ⟨_, _, hl, rfl, hr, rfl⟩

theorem readOperator_iff (o : Json) (op : Operator) :
    readOperator o = .ok op ↔ (o.part "valid_types").NullOrList ∧ DenotesOperator o op := by
  simp only [readOperator_eq_ok, optionalField_eq, itemsAt_eq_ok, readPair_iff, DenotesOperator,
    symbolText?, Option.bind_eq_some_iff]
  constructor
  · rintro ⟨s, _, hs, ht, ⟨hi, rfl⟩, hp⟩
    exact ⟨hi, ⟨s, hs, ht⟩, hp⟩
  · rintro ⟨hi, ⟨s, hs, ht⟩, hp⟩
    exact ⟨s, _, hs, ht, ⟨hi, rfl⟩, hp⟩

theorem readOperators_eq_ok (d : Json) (ops : List Operator) :
    readOperators (d.get? "operators") = .ok ops ↔
      (d.part "operators").NullOrList ∧
      List.Forall₂ (fun o op => (o.part "valid_types").NullOrList ∧ DenotesOperator o op)
        (listedOperators d) ops := by
  unfold readOperators listedOperators
  simp only [bind_eq_ok, itemsAt_eq_ok, mapM_eq_ok, readOperator_iff]
  constructor
  · rintro ⟨_, ⟨hi, rfl⟩, hops⟩
    exact ⟨hi, hops⟩
  · rintro ⟨hi, hops⟩
    exact ⟨_, ⟨hi, rfl⟩, hops⟩

theorem ofDocument_eq_ok (d : Json) (c : Catalog) :
    ofDocument d = .ok c ↔ d = .object d.fieldList ∧
      readVariables (d.get? "variables") = .ok c.declared ∧
      readOperators (d.get? "operators") = .ok c.operators := by
  cases d with
  | object fields =>
    have h := ofEntries_eq_ok (fields.map fun f => (Json.str f.1, f.2)) c
    rw [lookup?_fields, lookup?_fields] at h
    simp only [Json.fieldList, true_and]
    exact h
  | _ => simp [ofDocument, ValueLike.layer, Json.layer, Json.fieldList]

/-- Plain data is never too deep to be spelled. -/
theorem ofDocument_ne_tooDeep (d : Json) : ofDocument d ≠ .error .tooDeep := by
  intro h
  have hc : Closed fun _ : Json => True :=
    ⟨fun _ _ => ⟨trivial, trivial⟩, fun _ _ _ _ => trivial, fun _ _ _ _ => ⟨trivial, trivial⟩⟩
  obtain ⟨w, -, hw⟩ := exists_deep_of_ofDocument hc trivial h
  change Unspelled.unlessLong w.notated? = .error .tooDeep at hw
  cases hn : w.notated? <;> simp [hn, Unspelled.unlessLong] at hw

/-! ## Documents that are catalogs -/

def IsTypeName (k : Text) : Prop := k = "int" ∨ k = "string"

/-- A group of names: none, or a list under the name of a type. An empty list may have any key. -/
structure IsGroup (g : Text × Json) : Prop where
  names : g.2.NullOrList
  key : g.2.itemList ≠ [] → IsTypeName g.1

def IsVariables (v : Json) : Prop :=
  v.Falsy ∨ ∃ groups, v = .object groups ∧ ∀ g ∈ groups, IsGroup g

def NamesType (v? : Option Json) : Prop := ∃ k, v? = some (.str k) ∧ IsTypeName k

/-- An operator with a symbol and at least one pair of types. -/
structure IsOperator (o : Json) : Prop where
  symbol : ∃ s, o.get? "symbol" = some s
  pairs : ∃ pairs, o.get? "valid_types" = some (.list pairs) ∧ pairs ≠ [] ∧
    ∀ p ∈ pairs, NamesType (p.get? "left") ∧ NamesType (p.get? "right")

def IsOperators (v : Json) : Prop :=
  v = .null ∨ ∃ listed, v = .list listed ∧ ∀ o ∈ listed, IsOperator o

/-- A document that is a catalog. An absent part of it counts as null. -/
structure Acceptable (d : Json) : Prop where
  object : ∃ fields, d = .object fields
  groups : IsVariables (d.part "variables")
  operators : IsOperators (d.part "operators")
  nameTexts : ∀ n ∈ declaredNames d, ∃ t, text? n.2 = some t
  symbolTexts : ∀ o ∈ listedOperators d, ∃ t, symbolText? o = some t
  distinctNames : ((declaredNames d).map fun n => text? n.2).Nodup
  distinctSymbols : ((listedOperators d).map symbolText?).Nodup

theorem isTypeName_iff (k : Text) :
    IsTypeName k ↔ ∃ t : OperandType, t.isDeclarable = true ∧ k = t.name := by
  constructor
  · rintro (rfl | rfl)
    · exact ⟨.int, rfl, rfl⟩
    · exact ⟨.string, rfl, rfl⟩
  · rintro ⟨t, ht, rfl⟩
    rcases (OperandType.isDeclarable_iff t).mp ht with rfl | rfl
    · exact .inl rfl
    · exact .inr rfl

theorem namesType_iff (v? : Option Json) :
    NamesType v? ↔ ∃ t : OperandType, t.isDeclarable = true ∧ v? = some (.str t.name) := by
  constructor
  · rintro ⟨k, hk, ht⟩
    obtain ⟨t, hd, rfl⟩ := (isTypeName_iff k).mp ht
    exact ⟨t, hd, hk⟩
  · rintro ⟨t, hd, hk⟩
    exact ⟨t.name, hk, (isTypeName_iff _).mpr ⟨t, hd, rfl⟩⟩

/-- The shape of the groups, with the keys looked at name by name. -/
theorem isVariables_iff (v : Json) :
    IsVariables v ↔ (v.Falsy ∨ v = .object v.fieldList) ∧ (∀ g ∈ v.fieldList, g.2.NullOrList) ∧
      ∀ n ∈ namesUnder v.fieldList, IsTypeName n.1 := by
  constructor
  · rintro (hf | ⟨groups, rfl, hg⟩)
    · have hn : v.fieldList = [] := by
        cases v with
        | object fields => exact hf
        | _ => rfl
      rw [hn]
      exact ⟨.inl hf, by simp, by simp [namesUnder]⟩
    · refine ⟨.inr rfl, fun g hm => (hg g hm).names, fun n hn => ?_⟩
      obtain ⟨g, hm, hk, hi⟩ := (mem_namesUnder _ n).mp hn
      rw [← hk]
      exact (hg g hm).key (List.ne_nil_of_mem hi)
  · rintro ⟨hf | ho, hl, hk⟩
    · exact .inl hf
    · refine .inr ⟨v.fieldList, ho, fun g hm => ⟨hl g hm, fun hi => ?_⟩⟩
      obtain ⟨name, hname⟩ := List.exists_mem_of_ne_nil _ hi
      exact hk (g.1, name) ((mem_namesUnder _ _).mpr ⟨g, hm, rfl, hname⟩)

theorem isOperators_iff (v : Json) :
    IsOperators v ↔ v.NullOrList ∧ ∀ o ∈ v.itemList, IsOperator o := by
  constructor
  · rintro (rfl | ⟨listed, rfl, ho⟩)
    · exact ⟨.inl rfl, by simp [Json.itemList]⟩
    · exact ⟨.inr rfl, ho⟩
  · rintro ⟨hv | hv, ho⟩
    · exact .inl hv
    · exact .inr ⟨v.itemList, hv, ho⟩

/-- An operator of the right shape whose symbol has a text is one that a catalog can list. -/
theorem IsOperator.denotes {o : Json} (h : IsOperator o) {t : Text} (ht : symbolText? o = some t) :
    (o.part "valid_types").NullOrList ∧ ∃ op, DenotesOperator o op ∧ Usable op := by
  obtain ⟨pairs, hp, hne, hpairs⟩ := h.pairs
  have hpart : o.part "valid_types" = .list pairs := by rw [part, hp]; rfl
  have hread : ∀ v ∈ pairs, ∃ p : TypePair,
      DenotesPair v p ∧ p.left.isDeclarable = true ∧ p.right.isDeclarable = true := by
    intro v hv
    obtain ⟨hl, hr⟩ := hpairs v hv
    obtain ⟨l, hdl, hl⟩ := (namesType_iff _).mp hl
    obtain ⟨r, hdr, hr⟩ := (namesType_iff _).mp hr
    exact ⟨⟨l, r⟩, ⟨hl, hr⟩, hdl, hdr⟩
  obtain ⟨ps, hps⟩ := exists_forall₂ hread
  refine ⟨.inr (by rw [hpart]; rfl), ⟨t, ps⟩, ⟨ht, ?_⟩, ?_, fun p hm => ?_⟩
  · rw [hpart]
    exact hps.imp fun v p h => h.1
  · rintro rfl
    exact hne (List.forall₂_nil_right_iff.mp hps)
  · obtain ⟨v, -, hv⟩ := forall₂_exists_right hps.flip hm
    exact hv.2

theorem DenotesOperator.isOperator {o : Json} {op : Operator} (h : DenotesOperator o op)
    (hl : (o.part "valid_types").NullOrList) (hu : Usable op) : IsOperator o := by
  obtain ⟨hs, hp⟩ := h
  obtain ⟨s, hs, -⟩ := Option.bind_eq_some_iff.mp hs
  -- Null would leave the operator without pairs.
  have hne : (o.part "valid_types").itemList ≠ [] := fun hi =>
    hu.pairs (List.forall₂_nil_left_iff.mp (hi ▸ hp))
  have hlist : o.get? "valid_types" = some (.list (o.part "valid_types").itemList) := by
    rcases hl with hl | hl
    · exact absurd (by rw [hl]; rfl) hne
    · cases hg : o.get? "valid_types" with
      | none => simp [part, hg] at hl
      | some v => simpa [part, hg] using hl
  refine ⟨⟨s, hs⟩, _, hlist, hne, fun v hv => ?_⟩
  obtain ⟨p, hm, hleft, hright⟩ := forall₂_exists_right hp hv
  obtain ⟨hdl, hdr⟩ := hu.types p hm
  exact ⟨(namesType_iff _).mpr ⟨_, hdl, hleft⟩, (namesType_iff _).mpr ⟨_, hdr, hright⟩⟩

theorem nodup_texts_iff {α β : Type} {f : α → Option Text} {g : β → Text} {xs : List α}
    {ys : List β} (h : List.Forall₂ (fun x y => f x = some (g y)) xs ys) :
    (xs.map f).Nodup ↔ (ys.map g).Nodup := by
  have he : xs.map f = (ys.map g).map some := by
    rw [List.map_map, ← List.forall₂_eq_eq_eq, List.forall₂_map_left_iff,
      List.forall₂_map_right_iff]
    exact h
  rw [he, List.nodup_map_iff (Option.some_injective _)]

/-- What is read from an acceptable document are the things that it names. -/
theorem denotes_of_ofDocument {d : Json} {c : Catalog} (h : ofDocument d = .ok c) :
    List.Forall₂ DenotesVariable (declaredNames d) c.declared ∧
      List.Forall₂ DenotesOperator (listedOperators d) c.operators := by
  obtain ⟨-, hv, ho⟩ := (ofDocument_eq_ok d c).mp h
  exact ⟨((readVariables_eq_ok d _).mp hv).2.2,
    ((readOperators_eq_ok d _).mp ho).2.imp fun o op h => h.2⟩

theorem acceptable_of_ofDocument {d : Json} {c : Catalog} (h : ofDocument d = .ok c) :
    Acceptable d := by
  obtain ⟨hvs, hops⟩ := denotes_of_ofDocument h
  obtain ⟨hd, hv, ho⟩ := (ofDocument_eq_ok d c).mp h
  obtain ⟨hshape, hgroups, -⟩ := (readVariables_eq_ok d _).mp hv
  obtain ⟨hlist, hread⟩ := (readOperators_eq_ok d _).mp ho
  have hkey : ∀ n ∈ declaredNames d, IsTypeName n.1 := by
    intro n hn
    obtain ⟨x, hx, -, hk⟩ := forall₂_exists_right hvs hn
    exact (isTypeName_iff _).mpr ⟨x.type, c.declarable.types x hx, hk⟩
  have hoperator : ∀ o ∈ listedOperators d, IsOperator o := by
    intro o hm
    obtain ⟨op, hop, hl, hden⟩ := forall₂_exists_right hread hm
    exact hden.isOperator hl (c.listable.usable op hop)
  exact {
    object := ⟨_, hd⟩
    groups := (isVariables_iff _).mpr ⟨hshape, hgroups, hkey⟩
    operators := (isOperators_iff _).mpr ⟨hlist, hoperator⟩
    nameTexts := fun n hn =>
      have ⟨x, _, ht, _⟩ := forall₂_exists_right hvs hn
      ⟨x.name, ht⟩
    symbolTexts := fun o hm =>
      have ⟨op, _, ht, _⟩ := forall₂_exists_right hops hm
      ⟨op.symbol, ht⟩
    distinctNames := (nodup_texts_iff (hvs.imp fun n x h => h.1)).mpr c.declarable.names
    distinctSymbols := (nodup_texts_iff (hops.imp fun o op h => h.1)).mpr c.listable.symbols }

theorem Acceptable.exists_declarable {d : Json} (h : Acceptable d) :
    ∃ vs, readVariables (d.get? "variables") = .ok vs ∧ Declarable vs := by
  obtain ⟨hshape, hgroups, hkey⟩ := (isVariables_iff _).mp h.groups
  have hread : ∀ n ∈ declaredNames d, ∃ x : Variable,
      DenotesVariable n x ∧ x.type.isDeclarable = true := by
    intro n hn
    obtain ⟨t, ht⟩ := h.nameTexts n hn
    obtain ⟨u, hu, hk⟩ := (isTypeName_iff _).mp (hkey n hn)
    exact ⟨⟨t, u⟩, ⟨ht, hk⟩, hu⟩
  obtain ⟨vs, hvs⟩ := exists_forall₂ hread
  have hden : List.Forall₂ DenotesVariable (declaredNames d) vs := hvs.imp fun n x h => h.1
  refine ⟨vs, (readVariables_eq_ok d vs).mpr ⟨hshape, hgroups, hden⟩, fun x hx => ?_, ?_⟩
  · obtain ⟨n, -, hn⟩ := forall₂_exists_right hvs.flip hx
    exact hn.2
  · exact (nodup_texts_iff (hden.imp fun n x h => h.1)).mp h.distinctNames

theorem Acceptable.exists_listable {d : Json} (h : Acceptable d) :
    ∃ ops, readOperators (d.get? "operators") = .ok ops ∧ Listable ops := by
  obtain ⟨hlist, hoperator⟩ := (isOperators_iff _).mp h.operators
  have hread : ∀ o ∈ listedOperators d, ∃ op : Operator,
      ((o.part "valid_types").NullOrList ∧ DenotesOperator o op) ∧ Usable op := by
    intro o hm
    obtain ⟨t, ht⟩ := h.symbolTexts o hm
    obtain ⟨hl, op, hden, hu⟩ := (hoperator o hm).denotes ht
    exact ⟨op, ⟨hl, hden⟩, hu⟩
  obtain ⟨ops, hops⟩ := exists_forall₂ hread
  refine ⟨ops, (readOperators_eq_ok d ops).mpr ⟨hlist, hops.imp fun o op h => h.1⟩,
    fun op hm => ?_, ?_⟩
  · obtain ⟨o, -, ho⟩ := forall₂_exists_right hops.flip hm
    exact ho.2
  · exact (nodup_texts_iff (hops.imp fun o op h => h.1.2.1)).mp h.distinctSymbols

theorem Acceptable.ofDocument {d : Json} (h : Acceptable d) :
    ∃ c : Catalog, Catalog.ofDocument d = .ok c := by
  obtain ⟨vs, hv, hdecl⟩ := h.exists_declarable
  obtain ⟨ops, ho, hlist⟩ := h.exists_listable
  obtain ⟨fields, rfl⟩ := h.object
  let c : Catalog := ⟨vs, ops, (offence?_eq_none vs ops).mpr ⟨hdecl, hlist⟩⟩
  exact ⟨c, (ofDocument_eq_ok _ c).mpr ⟨rfl, hv, ho⟩⟩

/-- Plain data is read as a catalog exactly if it is acceptable, and is refused in every other case.
The catalog declares the texts of the names, each with the type of its group, and lists the
operators with their pairs, all in the order of the document. -/
theorem ofDocument_characterised (d : Json) :
    ((∃ c, ofDocument d = .ok c) ↔ Acceptable d) ∧
    ((∃ fault : DocumentFault, ofDocument d = .error (.fault fault)) ↔ ¬ Acceptable d) ∧
    (∀ c, ofDocument d = .ok c →
      List.Forall₂ DenotesVariable (declaredNames d) c.declared ∧
      List.Forall₂ DenotesOperator (listedOperators d) c.operators) ∧
    (∀ v : Json, text? v = none ↔ v.HoldsLong) := by
  have hok : (∃ c, ofDocument d = .ok c) ↔ Acceptable d :=
    ⟨fun ⟨_, hc⟩ => acceptable_of_ofDocument hc, fun h => h.ofDocument⟩
  refine ⟨hok, ?_, fun c hc => denotes_of_ofDocument hc, text?_eq_none⟩
  rw [← hok]
  cases hd : ofDocument d with
  | ok c => simp
  | error fault =>
    cases fault with
    | fault m => simp
    | tooDeep => exact absurd hd (ofDocument_ne_tooDeep d)

-- The key of an empty group is never looked at.
example : ofDocument (.object [("variables", .object [("nonsense", .list [])]),
    ("operators", .null)] : Json) = .ok ⟨[], [], rfl⟩ := rfl

end Catalog

end Formulary
