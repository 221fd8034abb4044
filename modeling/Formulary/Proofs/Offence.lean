import Formulary.Proofs.RoundTrip

/-! # The first offence of two lists

A catalog is made by two scans that keep the names and the symbols they have passed. Without the
bookkeeping: the variable or the operator that is reported stands behind items without an offence, all
variables are read before all operators, and of several things that are wrong with one item a fixed one
is reported. Where nothing is wrong the catalog holds the two lists, and everything that it can be
asked agrees with them.
-/

namespace Formulary
set_option autoImplicit false

namespace Catalog

/-! ## What is wrong with one item -/

/-- What is wrong with a variable behind others; its type comes before its name. -/
inductive VariableOffends (before : List Variable) (v : Variable) : Offence → Prop where
  | type (ht : v.type = .invalid) : VariableOffends before v (.undeclarableType v.name v.type)
  | name (ht : v.type ≠ .invalid) (hn : ∃ w ∈ before, w.name = v.name) :
    VariableOffends before v (.duplicateVariable v.name)

/-- What is wrong with an operator behind others; its symbol comes first and the types last. -/
inductive OperatorOffends (before : List Operator) (op : Operator) : Offence → Prop where
  | symbol (hs : ∃ o ∈ before, o.symbol = op.symbol) :
    OperatorOffends before op (.duplicateOperator op.symbol)
  | pairs (hs : ∀ o ∈ before, o.symbol ≠ op.symbol) (hp : op.pairs = []) :
    OperatorOffends before op (.noPairs op.symbol)
  | types (hs : ∀ o ∈ before, o.symbol ≠ op.symbol) (hp : op.pairs ≠ [])
      (hi : ∃ p ∈ op.pairs, p.left = .invalid ∨ p.right = .invalid) :
    OperatorOffends before op (.inadmissibleType op.symbol)

/-- The offence of the first item that has one. -/
inductive FirstOffence (vs : List Variable) (ops : List Operator) : Offence → Prop where
  | inVariables {before after : List Variable} {v : Variable} {e : Offence}
      (hvs : vs = before ++ v :: after) (hb : Declarable before) (he : VariableOffends before v e) :
    FirstOffence vs ops e
  | inOperators {before after : List Operator} {op : Operator} {e : Offence} (hvs : Declarable vs)
      (hops : ops = before ++ op :: after) (hb : Listable before)
      (he : OperatorOffends before op e) :
    FirstOffence vs ops e

/-! ## A scan that keeps what it has passed -/

section Scan

variable {α : Type} {key : α → Text} {scan : List Text → List α → Option Offence}
  (hnil : ∀ seen, scan seen [] = none)
  (hcons : ∀ seen x xs, scan seen (x :: xs) = (scan seen [x]).or (scan (key x :: seen) xs))
include hnil hcons

theorem scan_append (seen : List Text) (xs ys : List α) :
    scan seen (xs ++ ys) = (scan seen xs).or (scan ((xs.map key).reverse ++ seen) ys) := by
  induction xs generalizing seen with
  | nil => rw [hnil, List.nil_append, List.map_nil, List.reverse_nil, List.nil_append, Option.none_or]
  | cons x xs ih =>
    rw [List.cons_append, hcons seen x xs, hcons seen x (xs ++ ys), ih, Option.or_assoc,
      List.map_cons, List.reverse_cons, List.append_assoc, List.singleton_append]

theorem exists_first_of_scan {seen : List Text} {xs : List α} {e : Offence}
    (h : scan seen xs = some e) : ∃ before x after, xs = before ++ x :: after ∧
      scan seen before = none ∧ scan ((before.map key).reverse ++ seen) [x] = some e := by
  induction xs generalizing seen with
  | nil =>
    rw [hnil] at h
    cases h
  | cons x xs ih =>
    rw [hcons] at h
    cases hx : scan seen [x] with
    | some e' =>
      rw [hx, Option.some_or] at h
      exact ⟨[], x, xs, rfl, hnil seen, hx.trans h⟩
    | none =>
      rw [hx, Option.none_or] at h
      obtain ⟨before, y, after, rfl, hb, hy⟩ := ih h
      refine ⟨x :: before, y, after, rfl, ?_, ?_⟩
      · rw [hcons, hx, hb, Option.none_or]
      · rw [List.map_cons, List.reverse_cons, List.append_assoc, List.singleton_append]
        exact hy

/-- A scan reports what is wrong with the first item with which something is wrong. -/
theorem scan_eq_some (xs : List α) (e : Offence) :
    scan [] xs = some e ↔ ∃ before x after, xs = before ++ x :: after ∧
      scan [] before = none ∧ scan (before.map key).reverse [x] = some e := by
  constructor
  · intro h
    obtain ⟨before, x, after, hxs, hb, hx⟩ := exists_first_of_scan hnil hcons h
    rw [List.append_nil] at hx
    exact ⟨before, x, after, hxs, hb, hx⟩
  · intro h
    obtain ⟨before, x, after, rfl, hb, hx⟩ := h
    rw [scan_append hnil hcons, hb, Option.none_or, hcons, List.append_nil, hx, Option.some_or]

end Scan

/-! ## The two scans -/

theorem variableOffence?_cons (seen : List Text) (v : Variable) (vs : List Variable) :
    variableOffence? seen (v :: vs) =
      (variableOffence? seen [v]).or (variableOffence? (v.name :: seen) vs) := by
  simp only [variableOffence?]
  split
  · rfl
  · split <;> rfl

theorem operatorOffence?_cons (seen : List Text) (op : Operator) (ops : List Operator) :
    operatorOffence? seen (op :: ops) =
      (operatorOffence? seen [op]).or (operatorOffence? (op.symbol :: seen) ops) := by
  simp only [operatorOffence?]
  split
  · rfl
  · split
    · rfl
    · split <;> rfl

/-! ### The conditions that they test -/

theorem passed_iff {α : Type} (key : α → Text) (before : List α) (t : Text) :
    (before.map key).reverse.contains t = true ↔ ∃ x ∈ before, key x = t := by
  rw [List.contains_iff_mem, List.mem_reverse, List.mem_map]

theorem undeclarable_iff (t : OperandType) : (!t.isDeclarable) = true ↔ t = .invalid := by
  rw [Bool.not_eq_true', ← Bool.not_eq_true, OperandType.isDeclarable_iff_ne, not_not]

theorem inadmissible_iff (pairs : List TypePair) :
    (pairs.any fun p => !(p.left.isDeclarable && p.right.isDeclarable)) = true ↔
      ∃ p ∈ pairs, p.left = .invalid ∨ p.right = .invalid := by
  simp only [List.any_eq_true, Bool.not_and, Bool.or_eq_true, undeclarable_iff]

theorem variableOffence?_single (before : List Variable) (v : Variable) (e : Offence) :
    variableOffence? (before.map (·.name)).reverse [v] = some e ↔ VariableOffends before v e := by
  have htype := undeclarable_iff v.type
  have hname := passed_iff (·.name) before v.name
  rw [variableOffence?]
  constructor
  · intro h
    split at h
    · rename_i ht
      cases h
      exact .type (htype.mp ht)
    · rename_i ht
      split at h
      · rename_i hn
        cases h
        exact .name (fun hi => ht (htype.mpr hi)) (hname.mp hn)
      · cases h
  · intro h
    cases h with
    | type ht => rw [if_pos (htype.mpr ht)]
    | name ht hn => rw [if_neg (fun hi => ht (htype.mp hi)), if_pos (hname.mpr hn)]

theorem operatorOffence?_single (before : List Operator) (op : Operator) (e : Offence) :
    operatorOffence? (before.map (·.symbol)).reverse [op] = some e ↔
      OperatorOffends before op e := by
  have hsymbol := passed_iff (·.symbol) before op.symbol
  have hempty : op.pairs.isEmpty = true ↔ op.pairs = [] := List.isEmpty_iff
  have htypes := inadmissible_iff op.pairs
  have hfresh : (∀ o ∈ before, o.symbol ≠ op.symbol) ↔
      ¬ (before.map (·.symbol)).reverse.contains op.symbol = true := by
    rw [hsymbol]
    simp only [not_exists, not_and, ne_eq]
  rw [operatorOffence?]
  constructor
  · intro h
    split at h
    · rename_i hs
      cases h
      exact .symbol (hsymbol.mp hs)
    · rename_i hs
      split at h
      · rename_i hp
        cases h
        exact .pairs (hfresh.mpr hs) (hempty.mp hp)
      · rename_i hp
        split at h
        · rename_i hi
          cases h
          exact .types (hfresh.mpr hs) (fun hn => hp (hempty.mpr hn)) (htypes.mp hi)
        · cases h
  · intro h
    cases h with
    | symbol hs => rw [if_pos (hsymbol.mpr hs)]
    | pairs hs hp => rw [if_neg (hfresh.mp hs), if_pos (hempty.mpr hp)]
    | types hs hp hi =>
      rw [if_neg (hfresh.mp hs), if_neg (fun hn => hp (hempty.mp hn)), if_pos (htypes.mpr hi)]

/-! ## What is reported -/

theorem variableOffence?_eq_some (vs : List Variable) (e : Offence) :
    variableOffence? [] vs = some e ↔ ∃ before v after, vs = before ++ v :: after ∧
      Declarable before ∧ VariableOffends before v e := by
  rw [scan_eq_some (fun _ => rfl) variableOffence?_cons]
  simp only [variableOffence?_single, declarable_iff]

theorem operatorOffence?_eq_some (ops : List Operator) (e : Offence) :
    operatorOffence? [] ops = some e ↔ ∃ before op after, ops = before ++ op :: after ∧
      Listable before ∧ OperatorOffends before op e := by
  rw [scan_eq_some (fun _ => rfl) operatorOffence?_cons]
  simp only [operatorOffence?_single, listable_iff]

theorem offence?_eq_some (vs : List Variable) (ops : List Operator) (e : Offence) :
    offence? vs ops = some e ↔ FirstOffence vs ops e := by
  rw [offence?, Option.or_eq_some_iff, variableOffence?_eq_some, operatorOffence?_eq_some,
    ← declarable_iff]
  constructor
  · rintro (⟨before, v, after, hvs, hb, he⟩ | ⟨hd, before, op, after, hops, hb, he⟩)
    · exact .inVariables hvs hb he
    · exact .inOperators hd hops hb he
  · intro h
    cases h with
    | inVariables hvs hb he => exact .inl ⟨_, _, _, hvs, hb, he⟩
    | inOperators hd hops hb he => exact .inr ⟨hd, _, _, _, hops, hb, he⟩

theorem make_eq_error (vs : List Variable) (ops : List Operator) (e : Offence) :
    make vs ops = .error e ↔ FirstOffence vs ops e := by
  rw [← offence?_eq_some]
  unfold make
  split
  · rename_i h
    simp [h]
  · rename_i e' h
    rw [h, Except.error.injEq, Option.some.injEq]

/-! ## What a catalog can be asked -/

section Names

variable (c : Catalog)

theorem mem_namesOf (name : Text) (t : OperandType) :
    name ∈ c.namesOf t ↔ ⟨name, t⟩ ∈ c.declared := by
  rw [namesOf, List.mem_map]
  constructor
  · rintro ⟨v, hv, rfl⟩
    obtain ⟨hm, ht⟩ := List.mem_filter.mp hv
    rw [decide_eq_true_eq] at ht
    subst ht
    exact hm
  · intro h
    exact ⟨⟨name, t⟩, List.mem_filter.mpr ⟨h, by simp⟩, rfl⟩

theorem namesOf_sublist (t : OperandType) :
    (c.namesOf t).Sublist (c.declared.map (·.name)) :=
  List.filter_sublist.map _

theorem namesOf_invalid : c.namesOf .invalid = [] := by
  apply List.eq_nil_iff_forall_not_mem.mpr
  intro name h
  exact type_ne_invalid ((c.mem_namesOf name .invalid).mp h) rfl

theorem namesOf_perm :
    (c.namesOf .int ++ c.namesOf .string).Perm (c.declared.map (·.name)) := by
  have h := c.grouped_perm.map (·.name)
  rw [grouped, List.map_append] at h
  exact h

theorem nodup_namesOf : (c.namesOf .int ++ c.namesOf .string).Nodup :=
  c.namesOf_perm.nodup_iff.mpr c.declarable.names

end Names

theorem usable_iff_ne (op : Operator) : Usable op ↔
    op.pairs ≠ [] ∧ ∀ p ∈ op.pairs, p.left ≠ .invalid ∧ p.right ≠ .invalid := by
  simp only [← OperandType.isDeclarable_iff_ne]
  constructor
  · intro h
    exact ⟨h.pairs, h.types⟩
  · rintro ⟨hp, ht⟩
    exact ⟨hp, ht⟩

theorem Usable.not_admits_invalid {op : Operator} (h : Usable op) (t : OperandType) :
    op.admitsLeft .invalid = false ∧ op.admitsRight .invalid = false ∧
      op.admits .invalid t = false ∧ op.admits t .invalid = false := by
  have hne := ((usable_iff_ne op).mp h).2
  simp only [← Bool.not_eq_true, Operator.admitsLeft_iff, Operator.admitsRight_iff,
    Operator.admits_iff]
  refine ⟨?_, ?_, ?_, ?_⟩
  · rintro ⟨p, hp, hi⟩
    exact (hne p hp).1 hi
  · rintro ⟨p, hp, hi⟩
    exact (hne p hp).2 hi
  · intro hp
    exact (hne _ hp).1 rfl
  · intro hp
    exact (hne _ hp).2 rfl

/-- What a catalog tells of the two lists that it is made of. -/
structure Tells (c : Catalog) (vs : List Variable) (ops : List Operator) : Prop where
  declared : c.declared = vs
  operators : c.operators = ops
  inOrder : ∀ t, (c.namesOf t).Sublist (vs.map (·.name))
  disjoint : (c.namesOf .int).Disjoint (c.namesOf .string)
  once : ∀ v ∈ vs, (c.namesOf .int ++ c.namesOf .string).count v.name = 1
  noInvalid : c.namesOf .invalid = []
  typeOf : ∀ name t, c.typeOf? name = some t ↔ name ∈ c.namesOf t
  operator : ∀ symbol op, c.operator? symbol = some op ↔ op ∈ ops ∧ op.symbol = symbol
  admits : ∀ op ∈ ops, ∀ t, op.admitsLeft .invalid = false ∧ op.admitsRight .invalid = false ∧
    op.admits .invalid t = false ∧ op.admits t .invalid = false

theorem tells (c : Catalog) : c.Tells c.declared c.operators where
  declared := rfl
  operators := rfl
  inOrder := c.namesOf_sublist
  disjoint := (List.nodup_append'.mp c.nodup_namesOf).2.2
  once v hv := by
    apply List.count_eq_one_of_mem c.nodup_namesOf
    rw [c.namesOf_perm.mem_iff]
    exact List.mem_map_of_mem hv
  noInvalid := c.namesOf_invalid
  typeOf name t := by rw [c.typeOf?_eq_some, c.mem_namesOf]
  operator := c.operator?_eq_some
  admits op hop := (c.listable.usable op hop).not_admits_invalid

/-- Two lists make a catalog exactly if every type of a variable is `int` or `string`, no name and no
symbol occurs twice, every operator has pairs and no pair mentions `invalid`. Otherwise the first
offence is reported. A catalog that is made holds the two lists, and what it tells agrees with them. -/
theorem make_outcome (vs : List Variable) (ops : List Operator) :
    ((∃ c, make vs ops = .ok c) ↔
      (∀ v ∈ vs, v.type = .int ∨ v.type = .string) ∧ (vs.map (·.name)).Nodup ∧
      (ops.map (·.symbol)).Nodup ∧
      ∀ op ∈ ops, op.pairs ≠ [] ∧ ∀ p ∈ op.pairs, p.left ≠ .invalid ∧ p.right ≠ .invalid) ∧
    (∀ e, make vs ops = .error e ↔ FirstOffence vs ops e) ∧
    (∀ c, make vs ops = .ok c → c.Tells vs ops) := by
  refine ⟨?_, make_eq_error vs ops, ?_⟩
  · simp only [exists_make, ← OperandType.isDeclarable_iff, ← usable_iff_ne]
    constructor
    · rintro ⟨hd, hl⟩
      exact ⟨hd.types, hd.names, hl.symbols, hl.usable⟩
    · rintro ⟨ht, hn, hs, hu⟩
      exact ⟨⟨ht, hn⟩, hu, hs⟩
  · intro c hc
    obtain ⟨-, -, rfl, rfl⟩ := (make_eq_ok vs ops c).mp hc
    exact c.tells

/-- A name that occurs twice with a type that cannot be declared, beside an operator without pairs. -/
example : offence? [⟨"a", .int⟩, ⟨"a", .invalid⟩] [⟨"=", []⟩] =
    some (.undeclarableType "a" .invalid) := by
  decide

end Catalog

end Formulary
