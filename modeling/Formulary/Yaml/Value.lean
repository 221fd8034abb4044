import Formulary.Yaml.Graph
import Formulary.Yaml.Scalar

/-! # Values of nodes

Every node of a document has one datum. The parts of a collection are nodes again, so that a value
is a place in the store of all data. A value that stands inside itself is spelled with dots where
it is met again. Values that are spelled inside one another use room up.
-/

namespace Formulary.Yaml

/-- The value of a node, with its parts by their nodes. `pairs` is a list of pairs. -/
inductive Datum where
  | atom (a : Atom)
  | list (items : List NodeId)
  | pairs (entries : List Entry)
  | set (items : List NodeId)
  | map (entries : List Entry)
deriving Repr

/-- The data of all nodes, and how many values may be spelled inside one another. -/
structure Store where
  data : Array Datum
  room : Nat
deriving Repr

def Store.datum (s : Store) (id : NodeId) : Datum := s.data.getD id (.atom .null)

/-- A place in a store: a node, or one pair of a list of pairs. -/
inductive Place where
  | node (id : NodeId)
  | pair (id : NodeId) (index : Nat)
deriving DecidableEq, Repr

namespace Store

/-- The pair at an index of a list of pairs. -/
def pairAt (s : Store) (id : NodeId) (index : Nat) : Entry :=
  match s.datum id with
  | .pairs entries => entries.getD index (id, id)
  | _ => (id, id)

/-- The places of the pairs of a list. -/
def pairPlaces (id : NodeId) (entries : List Entry) : List Place :=
  (List.range entries.length).map (.pair id)

/-- The value at a place, with its parts as places. -/
def layer (s : Store) : Place → Layer Place
  | .pair id index =>
    let e := s.pairAt id index
    .pair (.node e.1) (.node e.2)
  | .node id =>
    match s.datum id with
    | .atom a => a.layer
    | .list items => .list (items.map .node)
    | .pairs entries => .list (pairPlaces id entries)
    | .set items => .set (items.map .node)
    | .map entries => .map (entries.map fun e => (.node e.1, .node e.2))

/-- The spelling of a value that stands inside the values at the places `above`. -/
def notatedBelow (s : Store) (room : Nat) (above : List Place) (p : Place) :
    Except Unspelled Text :=
  match room with
  | 0 => .error .tooDeep
  | room + 1 =>
    let inner (q : Place) : Except Unspelled Text := s.notatedBelow room (p :: above) q
    let again := above.contains p
    let list (items : List Place) : Except Unspelled Text :=
      if again then .ok "[...]" else (items.mapM inner).map Spelling.list
    match p with
    | .pair id index =>
      if again then .ok "(...)"
      else do
        let e := s.pairAt id index
        let first ← inner (.node e.1)
        let second ← inner (.node e.2)
        return Spelling.pair first second
    | .node id =>
      match s.datum id with
      | .atom a => Unspelled.unlessLong a.notated?
      | .list items => list (items.map .node)
      | .pairs entries => list (pairPlaces id entries)
      | .set items => (items.mapM fun n => inner (.node n)).map Spelling.set
      | .map entries =>
        if again then .ok "\x7b...\x7d"
        else (entries.mapM fun (e : Entry) => do
          let k ← inner (.node e.1)
          let v ← inner (.node e.2)
          return Spelling.entry k v).map Spelling.map

end Store

/-- A value of a document: a place and the store that it is in. -/
structure Value where
  store : Store
  place : Place

namespace Value

/-- The value of a text without a document. -/
def null (d : Depths) : Value := ⟨⟨#[.atom .null], d.room .spelling⟩, .node 0⟩

def layer (v : Value) : Layer Value :=
  match v.store.layer v.place with
  | .null => .null
  | .bool b => .bool b
  | .int i => .int i
  | .float x => .float x
  | .str t => .str t
  | .date d => .date d
  | .moment m => .moment m
  | .bytes bs => .bytes bs
  | .pair first second => .pair ⟨v.store, first⟩ ⟨v.store, second⟩
  | .list items => .list (items.map (⟨v.store, ·⟩))
  | .set items => .set (items.map (⟨v.store, ·⟩))
  | .map entries => .map (entries.map fun e => (⟨v.store, e.1⟩, ⟨v.store, e.2⟩))

def notated (v : Value) : Except Unspelled Text := v.store.notatedBelow v.store.room [] v.place

instance : ValueLike Value := ⟨layer, notated⟩

end Value

end Formulary.Yaml
