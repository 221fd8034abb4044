import Formulary.Yaml.Document
import Formulary.Yaml.Merge
import Formulary.Yaml.SetOrder
import Formulary.Yaml.Value

/-! # The value of a document

A node is begun where it is first met: a scalar gets its value then, and a collection is empty at
first and waits. When the root has been begun, the waiting collections are filled in their order,
which begins their parts. So a collection can stand inside itself, and when several nodes have no
value, the one that is met first is reported. Of two entries with one key the later value stands at
the earlier place.
-/

namespace Formulary.Yaml

/-- Values in the making: the data of the nodes that have been begun, and the collections that wait
to be filled, the last one first. -/
structure Building where
  host : Host
  graph : Graph
  data : Array (Option Datum)
  waiting : List NodeId

namespace Building

/-- Nothing of a graph is begun. -/
def start (h : Host) (g : Graph) : Building := ⟨h, g, Array.replicate g.size none, []⟩

def datum? (b : Building) (id : NodeId) : Option Datum := b.data.getD id none

def put (b : Building) (id : NodeId) (d : Datum) : Building :=
  { b with data := b.data.setIfInBounds id (some d) }

def wrongKind {α : Type} (b : Building) (id : NodeId) : Except Fault α :=
  .error (.problem (.kindOfTag (b.graph.tag id).name) none)

/-- The text of a node with a scalar tag: its own, or that of the default entry of a mapping. -/
def scalarText (g : Graph) (room : Nat) (id : NodeId) : Except Fault Text :=
  match room with
  | 0 => .error (.tooDeep .defaults)
  | room + 1 =>
    match g.content id, (g.entries id).find? g.isDefaultEntry with
    | .scalar text, _ => .ok text
    | .mapping _, some e => scalarText g room e.2
    | _, _ => .error (.problem (.kindOfTag (g.tag id).name) none)

/-- The value of a node with a scalar tag. A mapping can stand for a text, but not for a date. -/
def atom (d : Depths) (g : Graph) (id : NodeId) : Except Fault Atom :=
  match scalarReader? (g.tag id) with
  | none => .error (.problem (.unknownTag (g.tag id).name) none)
  | some read => do
    let text ← scalarText g (d.room .defaults) id
    match g.tag id, g.content id with
    | .timestamp, .mapping _ => .error (.scalar .timestampOfMapping)
    | _, _ => read text

/-- A collection without its parts. -/
def emptyDatum? : Tag → Option Datum
  | .seq => some (.list [])
  | .map => some (.map [])
  | .set => some (.set [])
  | .omap | .pairs => some (.pairs [])
  | _ => none

/-- Begins a node that is not begun yet. -/
def begin (b : Building) (id : NodeId) : Except Fault Building :=
  match b.datum? id, emptyDatum? (b.graph.tag id) with
  | some _, _ => .ok b
  | none, some d => .ok { b.put id d with waiting := id :: b.waiting }
  | none, none => (atom b.host.toDepths b.graph id).map fun a => b.put id (.atom a)

/-- Whether two nodes are one key. -/
def sameKey (b : Building) (k l : NodeId) : Bool :=
  k = l ||
    match b.datum? k, b.datum? l with
    | some (.atom x), some (.atom y) => x.sameKey y
    | _, _ => false

/-- Sets the value of a key. A new key goes to the end. -/
def setEntry (b : Building) (entries : List Entry) (e : Entry) : List Entry :=
  if entries.any fun old => b.sameKey old.1 e.1 then
    entries.map fun old => if b.sameKey old.1 e.1 then (old.1, e.2) else old
  else entries ++ [e]

/-- Begins a key, which has to be a scalar, and then its value. -/
def beginEntry (b : Building) (e : Entry) : Except Fault Building := do
  let b ← b.begin e.1
  match b.datum? e.1 with
  | some (.atom _) => b.begin e.2
  | _ => .error (.problem .keyNotScalar none)

/-- The entries of a mapping after its merges, each key once. -/
def fillEntries (b : Building) (id : NodeId) : Except Fault (Building × List Entry) :=
  match b.graph.content id with
  | .mapping _ => do
    let g ← b.graph.merge b.host.toDepths id
    let entries := g.entries id
    let b ← entries.foldlM beginEntry { b with graph := g }
    return (b, entries.foldl b.setEntry [])
  | _ => b.wrongKind id

/-- The entries of a sequence of mappings with one entry each. -/
def fillPairs (b : Building) (id : NodeId) : Except Fault (Building × List Entry) :=
  match b.graph.content id with
  | .sequence items => do
    let (b, entries) ← items.foldlM (fun s item =>
      match s.1.graph.content item with
      | .mapping [e] => do
        let b ← s.1.begin e.1
        let b ← b.begin e.2
        return (b, e :: s.2)
      | _ => s.1.wrongKind id) (b, [])
    return (b, entries.reverse)
  | _ => b.wrongKind id

/-- The code of a key, which is an atom. -/
def keyCode (b : Building) (k : NodeId) : Int :=
  match b.datum? k with
  | some (.atom a) => SetOrder.code b.host a
  | _ => 0

/-- Fills a collection. -/
def fill (b : Building) (id : NodeId) : Except Fault Building := do
  match b.datum? id with
  | some (.list _) =>
    match b.graph.content id with
    | .sequence items =>
      let b ← items.foldlM begin b
      return b.put id (.list items)
    | _ => b.wrongKind id
  | some (.map _) =>
    let (b, entries) ← b.fillEntries id
    return b.put id (.map entries)
  | some (.set _) =>
    let (b, entries) ← b.fillEntries id
    return b.put id (.set (SetOrder.arrange b.keyCode (entries.map (·.1))))
  | some (.pairs _) =>
    let (b, entries) ← b.fillPairs id
    return b.put id (.pairs entries)
  | _ => return b

/-- Fills the waiting collections, then those that began to wait meanwhile, and so on. A node waits
once, so that the number of nodes bounds the rounds. -/
def fillAll (rounds : Nat) (b : Building) : Except Fault Building :=
  match rounds, b.waiting with
  | rounds + 1, id :: rest => do
    let b ← (id :: rest).reverse.foldlM fill { b with waiting := [] }
    fillAll rounds b
  | _, _ => .ok b

def store (b : Building) : Store := ⟨b.data.map (·.getD (.atom .null)), b.host.room .spelling⟩

end Building

/-- The value of the root of a document. -/
def Document.value (h : Host) (d : Document) : Except Fault Value := do
  let b ← (Building.start h d.graph).begin d.root
  let b ← b.fillAll (d.graph.size + 1)
  return ⟨b.store, .node d.root⟩

/-- The value that a text spells; a text without a document spells null. -/
def read (h : Host) (text : Text) : Except Fault Value := do
  match ← document h.toDepths text with
  | none => return .null h.toDepths
  | some d => d.value h

end Formulary.Yaml
