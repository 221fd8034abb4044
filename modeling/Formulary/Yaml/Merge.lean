import Formulary.Yaml.Fault
import Formulary.Yaml.Graph

/-! # Merges

A merge mark as a key puts the entries of the mappings that it names in front of the entries around
it. The entries of a list of mappings are taken from its last item to its first. The mark of a
default entry is an ordinary text key once its mapping has been merged. Merges inside merges use room
up.
-/

namespace Formulary.Yaml.Graph

def isMergeEntry (g : Graph) (e : Entry) : Bool := g.tag e.1 = .merge

def isDefaultEntry (g : Graph) (e : Entry) : Bool := g.tag e.1 = .value

/-- Reads the marks of default entries among the keys as text. -/
def plainKeys (g : Graph) (entries : List Entry) : Graph :=
  entries.foldl (fun g e => if g.isDefaultEntry e then g.setTag e.1 .str else g) g

/-- Carries out the merges of a mapping from an index on; `merged` is what the earlier ones have
brought, and `room` is how many merges may stand inside one another here. A merged mapping is merged
first itself, and it can be the one around it. Every step takes one merge mark away, so that the
number of entries of the graph is enough fuel. -/
def mergeFrom (fuel room : Nat) (id : NodeId) (index : Nat) (merged : List Entry) (g : Graph) :
    Except Fault Graph :=
  match fuel with
  | 0 => .ok g
  | fuel + 1 =>
    let own := g.entries id
    let before := own.take index
    let passed := (own.drop index).takeWhile fun e => !g.isMergeEntry e
    let rest := (own.drop index).dropWhile fun e => !g.isMergeEntry e
    let g := g.plainKeys passed
    match rest with
    | [] => .ok (if merged.isEmpty then g else g.setContent id (.mapping (merged ++ own)))
    | e :: rest => do
      let g := g.setContent id (.mapping (before ++ passed ++ rest))
      let mergeInner (g : Graph) (inner : NodeId) : Except Fault (Graph × List Entry) :=
        match g.content inner, room with
        | .mapping _, 0 => .error (.tooDeep .merges)
        | .mapping _, room + 1 =>
          (mergeFrom fuel room inner 0 [] g).map fun g => (g, g.entries inner)
        | _, _ => .error (.problem .mergeNotMap none)
      let (g, found) ← (match g.content e.2 with
        | .sequence items =>
          items.foldlM (fun s inner => do
            let (g, entries) ← mergeInner s.1 inner
            return (g, entries ++ s.2)) (g, [])
        | _ => mergeInner g e.2 : Except Fault (Graph × List Entry))
      mergeFrom fuel room id (index + passed.length) (merged ++ found) g

/-- Carries out the merges of a mapping. -/
def merge (d : Depths) (g : Graph) (id : NodeId) : Except Fault Graph :=
  if (g.entries id).any fun e => g.isMergeEntry e || g.isDefaultEntry e then
    mergeFrom g.extent (d.room .merges) id 0 [] g
  else .ok g

end Formulary.Yaml.Graph
