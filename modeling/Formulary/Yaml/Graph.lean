import Formulary.Yaml.Tag

/-! # The graph of a document

A document is a graph of nodes, each with its tag. An alias is the number of the node that it names,
so several collections can share a node, and a collection can stand inside itself.
-/

namespace Formulary.Yaml

/-- The number of a node. -/
abbrev NodeId := Nat

/-- A key and its value. -/
abbrev Entry := NodeId × NodeId

/-- What a node holds. -/
inductive Content where
  | scalar (text : Text)
  | sequence (items : List NodeId)
  | mapping (entries : List Entry)
deriving DecidableEq, Repr

structure Node where
  tag : Tag
  content : Content
deriving DecidableEq, Repr

/-- The node that stands where nothing is written. -/
def Node.empty : Node := ⟨.null, .scalar []⟩

/-- The nodes of a document in the order of their numbers. -/
structure Graph where
  nodes : Array Node
deriving Repr

namespace Graph

def empty : Graph := ⟨#[]⟩

def size (g : Graph) : Nat := g.nodes.size

/-- Adds a node under the next number. -/
def add (g : Graph) (n : Node) : NodeId × Graph := (g.size, ⟨g.nodes.push n⟩)

/-- The node of a number. -/
def node (g : Graph) (id : NodeId) : Node := g.nodes.getD id .empty

def tag (g : Graph) (id : NodeId) : Tag := (g.node id).tag
def content (g : Graph) (id : NodeId) : Content := (g.node id).content

/-- The entries of a mapping; other nodes have none. -/
def entries (g : Graph) (id : NodeId) : List Entry :=
  match g.content id with
  | .mapping entries => entries
  | _ => []

def setTag (g : Graph) (id : NodeId) (t : Tag) : Graph :=
  ⟨g.nodes.modify id fun n => ⟨t, n.content⟩⟩

def setContent (g : Graph) (id : NodeId) (c : Content) : Graph :=
  ⟨g.nodes.modify id fun n => ⟨n.tag, c⟩⟩

/-- The number of nodes and of parts of nodes. -/
def extent (g : Graph) : Nat :=
  g.nodes.foldl (fun sum n =>
    match n.content with
    | .scalar _ => sum + 1
    | .sequence items => sum + items.length + 1
    | .mapping entries => sum + entries.length + 1) 1

end Graph

end Formulary.Yaml
