import Formulary.Yaml.Graph
import Formulary.Yaml.Token

/-! # From tokens to nodes

Nodes are read from the tokens of a text by one token of lookahead. A collection has its number
before its parts are read, so that they can refer to it.
-/

namespace Formulary.Yaml

/-- The tokens still to be read, the anchors seen, the nodes so far, and the number of collections
that may still be opened inside one another. -/
structure Reading where
  tokens : List Token
  anchors : List (Text × NodeId)
  graph : Graph
  room : Nat

namespace Reading

def start (d : Depths) (tokens : List Token) : Reading :=
  ⟨tokens, [], .empty, d.room .collections⟩

/-- The next word. -/
def word (s : Reading) : Word :=
  match s.tokens with
  | t :: _ => t.word
  | [] => .streamEnd

def advance (s : Reading) : Reading := { s with tokens := s.tokens.tail }

/-- Refuses the next word. -/
def refuse {α : Type} (s : Reading) : Except Fault α :=
  match s.tokens with
  | ⟨.broken f, _⟩ :: _ => .error f
  | t :: _ => .error (.problem (.unexpected t.word.describe) (some t.spot))
  | [] => .error (.problem (.unexpected Word.streamEnd.describe) none)

def fail {α : Type} (s : Reading) (p : Problem) : Except Fault α :=
  .error (.problem p (s.tokens.head?.map (·.spot)))

/-- The next word must be readable, whatever it is. -/
def look (s : Reading) : Except Fault Unit :=
  match s.word with
  | .broken f => .error f
  | _ => .ok ()

/-- The node that an alias names. -/
def resolve (s : Reading) (name : Text) : Except Fault NodeId :=
  match s.anchors.lookup name with
  | none => s.fail (.undefinedAlias name)
  | some id => .ok id

/-- An anchor is given once. -/
def checkAnchor (s : Reading) (name? : Option Text) : Except Fault Unit :=
  match name? with
  | none => .ok ()
  | some name => if s.anchors.any (·.1 == name) then s.fail (.repeatedAnchor name) else .ok ()

/-- Adds a node with its anchor. -/
def add (s : Reading) (anchor? : Option Text) (n : Node) : NodeId × Reading :=
  let (id, graph) := s.graph.add n
  (id, { s with graph := graph, anchors := (anchor?.map (·, id)).toList ++ s.anchors })

/-- Adds the node that stands where nothing is written. -/
def addEmpty (s : Reading) : NodeId × Reading := s.add none .empty

/-- Adds a collection and reads its parts. -/
def collect (s : Reading) (anchor? : Option Text) (tag : Tag) (start : Content)
    (read : Reading → Except Fault (Content × Reading)) : Except Fault (NodeId × Reading) :=
  match s.room with
  | 0 => .error (.tooDeep .collections)
  | room + 1 => do
    let (id, s) := s.add anchor? ⟨tag, start⟩
    let (content, s) ← read { s with room := room }
    return (id, { s with graph := s.graph.setContent id content, room := s.room + 1 })

end Reading

/-- The handles of a document and what they stand for. -/
abbrev Handles := List (Text × Text)

def defaultHandles : Handles := [("!", "!"), ("!!", typesHandle)]

/-- The properties in front of a node: an anchor and a full tag, in either order. -/
structure Properties where
  anchor? : Option Text
  tag? : Option Text

def expandTag (handles : Handles) (s : Reading) (handle? : Option Text) (suffix : Text) :
    Except Fault Text :=
  match handle? with
  | none => .ok suffix
  | some h =>
    match handles.lookup h with
    | some expansion => .ok (expansion ++ suffix)
    | none => s.fail (.unknownHandle h)

/-- Reads the properties in front of a node. -/
def properties (handles : Handles) (s : Reading) : Except Fault (Properties × Reading) :=
  match s.word with
  | .anchor a =>
    match s.advance.word with
    | .tag h x => do
      let t ← expandTag handles s h x
      return (⟨some a, some t⟩, s.advance.advance)
    | _ => .ok (⟨some a, none⟩, s.advance)
  | .tag h x => do
    s.advance.look
    let t ← expandTag handles s h x
    match s.advance.word with
    | .anchor a => return (⟨some a, some t⟩, s.advance.advance)
    | _ => return (⟨none, some t⟩, s.advance)
  | _ => .ok (⟨none, none⟩, s)

/-- The tag of a collection, by default `t`. -/
def Properties.collection (p : Properties) (t : Tag) : Tag :=
  match p.tag? with
  | some name => if name == "!" then t else .ofName name
  | none => t

/-- The tag of a scalar. The open tag is resolved like a plain scalar, also on a quoted one. -/
def Properties.scalar (p : Properties) (text : Text) (plain : Bool) : Tag :=
  match p.tag? with
  | some name => if name == "!" then .ofPlain text else .ofName name
  | none => if plain then .ofPlain text else .str

/-- A node of properties alone is an empty scalar; without them the next word is refused. -/
def readAbsent (p : Properties) (s : Reading) : Except Fault (NodeId × Reading) :=
  if p.anchor?.isSome || p.tag?.isSome then
    .ok (s.add p.anchor? ⟨p.scalar [] true, .scalar []⟩)
  else s.refuse

/-- Whether a node is absent before a word of a block mapping. -/
def absentInMapping : Word → Bool
  | .key | .value | .blockEnd => true
  | _ => false

/-- Whether a node is absent before a word of a block sequence. -/
def absentInSequence : Word → Bool
  | .blockEntry | .blockEnd => true
  | _ => false

/-- Whether a node is absent before a word of a sequence that shares its parent's indentation. -/
def absentInIndentless : Word → Bool
  | .blockEntry | .key | .value | .blockEnd => true
  | _ => false

/-- Whether a value is absent before a word of a bracketed collection that ends with `close`. -/
def absentInFlow (close : Word) (w : Word) : Bool := w = .flowEntry || w = close

mutual

/-- A node. Block collections are read only where `block` allows them, and a sequence at the
indentation of its parent only where `indentless` does. -/
def readNode (handles : Handles) (block indentless : Bool) (fuel : Nat) (s : Reading) :
    Except Fault (NodeId × Reading) :=
  match fuel with
  | 0 => s.refuse
  | fuel + 1 =>
    match s.word with
    | .alias name => do
      let id ← s.resolve name
      return (id, s.advance)
    | _ => do
      let (p, s) ← properties handles s
      s.look
      s.checkAnchor p.anchor?
      let sequence (read : Reading → Except Fault (List NodeId × Reading)) (s : Reading) :=
        s.collect p.anchor? (p.collection .seq) (.sequence []) fun s => do
          let (items, s) ← read s
          return (.sequence items, s)
      let mapping (read : Reading → Except Fault (List Entry × Reading)) (s : Reading) :=
        s.collect p.anchor? (p.collection .map) (.mapping []) fun s => do
          let (entries, s) ← read s
          return (.mapping entries, s)
      match s.word with
      | .scalar text plain => .ok (s.advance.add p.anchor? ⟨p.scalar text plain, .scalar text⟩)
      | .flowSequenceStart => sequence (readFlowItems handles true fuel) s.advance
      | .flowMappingStart => mapping (readFlowEntries handles true fuel) s.advance
      | .blockEntry =>
        if indentless then sequence (readIndentless handles fuel) s else readAbsent p s
      | .blockSequenceStart =>
        if block then sequence (readBlockItems handles fuel) s.advance else readAbsent p s
      | .blockMappingStart =>
        if block then mapping (readBlockEntries handles fuel) s.advance else readAbsent p s
      | _ => readAbsent p s

/-- The items of a block sequence and its end. -/
def readBlockItems (handles : Handles) (fuel : Nat) (s : Reading) :
    Except Fault (List NodeId × Reading) :=
  match fuel with
  | 0 => s.refuse
  | fuel + 1 =>
    match s.word with
    | .blockEntry => do
      let s := s.advance
      let (n, s) ← (if absentInSequence s.word then .ok s.addEmpty
        else readNode handles true false fuel s : Except Fault (NodeId × Reading))
      let (items, s) ← readBlockItems handles fuel s
      return (n :: items, s)
    | .blockEnd => .ok ([], s.advance)
    | _ => s.refuse

/-- The items of a sequence at the indentation of its parent, which ends it. -/
def readIndentless (handles : Handles) (fuel : Nat) (s : Reading) :
    Except Fault (List NodeId × Reading) :=
  match fuel with
  | 0 => s.refuse
  | fuel + 1 =>
    match s.word with
    | .blockEntry => do
      let s := s.advance
      let (n, s) ← (if absentInIndentless s.word then .ok s.addEmpty
        else readNode handles true false fuel s : Except Fault (NodeId × Reading))
      let (items, s) ← readIndentless handles fuel s
      return (n :: items, s)
    | _ => .ok ([], s)

/-- The entries of a block mapping and its end. -/
def readBlockEntries (handles : Handles) (fuel : Nat) (s : Reading) :
    Except Fault (List Entry × Reading) :=
  match fuel with
  | 0 => s.refuse
  | fuel + 1 =>
    match s.word with
    | .key => do
      let s := s.advance
      let (k, s) ← (if absentInMapping s.word then .ok s.addEmpty
        else readNode handles true true fuel s : Except Fault (NodeId × Reading))
      let (v, s) ← (if s.word = .value then
          let s := s.advance
          if absentInMapping s.word then .ok s.addEmpty else readNode handles true true fuel s
        else .ok s.addEmpty : Except Fault (NodeId × Reading))
      let (entries, s) ← readBlockEntries handles fuel s
      return ((k, v) :: entries, s)
    | .blockEnd => .ok ([], s.advance)
    | _ => s.refuse

/-- The value of an entry in brackets that end with `close`; without a colon it is absent. -/
def readFlowValue (handles : Handles) (close : Word) (fuel : Nat) (s : Reading) :
    Except Fault (NodeId × Reading) :=
  match fuel with
  | 0 => s.refuse
  | fuel + 1 =>
    if s.word = .value then
      let s := s.advance
      if absentInFlow close s.word then .ok s.addEmpty else readNode handles false false fuel s
    else .ok s.addEmpty

/-- A key mark in brackets that end with `close`, with the key and the value after it. -/
def readFlowPair (handles : Handles) (close : Word) (fuel : Nat) (s : Reading) :
    Except Fault (Entry × Reading) :=
  match fuel with
  | 0 => s.refuse
  | fuel + 1 => do
    let s := s.advance
    let (k, s) ← (if s.word = .value || absentInFlow close s.word then .ok s.addEmpty
      else readNode handles false false fuel s : Except Fault (NodeId × Reading))
    let (v, s) ← readFlowValue handles close fuel s
    return ((k, v), s)

/-- The items between square brackets, up to the closing one. A pair is a mapping of its own. -/
def readFlowItems (handles : Handles) (first : Bool) (fuel : Nat) (s : Reading) :
    Except Fault (List NodeId × Reading) :=
  match fuel with
  | 0 => s.refuse
  | fuel + 1 =>
    if s.word = .flowSequenceEnd then .ok ([], s.advance)
    else if !first && s.word ≠ .flowEntry then s.refuse
    else
      let s := if first then s else s.advance
      if s.word = .key then do
        let (n, s) ← s.collect none .map (.mapping []) fun s => do
          let (e, s) ← readFlowPair handles .flowSequenceEnd fuel s
          return (.mapping [e], s)
        let (items, s) ← readFlowItems handles false fuel s
        return (n :: items, s)
      else if s.word = .flowSequenceEnd then .ok ([], s.advance)
      else do
        let (n, s) ← readNode handles false false fuel s
        let (items, s) ← readFlowItems handles false fuel s
        return (n :: items, s)

/-- The entries between braces, up to the closing one. A key alone has an empty value. -/
def readFlowEntries (handles : Handles) (first : Bool) (fuel : Nat) (s : Reading) :
    Except Fault (List Entry × Reading) :=
  match fuel with
  | 0 => s.refuse
  | fuel + 1 =>
    if s.word = .flowMappingEnd then .ok ([], s.advance)
    else if !first && s.word ≠ .flowEntry then s.refuse
    else
      let s := if first then s else s.advance
      if s.word = .key then do
        let (e, s) ← readFlowPair handles .flowMappingEnd fuel s
        let (entries, s) ← readFlowEntries handles false fuel s
        return (e :: entries, s)
      else if s.word = .flowMappingEnd then .ok ([], s.advance)
      else do
        let (k, s) ← readNode handles false false fuel s
        let (v, s) := s.addEmpty
        let (entries, s) ← readFlowEntries handles false fuel s
        return ((k, v) :: entries, s)

end

end Formulary.Yaml
