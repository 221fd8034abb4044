import Formulary.Number.Shortest

/-! # Plain data

The values that a JSON text spells. The fields of an object keep their order, whole numbers have no
bound, and a whole number is never the same value as a floating-point one.
-/

namespace Formulary

/-- A plain value. -/
inductive Json where
  | null
  | bool (b : Bool)
  | int (i : Int)
  | float (x : Binary64)
  | str (s : Text)
  | list (items : List Json)
  | object (fields : List (Text × Json))
deriving Repr, Inhabited

namespace Json

/-- The field of a name in an ordered list of fields. -/
def field? (fields : List (Text × Json)) (name : Text) : Option Json := fields.lookup name

/-- The field of a name in an object; nothing else has fields. -/
def get? : Json → Text → Option Json
  | .object fields, name => field? fields name
  | _, _ => none

/-- Writes a field: a name that is there keeps its place and takes the new value. -/
def setField (fields : List (Text × Json)) (name : Text) (v : Json) :
    List (Text × Json) :=
  if fields.any (·.1 == name) then
    fields.map fun f => if f.1 == name then (name, v) else f
  else fields ++ [(name, v)]

mutual

/-- Whether every number inside is finite. -/
def allFinite : Json → Bool
  | .float .nan => false
  | .float (.infinite _) => false
  | .list items => allFiniteItems items
  | .object fields => allFiniteFields fields
  | _ => true

def allFiniteItems : List Json → Bool
  | [] => true
  | v :: rest => allFinite v && allFiniteItems rest

def allFiniteFields : List (Text × Json) → Bool
  | [] => true
  | (_, v) :: rest => allFinite v && allFiniteFields rest

end

mutual

/-- How many lists and objects stand inside one another. -/
def depth : Json → Nat
  | .list items => depthOfItems items + 1
  | .object fields => depthOfFields fields + 1
  | _ => 0

def depthOfItems : List Json → Nat
  | [] => 0
  | v :: rest => max (depth v) (depthOfItems rest)

def depthOfFields : List (Text × Json) → Nat
  | [] => 0
  | (_, v) :: rest => max (depth v) (depthOfFields rest)

end

mutual

/-- The texts inside, in the order in which they are written. -/
def texts : Json → List Text
  | .str t => [t]
  | .list items => textsOfItems items
  | .object fields => textsOfFields fields
  | _ => []

def textsOfItems : List Json → List Text
  | [] => []
  | v :: rest => texts v ++ textsOfItems rest

def textsOfFields : List (Text × Json) → List Text
  | [] => []
  | (k, v) :: rest => k :: (texts v ++ textsOfFields rest)

end

end Json

end Formulary
