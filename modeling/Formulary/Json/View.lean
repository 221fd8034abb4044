import Formulary.Json.Basic
import Formulary.Value

/-! # Plain data as values of a document

Plain data holds its parts in itself. The names of an object are the text keys of a map. Plain data
comes from a caller and not from a file, and its spelling is not bounded in depth.
-/

namespace Formulary.Json

def layer : Json → Layer Json
  | .null => .null
  | .bool b => .bool b
  | .int i => .int i
  | .float x => .float x
  | .str t => .str t
  | .list items => .list items
  | .object fields => .map (fields.map fun f => (.str f.1, f.2))

mutual

/-- The spelling of plain data. -/
def notated? : Json → Option Text
  | .null => some Spelling.null
  | .bool b => some (Spelling.bool b)
  | .int i => Numeral.text? i
  | .float x => some (Spelling.numberStyle.text x)
  | .str t => some (Text.quoted t)
  | .list items => (notatedItems? items).map Spelling.list
  | .object fields => (notatedFields? fields).map Spelling.map

def notatedItems? : List Json → Option (List Text)
  | [] => some []
  | v :: rest => do
    let x ← notated? v
    let xs ← notatedItems? rest
    return x :: xs

def notatedFields? : List (Text × Json) → Option (List Text)
  | [] => some []
  | (k, v) :: rest => do
    let x ← notated? v
    let xs ← notatedFields? rest
    return Spelling.entry (Text.quoted k) x :: xs

end

instance : ValueLike Json := ⟨layer, fun v => Unspelled.unlessLong v.notated?⟩

end Formulary.Json
