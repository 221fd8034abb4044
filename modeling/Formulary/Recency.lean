/-! # Remembering what was used last

A bounded memory of values by key. A key that is found moves to the front; a key that is not found
is loaded and put there, and what then exceeds the capacity is forgotten from the back. A load that
fails changes nothing.
-/

namespace Formulary

/-- Remembered values, the most recently used first. -/
structure Recency (κ α : Type) where
  entries : List (κ × α)

namespace Recency

variable {κ α ε : Type} [BEq κ]

def empty : Recency κ α := ⟨[]⟩

def keys (r : Recency κ α) : List κ := r.entries.map (·.1)

def get? (r : Recency κ α) (k : κ) : Option α := r.entries.lookup k

/-- The entries without a key. -/
def without (r : Recency κ α) (k : κ) : List (κ × α) := r.entries.filter fun e => !(e.1 == k)

/-- The value of a key, loaded if it is not remembered, with the memory after the access. -/
def access (capacity : Nat) (r : Recency κ α) (k : κ) (load : κ → Except ε α) :
    Except ε α × Recency κ α :=
  match r.get? k with
  | some v => (.ok v, ⟨(k, v) :: r.without k⟩)
  | none =>
    match load k with
    | .error e => (.error e, r)
    | .ok v => (.ok v, ⟨((k, v) :: r.entries).take capacity⟩)

end Recency

end Formulary
