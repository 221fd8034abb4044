import Formulary.Yaml.Scalar

/-! # The order of a set

The members of a set stand in the slots of a table, and the set is listed slot by slot. A member
goes to the slot of its code or, where that is taken, to the first free one on its own way through
the table. The code of a number is its residue. The code of anything else is drawn anew each time the
program is started, and is therefore part of the host.
-/

namespace Formulary.Yaml

/-- What the reader of a text finds where it runs: how deep it may go, and the codes of the values
that are no numbers. -/
structure Host extends Depths where
  code : Atom → Int

/-- A host with no more room than there must be. -/
def Host.least : Host := { room := fun _ => 16, ample := fun _ => Nat.le_refl 16, code := fun _ => 0 }

namespace SetOrder

/-- Residues are taken by this prime. -/
def modulus : Nat := Nat.pow 2 61 - 1

/-- The residue of a number with a sign; there is no residue minus one. -/
def signedResidue (negative : Bool) (n : Nat) : Int :=
  let r := n % modulus
  if !negative then r else if r = 1 then -2 else -r

/-- The residue of a number. Two to the power of 61 leaves one, so that a fraction has a residue as
well. -/
def residue? : Atom → Option Int
  | .bool b => some (if b then 1 else 0)
  | .int i => some (signedResidue (i < 0) i.natAbs)
  | .float (.infinite negative) => some (if negative then -314159 else 314159)
  | .float (.finite negative m e) => some (signedResidue negative (m * Nat.pow 2 (e % 61).toNat))
  | _ => none

/-- The code of a value. -/
def code (h : Host) (a : Atom) : Int := (residue? a).getD (h.code a)

/-- The number of slots for so many members: a power of two. -/
def tableSize (count : Nat) : Nat := if count < 5 then 8 else Nat.pow 2 ((2 * count).log2 + 1)

/-- The slots that are tried together from a slot on: ten in a row if the table has them, else only
the slot itself. -/
def row (size slot : Nat) : List Nat := if slot + 9 < size then List.range' slot 10 else [slot]

/-- The first free slot on a way through the table. The way goes on by `5 * slot + 1` and by what is
left of the code, which loses five bits each time. -/
def freeSlot (size : Nat) (taken : List Nat) (fuel slot left : Nat) : Nat :=
  match fuel with
  | 0 => slot
  | fuel + 1 =>
    match (row size slot).find? fun s => !taken.contains s with
    | some s => s
    | none => freeSlot size taken fuel ((slot * 5 + 1 + left / 32) % size) (left / 32)

/-- The slots of codes that come one after the other. Thirteen steps use a code up, and then the way
meets every slot. -/
def slots (size : Nat) (taken : List Nat) : List Int → List Nat
  | [] => []
  | r :: rest =>
    let word := (r % Int.pow 2 64).toNat
    let s := freeSlot size taken (size + 14) (word % size) word
    s :: slots size (s :: taken) rest

/-- The members of a set in their order. -/
def arrange {α : Type} (code : α → Int) (members : List α) : List α :=
  let size := tableSize members.length
  let placed := (slots size [] (members.map code)).zip members
  (List.range size).filterMap fun s => placed.lookup s

end SetOrder

end Formulary.Yaml
