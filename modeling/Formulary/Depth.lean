import Formulary.Text.Basic

/-! # Depth

Some tasks go down into data that is nested, and a machine gives such a task up when its stack is
used up. How deep that is depends on the machine and on what is on its stack when the task begins, so
that the depths are given from outside.

They are an idealisation: a depth is counted in the things that stand inside one another, while a
stack is used up by calls, whose number for one level can vary a little with what stands there. No
more is assumed of a depth than that it is not below sixteen, which is more than the documents of
this program need.
-/

namespace Formulary

/-- The tasks that go down into nested data. -/
inductive Task where
  /-- To read the collections of a YAML text, one inside the other. -/
  | collections
  /-- To merge mappings into one another. -/
  | merges
  /-- To find the scalar that a mapping stands for, through other mappings. -/
  | defaults
  /-- To spell the values inside a value. -/
  | spelling
  /-- To read the values inside a JSON text. -/
  | parsing
  /-- To send back the values inside a value. -/
  | echoing
deriving DecidableEq, Repr

/-- The message of a task that is given up, up to where it names the call that was one too many. -/
def Task.message : Text := "maximum recursion depth exceeded"

/-- So many things may stand inside one another, for each task. -/
structure Depths where
  room : Task → Nat
  ample : ∀ t, 16 ≤ room t

/-- What stops a task on values: something is wrong with them, or they are nested too deep. -/
inductive Halt (ε : Type) where
  | fault (f : ε)
  | tooDeep
deriving DecidableEq, Repr

def Halt.map {ε δ : Type} (g : ε → δ) : Halt ε → Halt δ
  | .fault f => .fault (g f)
  | .tooDeep => .tooDeep

end Formulary
