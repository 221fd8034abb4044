import Formulary.Guard
import Formulary.Text.Quoted

/-! # The registry of guards

A registry holds guards in the order of their positions. A candidate may lack an id or a position;
registering accepts it if it has both, the id is not empty, and neither is taken.
-/

namespace Formulary

/-- What is offered to a registry. -/
structure Candidate where
  id? : Option Text
  position? : Option Int
  kind : RejectionKind
  check : Context → Except AbsentOperator (Option Rejection)

namespace Candidate

def ofGuard (g : Guard) : Candidate := ⟨some g.id, some g.position, g.kind, g.check⟩

/-- The id of a candidate, which is not empty. -/
def ident? (c : Candidate) : Option Text := c.id?.filter (!·.isEmpty)

end Candidate

/-- Why a guard is refused. -/
inductive RegistryFault where
  | missingId
  | duplicateId (id : Text)
  | missingPosition (id : Text)
  | sharedPosition (holder id : Text) (position : Int)
  | unusable
deriving DecidableEq, Repr

def RegistryFault.message : RegistryFault → Text
  | .missingId => "Guard class missing guard_id"
  | .duplicateId id => "Duplicate guard_id registered: " ++ id
  | .missingPosition id => "Guard " ++ id ++ " missing position"
  | .sharedPosition holder id position =>
    "Guards " ++ holder ++ " and " ++ id ++ " share position " ++ Text.ofInt position
  | .unusable => "Guard must define guard_id"

/-- A guard can be made from a candidate with an id, also outside a registry. -/
def Candidate.instantiate (c : Candidate) : Except RegistryFault Text :=
  match c.ident? with
  | none => .error .unusable
  | some id => .ok id

/-- Guards in the order of their positions. -/
structure Registry where
  guards : List Guard

namespace Registry

def empty : Registry := ⟨[]⟩

/-- Puts a guard before the first one that comes later. -/
def insert (g : Guard) : List Guard → List Guard
  | [] => [g]
  | h :: rest => if g.position < h.position then g :: h :: rest else h :: insert g rest

/-- Adds a candidate, or says why not. -/
def register (r : Registry) (c : Candidate) : Except RegistryFault Registry :=
  match c.ident? with
  | none => .error .missingId
  | some id =>
    if r.guards.any (·.id == id) then .error (.duplicateId id)
    else
      match c.position? with
      | none => .error (.missingPosition id)
      | some position =>
        match r.guards.find? (·.position == position) with
        | some holder => .error (.sharedPosition holder.id id position)
        | none => .ok ⟨insert ⟨id, position, c.kind, c.check⟩ r.guards⟩

/-- The guard of an id. -/
def get? (r : Registry) (id : Text) : Option Guard := r.guards.find? (·.id == id)

/-- The ids in the order of evaluation. -/
def ids (r : Registry) : List Text := r.guards.map (·.id)

/-- Makes all guards in the order of evaluation. -/
def createAll (r : Registry) : Except RegistryFault (List Guard) :=
  r.guards.mapM fun g => (Candidate.ofGuard g).instantiate.map fun _ => g

/-- Registers candidates one after the other; those that are refused change nothing. -/
def registerAll (r : Registry) (cs : List Candidate) : Registry :=
  cs.foldl (fun r c => match r.register c with | .ok r' => r' | .error _ => r) r

/-- The registry of the built-in guards. -/
def builtIn : Registry := registerAll empty (Guard.builtIn.map .ofGuard)

/-- The guards of ids, in the given order, or the first id that is unknown. -/
def select (r : Registry) : List Text → Except Text (List Guard)
  | [] => .ok []
  | id :: rest =>
    match r.get? id with
    | none => .error id
    | some g => (r.select rest).map (g :: ·)

end Registry

end Formulary
