import Formulary.Catalog.Source
import Formulary.Issue
import Formulary.Text.Lowercase

/-! # Configuration

The configuration says whether invalid formulas may be submitted and which file holds the catalog.
It is read from two environment variables, or given as plain data. The environment is the one that
the program has once a file of settings has filled in the variables that were not set.
-/

namespace Formulary

structure Configuration where
  allowInvalid : Bool
  catalogPath? : Option Path
deriving DecidableEq, Repr

/-- The two environment variables, each of which may be unset. -/
structure Environment where
  allowInvalid? : Option Text
  catalogPath? : Option Text
deriving DecidableEq, Repr

/-- Why a variable cannot be set. -/
inductive EnvironmentFault where
  | embeddedNul
  | illegalName
  | emptyName
deriving DecidableEq, Repr

def EnvironmentFault.message : EnvironmentFault → Text
  | .embeddedNul => embeddedNulMessage
  | .illegalName => "illegal environment variable name"
  | .emptyName => "[Errno 22] Invalid argument"

namespace Environment

def empty : Environment := ⟨none, none⟩

def allowInvalidName : Text := "FORMULA_ALLOW_INVALID_SUBMISSION"
def catalogPathName : Text := "FORMULA_CATALOG_PATH"

/-- Sets or unsets a variable that may be set; only the two that are read matter. -/
def put (e : Environment) (name : Text) (value? : Option Text) : Environment :=
  if name == allowInvalidName then ⟨value?, e.catalogPath?⟩
  else if name == catalogPathName then ⟨e.allowInvalid?, value?⟩
  else e

/-- Why a variable of a name cannot have a value. -/
def fault? (name value : Text) : Option EnvironmentFault :=
  if name.contains '\x00' || value.contains '\x00' then some .embeddedNul
  else if name.contains '=' then some .illegalName
  else if name.isEmpty then some .emptyName
  else none

/-- Sets or unsets a variable. -/
def set (e : Environment) (name : Text) (value? : Option Text) :
    Except EnvironmentFault Environment :=
  match value?.bind (fault? name) with
  | some f => .error f
  | none => .ok (e.put name value?)

/-- Sets and unsets variables up to the first that cannot be set. -/
def setAll (e : Environment) : List (Text × Option Text) → Environment × Option EnvironmentFault
  | [] => (e, none)
  | c :: rest =>
    match e.set c.1 c.2 with
    | .error f => (e, some f)
    | .ok e => setAll e rest

end Environment

/-- A variable that is to be true or false has another value. -/
structure BooleanFault where
  value : Text
deriving DecidableEq, Repr

def BooleanFault.message (f : BooleanFault) : Text :=
  Environment.allowInvalidName ++ " must be a boolean (true/false), got " ++ Text.quoted f.value

namespace Configuration

def trueWords : List Text := ["1", "true", "yes", "on"]
def falseWords : List Text := ["0", "false", "no", "off", ""]

/-- The truth value of a text, without regard to blanks around it and to case. -/
def readFlag (text : Text) : Except BooleanFault Bool :=
  let value := Text.lowercase (Text.trim text)
  if trueWords.contains value then .ok true
  else if falseWords.contains value then .ok false
  else .error ⟨value⟩

/-- The path of a text; a blank text is none. -/
def readPath? (text : Text) : Option Path :=
  let trimmed := Text.trim text
  if trimmed.isEmpty then none else some (Path.ofText trimmed)

def ofEnvironment (e : Environment) : Except BooleanFault Configuration :=
  (readFlag (e.allowInvalid?.getD "")).map fun allow =>
    ⟨allow, e.catalogPath?.bind readPath?⟩

/-- The catalog of a configuration. -/
def loadCatalog (h : Yaml.Host) (files : Files) (k : Configuration) : Except LoadFault Catalog :=
  match k.catalogPath? with
  | none => .ok .builtIn
  | some p => Catalog.load h files p.text p

/-! ## Configurations as plain data -/

def trueTexts : List Text := ["1", "t", "y", "on", "yes", "true"]
def falseTexts : List Text := ["0", "f", "n", "no", "off", "false"]

/-- ASCII letters in lower case, all else as it is. -/
def asciiLower (t : Text) : Text := t.map CodePoint.asciiLower

/-- The whole number that a floating-point number is, if it is less than `2 ^ 63` in size. -/
def wholeFloat? : Binary64 → Option Int
  | .finite negative m e =>
    let (num, den) := Binary64.ratio m e
    if num % den = 0 && num / den < Nat.pow 2 63 then
      some (if negative then -(num / den : Nat) else (num / den : Nat))
    else none
  | _ => none

/-- A truth value from plain data: itself, zero or one, or a word for it. -/
def readBoolean : Json → Checked Bool
  | .bool b => .ok b
  | .int i =>
    if i = 0 then .ok false
    else if i = 1 then .ok true
    else if -(Int.pow 2 63) ≤ i && i < Int.pow 2 63 then Checked.fail .unreadableBoolean
    else Checked.fail .notBoolean
  | .float x =>
    match wholeFloat? x with
    | some 0 => .ok false
    | some 1 => .ok true
    | some _ => Checked.fail .unreadableBoolean
    | none => Checked.fail .notBoolean
  | .str s =>
    let word := asciiLower s
    if trueTexts.contains word then .ok true
    else if falseTexts.contains word then .ok false
    else Checked.fail .unreadableBoolean
  | _ => Checked.fail .notBoolean

/-- A path from plain data. -/
def readPath : Json → Checked (Option Path)
  | .null => .ok none
  | .str s => .ok (some (Path.ofText s))
  | _ => Checked.fail .notPath

/-- A field that has a default. -/
def fieldOr {α : Type} (read : Json → Checked α) (v : Json) (name : Text) (dflt : α) :
    Checked α :=
  match v.get? name with
  | none => .ok dflt
  | some x => Checked.within (.field name) (read x)

/-- The configuration of plain data; a field that is not there has its default. -/
def ofJson (v : Json) : Checked Configuration :=
  (Checked.both (fieldOr readBoolean v "allow_invalid_submission" false)
    (fieldOr readPath v "catalog_path" none)).map fun p => ⟨p.1, p.2⟩

end Configuration

end Formulary
