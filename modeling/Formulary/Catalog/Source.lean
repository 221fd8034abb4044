import Formulary.Catalog.Document
import Formulary.Files
import Formulary.Yaml.Building

/-! # Catalogs from text and files

A catalog can be read from YAML text and from a file that holds it. Faults of the form of the text
are faults of the catalog. A scalar that has no value, such as a date in a thirteenth month, is a
fault of its own kind, and so is a text in which something is nested too deep.
-/

namespace Formulary

/-- Why a text or a file is not a catalog. -/
inductive CatalogError where
  | document (f : DocumentFault)
  | notYaml (p : Yaml.Problem) (spot? : Option Yaml.Spot)
  | notUtf8 (label : Text) (f : Text.Utf8.Fault)
deriving DecidableEq, Repr

def CatalogError.message : CatalogError → Text
  | .document f => f.message
  | .notYaml p spot? => "Catalog document is not valid YAML: " ++ Yaml.problemMessage p spot?
  | .notUtf8 label f => "Catalog file " ++ label ++ " is not UTF-8 text: " ++ f.message

/-- Why a catalog cannot be loaded. -/
inductive LoadFault where
  | catalog (e : CatalogError)
  | file (f : FileFault)
  | scalar (f : Yaml.ScalarFault)
  | tooDeep (t : Task)
deriving DecidableEq, Repr

def LoadFault.message : LoadFault → Text
  | .catalog e => e.message
  | .file f => f.message
  | .scalar f => f.message
  | .tooDeep _ => Task.message

/-- Whether a fault is one that is told to the user as a catalog that cannot be loaded. -/
def LoadFault.isReported : LoadFault → Bool
  | .catalog _ => true
  | .file (.refused _ _) => true
  | _ => false

namespace Catalog

/-- The catalog of a YAML text; a document that counts as nothing is the empty catalog. -/
def ofYaml (h : Yaml.Host) (text : Text) : Except LoadFault Catalog :=
  match Yaml.read h text with
  | .error (.problem p spot?) => .error (.catalog (.notYaml p spot?))
  | .error (.scalar f) => .error (.scalar f)
  | .error (.tooDeep t) => .error (.tooDeep t)
  | .ok v =>
    let none : List (Yaml.Value × Yaml.Value) := []
    (if v.layer.isNothing then ofEntries none else ofDocument v).mapError fun
      | .fault f => .catalog (.document f)
      | .tooDeep => .tooDeep .spelling

/-- The catalog of the bytes of a file that is called `label`. -/
def ofBytes (h : Yaml.Host) (label : Text) (content : List UInt8) : Except LoadFault Catalog :=
  match Text.Utf8.decode content with
  | .error f => .error (.catalog (.notUtf8 label f))
  | .ok t => ofYaml h (Text.unifyLineEnds t)

/-- Loads the file at a path; messages call it `label`. -/
def load (h : Yaml.Host) (files : Files) (label : Text) (p : Path) : Except LoadFault Catalog :=
  match files.read p with
  | .error f => .error (.file f)
  | .ok content => ofBytes h label content

end Catalog

end Formulary
