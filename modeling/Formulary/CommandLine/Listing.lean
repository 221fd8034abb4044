import Formulary.CommandLine.Output
import Formulary.Json.Writer
import Formulary.Yaml.Writer

/-! # The command that prints a catalog

The catalog, built in or from a file, is printed as YAML or as JSON in the form of a document that
can be read back.
-/

namespace Formulary.CommandLine.Listing

/-- How a catalog is written. -/
inductive Format where
  | yaml
  | json
deriving DecidableEq, Repr

def Format.ofName? (s : Text) : Option Format :=
  if s == "yaml" then some .yaml else if s == "json" then some .json else none

structure Options where
  format : Format
  catalog? : Option Text
deriving DecidableEq, Repr

def table : List Switch := [⟨"--format", .choice ["yaml", "json"]⟩, ⟨"--catalog", .value⟩]

/-- The options that settings stand for. -/
def options (xs : List Setting) : Options where
  format := if valueOf? xs "--format" = some "json" then .json else .yaml
  catalog? := catalogName? xs

/-- The text of a catalog. -/
def text (format : Format) (c : Catalog) : Text :=
  match format with
  | .json => c.document.pretty
  | .yaml => Yaml.write c.documentFields

def answer (o : Options) (c : Catalog) : Output := ⟨0, Output.line (text o.format c), ""⟩

/-- Runs the command on a host with its files. -/
def run (h : Yaml.Host) (files : Files) (words : List Text) : Except LoadFault Output :=
  match parse table words with
  | .error f => .ok (.refused f)
  | .ok .help => .ok (.help table)
  | .ok (.settings xs) =>
    let o := options xs
    withCatalog id o.catalog? (fun name => Catalog.load h files name (Path.ofText name)) fun c =>
      .ok (answer o c)

end Formulary.CommandLine.Listing
