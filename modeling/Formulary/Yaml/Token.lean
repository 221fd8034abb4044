import Formulary.Yaml.Fault

/-! # Tokens

The words of a YAML text. Block collections have a start and an end although no character stands
for them: the lexer puts them where the indentation changes.
-/

namespace Formulary.Yaml

/-- What a directive line says. -/
inductive Directive where
  | version (major minor : Nat)
  | handle (handle expansion : Text)
  | other (name : Text)
deriving DecidableEq, Repr

/-- A word of a text. A `broken` word stands where the text stopped being readable. -/
inductive Word where
  | streamEnd
  | directive (d : Directive)
  | documentStart
  | documentEnd
  | blockSequenceStart
  | blockMappingStart
  | blockEnd
  | flowSequenceStart
  | flowSequenceEnd
  | flowMappingStart
  | flowMappingEnd
  | blockEntry
  | flowEntry
  | key
  | value
  | alias (name : Text)
  | anchor (name : Text)
  | tag (handle? : Option Text) (suffix : Text)
  | scalar (text : Text) (plain : Bool)
  | broken (fault : Fault)
deriving DecidableEq, Repr

/-- A word and the place where it stands. -/
structure Token where
  word : Word
  spot : Spot
deriving DecidableEq, Repr

/-- The name of a word in a message. -/
def Word.describe : Word → Text
  | .streamEnd => "end of the text"
  | .directive _ => "directive"
  | .documentStart => "start of a document"
  | .documentEnd => "end of a document"
  | .blockSequenceStart => "block sequence"
  | .blockMappingStart => "block mapping"
  | .blockEnd => "end of a block"
  | .flowSequenceStart => "'['"
  | .flowSequenceEnd => "']'"
  | .flowMappingStart => "opening brace"
  | .flowMappingEnd => "closing brace"
  | .blockEntry => "'-'"
  | .flowEntry => "','"
  | .key => "'?'"
  | .value => "':'"
  | .alias name => "alias " ++ name
  | .anchor name => "anchor " ++ name
  | .tag _ suffix => "tag " ++ suffix
  | .scalar text _ => "scalar " ++ Text.quoted text
  | .broken _ => "text"

end Formulary.Yaml
