import Formulary.Calendar
import Formulary.Depth
import Formulary.Number.Numeral
import Formulary.Text.Quoted

/-! # Faults of a YAML text

A text is refused for a `Problem` of its form, with the place where it was noticed, or because a
scalar that is formed like a number, a truth value or a date has no value, or because something in it
is nested too deep.
-/

namespace Formulary.Yaml

/-- A place in a text, counted from zero. -/
structure Spot where
  line : Nat
  column : Nat
deriving DecidableEq, Repr

/-- What is wrong with the form of a text. -/
inductive Problem where
  | unprintable (c : CodePoint)
  | cannotStart (c : CodePoint)
  | keyWithoutValue
  | entryNotAllowed
  | keyNotAllowed
  | valueNotAllowed
  | directive
  | anchorName
  | tagName
  | blockHeader
  | unclosedQuote
  | separatorInQuote
  | escape (c : CodePoint)
  | unexpected (found : Text)
  | version (major : Nat)
  | repeatedDirective
  | unknownHandle (handle : Text)
  | undefinedAlias (name : Text)
  | repeatedAnchor (name : Text)
  | manyDocuments
  | unknownTag (name : Text)
  | kindOfTag (name : Text)
  | keyNotScalar
  | mergeNotMap
  | binaryData
deriving DecidableEq, Repr

def Problem.message : Problem → Text
  | .unprintable c => "character " ++ Text.quoted [c] ++ " is not allowed"
  | .cannotStart c =>
    "character " ++ Text.quoted [c] ++ " cannot start any token"
  | .keyWithoutValue => "a key is not followed by ':'"
  | .entryNotAllowed => "a sequence entry is not allowed here"
  | .keyNotAllowed => "a mapping key is not allowed here"
  | .valueNotAllowed => "a mapping value is not allowed here"
  | .directive => "malformed directive"
  | .anchorName => "malformed anchor or alias"
  | .tagName => "malformed tag"
  | .blockHeader => "malformed header of a block scalar"
  | .unclosedQuote => "a quoted scalar is not closed"
  | .separatorInQuote => "document separator in a quoted scalar"
  | .escape c => "unknown escape character " ++ Text.quoted [c]
  | .unexpected found => "unexpected " ++ found
  | .version major => "version " ++ Text.ofNat major ++ " is not supported"
  | .repeatedDirective => "a directive is given twice"
  | .unknownHandle handle => "undefined tag handle " ++ Text.quoted handle
  | .undefinedAlias name => "undefined alias " ++ Text.quoted name
  | .repeatedAnchor name => "the anchor " ++ Text.quoted name ++ " is given twice"
  | .manyDocuments => "more than one document"
  | .unknownTag name => "no value for the tag " ++ Text.quoted name
  | .kindOfTag name => "the tag " ++ Text.quoted name ++ " is on the wrong kind of node"
  | .keyNotScalar => "a key is a collection"
  | .mergeNotMap => "a merged value is not a mapping"
  | .binaryData => "malformed binary data"

/-- Why a well-formed scalar has no value. -/
inductive ScalarFault where
  | numeral (f : Numeral.Fault)
  | emptyNumeral
  | truth (text : Text)
  | timestamp
  | timestampOfMapping
  | calendar (f : CalendarFault)
  | codePoint (n : Nat)
  | placeTooLarge
deriving DecidableEq, Repr

def ScalarFault.message : ScalarFault → Text
  | .numeral f => f.message
  | .emptyNumeral => "string index out of range"
  | .truth text => Text.quoted text
  | .timestamp => "'NoneType' object has no attribute 'groupdict'"
  | .timestampOfMapping => "expected string or bytes-like object, got 'list'"
  | .calendar f => f.message
  | .codePoint n =>
    if n < Nat.pow 2 31 then "chr() arg not in range(0x110000)"
    else "Python int too large to convert to C int"
  | .placeTooLarge => "int too large to convert to float"

/-- Why a text has no value. -/
inductive Fault where
  | problem (p : Problem) (spot? : Option Spot)
  | scalar (f : ScalarFault)
  | tooDeep (t : Task)
deriving DecidableEq, Repr

/-- A problem with its place, counted from one. -/
def problemMessage (p : Problem) (spot? : Option Spot) : Text :=
  match spot? with
  | none => p.message
  | some s =>
    "line " ++ Text.ofNat (s.line + 1) ++ ", column " ++ Text.ofNat (s.column + 1) ++ ": " ++
      p.message

end Formulary.Yaml
