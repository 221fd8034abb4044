import Formulary.Text.Digit
import Formulary.Text.Quoted

/-! # Options of a command line

Words are told apart first: switches by their name or by the start of a name that only one of them
has, with a value after `=` or without, and all other words. Everything after `--` is an ordinary
word. The switches are then taken in order; one that takes a value takes the next word, which must
be an ordinary one. What is left over is reported last.
-/

namespace Formulary.CommandLine

/-- What a switch takes. -/
inductive Takes where
  | nothing
  | value
  | choice (choices : List Text)
deriving DecidableEq, Repr

/-- A switch by its name. -/
structure Switch where
  name : Text
  takes : Takes
deriving DecidableEq, Repr

/-- Why a command line is refused. -/
inductive Fault where
  | ambiguous (word : Text) (names : List Text)
  | noValue (name : Text)
  | unwantedValue (name value : Text)
  | invalidChoice (name value : Text) (choices : List Text)
  | leftOver (words : List Text)
deriving DecidableEq, Repr

def Fault.message : Fault → Text
  | .ambiguous word names =>
    "ambiguous option: " ++ word ++ " could match " ++ Text.join ", " names
  | .noValue name => "argument " ++ name ++ ": expected one argument"
  | .unwantedValue name value =>
    "argument " ++ name ++ ": ignored explicit argument " ++ Text.quoted value
  | .invalidChoice name value choices =>
    "argument " ++ name ++ ": invalid choice: " ++ Text.quoted value ++ " (choose from " ++
      Text.join ", " (choices.map Text.quoted) ++ ")"
  | .leftOver words => "unrecognized arguments: " ++ Text.join " " words

/-- A word of the command line. -/
inductive Word where
  /-- A word that can be a value. -/
  | ordinary (text : Text)
  /-- A word that can neither be a value nor is known. -/
  | stray (text : Text)
  | switch (s : Switch) (value? : Option Text)
  | help
  /-- The short request for help with something after it. -/
  | shortHelp (value : Text)
  /-- The long request for help with a value, which it does not take. -/
  | longHelp (value : Text)
deriving DecidableEq, Repr

/-! ## Telling words apart -/

def helpName : Text := "--help"
def shortHelpName : Text := "-h"

/-- Help is always there and is called by two names. -/
def helpLabel : Text := "-h/--help"

/-- A word before and after its first `=`. -/
def splitValue (word : Text) : Text × Option Text :=
  match word.span (· ≠ .char '=') with
  | (name, []) => (name, none)
  | (name, _ :: value) => (name, some value)

/-- The word of a switch or of help by its full name. -/
def named (table : List Switch) (name : Text) (value? : Option Text) : Option Word :=
  if name == helpName then some (value?.elim .help .longHelp)
  else if name == shortHelpName then some (value?.elim .help .shortHelp)
  else (table.find? (·.name == name)).map fun s => .switch s value?

/-- The names that start with given letters. -/
def candidates (table : List Switch) (start : Text) : List Text :=
  (helpName :: table.map (·.name)).filter fun name => start.isPrefixOf name

/-- Digits, or a point with digits after it and perhaps before it. A line break may follow. -/
def isNumber (t : Text) : Bool :=
  match (Text.dropFinalBreak t).span Text.isDecimalDigit with
  | (whole, []) => !whole.isEmpty
  | (_, .char '.' :: fraction) => !fraction.isEmpty && fraction.all Text.isDecimalDigit
  | _ => false

/-- What a word is that starts with a dash and is no name. -/
def unnamed (word : Text) : Word :=
  if isNumber (word.drop 1) || word.contains ' ' then .ordinary word else .stray word

/-- Tells what a word is. -/
def classify (table : List Switch) (word : Text) : Except Fault Word :=
  match word with
  | .char '-' :: second :: rest =>
    let (name, value?) := splitValue word
    match named table name value? with
    | some w => .ok w
    | none =>
      if second = '-' then
        match candidates table name with
        | [] => .ok (unnamed word)
        | [full] => .ok ((named table full value?).getD (unnamed word))
        | many => .error (.ambiguous word many)
      else if second = 'h' then .ok (.shortHelp rest)
      else .ok (unnamed word)
  | _ => .ok (.ordinary word)

/-- The word that ends the switches. -/
def endOfSwitches : Text := "--"

/-- Tells what all words are; after `--` they are all ordinary, and `--` itself is no value. -/
def classifyAll (table : List Switch) : List Text → Except Fault (List Word)
  | [] => .ok []
  | word :: rest =>
    if word == endOfSwitches then .ok (.stray word :: rest.map .ordinary)
    else do
      let w ← classify table word
      let ws ← classifyAll table rest
      return w :: ws

/-! ## Taking the switches -/

/-- A switch that was given, with its value if it has one. -/
structure Setting where
  name : Text
  value? : Option Text
deriving DecidableEq, Repr

/-- What a command line asks for. -/
inductive Parsed where
  | help
  | settings (xs : List Setting)
deriving DecidableEq, Repr

/-- What the short request for help leaves of a value: it takes none, but every further `h` in it is
the request once more. `none` if nothing is left. -/
def unwantedHelpValue? (value : Text) : Option Text :=
  let rest := value.dropWhile (· = .char 'h')
  if rest.isEmpty && !value.isEmpty then none else some rest

/-- Checks the value of a switch. -/
def setting (s : Switch) (value : Text) : Except Fault Setting :=
  match s.takes with
  | .choice choices =>
    if choices.contains value then .ok ⟨s.name, some value⟩
    else .error (.invalidChoice s.name value choices)
  | _ => .ok ⟨s.name, some value⟩

/-- The setting of a switch with a value after `=`; the end of the switches there is no value. -/
def explicitSetting (s : Switch) (value : Text) : Except Fault Setting :=
  if s.takes = .nothing then .error (.unwantedValue s.name value)
  else if value == endOfSwitches then .ok ⟨s.name, none⟩
  else setting s value

/-- Takes the switches in order; `done` and `left` are the settings and the words left over so far,
backwards. -/
def take (done : List Setting) (left : List Text) : List Word → Except Fault Parsed
  | [] => if left.isEmpty then .ok (.settings done.reverse) else .error (.leftOver left.reverse)
  | .ordinary text :: rest => take done (text :: left) rest
  | .stray text :: rest => take done (text :: left) rest
  | .help :: _ => .ok .help
  | .longHelp value :: _ => .error (.unwantedValue helpLabel value)
  | .shortHelp value :: _ =>
    match unwantedHelpValue? value with
    | some rest => .error (.unwantedValue helpLabel rest)
    | none => .ok .help
  | .switch s (some value) :: rest =>
    match explicitSetting s value with
    | .error f => .error f
    | .ok x => take (x :: done) left rest
  | .switch s none :: .ordinary value :: rest =>
    if s.takes = .nothing then take (⟨s.name, none⟩ :: done) (value :: left) rest
    else
      match setting s value with
      | .error f => .error f
      | .ok x => take (x :: done) left rest
  | .switch s none :: rest =>
    if s.takes = .nothing then take (⟨s.name, none⟩ :: done) left rest
    else .error (.noValue s.name)

/-- Reads a command line by a table of switches. -/
def parse (table : List Switch) (words : List Text) : Except Fault Parsed := do
  let ws ← classifyAll table words
  take [] [] ws

/-- The setting of a switch; the last one given counts. -/
def settingOf? (xs : List Setting) (name : Text) : Option Setting :=
  xs.reverse.find? (·.name == name)

/-- The value of a switch. -/
def valueOf? (xs : List Setting) (name : Text) : Option Text :=
  (settingOf? xs name).bind (·.value?)

/-- Whether a switch was given. -/
def isGiven (xs : List Setting) (name : Text) : Bool := (settingOf? xs name).isSome

/-- Whether a switch was given and has no value. -/
def isBare (xs : List Setting) (name : Text) : Bool := isGiven xs name && (valueOf? xs name).isNone

end Formulary.CommandLine
