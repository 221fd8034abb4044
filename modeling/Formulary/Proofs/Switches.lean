import Mathlib.Data.List.TakeDrop
import Formulary.CommandLine.Check

/-! # Switches that are written with their values

A switch can be given in one word, its name and its value with `=` between them. Then no value is
taken for anything else, whatever it starts with, except that `--` is never a value. So every inquiry
without that text can be made from the command line.
-/

namespace Formulary.CommandLine
set_option autoImplicit false

theorem splitValue_joined {name : Text} (h : .char '=' ∉ name) (value : Text) :
    splitValue (name ++ .char '=' :: value) = (name, some value) := by
  have hin : ∀ x ∈ name, decide (x ≠ CodePoint.char '=') = true := by
    intro x hx
    rw [decide_eq_true_eq]
    rintro rfl
    exact h hx
  have hspan : (name ++ CodePoint.char '=' :: value).span (· ≠ .char '=') =
      (name, .char '=' :: value) := by
    rw [List.span_eq_takeWhile_dropWhile, List.takeWhile_append_of_pos hin,
      List.dropWhile_append_of_pos hin]
    simp
  rw [splitValue, hspan]

/-- A switch is known by its name, which cannot be taken for help or for a name with a value. -/
def Switch.Callable (table : List Switch) (s : Switch) : Prop :=
  s.name = .char '-' :: .char '-' :: s.name.drop 2 ∧ .char '=' ∉ s.name ∧ s.name ≠ helpName ∧
    s.name ≠ shortHelpName ∧ table.find? (·.name == s.name) = some s

instance (table : List Switch) (s : Switch) : Decidable (s.Callable table) :=
  inferInstanceAs (Decidable (_ ∧ _))

/-- A switch takes a value as it is. -/
def Switch.Admits (s : Switch) (value : Text) : Prop :=
  explicitSetting s value = .ok ⟨s.name, some value⟩

theorem Switch.admits_value {name value : Text} (h : value ≠ endOfSwitches) :
    Admits ⟨name, .value⟩ value := by
  simp [Admits, explicitSetting, setting, h]

/-- A switch and its value in one word. -/
def Switch.joined (s : Switch) (value : Text) : Text := s.name ++ .char '=' :: value

section Joined

variable {table : List Switch} {s : Switch}

theorem classify_joined (h : s.Callable table) (value : Text) :
    classify table (s.joined value) = .ok (.switch s (some value)) := by
  obtain ⟨hdash, heq, hhelp, hshort, hfind⟩ := h
  have hword : s.joined value =
      .char '-' :: .char '-' :: (s.name.drop 2 ++ .char '=' :: value) := by
    rw [Switch.joined, hdash]
    rfl
  have hnamed : named table s.name (some value) = some (.switch s (some value)) := by
    simp [named, hhelp, hshort, hfind]
  have hsplit := splitValue_joined heq value
  rw [← Switch.joined, hword] at hsplit
  rw [hword, classify]
  simp only [hsplit, hnamed]

theorem joined_ne_end (h : s.Callable table) (value : Text) : s.joined value ≠ endOfSwitches := by
  intro he
  have hlen := congrArg List.length he
  rw [Switch.joined, h.1] at hlen
  simp [endOfSwitches, Text.ofString, Text.ofChars] at hlen

end Joined

/-! ## Command lines -/

section Lines

variable {table : List Switch} {given : List (Switch × Text)}

theorem classifyAll_joined (h : ∀ x ∈ given, x.1.Callable table) :
    classifyAll table (given.map fun x => x.1.joined x.2) =
      .ok (given.map fun x => .switch x.1 (some x.2)) := by
  induction given with
  | nil => rfl
  | cons x rest ih =>
    rw [List.forall_mem_cons] at h
    have hne : (x.1.joined x.2 == endOfSwitches) = false :=
      beq_eq_false_iff_ne.mpr (joined_ne_end h.1 x.2)
    rw [List.map_cons, classifyAll, hne, classify_joined h.1, ih h.2]
    rfl

theorem take_joined (h : ∀ x ∈ given, x.1.Admits x.2) (done : List Setting) :
    take done [] (given.map fun x => .switch x.1 (some x.2)) =
      .ok (.settings (done.reverse ++ given.map fun x => ⟨x.1.name, some x.2⟩)) := by
  induction given generalizing done with
  | nil => simp [take]
  | cons x rest ih =>
    rw [List.forall_mem_cons] at h
    rw [List.map_cons, take, h.1]
    simp only [ih h.2, List.reverse_cons, List.append_assoc, List.map_cons, List.singleton_append]

theorem parse_joined (hc : ∀ x ∈ given, x.1.Callable table) (ha : ∀ x ∈ given, x.1.Admits x.2) :
    parse table (given.map fun x => x.1.joined x.2) =
      .ok (.settings (given.map fun x => ⟨x.1.name, some x.2⟩)) := by
  rw [parse, classifyAll_joined hc]
  exact take_joined ha []

end Lines

/-! ## The command that checks a formula -/

namespace Check

/-- A command line asks for what is said in the options. -/
def Asks (words : List Text) (o : Options) : Prop :=
  ∃ xs, parse table words = .ok (.settings xs) ∧ options xs = o

def Format.name : Format → Text
  | .text => "text"
  | .json => "json"

/-- A switch whose value may be absent. -/
def side (name : Text) (value? : Option Text) : List (Switch × Text) :=
  (value?.map fun value => (⟨name, .value⟩, value)).toList

/-- The switches of an inquiry, of the name of a catalog and of a format. -/
def given (q : Inquiry) (name : Text) (format : Format) : List (Switch × Text) :=
  side "--left" q.left? ++ side "--operator" q.symbol? ++ side "--right" q.right? ++
    [(⟨"--catalog", .value⟩, name), (⟨"--format", .choice ["text", "json"]⟩, format.name)]

/-- An inquiry as a command line. -/
def spelled (q : Inquiry) (name : Text) (format : Format) : List Text :=
  (given q name format).map fun x => x.1.joined x.2

/-- No text of an inquiry is `--`. -/
structure Spellable (q : Inquiry) : Prop where
  left : q.left? ≠ some endOfSwitches
  symbol : q.symbol? ≠ some endOfSwitches
  right : q.right? ≠ some endOfSwitches

section Spelled

variable {q : Inquiry} {name : Text} {format : Format}

theorem forall_mem_given {P : Switch × Text → Prop}
    (hl : ∀ t ∈ q.left?, P (⟨"--left", .value⟩, t))
    (hs : ∀ t ∈ q.symbol?, P (⟨"--operator", .value⟩, t))
    (hr : ∀ t ∈ q.right?, P (⟨"--right", .value⟩, t)) (hc : P (⟨"--catalog", .value⟩, name))
    (hf : P (⟨"--format", .choice ["text", "json"]⟩, format.name)) :
    ∀ x ∈ given q name format, P x := by
  have hside : ∀ (switch : Text) (value? : Option Text),
      (∀ t ∈ value?, P (⟨switch, .value⟩, t)) → ∀ x ∈ side switch value?, P x := by
    intro switch value? h
    cases value? with
    | none => exact List.forall_mem_nil _
    | some t => exact List.forall_mem_singleton.mpr (h t rfl)
  simp only [given, List.forall_mem_append, List.forall_mem_cons]
  exact ⟨⟨⟨hside _ _ hl, hside _ _ hs⟩, hside _ _ hr⟩, hc, hf, List.forall_mem_nil _⟩

theorem given_callable : ∀ x ∈ given q name format, x.1.Callable table := by
  have hall : ∀ s ∈ table, s.takes ≠ .nothing → s.Callable table := by decide
  apply forall_mem_given <;> intros <;> exact hall _ (by simp [table]) nofun

theorem given_admits (hq : Spellable q) (hname : name ≠ endOfSwitches) :
    ∀ x ∈ given q name format, x.1.Admits x.2 := by
  apply forall_mem_given
  · intro t ht
    exact Switch.admits_value fun he => hq.left (he ▸ ht)
  · intro t ht
    exact Switch.admits_value fun he => hq.symbol (he ▸ ht)
  · intro t ht
    exact Switch.admits_value fun he => hq.right (he ▸ ht)
  · exact Switch.admits_value hname
  · cases format <;> rfl

theorem options_given (hne : name ≠ []) :
    options ((given q name format).map fun x => ⟨x.1.name, some x.2⟩) =
      ⟨q, [], some name, format, false⟩ := by
  obtain ⟨left?, symbol?, right?⟩ := q
  obtain ⟨first, rest, rfl⟩ := List.exists_cons_of_ne_nil hne
  cases left? <;> cases symbol? <;> cases right? <;> cases format <;> rfl

/-- An inquiry is asked by its command line. -/
theorem asks_spelled (hq : Spellable q) (hne : name ≠ []) (hname : name ≠ endOfSwitches) :
    Asks (spelled q name format) ⟨q, [], some name, format, false⟩ :=
  ⟨_, parse_joined given_callable (given_admits hq hname), options_given hne⟩

end Spelled

end Check

end Formulary.CommandLine
