import Formulary.Proofs.Yaml.FloatNumber

/-! # Plain scalars without a value

A plain scalar gets its kind from its form, and nearly every scalar of a form has a value. The
exceptions are told here: whole numbers and floating-point numbers without a value, and days and
times that the calendar does not have.
-/

namespace Formulary.Yaml
set_option autoImplicit false

open Numeral Text

/-! ## All kinds of plain scalars -/

theorem truthScalar_spellings : ∀ t ∈ truthSpellings, ∃ b, truthScalar t = .ok b := by
  decide +kernel

/-- The value of the parts of a date or moment, if the calendar has it. -/
def Timestamp.value (p : Timestamp) : Except CalendarFault Atom :=
  match p.time? with
  | none =>
    (Date.make (digitsNumber p.year) (digitsNumber p.month) (digitsNumber p.day)).map .date
  | some time =>
    (Moment.make (digitsNumber p.year) (digitsNumber p.month) (digitsNumber p.day)
      (digitsNumber time.hour) (digitsNumber time.minute) (digitsNumber time.second)
      (digitsNumber ((time.fraction ++ List.replicate 6 (CodePoint.char '0')).take 6))
      (zoneOffset? p.zone)).map .moment

theorem timestampScalar_eq {t : Text} {p : Timestamp} (hb : dropFinalBreak t = t)
    (h : timestamp? t = some p) : timestampScalar t = p.value.mapError .calendar := by
  simp only [timestampScalar, hb, h, Timestamp.value]
  cases p.time? <;> rfl

/-- Why a plain scalar has no value although its form asks for a number or a date. -/
inductive Unreadable (t : Text) : ScalarFault → Prop where
  | int {f : ScalarFault} (ht : Tag.ofPlain t = .int) (h : ValuelessInt (dropSign t) f) :
    Unreadable t f
  | float (ht : Tag.ofPlain t = .float) (h : 174 ≤ t.count (.char ':')) :
    Unreadable t .placeTooLarge
  | timestamp {p : Timestamp} {f : CalendarFault} (ht : Tag.ofPlain t = .timestamp)
    (hp : timestamp? t = some p) (h : p.value = .error f) : Unreadable t (.calendar f)

/-- A plain scalar has the form of its kind, or a kind that every text has a value of or none. -/
theorem ofPlain_cases {t : Text} (hb : dropFinalBreak t = t) :
    (Tag.ofPlain t = .bool ∧ t ∈ truthSpellings) ∨
    (Tag.ofPlain t = .float ∧ isFloatForm t = true) ∨
    (Tag.ofPlain t = .int ∧ isIntForm t = true) ∨
    (Tag.ofPlain t = .timestamp ∧ isTimestampForm t = true) ∨
    Tag.ofPlain t = .null ∨ Tag.ofPlain t = .str ∨ scalarReader? (Tag.ofPlain t) = none := by
  unfold Tag.ofPlain
  simp only [hb]
  split
  · rename_i h
    exact .inl ⟨rfl, by simpa using h⟩
  · split
    · exact .inr (.inl ⟨rfl, ‹_›⟩)
    · split
      · exact .inr (.inr (.inl ⟨rfl, ‹_›⟩))
      · split
        · exact .inr (.inr (.inr (.inr (.inr (.inr rfl)))))
        · split
          · exact .inr (.inr (.inr (.inr (.inl rfl))))
          · split
            · exact .inr (.inr (.inr (.inl ⟨rfl, ‹_›⟩)))
            · split
              · exact .inr (.inr (.inr (.inr (.inr (.inr rfl)))))
              · split
                · exact .inr (.inr (.inr (.inr (.inr (.inr rfl)))))
                · exact .inr (.inr (.inr (.inr (.inr (.inl rfl)))))

theorem Unreadable.tag {t : Text} {f : ScalarFault} (h : Unreadable t f) :
    Tag.ofPlain t = .int ∨ Tag.ofPlain t = .float ∨ Tag.ofPlain t = .timestamp := by
  cases h with
  | int ht h => exact .inl ht
  | float ht h => exact .inr (.inl ht)
  | timestamp ht hp h => exact .inr (.inr ht)

theorem intScalar_unreadable {t : Text} (ht : Tag.ofPlain t = .int) (hform : isIntForm t = true)
    (f : ScalarFault) : intScalar t = .error f ↔ Unreadable t f := by
  rw [intScalar_error_iff hform]
  refine ⟨.int ht, fun h => ?_⟩
  cases h with
  | int ht' h => exact h
  | float ht' h => simp [ht] at ht'
  | timestamp ht' hp h => simp [ht] at ht'

theorem numberScalar_unreadable {t : Text} (ht : Tag.ofPlain t = .float)
    (hform : isFloatForm t = true) (f : ScalarFault) :
    numberScalar t = .error f ↔ Unreadable t f := by
  rw [numberScalar_error_iff hform]
  constructor
  · rintro ⟨rfl, h⟩
    exact .float ht h
  · intro h
    cases h with
    | int ht' h => simp [ht] at ht'
    | float ht' h => exact ⟨rfl, h⟩
    | timestamp ht' hp h => simp [ht] at ht'

theorem timestampScalar_unreadable {t : Text} (hb : dropFinalBreak t = t)
    (ht : Tag.ofPlain t = .timestamp) (hform : isTimestampForm t = true) (f : ScalarFault) :
    timestampScalar t = .error f ↔ Unreadable t f := by
  unfold isTimestampForm at hform
  split at hform
  · cases hform
  · rename_i p hp
    rw [timestampScalar_eq hb hp]
    constructor
    · intro h
      cases hv : p.value with
      | ok a => simp [hv, Except.mapError] at h
      | error g =>
        rw [hv] at h
        cases h
        exact .timestamp ht hp hv
    · intro h
      cases h with
      | int ht' h => simp [ht] at ht'
      | float ht' h => simp [ht] at ht'
      | timestamp ht' hp' h =>
        rw [hp, Option.some.injEq] at hp'
        rw [hp', h]
        rfl

theorem mapError_scalar_eq {α : Type} (x : Except ScalarFault α) (f : ScalarFault) :
    x.mapError Fault.scalar = .error (.scalar f) ↔ x = .error f := by
  cases x <;> simp [Except.mapError]

/-- The plain scalars that are read and have no value. -/
theorem unreadable_iff {t : Text} (hb : dropFinalBreak t = t) (f : ScalarFault) :
    (∃ read, scalarReader? (Tag.ofPlain t) = some read ∧ read t = .error (.scalar f)) ↔
      Unreadable t f := by
  have hread : ∀ read, scalarReader? (Tag.ofPlain t) = some read →
      ((∃ read, scalarReader? (Tag.ofPlain t) = some read ∧ read t = .error (.scalar f)) ↔
        read t = .error (.scalar f)) := by
    intro read h
    simp [h]
  rcases ofPlain_cases hb with ⟨ht, hs⟩ | ⟨ht, hform⟩ | ⟨ht, hform⟩ | ⟨ht, hform⟩ | ht | ht | ht
  · obtain ⟨b, hs⟩ := truthScalar_spellings t hs
    rw [hread _ (by rw [ht]; rfl), hs]
    exact iff_of_false (by simp [Except.map, Except.mapError]) fun h => by simpa [ht] using h.tag
  · rw [hread _ (by rw [ht]; rfl), mapError_scalar_eq, numberScalar_unreadable ht hform]
  · have hmap : ((intScalar t).map Atom.int = .error f ↔ intScalar t = .error f) := by
      cases intScalar t <;> simp [Except.map]
    rw [hread _ (by rw [ht]; rfl), mapError_scalar_eq, hmap, intScalar_unreadable ht hform]
  · rw [hread _ (by rw [ht]; rfl), mapError_scalar_eq, timestampScalar_unreadable hb ht hform]
  · rw [hread _ (by rw [ht]; rfl)]
    exact iff_of_false (by simp) fun h => by simpa [ht] using h.tag
  · rw [hread _ (by rw [ht]; rfl)]
    exact iff_of_false (by simp) fun h => by simpa [ht] using h.tag
  · rw [ht]
    refine iff_of_false (by simp) fun h => ?_
    rcases h.tag with h | h | h <;> rw [h] at ht <;> cases ht

end Formulary.Yaml
