import Formulary.Proofs.Catalog
import Formulary.Formula

/-! # The type of an operand

A literal has its type by itself. Whatever else gives an operand a type is what the catalog declares
of that very text; so an operand is of the type that its literal form and its own declaration give. The
two are asked in the order of five rules: digits, a declaration as `int`, quotes, a declaration as
`string`, and nothing of these.
-/

namespace Formulary.Operand
set_option autoImplicit false

theorem not_isStringLiteral_of_isIntLiteral {raw : Text} (h : isIntLiteral raw = true) :
    ¬ isStringLiteral raw = true := by
  intro hs
  simp only [isIntLiteral, Bool.and_eq_true, List.all_eq_true] at h
  simp only [isStringLiteral, Bool.and_eq_true, decide_eq_true_eq] at hs
  have hquote : (CodePoint.char '"') ∈ raw := List.mem_of_mem_head? hs.1.2
  exact absurd (h.2 _ hquote) (by decide)

section Catalog

variable {c c' : Catalog} {raw : Text}

/-- The type of an operand depends on the catalog only by what it declares of that text. -/
theorem classify_congr {raw? : Option Text}
    (h : ∀ t, raw? = some t → c.typeOf? t = c'.typeOf? t) : classify c raw? = classify c' raw? := by
  cases raw? with
  | none => rfl
  | some t => simp only [classify, h t rfl]

theorem classify_empty (c : Catalog) : classify c (some []) = .invalid := rfl

/-- Digits win over every declaration, and a declaration wins over quotes. -/
theorem classify_declared {t : OperandType} (hne : raw ≠ []) (h : ⟨raw, t⟩ ∈ c.declared) :
    classify c (some raw) = if isIntLiteral raw then .int else t := by
  have ht : t.isDeclarable = true := c.declarable.types _ h
  have hempty : raw.isEmpty = false := List.isEmpty_eq_false_iff.mpr hne
  simp only [classify, hempty, (c.typeOf?_eq_some raw t).mpr h]
  cases t <;> simp_all [OperandType.isDeclarable]

theorem classify_undeclared (hne : raw ≠ []) (h : ∀ t, ⟨raw, t⟩ ∉ c.declared) :
    classify c (some raw) =
      if isIntLiteral raw then .int else if isStringLiteral raw then .string else .invalid := by
  have hnone : c.typeOf? raw = none := by
    rw [Option.eq_none_iff_forall_ne_some]
    intro t ht
    exact h t ((c.typeOf?_eq_some raw t).mp ht)
  have hempty : raw.isEmpty = false := List.isEmpty_eq_false_iff.mpr hne
  simp [classify, hempty, hnone]

end Catalog

/-! ## The rules -/

/-- The ten ASCII digits. -/
def digits : Text := "0123456789"

def IsNumber (raw : Text) : Prop := raw ≠ [] ∧ ∀ x ∈ raw, x ∈ digits

/-- A double quote at either end, and not one for both. -/
def IsQuoted (raw : Text) : Prop :=
  2 ≤ raw.length ∧ [CodePoint.char '"'] <+: raw ∧ [CodePoint.char '"'] <:+ raw

/-- A text between double quotes. -/
def inQuotes (s : Text) : Text := .char '"' :: (s ++ [.char '"'])

instance (raw : Text) : Decidable (IsNumber raw) := inferInstanceAs (Decidable (_ ∧ _))

instance (raw : Text) : Decidable (IsQuoted raw) := inferInstanceAs (Decidable (_ ∧ _))

/-- The type of an operand by five rules, of which the first that fits decides. -/
def byRules (c : Catalog) : Option Text → OperandType
  | none => .invalid
  | some raw =>
    if IsNumber raw then .int
    else if raw ≠ [] ∧ ⟨raw, .int⟩ ∈ c.declared then .int
    else if IsQuoted raw then .string
    else if raw ≠ [] ∧ ⟨raw, .string⟩ ∈ c.declared then .string
    else .invalid

/-! ### Literals -/

theorem mem_digits (x : CodePoint) : x ∈ digits ↔ Text.isAsciiDigit x = true := by
  constructor
  · intro hx
    have hall : ∀ d ∈ digits, Text.isAsciiDigit d = true := by decide
    exact hall x hx
  · intro hx
    simp only [Text.isAsciiDigit, Bool.and_eq_true, decide_eq_true_eq] at hx
    have h0 : 48 ≤ x.toNat := hx.1
    have h9 : x.toNat ≤ 57 := hx.2
    cases x with
    | surrogate k =>
      simp only [CodePoint.toNat] at h9
      omega
    | char ch =>
      have hall : ∀ n < 58, 48 ≤ n → CodePoint.char (Char.ofNat n) ∈ digits := by decide
      have hch := hall ch.toNat (by simp only [CodePoint.toNat] at h9; omega) h0
      rwa [Char.ofNat_toNat] at hch

theorem isIntLiteral_iff (raw : Text) : isIntLiteral raw = true ↔ IsNumber raw := by
  simp only [isIntLiteral, IsNumber, Bool.and_eq_true, Bool.not_eq_true', List.isEmpty_eq_false_iff,
    List.all_eq_true, mem_digits]

theorem isQuoted_iff (raw : Text) : IsQuoted raw ↔ ∃ s, raw = inQuotes s := by
  constructor
  · rintro ⟨hlen, ⟨rest, rfl⟩, hlast⟩
    rcases List.suffix_cons_iff.mp hlast with hone | ⟨s, rfl⟩
    · have hrest : rest = [] := (List.cons.inj hone).2.symm
      subst hrest
      exact absurd hlen (by decide)
    · exact ⟨s, rfl⟩
  · rintro ⟨s, rfl⟩
    refine ⟨?_, ⟨s ++ [.char '"'], rfl⟩, ⟨.char '"' :: s, rfl⟩⟩
    simp [inQuotes]

theorem isStringLiteral_iff (raw : Text) : isStringLiteral raw = true ↔ IsQuoted raw := by
  simp only [isStringLiteral, IsQuoted, Bool.and_eq_true, decide_eq_true_eq, and_assoc,
    List.head?_eq_some_iff, List.getLast?_eq_some_iff]
  refine and_congr_right fun _ => and_congr ?_ ?_
  · exact exists_congr fun rest => eq_comm
  · exact exists_congr fun front => eq_comm

theorem isQuoted_inQuotes (s : Text) : IsQuoted (inQuotes s) := (isQuoted_iff _).mpr ⟨s, rfl⟩

theorem IsQuoted.not_isNumber {raw : Text} (h : IsQuoted raw) : ¬ IsNumber raw := by
  rw [← isIntLiteral_iff]
  intro hi
  exact not_isStringLiteral_of_isIntLiteral hi ((isStringLiteral_iff raw).mpr h)

/-! ### What they come to -/

theorem byRules_declared {c : Catalog} {raw : Text} {t : OperandType} (hne : raw ≠ [])
    (h : ⟨raw, t⟩ ∈ c.declared) :
    byRules c (some raw) = if IsNumber raw then .int else t := by
  have honly : ∀ t', ⟨raw, t'⟩ ∈ c.declared ↔ t = t' := by
    intro t'
    rw [← c.typeOf?_eq_some, (c.typeOf?_eq_some raw t).mpr h, Option.some.injEq]
  have ht := (OperandType.isDeclarable_iff t).mp (c.declarable.types _ h)
  simp only [byRules, honly]
  rcases ht with rfl | rfl <;> simp [hne]

theorem byRules_undeclared {c : Catalog} {raw : Text} (h : ∀ t, ⟨raw, t⟩ ∉ c.declared) :
    byRules c (some raw) =
      if IsNumber raw then .int else if IsQuoted raw then .string else .invalid := by
  simp [byRules, h]

theorem classify_eq_byRules (c : Catalog) (raw? : Option Text) :
    classify c raw? = byRules c raw? := by
  cases raw? with
  | none => rfl
  | some raw =>
    by_cases hne : raw = []
    · subst hne
      rw [classify_empty]
      simp [byRules, IsNumber, IsQuoted]
    -- a literal may be declared too, and then two rules fit
    by_cases hd : ∃ t, ⟨raw, t⟩ ∈ c.declared
    · obtain ⟨t, ht⟩ := hd
      rw [classify_declared hne ht, byRules_declared hne ht]
      simp only [isIntLiteral_iff]
    · have hd := not_exists.mp hd
      rw [classify_undeclared hne hd, byRules_undeclared hd]
      simp only [isIntLiteral_iff, isStringLiteral_iff]

theorem classify_inQuotes (c : Catalog) (s : Text) : classify c (some (inQuotes s)) =
    if ⟨inQuotes s, .int⟩ ∈ c.declared then .int else .string := by
  have hq := isQuoted_inQuotes s
  have hne : inQuotes s ≠ [] := List.cons_ne_nil _ _
  rw [classify_eq_byRules]
  simp [byRules, hq, hq.not_isNumber, hne]

theorem classify_eq_int {c : Catalog} {raw : Text} (hne : raw ≠ []) (h : ¬ IsNumber raw) :
    classify c (some raw) = .int ↔ ⟨raw, .int⟩ ∈ c.declared := by
  rw [classify_eq_byRules]
  by_cases hi : ⟨raw, .int⟩ ∈ c.declared
  · simp [byRules, h, hne, hi]
  · simp only [byRules, h, hi, and_false, if_false, iff_false]
    split_ifs <;> decide

/-- The type of every operand is that of the first of the five rules that fits. Hence an absent or
empty operand has none, even where the empty name is declared; a text in quotes is a string unless that
very text is declared `int`; and a text with anything but digits in it is an integer only as a
variable. -/
theorem classify_follows_rules (c : Catalog) :
    (∀ raw?, classify c raw? = byRules c raw?) ∧
    classify c none = .invalid ∧ classify c (some []) = .invalid ∧
    (∀ s, classify c (some (inQuotes s)) =
      if ⟨inQuotes s, .int⟩ ∈ c.declared then .int else .string) ∧
    (∀ raw, (∃ x ∈ raw, x ∉ digits) →
      (classify c (some raw) = .int ↔ ⟨raw, .int⟩ ∈ c.declared)) := by
  refine ⟨classify_eq_byRules c, rfl, classify_empty c, classify_inQuotes c, ?_⟩
  rintro raw ⟨x, hx, hdigit⟩
  apply classify_eq_int (List.ne_nil_of_mem hx)
  intro hn
  exact hdigit (hn.2 x hx)

end Formulary.Operand
