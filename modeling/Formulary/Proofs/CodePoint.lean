import Formulary.Text.Basic

/-! # Code points and their numbers -/

namespace Formulary.CodePoint
set_option autoImplicit false

theorem ofNat?_toNat (c : CodePoint) : ofNat? c.toNat = some c := by
  cases c with
  | surrogate k =>
    have h : 0xD800 ≤ 0xD800 + k.val ∧ 0xD800 + k.val < 0xE000 := by omega
    simp [toNat, ofNat?, h]
  | char c =>
    have hv : c.toNat < 0xD800 ∨ (0xDFFF < c.toNat ∧ c.toNat < 0x110000) := c.valid
    have h : ¬ (0xD800 ≤ c.toNat ∧ c.toNat < 0xE000) := by omega
    have h' : c.toNat < 0x110000 := by omega
    simp [toNat, ofNat?, h, h']

theorem ofNat_toNat (c : CodePoint) : ofNat c.toNat = c := by
  rw [ofNat, ofNat?_toNat]
  rfl

theorem toNat_lt (c : CodePoint) : c.toNat < 0x110000 := by
  cases c with
  | char c =>
    have hv : c.toNat < 0xD800 ∨ (0xDFFF < c.toNat ∧ c.toNat < 0x110000) := c.valid
    show c.toNat < 0x110000
    omega
  | surrogate k => show 0xD800 + k.val < 0x110000; omega

theorem toNat_of_ofNat? {n : Nat} {c : CodePoint} (h : ofNat? n = some c) : c.toNat = n := by
  unfold ofNat? at h
  split at h
  · cases h
    show 0xD800 + (n - 0xD800) = n
    omega
  · split at h
    · cases h
      have hv : n.isValidChar := by
        show n < 0xD800 ∨ (0xDFFF < n ∧ n < 0x110000)
        omega
      exact congrArg Char.toNat (dif_pos hv)
    · cases h

/-! ## ASCII letters -/

theorem asciiLower_eq_self {c : CodePoint} (h : c.toNat < 0x41 ∨ 0x5A < c.toNat) :
    c.asciiLower = c := by
  cases c with
  | surrogate k => rfl
  | char ch =>
    have hu : ¬ (ch.val ≥ 'A'.val ∧ ch.val ≤ 'Z'.val) := by
      rintro ⟨hA, hZ⟩
      have hA' : 0x41 ≤ ch.toNat := UInt32.le_iff_toNat_le.mp hA
      have hZ' : ch.toNat ≤ 0x5A := UInt32.le_iff_toNat_le.mp hZ
      simp only [toNat] at h
      omega
    exact congrArg CodePoint.char (dif_neg hu)

theorem toNat_asciiLower {c : CodePoint} (h : 0x41 ≤ c.toNat) (h' : c.toNat ≤ 0x5A) :
    c.asciiLower.toNat = c.toNat + 0x20 := by
  cases c with
  | surrogate k =>
    simp only [toNat] at h'
    omega
  | char ch =>
    have hu : ch.val ≥ 'A'.val ∧ ch.val ≤ 'Z'.val :=
      ⟨UInt32.le_iff_toNat_le.mpr h, UInt32.le_iff_toNat_le.mpr h'⟩
    have hl : ch.toLower.toNat = (ch.val + ('a'.val - 'A'.val)).toNat :=
      congrArg Char.toNat (dif_pos hu)
    have hs : ('a'.val - 'A'.val).toNat = 0x20 := rfl
    have hn : ch.val.toNat ≤ 0x5A := h'
    show ch.toLower.toNat = ch.val.toNat + 0x20
    rw [hl, UInt32.toNat_add, hs]
    omega

/-- A capital letter of ASCII moves by a fixed distance, all else stays. -/
theorem asciiLower_cases (c : CodePoint) : c.asciiLower = c ∨
    (0x41 ≤ c.toNat ∧ c.toNat ≤ 0x5A ∧ c.asciiLower.toNat = c.toNat + 0x20) := by
  by_cases h : 0x41 ≤ c.toNat ∧ c.toNat ≤ 0x5A
  · exact .inr ⟨h.1, h.2, toNat_asciiLower h.1 h.2⟩
  · exact .inl (asciiLower_eq_self (by omega))

theorem toNat_asciiLower_lt (c : CodePoint) : c.asciiLower.toNat < 0x80 ↔ c.toNat < 0x80 := by
  rcases asciiLower_cases c with h | ⟨-, h', h⟩
  · rw [h]
  · omega

theorem asciiLower_eq_iff {c d : CodePoint} (hd : 0x80 ≤ d.toNat) : c.asciiLower = d ↔ c = d := by
  rcases asciiLower_cases c with h | ⟨-, h', h⟩
  · rw [h]
  · refine iff_of_false ?_ ?_
    · rintro rfl
      omega
    · rintro rfl
      omega

end Formulary.CodePoint
