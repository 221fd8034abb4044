import Formulary.Proofs.CodePoint
import Formulary.Text.Utf8

/-! # UTF-8 read back

The bytes of a text are decoded as that text by the reader that lets surrogates pass. A character of
two to four bytes is a lead and continuations of six bits each, and the lead narrows the second byte
exactly where another spelling would begin.
-/

namespace Formulary.Text.Utf8
set_option autoImplicit false

theorem toNat_byte {k : Nat} (h : k < 0x100) : (UInt8.ofNat k).toNat = k :=
  UInt8.toNat_ofNat_of_lt' h

theorem byte_lt {k : Nat} (h : k < 0x100) (b : UInt8) : UInt8.ofNat k < b ↔ k < b.toNat := by
  rw [UInt8.lt_iff_toNat_lt, toNat_byte h]

theorem byte_not_lt {k m : Nat} (h : m ≤ k) (h' : k < 0x100) :
    ¬ UInt8.ofNat k < UInt8.ofNat m := by
  rw [byte_lt h', toNat_byte (Nat.lt_of_le_of_lt h h')]
  omega

theorem byte_eq {k : Nat} (h : k < 0x100) (b : UInt8) : UInt8.ofNat k = b ↔ k = b.toNat := by
  rw [← UInt8.toNat_inj, toNat_byte h]

/-! ## Leads -/

section Lead

variable {k : Nat}

theorem lead?_two (h : 0xC2 ≤ k) (h' : k < 0xE0) :
    lead? true (UInt8.ofNat k) = some ⟨k - 0xC0, 0x80, 0xBF, 1⟩ := by
  have hk : k < 0x100 := by omega
  have h1 : ¬ UInt8.ofNat k < 0xC2 := byte_not_lt h hk
  have h2 : UInt8.ofNat k < 0xE0 := (byte_lt hk _).mpr h'
  rw [lead?, if_neg h1, if_pos h2, toNat_byte hk]

theorem lead?_three (h : 0xE0 ≤ k) (h' : k < 0xF0) :
    lead? true (UInt8.ofNat k) = some ⟨k - 0xE0, if k = 0xE0 then 0xA0 else 0x80, 0xBF, 2⟩ := by
  have hk : k < 0x100 := by omega
  have h1 : ¬ UInt8.ofNat k < 0xC2 := byte_not_lt (show 0xC2 ≤ k by omega) hk
  have h2 : ¬ UInt8.ofNat k < 0xE0 := byte_not_lt h hk
  have h3 : UInt8.ofNat k < 0xF0 := (byte_lt hk _).mpr h'
  rw [lead?, if_neg h1, if_neg h2, if_pos h3, toNat_byte hk]
  simp only [byte_eq hk, Bool.not_true, Bool.and_false, Bool.false_eq_true, if_false]
  rfl

theorem lead?_four (h : 0xF0 ≤ k) (h' : k < 0xF5) :
    lead? true (UInt8.ofNat k) = some ⟨k - 0xF0, if k = 0xF0 then 0x90 else 0x80,
      if k = 0xF4 then 0x8F else 0xBF, 3⟩ := by
  have hk : k < 0x100 := by omega
  have h1 : ¬ UInt8.ofNat k < 0xC2 := byte_not_lt (show 0xC2 ≤ k by omega) hk
  have h2 : ¬ UInt8.ofNat k < 0xE0 := byte_not_lt (show 0xE0 ≤ k by omega) hk
  have h3 : ¬ UInt8.ofNat k < 0xF0 := byte_not_lt h hk
  have h4 : UInt8.ofNat k < 0xF5 := (byte_lt hk _).mpr h'
  rw [lead?, if_neg h1, if_neg h2, if_neg h3, if_pos h4, toNat_byte hk]
  simp only [byte_eq hk]
  rfl

end Lead

/-! ## Steps -/

/-- The bytes spell the text, wherever they stand, when a character has been begun or none. -/
def Decodes (open? : Option Partial) (bs : List UInt8) (t : Text) : Prop :=
  ∀ pos, decodeFrom true pos open? bs = .ok t

namespace Decodes

variable {bs : List UInt8} {t : Text} {k : Nat}

theorem ascii (hk : k < 0x80) (h : Decodes none bs t) :
    Decodes none (UInt8.ofNat k :: bs) (.ofNat k :: t) := by
  intro pos
  have hb : UInt8.ofNat k < 0x80 := (byte_lt (by omega) _).mpr hk
  simp only [decodeFrom, hb, if_true, h (pos + 1), toNat_byte (show k < 0x100 by omega)]
  rfl

theorem lead {l : Lead} (hk : 0x80 ≤ k) (hk' : k < 0x100)
    (hl : lead? true (UInt8.ofNat k) = some l)
    (h : Decodes (some ⟨UInt8.ofNat k, 1, l.bits, l.low, l.high, l.more⟩) bs t) :
    Decodes none (UInt8.ofNat k :: bs) t := by
  intro pos
  have hb : ¬ UInt8.ofNat k < 0x80 := byte_not_lt hk hk'
  simp only [decodeFrom, hb, if_false, hl, h (pos + 1)]

end Decodes

/-- A continuation holds six bits. -/
structure Partial.Takes (p : Partial) (k : Nat) : Prop where
  low : p.low.toNat ≤ 0x80 + k
  high : 0x80 + k ≤ p.high.toNat
  bits : k < 0x40

namespace Partial.Takes

variable {p : Partial} {k : Nat} {bs : List UInt8} {t : Text}

theorem toNat_byte (h : p.Takes k) : (UInt8.ofNat (0x80 + k)).toNat = 0x80 + k :=
  Utf8.toNat_byte (by have := h.bits; omega)

theorem inRange (h : p.Takes k) :
    (p.low ≤ UInt8.ofNat (0x80 + k) && UInt8.ofNat (0x80 + k) ≤ p.high) = true := by
  simp only [Bool.and_eq_true, decide_eq_true_eq, UInt8.le_iff_toNat_le, h.toNat_byte]
  exact ⟨h.low, h.high⟩

theorem more (hp : p.Takes k) (hm : p.more ≠ 1)
    (h : Decodes (some ⟨p.first, p.seen + 1, p.bits * 64 + k, 0x80, 0xBF, p.more - 1⟩) bs t) :
    Decodes (some p) (UInt8.ofNat (0x80 + k) :: bs) t := by
  intro pos
  have hd : 0x80 + k - 0x80 = k := by omega
  simp only [decodeFrom, hp.inRange, hp.toNat_byte, hd, hm, if_true, if_false, h (pos + 1)]

theorem last (hp : p.Takes k) (hm : p.more = 1) (h : Decodes none bs t) :
    Decodes (some p) (UInt8.ofNat (0x80 + k) :: bs) (.ofNat (p.bits * 64 + k) :: t) := by
  intro pos
  have hd : 0x80 + k - 0x80 = k := by omega
  simp only [decodeFrom, hp.inRange, hp.toNat_byte, hd, hm, if_true, h (pos + 1)]
  rfl

end Partial.Takes

/-- A continuation that the lead does not narrow. -/
theorem takes_any {k : Nat} (hk : k < 0x40) (first : UInt8) (seen bits more : Nat) :
    Partial.Takes ⟨first, seen, bits, 0x80, 0xBF, more⟩ k :=
  ⟨Nat.le_add_right _ _, by show 0x80 + k ≤ 0xBF; omega, hk⟩

/-! ## Characters -/

section Characters

variable {n : Nat} {bs : List UInt8} {t : Text}

theorem decodes_two (h : 0x80 ≤ n) (h' : n < 0x800) (ht : Decodes none bs t) :
    Decodes none (UInt8.ofNat (0xC0 + n / 64) :: UInt8.ofNat (0x80 + n % 64) :: bs)
      (.ofNat n :: t) := by
  have hn : (0xC0 + n / 64 - 0xC0) * 64 + n % 64 = n := by omega
  refine .lead (by omega) (by omega) (lead?_two (by omega) (by omega)) ?_
  have hlast := (takes_any (k := n % 64) (by omega) (UInt8.ofNat (0xC0 + n / 64)) 1
    (0xC0 + n / 64 - 0xC0) 1).last rfl ht
  rw [hn] at hlast
  exact hlast

theorem decodes_three (h : 0x800 ≤ n) (h' : n < 0x10000) (ht : Decodes none bs t) :
    Decodes none (UInt8.ofNat (0xE0 + n / 4096) :: UInt8.ofNat (0x80 + n / 64 % 64) ::
      UInt8.ofNat (0x80 + n % 64) :: bs) (.ofNat n :: t) := by
  have hn : ((0xE0 + n / 4096 - 0xE0) * 64 + n / 64 % 64) * 64 + n % 64 = n := by omega
  refine .lead (by omega) (by omega) (lead?_three (by omega) (by omega)) ?_
  refine Partial.Takes.more ⟨?_, ?_, by omega⟩ (show 2 ≠ 1 by decide) ?_
  · show (if 0xE0 + n / 4096 = 0xE0 then (0xA0 : UInt8) else 0x80).toNat ≤ 0x80 + n / 64 % 64
    split
    · show 0xA0 ≤ _
      omega
    · show 0x80 ≤ _
      omega
  · show 0x80 + n / 64 % 64 ≤ 0xBF
    omega
  · have hlast := (takes_any (k := n % 64) (by omega) (UInt8.ofNat (0xE0 + n / 4096)) 2
      ((0xE0 + n / 4096 - 0xE0) * 64 + n / 64 % 64) 1).last rfl ht
    rw [hn] at hlast
    exact hlast

theorem decodes_four (h : 0x10000 ≤ n) (h' : n < 0x110000) (ht : Decodes none bs t) :
    Decodes none (UInt8.ofNat (0xF0 + n / 262144) :: UInt8.ofNat (0x80 + n / 4096 % 64) ::
      UInt8.ofNat (0x80 + n / 64 % 64) :: UInt8.ofNat (0x80 + n % 64) :: bs) (.ofNat n :: t) := by
  have hn : (((0xF0 + n / 262144 - 0xF0) * 64 + n / 4096 % 64) * 64 + n / 64 % 64) * 64 + n % 64 =
    n := by omega
  refine .lead (by omega) (by omega) (lead?_four (by omega) (by omega)) ?_
  refine Partial.Takes.more ⟨?_, ?_, by omega⟩ (show 3 ≠ 1 by decide) ?_
  · show (if 0xF0 + n / 262144 = 0xF0 then (0x90 : UInt8) else 0x80).toNat ≤ 0x80 + n / 4096 % 64
    split
    · show 0x90 ≤ _
      omega
    · show 0x80 ≤ _
      omega
  · show 0x80 + n / 4096 % 64 ≤ (if 0xF0 + n / 262144 = 0xF4 then (0x8F : UInt8) else 0xBF).toNat
    split
    · show _ ≤ 0x8F
      omega
    · show _ ≤ 0xBF
      omega
  · refine (takes_any (k := n / 64 % 64) (by omega) _ _ _ _).more (show 2 ≠ 1 by decide) ?_
    have hlast := (takes_any (k := n % 64) (by omega) (UInt8.ofNat (0xF0 + n / 262144)) 3
      (((0xF0 + n / 262144 - 0xF0) * 64 + n / 4096 % 64) * 64 + n / 64 % 64) 1).last rfl ht
    rw [hn] at hlast
    exact hlast

theorem decodes_point (c : CodePoint) (ht : Decodes none bs t) :
    Decodes none (bytesOf c ++ bs) (c :: t) := by
  have hlt := c.toNat_lt
  have he : (c :: t : Text) = .ofNat c.toNat :: t := by rw [CodePoint.ofNat_toNat]
  have h0 : c.toNat / Nat.pow 2 0 = c.toNat := Nat.div_one _
  rw [he]
  unfold bytesOf
  dsimp only
  rw [h0]
  split
  · exact Decodes.ascii ‹_› ht
  split
  · exact decodes_two (by omega) ‹_› ht
  split
  · exact decodes_three (by omega) ‹_› ht
  · exact decodes_four (by omega) hlt ht

end Characters

/-- A text comes back from its bytes. -/
theorem decodePassing_encode (t : Text) : decodePassing (encode t) = .ok t := by
  have hall : Decodes none (encode t) t := by
    induction t with
    | nil => exact fun _ => rfl
    | cons c t ih => exact decodes_point c ih
  exact hall 0

end Formulary.Text.Utf8
