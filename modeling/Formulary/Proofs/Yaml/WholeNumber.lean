import Formulary.Proofs.Numeral
import Formulary.Proofs.Reading
import Formulary.Yaml.Scalar

/-! # Whole numbers without a value

A scalar in the form of a whole number has a value, with two exceptions: no digit stands after the
mark of its base, or there are too many decimal digits in its first part.
-/

namespace Formulary.Yaml
set_option autoImplicit false

open Numeral Text

/-! ## Underscores, signs and colons -/

/-- A text without its underscores. -/
def bare (t : Text) : Text := t.filter (· ≠ .char '_')

theorem mem_bare {c : CodePoint} {t : Text} : c ∈ bare t ↔ c ∈ t ∧ c ≠ '_' := by
  rw [bare, List.mem_filter, decide_eq_true_eq]

theorem bare_cons {c : CodePoint} (h : c ≠ '_') (t : Text) : bare (c :: t) = c :: bare t :=
  List.filter_cons_of_pos (by simp [h])

theorem bare_append (s t : Text) : bare (s ++ t) = bare s ++ bare t := List.filter_append ..

theorem bare_eq_self {t : Text} (h : ∀ c ∈ t, c ≠ '_') : bare t = t :=
  List.filter_eq_self.mpr fun c hc => by simp [h c hc]

theorem dropSign_cases (t : Text) :
    t = dropSign t ∨ t = .char '+' :: dropSign t ∨ t = .char '-' :: dropSign t := by
  unfold dropSign
  split
  · exact .inr (.inl rfl)
  · exact .inr (.inr rfl)
  · exact .inl rfl

theorem dropSign_of_head {c : CodePoint} (hp : c ≠ '+') (hm : c ≠ '-') (t : Text) :
    dropSign (c :: t) = c :: t := by
  unfold dropSign
  split
  · rename_i h
    cases h
    exact absurd rfl hp
  · rename_i h
    cases h
    exact absurd rfl hm
  · rfl

theorem dropSign_bare {t : Text} {c : CodePoint} {r : Text} (h : dropSign t = c :: r)
    (hu : c ≠ '_') (hp : c ≠ '+') (hm : c ≠ '-') : dropSign (bare t) = bare (c :: r) := by
  have hc := dropSign_cases t
  rw [h] at hc
  rcases hc with rfl | rfl | rfl
  · rw [bare_cons hu, dropSign_of_head hp hm]
  · rw [bare_cons (by decide)]
    rfl
  · rw [bare_cons (by decide)]
    rfl

section Parts

variable {sep : CodePoint}

theorem splitAt_ne_nil (sep : CodePoint) (t : Text) : splitAt sep t ≠ [] := by
  cases t with
  | nil => simp [splitAt]
  | cons c t =>
    rw [splitAt]
    split
    · split <;> simp
    · simp

theorem splitAt_cons_sep (sep : CodePoint) (t : Text) :
    splitAt sep (sep :: t) = [] :: splitAt sep t := by
  rw [splitAt]
  cases h : splitAt sep t with
  | nil => exact absurd h (splitAt_ne_nil sep t)
  | cons part parts => exact if_pos rfl

theorem splitAt_cons_ne {c : CodePoint} (hc : c ≠ sep) {t part : Text} {parts : List Text}
    (h : splitAt sep t = part :: parts) : splitAt sep (c :: t) = (c :: part) :: parts := by
  rw [splitAt, h]
  exact if_neg hc

theorem length_splitAt (sep : CodePoint) (t : Text) :
    (splitAt sep t).length = t.count sep + 1 := by
  induction t with
  | nil => rfl
  | cons c t ih =>
    by_cases hc : c = sep
    · subst hc
      rw [splitAt_cons_sep, List.length_cons, ih, List.count_cons_self]
    · obtain ⟨part, parts, h⟩ := List.exists_cons_of_ne_nil (splitAt_ne_nil sep t)
      rw [splitAt_cons_ne hc h, List.count_cons_of_ne hc, ← ih, h]
      rfl

theorem splitAt_self {t : Text} (h : sep ∉ t) : splitAt sep t = [t] := by
  induction t with
  | nil => rfl
  | cons c t ih =>
    rw [List.mem_cons, not_or] at h
    exact splitAt_cons_ne (Ne.symm h.1) (ih h.2)

theorem splitAt_eq_singleton {t part : Text} (h : splitAt sep t = [part]) :
    part = t ∧ sep ∉ t := by
  have hl := length_splitAt sep t
  rw [h, List.length_singleton] at hl
  have hm : sep ∉ t := List.count_eq_zero.mp (by omega)
  rw [splitAt_self hm] at h
  exact ⟨(List.singleton_inj.mp h).symm, hm⟩

/-- What stands behind the last separator belongs to the last part. -/
theorem splitAt_append {r : Text} (h : sep ∉ r) (t : Text) :
    ∃ parts last, splitAt sep t = parts ++ [last] ∧ splitAt sep (t ++ r) = parts ++ [last ++ r] := by
  induction t with
  | nil => exact ⟨[], [], rfl, splitAt_self h⟩
  | cons c t ih =>
    obtain ⟨parts, last, h1, h2⟩ := ih
    by_cases hc : c = sep
    · subst hc
      refine ⟨[] :: parts, last, ?_, ?_⟩
      · rw [splitAt_cons_sep, h1, List.cons_append]
      · rw [List.cons_append, splitAt_cons_sep, h2, List.cons_append]
    · cases parts with
      | nil => exact ⟨[], c :: last, splitAt_cons_ne hc h1, splitAt_cons_ne hc h2⟩
      | cons part parts =>
        exact ⟨(c :: part) :: parts, last, splitAt_cons_ne hc h1, splitAt_cons_ne hc h2⟩

theorem mem_splitAt {c : CodePoint} {t : Text} (h : c ∈ t) :
    c = sep ∨ ∃ part ∈ splitAt sep t, c ∈ part := by
  induction t with
  | nil => cases h
  | cons d t ih =>
    obtain ⟨part, parts, hp⟩ := List.exists_cons_of_ne_nil (splitAt_ne_nil sep t)
    by_cases hd : d = sep
    · subst hd
      rcases List.mem_cons.mp h with rfl | h
      · exact .inl rfl
      · rw [splitAt_cons_sep]
        exact (ih h).imp_right fun ⟨p, hp, hc⟩ => ⟨p, List.mem_cons_of_mem _ hp, hc⟩
    · rw [splitAt_cons_ne hd hp]
      rcases List.mem_cons.mp h with rfl | h
      · exact .inr ⟨_, List.mem_cons_self .., List.mem_cons_self ..⟩
      · refine (ih h).imp_right ?_
        rw [hp]
        rintro ⟨p, hp, hc⟩
        rcases List.mem_cons.mp hp with rfl | hp
        · exact ⟨_, List.mem_cons_self .., List.mem_cons_of_mem _ hc⟩
        · exact ⟨p, List.mem_cons_of_mem _ hp, hc⟩

theorem splitAt_bare (hsep : sep ≠ '_') (t : Text) :
    splitAt sep (bare t) = (splitAt sep t).map bare := by
  induction t with
  | nil => rfl
  | cons c t ih =>
    obtain ⟨part, parts, h⟩ := List.exists_cons_of_ne_nil (splitAt_ne_nil sep t)
    by_cases hc : c = sep
    · subst hc
      rw [bare_cons hsep, splitAt_cons_sep, splitAt_cons_sep, ih]
      rfl
    · rw [splitAt_cons_ne hc h]
      rw [h] at ih
      by_cases hu : c = '_'
      · subst hu
        have hb : ∀ s : Text, bare (.char '_' :: s) = bare s := fun s =>
          List.filter_cons_of_neg (by simp)
        rw [hb, ih, List.map_cons, List.map_cons, hb]
      · rw [bare_cons hu, splitAt_cons_ne hc ih, List.map_cons, bare_cons hu]

end Parts

/-! ## Whole numbers -/

theorem intScalar_eq_error {t body : Text} (hb : dropSign (bare t) = body) (hne : body ≠ [])
    (f : ScalarFault) : intScalar t = .error f ↔ unsignedInt body = .error f := by
  have ht : (bare t).isEmpty = false := by
    rw [List.isEmpty_eq_false_iff]
    intro h
    rw [h] at hb
    exact hne hb.symm
  have h : intScalar t = unsignedInt body >>= fun n =>
      .ok (if (bare t).head? = some (.char '-') then -n else n) := by
    rw [← hb]
    unfold intScalar
    show (if (bare t).isEmpty then _ else _) = _
    rw [ht]
    rfl
  rw [h]
  cases unsignedInt body <;> simp [bind, Except.bind]

theorem mem_isDigitPoint {c : CodePoint} (h : isDigitPoint c = true) (hu : c ≠ '_') :
    isAsciiDigit c = true := by
  simpa [isDigitPoint, hu] using h

theorem areDigits_bare {t : Text} (h : ∀ c ∈ t, isDigitPoint c = true) : AreDigits (bare t) :=
  fun c hc => mem_isDigitPoint (h c (mem_bare.mp hc).1) (mem_bare.mp hc).2

/-- The marks of the two bases that are written out. -/
inductive IsMark : Nat → Char → Prop where
  | binary : IsMark 2 'b'
  | hexadecimal : IsMark 16 'x'

/-- The forms of a whole number after its sign. -/
inductive IntForm : Text → Prop where
  | marked {base : Nat} {mark : Char} {u : Text} (hm : IsMark base mark)
    (hd : ∀ c ∈ bare u, (digit? base c).isSome = true ∧ (hexValue? c).isSome = true) :
    IntForm (.char '0' :: .char mark :: u)
  | octal {u : Text} (h : ∀ c ∈ bare u, '0' ≤ c ∧ c ≤ '7') : IntForm (.char '0' :: u)
  | decimal {d : CodePoint} {ds body : Text} {groups : List Text}
    (h : splitAt ':' body = (d :: ds) :: groups) (hd : '1' ≤ d ∧ d ≤ '9')
    (hds : ∀ c ∈ ds, isDigitPoint c = true) (hg : ∀ g ∈ groups, isSixtyGroup g = true) :
    IntForm body

theorem isPositiveDigits_iff (ds : Text) : isPositiveDigits ds = true ↔
    ∃ d r, ds = d :: r ∧ ('1' ≤ d ∧ d ≤ '9') ∧ ∀ c ∈ r, isDigitPoint c = true := by
  cases ds with
  | nil => simp [isPositiveDigits]
  | cons d r =>
    simp only [isPositiveDigits, Bool.and_eq_true, decide_eq_true_eq, List.all_eq_true]
    constructor
    · exact fun h => ⟨d, r, rfl, h⟩
    · rintro ⟨d, r, he, h⟩
      cases he
      exact h

theorem intForm_of_isIntForm {t : Text} (h : isIntForm t = true) : IntForm (dropSign t) := by
  unfold isIntForm at h
  simp only at h
  split at h
  · rename_i rest heq
    rw [heq]
    refine .marked .binary fun c hc => ?_
    rw [isRun, Bool.and_eq_true, List.all_eq_true] at h
    have hp := h.2 c (mem_bare.mp hc).1
    simp only [isBinaryPoint, Bool.or_eq_true, decide_eq_true_eq] at hp
    rcases hp with (rfl | rfl) | rfl
    · decide
    · decide
    · exact absurd rfl (mem_bare.mp hc).2
  · rename_i rest heq
    rw [heq]
    refine .marked .hexadecimal fun c hc => ?_
    rw [isRun, Bool.and_eq_true, List.all_eq_true] at h
    have hp := h.2 c (mem_bare.mp hc).1
    simp only [isHexPoint, (mem_bare.mp hc).2, decide_false, Bool.or_false] at hp
    exact ⟨isSome_digit?_hex hp, hp⟩
  · rename_i rest _ _ heq
    rw [heq]
    refine .octal fun c hc => ?_
    have hp := List.all_eq_true.mp h c (mem_bare.mp hc).1
    simpa [isOctalPoint, (mem_bare.mp hc).2] using hp
  · split at h
    · rename_i ds heq
      obtain ⟨d, r, rfl, hd, hr⟩ := (isPositiveDigits_iff ds).mp h
      exact .decimal heq hd hr (by simp)
    · rename_i ds groups _ heq
      rw [Bool.and_eq_true, List.all_eq_true] at h
      obtain ⟨d, r, rfl, hd, hr⟩ := (isPositiveDigits_iff ds).mp h.1
      exact .decimal heq hd hr h.2
    · cases h

theorem wholeScalar_run {base : Nat} {t : Text}
    (h : ∀ c ∈ t, (digit? base c).isSome = true ∧ (hexValue? c).isSome = true) (f : ScalarFault) :
    wholeScalar base t = .error f ↔
      (base = 10 ∧ digitLimit < t.length ∧ f = .numeral (.tooLong t.length)) ∨
        (t = [] ∧ f = .numeral (.notWhole base [])) := by
  rw [wholeScalar, whole_run (fun c hc => (h c hc).1) fun c hc => (h c hc).2]
  by_cases hl : base = 10 ∧ digitLimit < t.length
  · have hne : t ≠ [] := by
      rintro rfl
      exact absurd hl.2 (by decide)
    simp [hl, hne, Except.mapError, eq_comm]
  · rw [if_neg (by simpa using hl)]
    cases t with
    | nil => simp [Except.mapError, eq_comm]
    | cons c t =>
      simp only [List.isEmpty_cons, Bool.false_eq_true, if_false, Except.mapError, reduceCtorEq,
        false_and, or_false, false_iff]
      exact fun ⟨h1, h2, _⟩ => hl ⟨h1, h2⟩

/-- A group of a number in base sixty is a short run of digits. -/
theorem areDigits_sixtyGroup {g : Text} (h : isSixtyGroup g = true) :
    AreDigits g ∧ g ≠ [] ∧ g.length ≤ 2 := by
  unfold isSixtyGroup at h
  split at h
  · exact ⟨by simpa [AreDigits] using h, by simp, by simp⟩
  · rename_i t d
    simp only [Bool.and_eq_true, decide_eq_true_eq] at h
    refine ⟨?_, by simp, by simp⟩
    intro c hc
    rcases List.mem_cons.mp hc with rfl | hc
    · rw [isAsciiDigit_iff]
      have h1 : 48 ≤ c.toNat := h.1.1
      have h2 : c.toNat ≤ 53 := h.1.2
      omega
    · rw [List.mem_singleton.mp hc]
      exact h.2
  · cases h

theorem wholeScalar_group {g : Text} (h : isSixtyGroup g = true) :
    ∃ m, wholeScalar 10 (bare g) = .ok m := by
  obtain ⟨hd, hne, hl⟩ := areDigits_sixtyGroup h
  have hu : ∀ c ∈ g, c ≠ '_' := by
    rintro c hc rfl
    exact absurd (hd _ hc) (by decide)
  rw [bare_eq_self hu]
  cases hw : wholeScalar 10 g with
  | ok m => exact ⟨m, rfl⟩
  | error f =>
    rcases (wholeScalar_run hd.run f).mp hw with ⟨-, hlong, -⟩ | ⟨hnil, -⟩
    · exact absurd (Nat.lt_of_lt_of_le hlong hl) (by decide)
    · exact absurd hnil hne

theorem unsignedInt_of_head {d : CodePoint} (hd : d ≠ '0') (r : Text) :
    unsignedInt (d :: r) =
      if (d :: r).contains ':' then (sixtyParts (wholeScalar 10) (d :: r)).map sixtySum
      else wholeScalar 10 (d :: r) := by
  have hz : ∀ u : Text, d :: r ≠ .char '0' :: u := fun u h => hd (List.cons.inj h).1
  unfold unsignedInt
  split
  · rename_i h
    cases h
  · rename_i h
    exact absurd h (hz _)
  · rename_i h
    exact absurd h (hz _)
  · rename_i h
    exact absurd h (hz _)
  · rename_i h
    exact absurd h (hz _)
  · rfl

theorem unsignedInt_octal {u : Text} (h : ∀ c ∈ bare u, '0' ≤ c ∧ c ≤ '7') :
    ∃ n, unsignedInt (bare (.char '0' :: u)) = .ok n := by
  have hrun : ∀ c ∈ .char '0' :: bare u,
      (digit? 8 c).isSome = true ∧ (hexValue? c).isSome = true := by
    have hd : ∀ c : CodePoint, '0' ≤ c ∧ c ≤ '7' →
        (digit? 8 c).isSome = true ∧ (hexValue? c).isSome = true := by
      intro c hc
      have h1 : 48 ≤ c.toNat := hc.1
      have h2 : c.toNat ≤ 55 := hc.2
      refine ⟨?_, (isSome_hexValue?_iff c).mpr (by omega)⟩
      rw [digit?_ascii 8 ((isAsciiDigit_iff c).mpr (by omega)), if_pos (by omega)]
      rfl
    exact List.forall_mem_cons.mpr ⟨by decide, fun c hc => hd c (h c hc)⟩
  rw [bare_cons (by decide)]
  cases hu : bare u with
  | nil => exact ⟨0, rfl⟩
  | cons c r =>
    have hc := h c (by rw [hu]; exact List.mem_cons_self ..)
    have he : unsignedInt (.char '0' :: c :: r) = wholeScalar 8 (.char '0' :: c :: r) := by
      unfold unsignedInt
      split
      · rename_i h
        cases h
      · rename_i h
        cases h
      · rename_i h
        cases h
        exact absurd hc.2 (by decide)
      · rename_i h
        cases h
        exact absurd hc.2 (by decide)
      · rename_i h
        cases h
        rfl
      · rename_i h
        exact absurd rfl (h _)
    rw [he]
    cases hw : wholeScalar 8 (.char '0' :: c :: r) with
    | ok n => exact ⟨n, rfl⟩
    | error f =>
      rw [← hu, wholeScalar_run hrun] at hw
      simp at hw

theorem head_of_splitAt {sep d : CodePoint} {ds t : Text} {groups : List Text}
    (h : splitAt sep t = (d :: ds) :: groups) : ∃ r, t = d :: r := by
  cases t with
  | nil => cases h
  | cons c t =>
    by_cases hc : c = sep
    · rw [hc, splitAt_cons_sep] at h
      cases h
    · obtain ⟨part, parts, hp⟩ := List.exists_cons_of_ne_nil (splitAt_ne_nil sep t)
      rw [splitAt_cons_ne hc hp] at h
      cases h
      exact ⟨t, rfl⟩

theorem ne_of_positive {d : CodePoint} (hd : '1' ≤ d ∧ d ≤ '9') :
    isAsciiDigit d = true ∧ d ≠ '0' ∧ d ≠ '_' ∧ d ≠ '+' ∧ d ≠ '-' := by
  have h1 : 49 ≤ d.toNat := hd.1
  have h2 : d.toNat ≤ 57 := hd.2
  have hne : ∀ c : CodePoint, c.toNat < 49 ∨ 57 < c.toNat → d ≠ c := by
    rintro c hc rfl
    omega
  exact ⟨(isAsciiDigit_iff d).mpr (by omega), hne _ (by decide), hne _ (by decide),
    hne _ (by decide), hne _ (by decide)⟩

section Decimal

variable {d : CodePoint} {ds body : Text} {groups : List Text}
  (h : splitAt ':' body = (d :: ds) :: groups) (hd : '1' ≤ d ∧ d ≤ '9')
include h hd

/-- A decimal number, also one in base sixty, is read from its first part on. -/
theorem unsignedInt_decimal : ∃ next : Int → Except ScalarFault Int,
    unsignedInt (bare body) = (wholeScalar 10 (bare (d :: ds)) >>= next) ∧
      ((∀ g ∈ groups, isSixtyGroup g = true) → ∀ n, ∃ m, next n = .ok m) := by
  obtain ⟨hdig, hzero, hu, hp, hm⟩ := ne_of_positive hd
  obtain ⟨r, rfl⟩ := head_of_splitAt h
  have hsplit : splitAt ':' (bare (d :: r)) = (splitAt ':' (d :: r)).map bare :=
    splitAt_bare (by decide) _
  rw [h] at hsplit
  rw [bare_cons hu] at hsplit ⊢
  rw [unsignedInt_of_head hzero]
  cases groups with
  | nil =>
    obtain ⟨hbody, hcolon⟩ := splitAt_eq_singleton hsplit
    refine ⟨.ok, ?_, fun _ n => ⟨n, rfl⟩⟩
    rw [if_neg (by simpa using hcolon), ← hbody]
    cases wholeScalar 10 (bare (d :: ds)) <;> rfl
  | cons g gs =>
    have hcolon : CodePoint.char ':' ∈ d :: bare r := by
      have hl := length_splitAt (.char ':') (d :: bare r)
      rw [hsplit] at hl
      simp only [List.map_cons, List.length_cons] at hl
      exact List.count_pos_iff.mp (by omega)
    refine ⟨fun n => ((g :: gs).map bare).mapM (wholeScalar 10) >>= fun ns =>
      .ok (sixtySum (n :: ns).reverse), ?_, fun hg n => ?_⟩
    · rw [if_pos (by simpa using hcolon), sixtyParts, hsplit, List.map_cons, List.mapM_cons]
      cases wholeScalar 10 (bare (d :: ds)) with
      | error e => rfl
      | ok n =>
        show Except.map _ (Except.map _ (List.mapM _ _ >>= _)) = (List.mapM _ _ >>= _)
        cases ((g :: gs).map bare).mapM (wholeScalar 10) <;> rfl
    · have hall : ∀ x ∈ (g :: gs).map bare, ∃ m, wholeScalar 10 x = .ok m :=
        List.forall_mem_map.mpr fun x hx => wholeScalar_group (hg x hx)
      obtain ⟨ns, hns⟩ := exists_forall₂ hall
      exact ⟨_, (bind_eq_ok _ _ _).mpr ⟨ns, (mapM_eq_ok _ _ _).mpr hns, rfl⟩⟩

end Decimal

/-- What keeps a whole number of the right form from having a value: no digit after the mark of its
base, or too many digits in its first part. -/
inductive ValuelessInt (body : Text) : ScalarFault → Prop where
  | noDigits {base : Nat} {mark : Char} {u : Text} (hm : IsMark base mark)
    (h : body = .char '0' :: .char mark :: u) (hu : bare u = []) :
    ValuelessInt body (.numeral (.notWhole base []))
  | tooLong {d : CodePoint} {ds : Text} {groups : List Text}
    (h : splitAt ':' body = (d :: ds) :: groups) (hd : '1' ≤ d ∧ d ≤ '9')
    (hds : ∀ c ∈ ds, isDigitPoint c = true) (hl : digitLimit < (bare (d :: ds)).length) :
    ValuelessInt body (.numeral (.tooLong (bare (d :: ds)).length))

theorem areDigits_positive {d : CodePoint} {ds : Text} (hd : '1' ≤ d ∧ d ≤ '9')
    (hds : ∀ c ∈ ds, isDigitPoint c = true) : AreDigits (bare (d :: ds)) :=
  areDigits_bare (List.forall_mem_cons.mpr ⟨by simp [isDigitPoint, (ne_of_positive hd).1], hds⟩)

theorem unsignedInt_marked {base : Nat} {mark : Char} (hm : IsMark base mark) (u : Text) :
    unsignedInt (bare (.char '0' :: .char mark :: u)) = wholeScalar base (bare u) := by
  cases hm <;> rw [bare_cons (by decide), bare_cons (by decide)] <;> rfl

theorem valuelessInt_of_error {body : Text} (h : IntForm body) {f : ScalarFault}
    (hf : unsignedInt (bare body) = .error f) : ValuelessInt body f := by
  cases h with
  | @marked base mark u hm hd =>
    rw [unsignedInt_marked hm, wholeScalar_run hd] at hf
    rcases hf with ⟨rfl, -, -⟩ | ⟨hu, rfl⟩
    · cases hm
    · exact .noDigits hm rfl hu
  | @octal u hu =>
    obtain ⟨n, hn⟩ := unsignedInt_octal hu
    rw [hn] at hf
    cases hf
  | @decimal d ds _ groups h hd hds hg =>
    obtain ⟨next, he, hnext⟩ := unsignedInt_decimal h hd
    rw [he] at hf
    cases hw : wholeScalar 10 (bare (d :: ds)) with
    | ok n =>
      obtain ⟨m, hm⟩ := hnext hg n
      rw [hw] at hf
      rw [show (Except.ok n >>= next) = next n from rfl, hm] at hf
      cases hf
    | error e =>
      rw [hw] at hf
      cases hf
      rcases (wholeScalar_run (areDigits_positive hd hds).run f).mp hw with ⟨-, hl, rfl⟩ | ⟨hn, -⟩
      · exact .tooLong h hd hds hl
      · rw [bare_cons (ne_of_positive hd).2.2.1] at hn
        cases hn

theorem ValuelessInt.error {body : Text} {f : ScalarFault} (h : ValuelessInt body f) :
    unsignedInt (bare body) = .error f := by
  cases h with
  | @noDigits base mark u hm h hu =>
    rw [h, unsignedInt_marked hm, hu]
    cases hm <;> rfl
  | @tooLong d ds groups h hd hds hl =>
    obtain ⟨next, he, -⟩ := unsignedInt_decimal h hd
    have hw := (wholeScalar_run (areDigits_positive hd hds).run _).mpr (.inl ⟨rfl, hl, rfl⟩)
    rw [he, hw]
    rfl

theorem IntForm.head {body : Text} (h : IntForm body) :
    ∃ c r, body = c :: r ∧ c ≠ '_' ∧ c ≠ '+' ∧ c ≠ '-' := by
  cases h with
  | marked hm hd => exact ⟨_, _, rfl, by decide, by decide, by decide⟩
  | octal h => exact ⟨_, _, rfl, by decide, by decide, by decide⟩
  | decimal h hd hds hg =>
    obtain ⟨r, rfl⟩ := head_of_splitAt h
    obtain ⟨-, -, hu, hp, hm⟩ := ne_of_positive hd
    exact ⟨_, r, rfl, hu, hp, hm⟩

/-- A whole number of the right form has no value in exactly two cases. -/
theorem intScalar_error_iff {t : Text} (h : isIntForm t = true) (f : ScalarFault) :
    intScalar t = .error f ↔ ValuelessInt (dropSign t) f := by
  have hform := intForm_of_isIntForm h
  obtain ⟨c, r, hb, hu, hp, hm⟩ := hform.head
  have hbare := dropSign_bare hb hu hp hm
  rw [intScalar_eq_error hbare (by rw [bare_cons hu]; simp), ← hb]
  exact ⟨valuelessInt_of_error hform, ValuelessInt.error⟩

end Formulary.Yaml
