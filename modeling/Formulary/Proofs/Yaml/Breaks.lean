import Formulary.Proofs.Numeral
import Formulary.Yaml.Token.Lexer
import Mathlib.Data.List.Basic

/-! # Where a text breaks off

The words of a text end where its form is at fault. Only two faults there are not of its form: an
escape that names no code point, and a version whose number is too long. Each step of the lexer is
shown to fail for such a reason or to leave words as they should be, and so a run of steps.
-/

namespace Formulary.Yaml
set_option autoImplicit false

/-! ## Computations that fail in known ways -/

/-- A computation gives a result of one kind or fails with a fault of another. -/
def Ensures {ε α : Type} (E : ε → Prop) (Q : α → Prop) : Except ε α → Prop
  | .ok a => Q a
  | .error e => E e

section Ensuring

variable {ε α β : Type} {E : ε → Prop} {Q : α → Prop} {R : β → Prop}

theorem Ensures.bind {x : Except ε α} {f : α → Except ε β} (h : Ensures E Q x)
    (hf : ∀ a, Q a → Ensures E R (f a)) : Ensures E R (x >>= f) := by
  cases x with
  | ok a => exact hf a h
  | error e => exact h

theorem Ensures.mono {Q' : α → Prop} {x : Except ε α} (h : Ensures E Q x) (hQ : ∀ a, Q a → Q' a) :
    Ensures E Q' x := by
  cases x with
  | ok a => exact hQ a h
  | error e => exact h

theorem Ensures.blame {E' : ε → Prop} {x : Except ε α} (h : Ensures E Q x) (hE : ∀ e, E e → E' e) :
    Ensures E' Q x := by
  cases x with
  | ok a => exact h
  | error e => exact hE e h

theorem Ensures.map {f : α → β} {x : Except ε α} (h : Ensures E Q x) (hf : ∀ a, Q a → R (f a)) :
    Ensures E R (x.map f) := by
  cases x with
  | ok a => exact hf a h
  | error e => exact h

theorem ensures_foldlM {step : β → α → Except ε β} {xs : List α}
    (h : ∀ b, R b → ∀ x ∈ xs, Ensures E R (step b x)) {b : β} (hb : R b) :
    Ensures E R (xs.foldlM step b) := by
  induction xs generalizing b with
  | nil => exact hb
  | cons x xs ih =>
    rw [List.foldlM_cons]
    exact (h b hb x (List.mem_cons_self ..)).bind fun b' hb' =>
      ih (fun b'' hb'' y hy => h b'' hb'' y (List.mem_cons_of_mem _ hy)) hb'

theorem ensures_mapM {f : α → Except ε β} {xs : List α} (h : ∀ x ∈ xs, Ensures E R (f x)) :
    Ensures E (fun ys => ∀ y ∈ ys, R y) (xs.mapM f) := by
  induction xs with
  | nil => exact List.forall_mem_nil _
  | cons x xs ih =>
    obtain ⟨hx, hxs⟩ := List.forall_mem_cons.mp h
    rw [List.mapM_cons]
    exact hx.bind fun y hy => (ih hxs).bind fun ys hys => List.forall_mem_cons.mpr ⟨hy, hys⟩

end Ensuring

/-! ## Words -/

/-- What a text stops being readable for: its form, an escape or a version. -/
inductive LexFault : Fault → Prop where
  | form (p : Problem) (spot? : Option Spot) : LexFault (.problem p spot?)
  | escape {n : Nat} (h : 0x110000 ≤ n) : LexFault (.scalar (.codePoint n))
  | version {n : Nat} (h : Numeral.digitLimit < n) : LexFault (.scalar (.numeral (.tooLong n)))

/-- A computation of the lexer that fails, if at all, for a known reason. -/
abbrev Lexes {α : Type} (x : Except Fault α) : Prop := Ensures LexFault (fun _ => True) x

theorem lexes_fail {α : Type} (c : Cursor) (p : Problem) : Lexes (c.fail p : Except Fault α) :=
  .form p _

theorem Lexes.bind {α β : Type} {x : Except Fault α} {f : α → Except Fault β} (h : Lexes x)
    (hf : ∀ a, Lexes (f a)) : Lexes (x >>= f) := Ensures.bind h fun a _ => hf a

theorem lexes_ok {α : Type} (a : α) : Lexes (.ok a) := trivial

/-- A word as the lexer makes it: a plain scalar does not end a line, and only a known fault breaks a
text off. -/
def Word.IsMade : Word → Prop
  | .scalar t true => Text.dropFinalBreak t = t
  | .broken f => LexFault f
  | _ => True

/-! ### Quoted scalars -/

theorem ofNat?_eq_none {n : Nat} (h : CodePoint.ofNat? n = none) : 0x110000 ≤ n := by
  unfold CodePoint.ofNat? at h
  split at h
  · cases h
  · split at h
    · cases h
    · omega

theorem lexes_codePoint (n : Nat) : Lexes (codePoint n) := by
  unfold codePoint
  split
  · exact lexes_ok _
  · exact .escape (ofNat?_eq_none ‹_›)

theorem lexes_furtherBreaks (fuel : Nat) (c : Cursor) : Lexes (furtherBreaks fuel c) := by
  induction fuel generalizing c with
  | zero => exact lexes_ok _
  | succ fuel ih =>
    rw [furtherBreaks]
    split
    · exact lexes_fail _ _
    · simp only
      split
      · exact lexes_ok _
      · exact (ih _).bind fun _ => lexes_ok _

theorem lexes_quotedBlanks (c : Cursor) : Lexes (quotedBlanks c) := by
  unfold quotedBlanks
  simp only
  split
  · exact lexes_ok _
  · exact (lexes_furtherBreaks _ _).bind fun _ => lexes_ok _

theorem lexes_quotedEscape (c : Cursor) : Lexes (quotedEscape c) := by
  unfold quotedEscape
  simp only
  split
  · exact lexes_ok _
  · split
    · split
      · exact lexes_fail _ _
      · exact (lexes_codePoint _).bind fun _ => lexes_ok _
    · split
      · exact lexes_furtherBreaks _ _
      · exact lexes_fail _ _

theorem lexes_quotedBody (double : Bool) (fuel : Nat) (c : Cursor) :
    Lexes (quotedBody double fuel c) := by
  induction fuel generalizing c with
  | zero => exact lexes_fail _ _
  | succ fuel ih =>
    have further : ∀ (part : Text) (c : Cursor), Lexes (do
        let r ← quotedBody double fuel c
        return (part ++ r.1, r.2)) := fun part c => (ih c).bind fun _ => lexes_ok _
    rw [quotedBody]
    simp only
    split
    · exact lexes_fail _ _
    · split
      · exact (lexes_quotedBlanks _).bind fun _ => further _ _
      · split
        · split
          · exact lexes_ok _
          · split
            · exact (lexes_quotedEscape _).bind fun _ => further _ _
            · exact further _ _
        · split
          · split
            · exact further _ _
            · exact lexes_ok _
          · exact further _ _

/-! ### Directives, anchors and tags -/

theorem lexes_markName (p : Problem) (c : Cursor) : Lexes (markName p c) := by
  unfold markName
  simp only
  split
  · exact lexes_fail _ _
  · exact lexes_ok _

theorem lexes_anchorName (c : Cursor) : Lexes (anchorName c) := by
  unfold anchorName
  refine (lexes_markName _ _).bind fun ⟨_, _⟩ => ?_
  dsimp only
  split
  · exact lexes_ok _
  · exact lexes_fail _ _

theorem lexes_tagAddress (p : Problem) (c : Cursor) : Lexes (tagAddress p c) := by
  unfold tagAddress
  simp only
  split
  · exact lexes_fail _ _
  · split
    · exact lexes_fail _ _
    · exact lexes_ok _

theorem lexes_tagHandle (p : Problem) (c : Cursor) : Lexes (tagHandle p c) := by
  unfold tagHandle
  split
  · exact lexes_fail _ _
  · split
    · exact lexes_ok _
    · simp only
      split
      · exact lexes_ok _
      · exact lexes_fail _ _

theorem made_tagWord (c : Cursor) : Ensures LexFault (fun p => p.1.IsMade) (tagWord c) := by
  unfold tagWord
  refine Ensures.bind (Q := fun p => p.1.IsMade) ?_ fun ⟨_, c⟩ hw => ?_
  · split
    · refine Ensures.bind (lexes_tagAddress _ _) fun ⟨_, c⟩ _ => ?_
      dsimp only
      split
      · trivial
      · exact LexFault.form _ _
    · split
      · trivial
      · dsimp only
        split
        · exact Ensures.bind (lexes_tagHandle _ _) fun _ _ =>
            Ensures.bind (lexes_tagAddress _ _) fun _ _ => trivial
        · exact Ensures.bind (lexes_tagAddress _ _) fun _ _ => trivial
  · dsimp only
    split
    · exact hw
    · exact LexFault.form _ _

/-- Digits in front of a point are a number unless there are too many of them. -/
theorem whole_version {cs : Text} (hd : Numeral.AreDigits cs) (hne : cs ≠ [])
    {f : Numeral.Fault} (hf : Numeral.whole 10 cs = .error f) :
    LexFault (.scalar (.numeral f)) := by
  have hw := Numeral.whole_run hd.isSome_digit? hd.isSome_hexValue?
  rw [hf, if_neg (by simpa using hne : ¬ cs.isEmpty = true)] at hw
  split at hw
  · rename_i hl
    cases hw
    exact .version (by simpa using hl)
  · cases hw

theorem lexes_versionNumber (c : Cursor) : Lexes (versionNumber c) := by
  have hd : Numeral.AreDigits (c.span Text.isAsciiDigit).1 := fun ch hc =>
    List.mem_takeWhile_imp hc
  unfold versionNumber
  generalize c.span Text.isAsciiDigit = found at hd ⊢
  obtain ⟨cs, after⟩ := found
  dsimp only
  split
  · exact lexes_fail _ _
  · rename_i hne
    split
    · exact lexes_ok _
    · rename_i f hf
      exact whole_version hd (by simpa using hne) hf

theorem lexes_directiveLine (c : Cursor) : Lexes (directiveLine c) := by
  unfold directiveLine
  refine (lexes_markName _ _).bind fun ⟨_, _⟩ => ?_
  dsimp only
  split
  · exact lexes_fail _ _
  · refine Lexes.bind ?_ fun ⟨_, _⟩ => ?_
    · split
      · refine (lexes_versionNumber _).bind fun ⟨_, _⟩ => ?_
        split
        · exact lexes_fail _ _
        · refine (lexes_versionNumber _).bind fun ⟨_, _⟩ => ?_
          split
          · exact lexes_ok _
          · exact lexes_fail _ _
      · split
        · refine (lexes_tagHandle _ _).bind fun ⟨_, _⟩ => ?_
          split
          · exact lexes_fail _ _
          · refine (lexes_tagAddress _ _).bind fun ⟨_, _⟩ => ?_
            split
            · exact lexes_ok _
            · exact lexes_fail _ _
        · exact lexes_ok _
    · simp only
      split
      · exact lexes_ok _
      · split
        · exact lexes_ok _
        · exact lexes_fail _ _

/-! ### Block scalars -/

theorem lexes_headerIndent (c : Cursor) : Lexes (headerIndent c) := by
  unfold headerIndent
  simp only
  split
  · exact lexes_fail _ _
  · split <;> exact lexes_ok _

theorem lexes_blockHeader (c : Cursor) : Lexes (blockHeader c) := by
  unfold blockHeader
  refine Lexes.bind ?_ fun ⟨_, _, _⟩ => ?_
  · split
    · exact (lexes_headerIndent _).bind fun _ => lexes_ok _
    · refine (lexes_headerIndent _).bind fun ⟨_, _⟩ => ?_
      dsimp only
      split <;> exact lexes_ok _
  · dsimp only
    split
    · exact lexes_fail _ _
    · split
      · exact lexes_ok _
      · split
        · exact lexes_ok _
        · exact lexes_fail _ _

theorem lexes_blockScalar (folded : Bool) (parent : Int) (c : Cursor) :
    Lexes (blockScalar folded parent c) :=
  (lexes_blockHeader c).bind fun _ => lexes_ok _

/-! ### Tokens -/

namespace Lexer

/-- All words of a lexer are as it makes them. -/
def Clean (s : Lexer) : Prop := ∀ tk ∈ s.tokens, tk.word.IsMade

/-- A step of the lexer: it fails for a known reason or leaves clean words. -/
abbrev Steps (x : Except Fault Lexer) : Prop := Ensures LexFault Clean x

variable {s : Lexer}

theorem Clean.put (h : Clean s) {w : Word} (hw : w.IsMade) : Clean (s.put w) :=
  List.forall_mem_cons.mpr ⟨hw, h⟩

theorem Clean.putAt (h : Clean s) (place : Nat) {w : Word} (hw : w.IsMade) (spot : Spot) :
    Clean (s.putAt place w spot) := by
  intro tk htk
  rcases List.mem_append.mp htk with htk | htk
  · exact h tk (List.mem_of_mem_take htk)
  · rcases List.mem_cons.mp htk with rfl | htk
    · exact hw
    · exact h tk (List.mem_of_mem_drop htk)

theorem steps_fail (c : Cursor) (p : Problem) : Steps (c.fail p) := .form p _

theorem steps_dropCandidate (h : Clean s) : Steps s.dropCandidate := by
  unfold dropCandidate
  split
  · exact h
  · split
    · exact steps_fail _ _
    · exact h

theorem steps_saveCandidate (h : Clean s) : Steps s.saveCandidate := by
  unfold saveCandidate
  split
  · exact (steps_dropCandidate h).bind fun s hs => hs
  · exact h

theorem steps_dropStale (h : Clean s) : Steps s.dropStale := by
  unfold dropStale
  split
  · exact steps_fail _ _
  · exact h

theorem clean_closeBlocks (h : Clean s) (column : Int) : Clean (s.closeBlocks column) := by
  have hfold : ∀ (xs : List Int) (s : Lexer), Clean s →
      Clean (xs.foldl (fun s _ => s.put .blockEnd) s) := by
    intro xs
    induction xs with
    | nil => exact fun s hs => hs
    | cons x xs ih => exact fun s hs => ih _ (hs.put trivial)
  unfold closeBlocks
  split
  · exact h
  · exact hfold _ s h

theorem clean_toNextToken (fuel : Nat) (h : Clean s) : Clean (toNextToken fuel s) := by
  induction fuel generalizing s with
  | zero => exact h
  | succ fuel ih =>
    rw [toNextToken]
    split
    · exact h
    · exact ih h

theorem clean_openBlockHere (h : Clean s) {w : Word} (hw : w.IsMade) : Clean (s.openBlockHere w) := by
  unfold openBlockHere
  simp only
  split
  · exact h.put hw
  · exact h

theorem steps_leaveDocument (h : Clean s) : Steps s.leaveDocument :=
  (steps_dropCandidate (clean_closeBlocks h _)).bind fun _ hs => hs

theorem steps_endStream (h : Clean s) : Steps s.endStream :=
  (steps_leaveDocument h).bind fun _ hs => hs.put trivial

theorem steps_documentMark (h : Clean s) {w : Word} (hw : w.IsMade) : Steps (s.documentMark w) :=
  (steps_leaveDocument h).bind fun _ hs => hs.put hw

theorem steps_openFlow (h : Clean s) {w : Word} (hw : w.IsMade) : Steps (s.openFlow w) :=
  (steps_saveCandidate h).bind fun _ hs => hs.put hw

theorem steps_closeFlow (h : Clean s) {w : Word} (hw : w.IsMade) : Steps (s.closeFlow w) := by
  refine (steps_dropCandidate h).bind fun s hs => ?_
  split
  · exact hs.put hw
  · exact steps_fail _ _

theorem steps_flowEntry (h : Clean s) : Steps s.flowEntry :=
  (steps_dropCandidate h).bind fun _ hs => hs.put trivial

theorem steps_blockMark (h : Clean s) (opener mark : Word) (ho : opener.IsMade) (hm : mark.IsMade)
    (refusal : Problem) (keyAllowed : Bool) : Steps (s.blockMark opener mark refusal keyAllowed) := by
  unfold blockMark
  split
  · exact steps_fail _ _
  · have hopen : Clean (if s.inFlow then s else s.openBlockHere opener) := by
      split
      · exact h
      · exact clean_openBlockHere h ho
    exact (steps_dropCandidate hopen).bind fun _ hs => hs.put hm

theorem steps_valueMark (h : Clean s) : Steps s.valueMark := by
  unfold valueMark
  split
  · rename_i k _
    have hkey : Clean ({ s with candidates := s.candidates.filter (·.depth ≠ s.depth) }.putAt
        k.place .key k.start.spot) := Clean.putAt h k.place (w := .key) trivial _
    dsimp only
    split
    · exact (hkey.putAt k.place (w := .blockMappingStart) trivial _).put (w := .value) trivial
    · exact hkey.put (w := .value) trivial
  · exact steps_blockMark h .blockMappingStart .value trivial trivial _ _

theorem steps_keyWord (h : Clean s) {scan : Cursor → Except Fault (Word × Cursor)}
    (hscan : ∀ c, Ensures LexFault (fun p => p.1.IsMade) (scan c)) : Steps (s.keyWord scan) :=
  (steps_saveCandidate h).bind fun s hs => (hscan s.cursor).bind fun _ hw => hs.put hw

theorem steps_quoted (h : Clean s) (double : Bool) : Steps (s.quoted double) :=
  steps_keyWord h fun _ => Ensures.bind (lexes_quotedBody double _ _) fun _ _ => trivial

theorem steps_block (h : Clean s) (folded : Bool) : Steps (s.block folded) :=
  (steps_dropCandidate h).bind fun _ hs =>
    Ensures.bind (lexes_blockScalar folded _ _) fun _ _ => hs.put trivial

theorem steps_anchorName (h : Clean s) {make : Text → Word} (hw : ∀ t, (make t).IsMade) :
    Steps (s.keyWord fun c => do
      let (name, c) ← anchorName c.advance
      return (make name, c)) :=
  steps_keyWord h fun _ => Ensures.bind (lexes_anchorName _) fun _ _ => hw _

end Lexer

/-! ### Plain scalars -/

theorem not_gap_plainWord {inFlow : Bool} {t : Text} : ∀ c ∈ plainWord inFlow t, isGap c = false := by
  induction t with
  | nil => simp [plainWord]
  | cons ch t ih =>
    rw [plainWord]
    split
    · simp
    · rename_i hend
      rw [List.forall_mem_cons]
      refine ⟨?_, ih⟩
      simp only [endsPlain, Bool.or_eq_true, not_or, Bool.not_eq_true] at hend
      exact hend.1.1

/-- A plain scalar ends with a character of a word. -/
theorem getLast?_plainWords (inFlow : Bool) (indent : Int) (fuel : Nat) (blanks : Text)
    (ended : Bool) (c : Cursor) :
    ∀ ch ∈ (plainWords inFlow indent fuel blanks ended c).1.getLast?, isGap ch = false := by
  induction fuel generalizing blanks ended c with
  | zero => simp [plainWords]
  | succ fuel ih =>
    have hword : ∀ w, w = (if c.peek = '#' then [] else plainWord inFlow c.rest) →
        ∀ ch ∈ w, isGap ch = false := by
      rintro w rfl
      split
      · simp
      · exact not_gap_plainWord
    rw [plainWords]
    generalize (if c.peek = '#' then [] else plainWord inFlow c.rest) = word at hword
    replace hword := hword word rfl
    dsimp only
    split
    · simp
    · rename_i hne
      have hlast : ∀ front : Text, ∀ ch ∈ (front ++ word).getLast?, isGap ch = false := by
        intro front ch hch
        rw [List.getLast?_append_of_ne_nil _ (by simpa using hne)] at hch
        exact hword ch (List.mem_of_getLast? hch)
      split
      · exact hlast blanks
      · have htext := ih (plainBlanks (c.skip word.length)).1
          (plainBlanks (c.skip word.length)).2.1 (plainBlanks (c.skip word.length)).2.2
        dsimp only
        intro ch hch
        rw [List.getLast?_append] at hch
        rcases Option.or_eq_some_iff.mp hch with h | ⟨-, h⟩
        · exact htext ch h
        · exact hlast blanks ch h

theorem dropFinalBreak_plainScalar (inFlow : Bool) (indent : Int) (c : Cursor) :
    Text.dropFinalBreak (plainScalar inFlow indent c).1 = (plainScalar inFlow indent c).1 := by
  rw [Text.dropFinalBreak, if_neg]
  intro h
  have hgap := getLast?_plainWords inFlow indent _ _ _ _ _ h
  exact absurd hgap (by decide)

namespace Lexer

variable {s : Lexer}

theorem steps_plain (h : Clean s) : Steps s.plain :=
  (steps_saveCandidate h).bind fun s hs =>
    hs.put (w := .scalar _ true) (dropFinalBreak_plainScalar s.inFlow s.indent s.cursor)

theorem steps_directive (h : Clean s) (c : Cursor) : Steps (do
    let s ← s.leaveDocument
    let (d, c) ← directiveLine c
    return { s.put (.directive d) with cursor := c }) :=
  (steps_leaveDocument h).bind fun _ hs =>
    Ensures.bind (lexes_directiveLine c) fun _ _ => hs.put (w := .directive _) trivial

theorem steps_ite {p : Prop} [Decidable p] {x y : Except Fault Lexer} (hx : Steps x)
    (hy : Steps y) : Steps (if p then x else y) := by
  split
  · exact hx
  · exact hy

theorem steps_token (h : Clean s) : Steps s.token := by
  unfold token
  refine steps_ite (steps_endStream h) ?_
  refine steps_ite (steps_directive h _) ?_
  refine steps_ite (steps_documentMark h (w := .documentStart) trivial) ?_
  refine steps_ite (steps_documentMark h (w := .documentEnd) trivial) ?_
  refine steps_ite (steps_openFlow h (w := .flowSequenceStart) trivial) ?_
  refine steps_ite (steps_openFlow h (w := .flowMappingStart) trivial) ?_
  refine steps_ite (steps_closeFlow h (w := .flowSequenceEnd) trivial) ?_
  refine steps_ite (steps_closeFlow h (w := .flowMappingEnd) trivial) ?_
  refine steps_ite (steps_flowEntry h) ?_
  refine steps_ite (steps_blockMark h .blockSequenceStart .blockEntry trivial trivial _ _) ?_
  refine steps_ite (steps_blockMark h .blockMappingStart .key trivial trivial _ _) ?_
  refine steps_ite (steps_valueMark h) ?_
  refine steps_ite (steps_anchorName h fun _ => trivial) ?_
  refine steps_ite (steps_anchorName h fun _ => trivial) ?_
  refine steps_ite (steps_keyWord h made_tagWord) ?_
  refine steps_ite (steps_block h false) ?_
  refine steps_ite (steps_block h true) ?_
  refine steps_ite (steps_quoted h false) ?_
  refine steps_ite (steps_quoted h true) ?_
  exact steps_ite (steps_plain h) (steps_fail _ _)

theorem steps_next (fuel : Nat) (h : Clean s) : Steps (s.next fuel) := by
  have hsettle : Steps (s.settle fuel) :=
    (steps_dropStale (clean_toNextToken fuel h)).bind fun _ hs => clean_closeBlocks hs _
  exact hsettle.bind fun _ hs => steps_token hs

/-- Each step of the lexer leaves clean words, and so does a run of it. -/
theorem made_run (fuel : Nat) (h : Clean s) : ∀ tk ∈ s.run fuel, tk.word.IsMade := by
  induction fuel generalizing s with
  | zero => exact fun tk htk => h tk (List.mem_reverse.mp htk)
  | succ fuel ih =>
    have hnext := steps_next fuel h
    rw [run]
    cases hn : s.next fuel with
    | error f =>
      rw [hn] at hnext
      intro tk htk
      rcases List.mem_cons.mp (List.mem_reverse.mp htk) with rfl | htk
      · exact hnext
      · exact h tk (List.mem_of_mem_drop htk)
    | ok s' =>
      rw [hn] at hnext
      dsimp only
      split
      · exact fun tk htk => hnext tk (List.mem_reverse.mp htk)
      · exact ih hnext

end Lexer

theorem made_tokens (text : Text) : ∀ tk ∈ tokens text, tk.word.IsMade := by
  unfold tokens
  split
  · exact List.forall_mem_singleton.mpr (.form _ _)
  · refine Lexer.made_run _ ?_
    split <;> exact List.forall_mem_nil _

end Formulary.Yaml
