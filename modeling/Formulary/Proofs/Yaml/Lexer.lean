import Formulary.Proofs.Yaml.Quoted
import Formulary.Yaml.Token.Lexer

/-! # How the lexer goes on

A run of the lexer is a chain of states. Before each token the lexer settles: it goes to the next
line or over a blank, forgets candidates that are stale, and closes the block collections that the
column ends. So what a state stands for is said of the state that it settles to.
-/

namespace Formulary.Yaml
set_option autoImplicit false

namespace Lexer

/-! ## Runs -/

/-- A run from `s` is a run from `s'`, with fuel enough for what is left of the text. -/
def Leads (s s' : Lexer) : Prop :=
  ∀ fuel, s.cursor.rest.length + 2 ≤ fuel →
    ∃ fuel', s'.cursor.rest.length + 2 ≤ fuel' ∧ run fuel s = run fuel' s'

theorem Leads.trans {s s' s'' : Lexer} (h : Leads s s') (h' : Leads s' s'') : Leads s s'' := by
  intro fuel hf
  obtain ⟨fuel', hf', e⟩ := h fuel hf
  obtain ⟨fuel'', hf'', e'⟩ := h' fuel' hf'
  exact ⟨fuel'', hf'', e.trans e'⟩

/-- Where a state settles, whatever the fuel. -/
structure Settles (s s1 : Lexer) : Prop where
  eq : ∀ fuel, s.cursor.rest.length < fuel → s.settle fuel = .ok s1
  le : s1.cursor.rest.length ≤ s.cursor.rest.length

theorem Settles.next {s s1 s' : Lexer} (h : Settles s s1) (ht : s1.token = .ok s') (fuel : Nat)
    (hf : s.cursor.rest.length < fuel) : s.next fuel = .ok s' := by
  show (s.settle fuel >>= token) = .ok s'
  rw [h.eq fuel hf]
  exact ht

theorem Settles.leads {s s1 s' : Lexer} (h : Settles s s1) (ht : s1.token = .ok s')
    (hlt : s'.cursor.rest.length < s1.cursor.rest.length)
    (hne : ∀ t ∈ s'.tokens.head?, t.word ≠ .streamEnd) : Leads s s' := by
  intro fuel hf
  obtain ⟨fuel, rfl⟩ : ∃ n, fuel = n + 1 := ⟨fuel - 1, by omega⟩
  have hle := h.le
  refine ⟨fuel, by omega, ?_⟩
  rw [run, h.next ht fuel (by omega)]
  simp only
  split
  · rename_i spot rest heq
    exact absurd rfl (hne ⟨.streamEnd, spot⟩ (by rw [heq]; rfl))
  · rfl

/-! ## Settling -/

/-- The ends of the block collections that a column closes, and those that stay open. -/
def closers (k : Int) (σ : List Int) : List Word :=
  List.replicate (σ.takeWhile (k < ·)).length .blockEnd

def kept (k : Int) (σ : List Int) : List Int := σ.dropWhile (k < ·)

theorem closers_cons_of_lt {k i : Int} (h : k < i) (σ : List Int) :
    closers k (i :: σ) = .blockEnd :: closers k σ := by
  simp [closers, h, List.replicate_succ]

theorem closers_cons_of_le {k i : Int} (h : i ≤ k) (σ : List Int) : closers k (i :: σ) = [] := by
  have h' : ¬ k < i := by omega
  simp [closers, h']

theorem kept_cons_of_lt {k i : Int} (h : k < i) (σ : List Int) : kept k (i :: σ) = kept k σ := by
  simp [kept, h]

theorem kept_cons_of_le {k i : Int} (h : i ≤ k) (σ : List Int) : kept k (i :: σ) = i :: σ := by
  have h' : ¬ k < i := by omega
  simp [kept, h']

theorem kept_ne_nil {k : Int} {σ : List Int} (hb : (-1 : Int) ∈ σ) (hk : -1 ≤ k) :
    kept k σ ≠ [] := by
  intro h
  have := List.dropWhile_eq_nil_iff.mp h (-1) hb
  simp only [decide_eq_true_eq] at this
  omega

theorem mem_kept {k : Int} {σ : List Int} (hb : (-1 : Int) ∈ σ) (hk : -1 ≤ k) :
    (-1 : Int) ∈ kept k σ := by
  rw [← List.takeWhile_append_dropWhile (p := fun i => decide (k < i)) (l := σ)] at hb
  refine (List.mem_append.mp hb).resolve_left fun h => ?_
  have := List.mem_takeWhile_imp h
  simp only [decide_eq_true_eq] at this
  omega

theorem foldl_put (l : List Int) (w : Word) (s : Lexer) :
    l.foldl (fun s _ => s.put w) s =
      { s with tokens := List.replicate l.length ⟨w, s.cursor.spot⟩ ++ s.tokens } := by
  induction l generalizing s with
  | nil => rfl
  | cons i l ih =>
    rw [List.foldl_cons, ih, List.length_cons, List.replicate_succ', List.append_assoc]
    rfl

theorem drop_takeWhile (k : Int) (σ : List Int) :
    σ.drop (σ.takeWhile (k < ·)).length = kept k σ := by
  induction σ with
  | nil => rfl
  | cons i σ ih =>
    by_cases h : k < i
    · rw [kept_cons_of_lt h, ← ih]
      simp [h]
    · rw [kept_cons_of_le (by omega)]
      simp [h]

theorem closeBlocks_eq {s : Lexer} (hd : s.depth = 0) (k : Int) :
    s.closeBlocks k = { s with
      tokens := List.replicate ((s.indent :: s.outer).takeWhile (k < ·)).length
        ⟨.blockEnd, s.cursor.spot⟩ ++ s.tokens
      indent := (kept k (s.indent :: s.outer)).headD (-1)
      outer := (kept k (s.indent :: s.outer)).tail } := by
  have hf : s.inFlow = false := by simp [inFlow, hd]
  rw [closeBlocks]
  simp only [hf, Bool.false_eq_true, if_false, foldl_put, drop_takeWhile]

/-- A state at a token: the words so far, the indentation of the open block collections, whether a
key may follow, and the place. -/
structure Stands (s : Lexer) (ws : List Word) (σ : List Int) (allowed : Bool) (k : Nat)
    (r : Text) : Prop where
  words : s.tokens.map (·.word) = ws.reverse
  stack : s.indent :: s.outer = σ
  bottom : (-1 : Int) ∈ σ
  depth : s.depth = 0
  keyAllowed : s.keyAllowed = allowed
  candidates : s.candidates = []
  column : s.cursor.column = k
  rest : s.cursor.rest = r

/-- A state that settles to one at a token. -/
def Reaches (s : Lexer) (ws : List Word) (σ : List Int) (allowed : Bool) (k : Nat) (r : Text) :
    Prop :=
  ∃ s1, Settles s s1 ∧ Stands s1 ws σ allowed k r

theorem reaches_of_next {s : Lexer} (s0 : Lexer) {ws : List Word} {σ : List Int} {k : Nat} {r : Text}
    (hn : ∀ fuel, s.cursor.rest.length < fuel → toNextToken fuel s = s0)
    (hle : s0.cursor.rest.length ≤ s.cursor.rest.length)
    (hw : s0.tokens.map (·.word) = ws.reverse) (hσ : s0.indent :: s0.outer = σ)
    (hb : (-1 : Int) ∈ σ) (hd : s0.depth = 0)
    (hq : ∀ q ∈ s0.candidates, q.required = false ∧ s0.isStale q = true)
    (hk : s0.cursor.column = k) (hr : s0.cursor.rest = r) :
    Reaches s (ws ++ closers k σ) (kept k σ) s0.keyAllowed k r := by
  have hany : (s0.candidates.any fun q => s0.isStale q && q.required) = false := by
    rw [List.any_eq_false]
    intro q hq'
    simp [(hq q hq').1]
  have hfilter : (s0.candidates.filter fun q => !s0.isStale q) = [] := by
    rw [List.filter_eq_nil_iff]
    intro q hq'
    simp [(hq q hq').2]
  have hstale : s0.dropStale = .ok { s0 with candidates := [] } := by
    rw [dropStale, hany, hfilter]
    rfl
  have hne := kept_ne_nil hb (k := k) (by omega)
  refine ⟨{ s0 with candidates := [] }.closeBlocks s0.cursor.column, ⟨fun fuel hf => ?_, ?_⟩, ?_⟩
  · rw [settle, hn fuel hf, hstale]
    rfl
  · rw [closeBlocks_eq (by exact hd)]
    exact hle
  · rw [closeBlocks_eq (by exact hd), hk]
    simp only [hσ]
    refine ⟨?_, ?_, mem_kept hb (by omega), hd, rfl, rfl, hk, hr⟩
    · simp only [List.map_append, List.map_replicate, hw, List.reverse_append, closers,
        List.reverse_replicate]
    · cases hkept : kept k σ with
      | nil => exact absurd hkept hne
      | cons i σ' => rfl

/-! ## Going to the next token -/

section ToNext

variable {s : Lexer} {r : Text}

theorem skipComment_spaces {c : Cursor} {p : Nat} (h : c.rest = spaces p ++ r)
    (hs : r.headD endMark ≠ ' ') (hc : r.headD endMark ≠ '#') : c.skipComment = c.skip p := by
  have hw : c.skipWhile (· = ' ') = c.skip p := by
    rw [Cursor.skipWhile_run h (fun x hx => by simp [mem_spaces hx]), length_spaces]
    cases r with
    | nil => simp
    | cons x r => simpa using hs
  have hp : ¬ (c.skip p).peek = '#' := by
    rw [peek_skip_spaces h]
    exact hc
  rw [Cursor.skipComment, hw, if_neg hp]

theorem toNextToken_spaces {p k : Nat} (h : s.cursor.rest = spaces p ++ r) (hr : Resumes k r)
    (fuel : Nat) : toNextToken (fuel + 1) s = { s with cursor := s.cursor.skip p } := by
  rw [toNextToken, skipComment_spaces h hr.not_space hr.notComment, Cursor.lineBreak?_none]
  rw [peek_skip_spaces h]
  exact hr.notBreak

theorem toNextToken_lines {j k : Nat}
    (h : s.cursor.rest = List.replicate j (.char '\n') ++ (spaces k ++ r)) (hr : Resumes k r)
    (ha : s.keyAllowed = true) (fuel : Nat) :
    toNextToken (fuel + 1 + j) s = { s with cursor := s.cursor.skip (j + k) } := by
  induction j generalizing s with
  | zero =>
    rw [Nat.zero_add]
    exact toNextToken_spaces h hr fuel
  | succ j ih =>
    have h1 : s.cursor.advance.rest = List.replicate j (.char '\n') ++ (spaces k ++ r) := by
      rw [Cursor.rest_advance, h]
      rfl
    have hskip := skipComment_spaces (p := 0) h (by simp) (by simp)
    have e : j + 1 + k = (j + k) + 1 := by omega
    rw [← Nat.add_assoc, toNextToken, hskip, Cursor.skip, Cursor.lineBreak?_break h (by decide)]
    simp only [ha, Bool.true_or]
    rw [ih h1 rfl, e, ← ha]
    rfl

theorem toNextToken_lineEnd {j k : Nat} (h : s.cursor.rest = lineEnd j k ++ r) (hr : Resumes k r)
    (hd : s.depth = 0) {fuel : Nat} (hf : s.cursor.rest.length < fuel) :
    toNextToken fuel s =
      { s with cursor := s.cursor.skip (j + 1 + k), keyAllowed := true } := by
  have hlen : s.cursor.rest.length = j + 1 + k + r.length := by
    rw [h, List.length_append, length_lineEnd]
  obtain ⟨fuel, rfl⟩ : ∃ n, fuel = n + 1 + j + 1 := ⟨fuel - (j + 2), by omega⟩
  rw [lineEnd_append] at h
  have h1 : s.cursor.advance.rest = List.replicate j (.char '\n') ++ (spaces k ++ r) := by
    rw [Cursor.rest_advance, h]
    rfl
  have hskip := skipComment_spaces (p := 0) h (by simp) (by simp)
  have hf : s.inFlow = false := by simp [inFlow, hd]
  have e : j + 1 + k = (j + k) + 1 := by omega
  rw [toNextToken, hskip, Cursor.skip, Cursor.lineBreak?_break h (by decide)]
  simp only [hf, Bool.not_false, Bool.or_true]
  rw [toNextToken_lines h1 hr rfl, e]
  rfl

end ToNext

/-! ## After a token -/

section After

variable {s : Lexer} {ws : List Word} {σ : List Int} {j k : Nat} {r : Text}

/-- What a state has to be before it goes to the next line: no candidate is a required key. -/
structure Ends (s : Lexer) (ws : List Word) (σ : List Int) : Prop where
  words : s.tokens.map (·.word) = ws.reverse
  stack : s.indent :: s.outer = σ
  bottom : (-1 : Int) ∈ σ
  depth : s.depth = 0
  candidates : ∀ q ∈ s.candidates, q.required = false

theorem Ends.reaches_line (h : Ends s ws σ) (hc : s.cursor.rest = lineEnd j k ++ r)
    (hr : Resumes k r) (hq : ∀ q ∈ s.candidates, q.start.line ≤ s.cursor.line) :
    Reaches s (ws ++ closers k σ) (kept k σ) true k r := by
  have hcur := Cursor.skip_lineEnd hc
  refine reaches_of_next { s with cursor := s.cursor.skip (j + 1 + k), keyAllowed := true }
    (fun fuel hf => toNextToken_lineEnd hc hr h.depth hf) ?_ h.words h.stack h.bottom h.depth ?_
    (by rw [hcur]) (by rw [hcur])
  · rw [Cursor.rest_skip, List.length_drop]
    omega
  · intro q hq'
    refine ⟨h.candidates q hq', ?_⟩
    have hline := hq q hq'
    have hne : q.start.line ≠ s.cursor.line + (j + 1) := by omega
    simp [isStale, hcur, hne]

theorem Ends.reaches_here (h : Ends s ws σ) (hc : s.cursor.rest = r) (hk : s.cursor.column = k)
    (ha : s.keyAllowed = true) (hr : Resumes k r)
    (hq : ∀ q ∈ s.candidates, q.start.line < s.cursor.line) :
    Reaches s (ws ++ closers k σ) (kept k σ) true k r := by
  rw [← ha]
  refine reaches_of_next s (fun fuel hf => ?_) (Nat.le_refl _) h.words h.stack h.bottom
    h.depth (fun q hq' => ⟨h.candidates q hq', ?_⟩) hk hc
  · obtain ⟨fuel, rfl⟩ : ∃ n, fuel = n + 1 := ⟨fuel - 1, by omega⟩
    exact toNextToken_spaces (p := 0) hc hr fuel
  · have hne : q.start.line ≠ s.cursor.line := Nat.ne_of_lt (hq q hq')
    simp [isStale, hne]

theorem Stands.reaches_blank {i : Int} {allowed : Bool}
    (h : Stands s ws (i :: σ) allowed k (.char ' ' :: r)) (hi : i ≤ k + 1)
    (hr : Resumes (k + 1) r) : Reaches s ws (i :: σ) allowed (k + 1) r := by
  have hc : s.cursor.rest = spaces 1 ++ r := h.rest
  have hcur := Cursor.skip_spaces hc
  have e := reaches_of_next (s := s) { s with cursor := s.cursor.skip 1 } (k := k + 1) (r := r)
    (fun fuel hf => ?_) ?_ h.words h.stack h.bottom h.depth ?_
    (by rw [hcur, h.column]) (by rw [hcur])
  · rw [closers_cons_of_le (by omega), kept_cons_of_le (by omega), List.append_nil] at e
    rw [← h.keyAllowed]
    exact e
  · obtain ⟨fuel, rfl⟩ : ∃ n, fuel = n + 1 := ⟨fuel - 1, by omega⟩
    exact toNextToken_spaces hc hr fuel
  · rw [Cursor.rest_skip, List.length_drop]
    omega
  · rw [h.candidates]
    simp

end After

/-! ## Which token -/

section Which

variable {s : Lexer} {r : Text}

theorem atMark_false (h : s.cursor.column = 0 → s.cursor.atSeparator = false) :
    (decide (s.cursor.column = 0) && s.cursor.atMark "---") = false ∧
      (decide (s.cursor.column = 0) && s.cursor.atMark "...") = false := by
  by_cases hc : s.cursor.column = 0
  · have := h hc
    rw [Cursor.atSeparator, Bool.or_eq_false_iff] at this
    simp [this.1, this.2]
  · simp [hc]

theorem token_plain {ch : CodePoint} (h : s.cursor.rest = ch :: r) (hd : s.depth = 0)
    (hg : isGap ch = false) (ho : isOneOf "#,[]\x7b\x7d&*!|>'\"%@`" ch = false)
    (hm : ch = '-' ∨ ch = '?' ∨ ch = ':' → isGap (s.cursor.ahead 1) = false)
    (hsep : s.cursor.column = 0 → s.cursor.atSeparator = false) : s.token = s.plain := by
  obtain ⟨h1, h2⟩ := atMark_false hsep
  have hf : s.inFlow = false := by simp [inFlow, hd]
  have he : ch ≠ endMark := ((isGap_false_iff ch).mp hg).2.2
  simp only [isOneOf, Text.ofString, Text.ofChars, List.contains_eq_mem, decide_eq_false_iff_not] at ho
  have ho : ch ∉ ([.char '#', .char ',', .char '[', .char ']', .char '\x7b', .char '\x7d', .char '&',
      .char '*', .char '!', .char '|', .char '>', .char '\'', .char '"', .char '%', .char '@',
      .char '`'] : Text) := ho
  simp only [List.mem_cons, List.not_mem_nil, or_false, not_or] at ho
  obtain ⟨n1, n2, n3, n4, n5, n6, n7, n8, n9, n10, n11, n12, n13, n14, n15, n16⟩ := ho
  by_cases hx : ch = '-' ∨ ch = '?' ∨ ch = ':'
  · have hgap := hm hx
    have hstart : startsPlain false ch (s.cursor.ahead 1) = true := by
      simp only [startsPlain, hgap, Bool.not_false, Bool.true_and, Bool.or_eq_true,
        decide_eq_true_eq]
      exact .inr hx
    simp [token, Cursor.peek_cons h, he, n2, n3, n4, n5, n6, n7, n8, n9, n10, n11, n12, n13, n14,
      h1, h2, hf, hgap, hstart]
  · simp only [not_or] at hx
    have hstart : startsPlain false ch (s.cursor.ahead 1) = true := by
      have hone : ch ∉ ([.char '-', .char '?', .char ':', .char ',', .char '[', .char ']',
          .char '\x7b', .char '\x7d', .char '#', .char '&', .char '*', .char '!', .char '|',
          .char '>', .char '\'', .char '"', .char '%', .char '@', .char '`'] : Text) := by
        simp [hx, n1, n2, n3, n4, n5, n6, n7, n8, n9, n10, n11, n12, n13, n14, n15, n16]
      have hone' : isOneOf "-?:,[]\x7b\x7d#&*!|>'\"%@`" ch = false := by
        rw [isOneOf, List.contains_eq_mem, decide_eq_false_iff_not]
        exact hone
      rw [startsPlain, hg, hone']
      rfl
    simp [token, Cursor.peek_cons h, he, n2, n3, n4, n5, n6, n7, n8, n9, n10, n11, n12, n13, n14,
      h1, h2, hf, hx, hstart]

theorem token_quoted {double : Bool} (h : s.cursor.rest = quoteOf double :: r) (hd : s.depth = 0) :
    s.token = s.quoted double := by
  have hf : s.inFlow = false := by simp [inFlow, hd]
  obtain ⟨h1, h2⟩ := atMark_false (s := s) fun _ =>
    Cursor.atSeparator_false h (by cases double <;> decide) (by cases double <;> decide)
  cases double with
  | true =>
    have hp : s.cursor.peek = '"' := Cursor.peek_cons h
    simp [token, hp, endMark, h1, h2]
  | false =>
    have hp : s.cursor.peek = '\'' := Cursor.peek_cons h
    simp [token, hp, endMark, h1, h2]

theorem token_dash (h : s.cursor.rest = .char '-' :: .char ' ' :: r) :
    s.token = s.blockMark .blockSequenceStart .blockEntry .entryNotAllowed true := by
  have hp : s.cursor.peek = '-' := Cursor.peek_cons h
  have ha : s.cursor.ahead 1 = ' ' := Cursor.ahead_succ h 0
  have hg : isGap ' ' = true := by decide
  have h1 : s.cursor.atMark "---" = false := by
    simp [Cursor.atMark, h, Text.ofString, Text.ofChars, List.isPrefixOf]
  have h2 : s.cursor.atMark "..." = false := by
    simp [Cursor.atMark, h, Text.ofString, Text.ofChars, List.isPrefixOf]
  simp [token, hp, endMark, ha, hg, h1, h2]

theorem token_colon (h : s.cursor.rest = .char ':' :: r) (hr : isGap (r.headD endMark) = true) :
    s.token = s.valueMark := by
  have hp : s.cursor.peek = ':' := Cursor.peek_cons h
  have ha : isGap (s.cursor.ahead 1) = true := by
    rw [Cursor.ahead_succ h 0, List.getD_eq_getElem?_getD, ← List.head?_eq_getElem?,
      ← List.headD_eq_head?_getD]
    exact hr
  obtain ⟨h1, h2⟩ := atMark_false (s := s) fun _ =>
    Cursor.atSeparator_false h (by decide) (by decide)
  simp [token, hp, endMark, ha, h1, h2]

theorem token_bracket (h : s.cursor.rest = .char '[' :: r) :
    s.token = s.openFlow .flowSequenceStart := by
  have hp : s.cursor.peek = '[' := Cursor.peek_cons h
  obtain ⟨h1, h2⟩ := atMark_false (s := s) fun _ =>
    Cursor.atSeparator_false h (by decide) (by decide)
  simp [token, hp, endMark, h1, h2]

theorem token_closing (h : s.cursor.rest = .char ']' :: r) :
    s.token = s.closeFlow .flowSequenceEnd := by
  have hp : s.cursor.peek = ']' := Cursor.peek_cons h
  obtain ⟨h1, h2⟩ := atMark_false (s := s) fun _ =>
    Cursor.atSeparator_false h (by decide) (by decide)
  simp [token, hp, endMark, h1, h2]

theorem token_end (h : s.cursor.rest = []) : s.token = s.endStream := by
  have hp : s.cursor.peek = endMark := by rw [Cursor.peek_eq, h]; rfl
  simp [token, hp]

end Which

/-! ## Scalars -/

theorem saveCandidate_eq {s : Lexer} (hd : s.depth = 0) (hc : s.candidates = []) :
    s.saveCandidate = .ok { s with candidates := if s.keyAllowed then
      [⟨0, s.tokens.length, s.indent = (s.cursor.column : Int), s.cursor⟩] else [] } := by
  have hf : s.inFlow = false := by simp [inFlow, hd]
  have hdrop : s.dropCandidate = .ok s := by simp [dropCandidate, candidate?, hc]
  cases ha : s.keyAllowed with
  | true =>
    rw [saveCandidate, if_pos ha, hdrop]
    simp [bind, Except.bind, pure, Except.pure, hf, hd, hc, ha]
  | false =>
    rw [saveCandidate, if_neg (by simp [ha])]
    simp only [Bool.false_eq_true, if_false]
    rw [← hc, ← ha]

theorem plain_eq {s : Lexer} {qs : List KeyCandidate} {t : Text} {ended : Bool} {c : Cursor}
    (hd : s.depth = 0) (hsave : s.saveCandidate = .ok { s with candidates := qs })
    (hread : plainScalar false s.indent s.cursor = (t, ended, c)) :
    s.plain = .ok { s with
      tokens := ⟨.scalar t true, s.cursor.spot⟩ :: s.tokens
      cursor := c
      keyAllowed := ended
      candidates := qs } := by
  have hflow : ({ s with candidates := qs } : Lexer).inFlow = false := by simp [inFlow, hd]
  rw [plain, hsave]
  simp only [bind, Except.bind, hflow, hread]
  rfl

section Scalars

variable {s : Lexer} {ws : List Word} {i : Int} {σ : List Int} {allowed : Bool} {col : Nat}
  {r : Text}

/-- A token inside the open collections may be a key but need not be one. -/
theorem Stands.save (h : Stands s ws (i :: σ) allowed col r) (hi : i < col) :
    ∃ qs, s.saveCandidate = .ok { s with candidates := qs } ∧
      ∀ q ∈ qs, q.required = false ∧ q.start = s.cursor ∧ q.depth = 0 := by
  refine ⟨_, saveCandidate_eq h.depth h.candidates, ?_⟩
  have hind : s.indent = i := (List.cons.inj h.stack).1
  split
  · refine List.forall_mem_singleton.mpr ⟨?_, rfl, rfl⟩
    rw [hind, h.column, decide_eq_false_iff_not]
    omega
  · simp

theorem Stands.plain {indent j k : Nat} {t out : Text}
    (h : Stands s ws (i :: σ) allowed col (out ++ (lineEnd j k ++ r))) (hf : Folded indent t out)
    (hi : i < col) (hin : i < indent) (hpos : 0 < indent) (hk : (k : Int) ≤ i)
    (hr : Resumes k r) :
    ∃ s', s.plain = .ok s' ∧ Reaches s' (ws ++ [.scalar t true] ++ closers k (i :: σ))
        (kept k (i :: σ)) true k r ∧ s'.cursor.rest = r ∧
      s'.tokens.head?.map (·.word) = some (.scalar t true) := by
  obtain ⟨qs, hsave, hqs⟩ := h.save hi
  have hind : s.indent = i := (List.cons.inj h.stack).1
  have hread : plainScalar false i s.cursor =
      (t, true, s.cursor.skip (out.length + (j + 1 + k))) := by
    refine plainWords_folded hf hin hpos hr hk h.rest (by rw [h.column]; exact hi) ?_
    rw [h.rest, List.length_append]
    omega
  have h1 := Cursor.rest_skip_append h.rest
  have hcur := Cursor.skip_lineEnd h1
  rw [Cursor.skip_skip] at hcur
  refine ⟨{ s with
      tokens := ⟨.scalar t true, s.cursor.spot⟩ :: s.tokens
      cursor := s.cursor.skip (out.length + (j + 1 + k))
      keyAllowed := true
      candidates := qs }, ?_, ?_, ?_, rfl⟩
  · exact plain_eq h.depth hsave (by rw [hind]; exact hread)
  · refine Ends.reaches_here ⟨?_, h.stack, h.bottom, h.depth, fun q hq => (hqs q hq).1⟩
      (by rw [hcur]) (by rw [hcur]) rfl hr fun q hq => ?_
    · simp only [List.map_cons, h.words, List.reverse_append, List.reverse_singleton,
        List.singleton_append]
    · have hline := Cursor.line_le_skip out.length s.cursor
      rw [(hqs q hq).2.1, hcur]
      show s.cursor.line < (s.cursor.skip out.length).line + (j + 1)
      omega
  · rw [hcur]

theorem Stands.quoted {double : Bool} {j k : Nat} {w t : Text}
    (h : Stands s ws (i :: σ) allowed col
      (quoteOf double :: (w ++ quoteOf double :: (lineEnd j k ++ r))))
    (hq : Quoted double w t) (hi : i < col) (hr : Resumes k r) :
    ∃ s', s.quoted double = .ok s' ∧ Reaches s' (ws ++ [.scalar t false] ++ closers k (i :: σ))
        (kept k (i :: σ)) true k r ∧ s'.cursor.rest = lineEnd j k ++ r ∧
      s'.tokens.head?.map (·.word) = some (.scalar t false) := by
  obtain ⟨qs, hsave, hqs⟩ := h.save hi
  have hread := quotedScalar_quoted hq h.rest fun _ => by simp [lineEnd_append]
  have hrest : (s.cursor.skip (w.length + 2)).rest = lineEnd j k ++ r := by
    have e := Cursor.rest_skip_append (c := s.cursor)
      (a := quoteOf double :: (w ++ [quoteOf double])) (r := lineEnd j k ++ r)
      (by rw [h.rest]; simp)
    rwa [List.length_cons, List.length_append, List.length_singleton] at e
  refine ⟨{ s with
      tokens := ⟨.scalar t false, s.cursor.spot⟩ :: s.tokens
      cursor := s.cursor.skip (w.length + 2)
      keyAllowed := false
      candidates := qs }, ?_, ?_, hrest, rfl⟩
  · rw [Lexer.quoted, keyWord, hsave]
    show (quotedScalar double s.cursor >>= _) >>= _ = _
    rw [hread]
    rfl
  · refine Ends.reaches_line ⟨?_, h.stack, h.bottom, h.depth, fun q hq => (hqs q hq).1⟩ hrest hr
      fun q hq => ?_
    · simp only [List.map_cons, h.words, List.reverse_append, List.reverse_singleton,
        List.singleton_append]
    · rw [(hqs q hq).2.1]
      exact Cursor.line_le_skip _ _

end Scalars

/-! ## Keys -/

/-- A key that is a word and fits before its colon. -/
structure IsKey (key : Text) : Prop where
  plain : Style.of true key = .plain
  noSpace : ∀ c ∈ key, c ≠ ' '
  head : ∀ c ∈ key.head?, c ≠ '-' ∧ c ≠ '.'
  short : key.length ≤ keyLimit

theorem isKey_iff (key : Text) : IsKey key ↔ Style.of true key = .plain ∧ (∀ c ∈ key, c ≠ ' ') ∧
    (∀ c ∈ key.head?, c ≠ '-' ∧ c ≠ '.') ∧ key.length ≤ keyLimit :=
  ⟨fun h => ⟨h.plain, h.noSpace, h.head, h.short⟩, fun ⟨hp, hn, hh, hs⟩ => ⟨hp, hn, hh, hs⟩⟩

instance (key : Text) : Decidable (IsKey key) := decidable_of_iff' _ (isKey_iff key)

theorem plain_style {isKey : Bool} {t : Text} (h : Style.of isKey t = .plain) :
    Tag.ofPlain t = .str ∧ allowsPlain t = true ∧ t ≠ [] := by
  unfold Style.of at h
  split at h
  · rename_i hs
    rw [Bool.and_eq_true, decide_eq_true_eq] at hs
    refine ⟨hs.1, hs.2, ?_⟩
    rintro rfl
    exact absurd hs.1 (by decide)
  · split at h <;> cases h

theorem IsKey.isWord {key : Text} (h : IsKey key) : IsWord key := by
  obtain ⟨-, ha, hne⟩ := plain_style h.plain
  rcases (isPhrase_of_allowsPlain ha hne).cases with hw | ⟨w, p, t, rfl, -, -⟩
  · exact hw
  · exact absurd rfl (h.noSpace ' ' (by simp [spaces_succ]))

/-- A plain scalar shows itself by its first character, or by that and the next. -/
theorem token_of_allowsPlain {s : Lexer} {t out r : Text} (ha : allowsPlain t = true)
    (hne : t ≠ []) (hc : s.cursor.rest = out ++ r) (hd : s.depth = 0)
    (hout : ∀ ch u, t = ch :: u → ∃ out', out = ch :: out' ∧
      ∀ d v, u = d :: v → isGap d = false → ∃ out'', out' = d :: out'')
    (hsep : s.cursor.column = 0 → s.cursor.atSeparator = false) : s.token = s.plain := by
  have hphrase := isPhrase_of_allowsPlain ha hne
  cases t with
  | nil => exact absurd rfl hne
  | cons ch u =>
    obtain ⟨out', rfl, hnext⟩ := hout ch u rfl
    have hch : ch ≠ ' ' := by simpa using hphrase.head
    have hg := ((hphrase.chars ch (List.mem_cons_self ..)).resolve_left hch).1
    simp only [allowsPlain, hasBlockMark, Bool.not_eq_true', Bool.or_eq_false_iff] at ha
    obtain ⟨-, ⟨⟨-, hone⟩, hgap⟩, -⟩ := ha
    refine token_plain (r := out' ++ r) hc hd hg hone (fun hx => ?_) hsep
    have hu : isGap (u.headD endMark) = false := by
      rcases hx with rfl | rfl | rfl <;> simpa using hgap
    cases u with
    | nil => exact absurd hu (by decide)
    | cons d v =>
      obtain ⟨out'', rfl⟩ := hnext d v rfl hu
      have ha := Cursor.ahead_succ hc 0
      rw [ha]
      exact hu

section Units

variable {s : Lexer} {ws : List Word} {i : Int} {σ : List Int} {k : Nat} {r : Text}

theorem settles_self {s : Lexer} (hn : ∀ fuel, toNextToken (fuel + 1) s = s)
    (hq : ∀ q ∈ s.candidates, s.isStale q = false)
    (hb : s.closeBlocks s.cursor.column = s) : Settles s s := by
  have hany : (s.candidates.any fun q => s.isStale q && q.required) = false := by
    rw [List.any_eq_false]
    intro q hq'
    simp [hq q hq']
  have hfilter : (s.candidates.filter fun q => !s.isStale q) = s.candidates := by
    rw [List.filter_eq_self]
    intro q hq'
    simp [hq q hq']
  refine ⟨fun fuel hf => ?_, Nat.le_refl _⟩
  obtain ⟨fuel, rfl⟩ : ∃ n, fuel = n + 1 := ⟨fuel - 1, by omega⟩
  rw [settle, hn, dropStale, hany, hfilter]
  exact congrArg Except.ok hb

theorem closeBlocks_self {s : Lexer} (hd : s.depth = 0) {k : Int} (hi : s.indent ≤ k) :
    s.closeBlocks k = s := by
  have hlt : ¬ k < s.indent := by omega
  rw [closeBlocks_eq hd, kept_cons_of_le hi]
  simp [hlt]

theorem valueMark_eq {s : Lexer} {q : KeyCandidate} {w : Token} {ts : List Token}
    (hd : s.depth = 0) (hc : s.candidates = [q]) (hq : q.depth = 0) (ht : s.tokens = w :: ts)
    (hp : q.place = ts.length) :
    s.valueMark = .ok { s with
      cursor := s.cursor.skip 1
      tokens := ⟨.value, s.cursor.spot⟩ :: w :: ⟨.key, q.start.spot⟩ ::
        ((if s.indent < q.start.column then [⟨.blockMappingStart, q.start.spot⟩] else []) ++ ts)
      indent := if s.indent < q.start.column then q.start.column else s.indent
      outer := if s.indent < q.start.column then s.indent :: s.outer else s.outer
      keyAllowed := false
      candidates := [] } := by
  have hfind : s.candidate? = some q := by simp [candidate?, hc, hd, hq]
  have h1 : ts.length + 1 - ts.length = 1 := by omega
  have h2 : ts.length + 1 + 1 - ts.length = 2 := by omega
  rw [valueMark, hfind]
  by_cases hi : s.indent < q.start.column
  · simp [putAt, put, putMark, openBlock, opensBlock, inFlow, hd, hc, hq, ht, hp, hi, h1, h2]
  · simp [putAt, put, putMark, opensBlock, inFlow, hd, hc, hq, ht, hp, hi, h1]

/-- A state between a key and its colon: the key is a scalar so far, and the one candidate. -/
structure AtColon (s : Lexer) (ws : List Word) (σ : List Int) (k : Nat) (key r : Text) where
  spot : Spot
  before : List Token
  candidate : KeyCandidate
  tokens : s.tokens = ⟨.scalar key true, spot⟩ :: before
  words : before.map (·.word) = ws.reverse
  stack : s.indent :: s.outer = σ
  bottom : (-1 : Int) ∈ σ
  depth : s.depth = 0
  candidates : s.candidates = [candidate]
  level : candidate.depth = 0
  place : candidate.place = before.length
  startColumn : candidate.start.column = k
  sameLine : candidate.start.line = s.cursor.line
  distance : s.cursor.index = candidate.start.index + key.length
  column : s.cursor.column = k + key.length
  rest : s.cursor.rest = .char ':' :: r

theorem Reaches.keyScalar {key : Text} (h : Reaches s ws (i :: σ) true k (key ++ .char ':' :: r))
    (hkey : IsKey key) (hr : isGap (r.headD endMark) = true) :
    ∃ s', Leads s s' ∧ Nonempty (AtColon s' ws (i :: σ) k key r) := by
  obtain ⟨s1, hset, hst⟩ := h
  have hword := hkey.isWord
  obtain ⟨-, ha, hne⟩ := plain_style hkey.plain
  have hcur := Cursor.skip_inline hst.rest hword.inline
  have hsave := saveCandidate_eq hst.depth hst.candidates
  have htok : s1.token = s1.plain := by
    refine token_of_allowsPlain (r := .char ':' :: r) ha hne hst.rest hst.depth ?_ fun _ => ?_
    · rintro ch u rfl
      exact ⟨u, rfl, fun d v hu _ => ⟨v, hu⟩⟩
    · cases key with
      | nil => exact absurd rfl hne
      | cons ch u =>
        exact Cursor.atSeparator_false hst.rest (hkey.head ch rfl).1 (hkey.head ch rfl).2
  have hplain := plain_eq hst.depth hsave (plainScalar_key hword hst.rest hr)
  rw [← htok] at hplain
  refine ⟨_, hset.leads hplain ?_ (by simp), ⟨?_⟩⟩
  · have hpos := List.length_pos_iff.mpr hne
    rw [hcur, hst.rest, List.length_append]
    show (CodePoint.char ':' :: r).length < _
    omega
  · exact {
      spot := s1.cursor.spot
      before := s1.tokens
      candidate := ⟨0, s1.tokens.length, s1.indent = (s1.cursor.column : Int), s1.cursor⟩
      tokens := rfl
      words := hst.words
      stack := hst.stack
      bottom := hst.bottom
      depth := hst.depth
      candidates := by simp [hst.keyAllowed]
      level := rfl
      place := rfl
      startColumn := hst.column
      sameLine := by rw [hcur]
      distance := by rw [hcur]
      column := by rw [hcur, hst.column]
      rest := by rw [hcur] }

theorem AtColon.value {key : Text} (h : AtColon s ws (i :: σ) k key r)
    (hshort : key.length ≤ keyLimit) (hr : isGap (r.headD endMark) = true) (hi : i ≤ k) :
    ∃ s', Leads s s' ∧ Stands s'
      (ws ++ (if i < k then [.blockMappingStart] else []) ++ [.key, .scalar key true, .value])
      (if i < k then (k : Int) :: i :: σ else i :: σ) false (k + key.length + 1) r := by
  have hind : s.indent = i := (List.cons.inj h.stack).1
  have houter : s.outer = σ := (List.cons.inj h.stack).2
  have hnext := toNextToken_spaces (p := 0) (k := 1) h.rest ⟨rfl, rfl, by simp, by simp⟩
  have hset : Settles s s := by
    refine settles_self hnext ?_ (closeBlocks_self h.depth ?_)
    · rw [h.candidates]
      refine List.forall_mem_singleton.mpr ?_
      have hd := h.distance
      have hle : ¬ keyLimit < s.cursor.index - h.candidate.start.index := by omega
      simp [isStale, h.sameLine, hle]
    · rw [hind, h.column]
      omega
  have hadv : s.cursor.skip 1 = ⟨r, s.cursor.index + 1, s.cursor.line, s.cursor.column + 1⟩ :=
    Cursor.advance_inline h.rest ⟨rfl, by decide⟩
  have hvalue := valueMark_eq h.depth h.candidates h.level h.tokens h.place
  rw [← token_colon h.rest hr] at hvalue
  refine ⟨_, hset.leads hvalue ?_ (by simp), ⟨?_, ?_, ?_, h.depth, rfl, rfl, ?_, ?_⟩⟩
  · rw [hadv, h.rest]
    exact Nat.lt_succ_self _
  · simp only [h.startColumn, hind]
    split <;> simp [h.words]
  · simp only [h.startColumn, hind, houter]
    split <;> rfl
  · have hb := h.bottom
    split
    · exact List.mem_cons_of_mem _ hb
    · exact hb
  · rw [hadv]
    show s.cursor.column + 1 = _
    rw [h.column]
  · rw [hadv]

/-- A key at a column opens a block mapping there if none is open. -/
theorem Reaches.key {key : Text} (h : Reaches s ws (i :: σ) true k (key ++ .char ':' :: r))
    (hkey : IsKey key) (hr : isGap (r.headD endMark) = true) (hi : i ≤ k) :
    ∃ s', Leads s s' ∧ Stands s'
      (ws ++ (if i < k then [.blockMappingStart] else []) ++ [.key, .scalar key true, .value])
      (if i < k then (k : Int) :: i :: σ else i :: σ) false (k + key.length + 1) r := by
  obtain ⟨s1, h1, ⟨hc⟩⟩ := h.keyScalar hkey hr
  obtain ⟨s2, h2, hs⟩ := hc.value hkey.short hr hi
  exact ⟨s2, h1.trans h2, hs⟩

/-! ## Items -/

theorem blockMark_eq {s : Lexer} (opener mark : Word) (refusal : Problem) (allowed : Bool)
    (hd : s.depth = 0) (ha : s.keyAllowed = true) (hc : s.candidates = []) :
    s.blockMark opener mark refusal allowed = .ok { s with
      cursor := s.cursor.skip 1
      tokens := ⟨mark, s.cursor.spot⟩ ::
        ((if s.indent < s.cursor.column then [⟨opener, s.cursor.spot⟩] else []) ++ s.tokens)
      indent := if s.indent < s.cursor.column then s.cursor.column else s.indent
      outer := if s.indent < s.cursor.column then s.indent :: s.outer else s.outer
      keyAllowed := allowed } := by
  by_cases hi : s.indent < s.cursor.column
  · simp [blockMark, inFlow, hd, ha, openBlockHere, opensBlock, hi, put, putMark, openBlock,
      dropCandidate, candidate?, hc, bind, Except.bind, pure, Except.pure]
  · simp [blockMark, inFlow, hd, ha, openBlockHere, opensBlock, hi, put, putMark,
      dropCandidate, candidate?, hc, bind, Except.bind, pure, Except.pure]

/-- A dash at a column opens a block sequence there if no collection is open at it. -/
theorem Reaches.dash (h : Reaches s ws (i :: σ) true k (.char '-' :: .char ' ' :: r))
    (hi : i ≤ k) (hr : Resumes (k + 2) r) :
    ∃ s', Leads s s' ∧ Reaches s'
      (ws ++ (if i < k then [.blockSequenceStart] else []) ++ [.blockEntry])
      (if i < k then (k : Int) :: i :: σ else i :: σ) true (k + 2) r := by
  obtain ⟨s1, hset, hst⟩ := h
  have hind : s1.indent = i := (List.cons.inj hst.stack).1
  have houter : s1.outer = σ := (List.cons.inj hst.stack).2
  have hmark := blockMark_eq .blockSequenceStart .blockEntry .entryNotAllowed true hst.depth
    hst.keyAllowed hst.candidates
  rw [← token_dash hst.rest] at hmark
  have hadv : s1.cursor.skip 1 =
      ⟨.char ' ' :: r, s1.cursor.index + 1, s1.cursor.line, s1.cursor.column + 1⟩ :=
    Cursor.advance_inline hst.rest ⟨rfl, by decide⟩
  refine ⟨_, hset.leads hmark ?_ (by simp), ?_⟩
  · rw [hadv, hst.rest]
    exact Nat.lt_succ_self _
  · by_cases hik : i < k
    · rw [if_pos hik, if_pos hik]
      refine Stands.reaches_blank ⟨?_, ?_, ?_, hst.depth, rfl, hst.candidates, ?_, ?_⟩ (by omega) hr
      · simp [hind, hst.column, hik, hst.words]
      · simp [hind, houter, hst.column, hik]
      · exact List.mem_cons_of_mem _ hst.bottom
      · rw [hadv, hst.column]
      · rw [hadv]
    · rw [if_neg hik, if_neg hik, List.append_nil]
      refine Stands.reaches_blank ⟨?_, ?_, hst.bottom, hst.depth, rfl, hst.candidates, ?_, ?_⟩
        (by omega) hr
      · simp [hind, hst.column, hik, hst.words]
      · simp [hind, houter, hst.column, hik]
      · rw [hadv, hst.column]
      · rw [hadv]

/-! ## Values -/

/-- What is read of a string that has been written. -/
def reread (t : Text) : Text := if Style.of false t = .single then refolded [] t else t

def scalarWord (t : Text) : Word := .scalar (reread t) (Style.of false t = .plain)

theorem style_cases (t : Text) :
    Style.of false t = .plain ∨ (Style.of false t = .single ∧ allowsSingle t = true) ∨
      Style.of false t = .double := by
  unfold Style.of
  split
  · exact .inl rfl
  · split
    · rename_i h
      exact .inr (.inl ⟨rfl, by simpa using h⟩)
    · exact .inr (.inr rfl)

theorem plainText_front {fold : Bool} {indent column : Nat} {t : Text} (ha : allowsPlain t = true)
    (hne : t ≠ []) : ∀ ch u, t = ch :: u → ∃ out', plainText fold indent column 0 t = ch :: out' ∧
      ∀ d v, u = d :: v → isGap d = false → ∃ out'', out' = d :: out'' := by
  rintro ch u rfl
  have hch : ch ≠ ' ' := by simpa using (isPhrase_of_allowsPlain ha hne).head
  refine ⟨_, plainText_word fold indent (w := [ch]) (by simpa using hch) column u, ?_⟩
  rintro d v rfl hd
  have hd' : d ≠ ' ' := by
    rintro rfl
    cases hd
  exact ⟨_, plainText_word fold indent (w := [d]) (by simpa using hd') _ v⟩

theorem ne_streamEnd {s : Lexer} {t : Text} {plain : Bool}
    (h : s.tokens.head?.map (·.word) = some (.scalar t plain)) :
    ∀ x ∈ s.tokens.head?, x.word ≠ .streamEnd := by
  intro x hx he
  rw [Option.mem_def.mp hx] at h
  simp [he] at h

section Strings

variable {allowed : Bool} {col j : Nat} {t : Text}

theorem Reaches.plainString {indent column : Nat}
    (h : Reaches s ws (i :: σ) allowed col
      (plainText true indent column 0 t ++ (lineEnd j k ++ r)))
    (ha : allowsPlain t = true) (hne : t ≠ []) (hi : i < col) (hin : i < indent)
    (hpos : 0 < indent) (hk : (k : Int) ≤ i) (hr : Resumes k r) :
    ∃ s', Leads s s' ∧ Reaches s' (ws ++ [.scalar t true] ++ closers k (i :: σ)) (kept k (i :: σ))
      true k r := by
  obtain ⟨s1, hset, hst⟩ := h
  have hfold := folded_plainText true indent (isPhrase_of_allowsPlain ha hne) column
  obtain ⟨s2, h2, hreach, hrest, hhead⟩ := hst.plain hfold hi hin hpos hk hr
  have htok := token_of_allowsPlain ha hne hst.rest hst.depth (plainText_front ha hne)
    fun h0 => absurd (hst.column.symm.trans h0) (by omega)
  refine ⟨s2, hset.leads (htok.trans h2) ?_ (ne_streamEnd hhead), hreach⟩
  rw [hrest, hst.rest, List.length_append, List.length_append, length_lineEnd]
  omega

theorem Reaches.quotedString {double : Bool} {w : Text}
    (h : Reaches s ws (i :: σ) allowed col
      (quoteOf double :: (w ++ quoteOf double :: (lineEnd j k ++ r))))
    (hq : Quoted double w t) (hi : i < col) (hr : Resumes k r) :
    ∃ s', Leads s s' ∧ Reaches s' (ws ++ [.scalar t false] ++ closers k (i :: σ)) (kept k (i :: σ))
      true k r := by
  obtain ⟨s1, hset, hst⟩ := h
  obtain ⟨s2, h2, hreach, hrest, hhead⟩ := hst.quoted hq hi hr
  refine ⟨s2, hset.leads ((token_quoted hst.rest hst.depth).trans h2) ?_ (ne_streamEnd hhead),
    hreach⟩
  rw [hrest, hst.rest]
  simp only [List.length_cons, List.length_append]
  omega

/-- A string where a value stands. -/
theorem Reaches.string {indent column : Nat}
    (h : Reaches s ws (i :: σ) allowed col
      (stringText false indent column t ++ (lineEnd j k ++ r)))
    (hi : i < col) (hin : i < indent) (hpos : 0 < indent) (hwidth : indent < lineWidth)
    (hk : (k : Int) ≤ i) (hr : Resumes k r) :
    ∃ s', Leads s s' ∧ Reaches s' (ws ++ [scalarWord t] ++ closers k (i :: σ)) (kept k (i :: σ))
      true k r := by
  rcases style_cases t with hs | ⟨hs, ha⟩ | hs
  · obtain ⟨-, ha, hne⟩ := plain_style hs
    have hw : scalarWord t = .scalar t true := by simp [scalarWord, reread, hs]
    rw [stringText, hs] at h
    rw [hw]
    exact h.plainString ha hne hi hin hpos hk hr
  · have hw : scalarWord t = .scalar (refolded [] t) false := by simp [scalarWord, reread, hs]
    have hq := quoted_singleText true hpos (Between.start ha) (column + 1) false
    rw [stringText, hs] at h
    simp only [Bool.not_false, List.append_assoc] at h
    have h' : Reaches s ws (i :: σ) allowed col (quoteOf false ::
        (singleText true indent (column + 1) false 0 [] t ++ quoteOf false :: (lineEnd j k ++ r))) := h
    rw [hw]
    exact h'.quotedString hq hi hr
  · have hw : scalarWord t = .scalar t false := by simp [scalarWord, reread, hs]
    obtain ⟨X, hX, hq⟩ := quoted_doubleText true hpos hwidth t 0 (column + 1) []
    rw [stringText, hs] at h
    simp only [Bool.not_false, List.append_assoc, hX, List.nil_append] at h
    have h' : Reaches s ws (i :: σ) allowed col
        (quoteOf true :: (X ++ quoteOf true :: (lineEnd j k ++ r))) := h
    rw [hw]
    exact h'.quotedString hq hi hr

/-- A state after an opening bracket, which may be the start of a key. -/
structure InBracket (s : Lexer) (ws : List Word) (σ : List Int) (r : Text) : Prop where
  words : s.tokens.map (·.word) = ws.reverse
  stack : s.indent :: s.outer = σ
  bottom : (-1 : Int) ∈ σ
  depth : s.depth = 1
  candidates : ∀ q ∈ s.candidates, q.required = false ∧ q.depth = 0 ∧
    q.start.line = s.cursor.line ∧ s.cursor.index = q.start.index + 1
  rest : s.cursor.rest = .char ']' :: r

theorem Reaches.openBracket
    (h : Reaches s ws (i :: σ) allowed col (.char '[' :: .char ']' :: r)) (hi : i < col) :
    ∃ s', Leads s s' ∧ InBracket s' (ws ++ [.flowSequenceStart]) (i :: σ) r := by
  obtain ⟨s1, hset, hst⟩ := h
  obtain ⟨qs, hsave, hqs⟩ := hst.save hi
  have hadv : s1.cursor.skip 1 =
      ⟨.char ']' :: r, s1.cursor.index + 1, s1.cursor.line, s1.cursor.column + 1⟩ :=
    Cursor.advance_inline hst.rest ⟨rfl, by decide⟩
  have hopen : s1.token = .ok { s1 with
      tokens := ⟨.flowSequenceStart, s1.cursor.spot⟩ :: s1.tokens
      cursor := s1.cursor.skip 1
      depth := 1
      keyAllowed := true
      candidates := qs } := by
    rw [token_bracket hst.rest, openFlow, hsave]
    simp [bind, Except.bind, pure, Except.pure, putMark, put, hst.depth]
  refine ⟨_, hset.leads hopen ?_ (by simp), ⟨?_, hst.stack, hst.bottom, rfl, ?_, by rw [hadv]⟩⟩
  · rw [hadv, hst.rest]
    exact Nat.lt_succ_self _
  · simp [hst.words]
  · intro q hq
    obtain ⟨h1, h2, h3⟩ := hqs q hq
    rw [hadv, h2]
    exact ⟨h1, h3, rfl, rfl⟩

theorem InBracket.close (h : InBracket s ws σ (lineEnd j k ++ r)) (hr : Resumes k r) :
    ∃ s', Leads s s' ∧
      Reaches s' (ws ++ [.flowSequenceEnd] ++ closers k σ) (kept k σ) true k r := by
  have hset : Settles s s := by
    refine settles_self (toNextToken_spaces (p := 0) (k := 1) h.rest ⟨rfl, rfl, by simp, by simp⟩)
      (fun q hq => ?_) (by simp [closeBlocks, inFlow, h.depth])
    obtain ⟨-, -, hline, hindex⟩ := h.candidates q hq
    simp [isStale, hline, hindex, keyLimit]
  have hnone : s.candidate? = none := by
    rw [candidate?, h.depth, List.find?_eq_none]
    intro q hq
    simp [(h.candidates q hq).2.1]
  have hclose : s.token = .ok { s with
      tokens := ⟨.flowSequenceEnd, s.cursor.spot⟩ :: s.tokens
      cursor := s.cursor.skip 1
      depth := 0
      keyAllowed := false } := by
    rw [token_closing h.rest, closeFlow, dropCandidate, hnone]
    simp [bind, Except.bind, pure, Except.pure, putMark, put, inFlow, h.depth]
  have hadv : s.cursor.skip 1 =
      ⟨lineEnd j k ++ r, s.cursor.index + 1, s.cursor.line, s.cursor.column + 1⟩ :=
    Cursor.advance_inline h.rest ⟨rfl, by decide⟩
  refine ⟨_, hset.leads hclose ?_ (by simp), Ends.reaches_line ⟨?_, h.stack, h.bottom, rfl,
    fun q hq => (h.candidates q hq).1⟩ (by rw [hadv]) hr fun q hq => ?_⟩
  · rw [hadv, h.rest]
    exact Nat.lt_succ_self _
  · simp [h.words]
  · rw [hadv, (h.candidates q hq).2.2.1]

/-- An empty list where a value stands. -/
theorem Reaches.emptyList
    (h : Reaches s ws (i :: σ) allowed col (.char '[' :: .char ']' :: (lineEnd j k ++ r)))
    (hi : i < col) (hr : Resumes k r) :
    ∃ s', Leads s s' ∧ Reaches s' (ws ++ [.flowSequenceStart, .flowSequenceEnd] ++
      closers k (i :: σ)) (kept k (i :: σ)) true k r := by
  obtain ⟨s1, h1, hb⟩ := h.openBracket hi
  obtain ⟨s2, h2, hreach⟩ := hb.close hr
  refine ⟨s2, h1.trans h2, ?_⟩
  rw [List.append_assoc ws] at hreach
  exact hreach

end Strings

/-- At the end of the text the mapping of the document is closed. -/
theorem Reaches.run_end (h : Reaches s ws [0, -1] true 0 []) {fuel : Nat}
    (hf : s.cursor.rest.length + 2 ≤ fuel) :
    (run fuel s).map (·.word) = ws ++ [.blockEnd, .streamEnd] := by
  obtain ⟨s1, hset, hst⟩ := h
  obtain ⟨fuel, rfl⟩ : ∃ n, fuel = n + 1 := ⟨fuel - 1, by omega⟩
  have hclose : s1.closeBlocks (-1) = { s1 with
      tokens := ⟨.blockEnd, s1.cursor.spot⟩ :: s1.tokens
      indent := -1
      outer := [] } := by
    rw [closeBlocks_eq hst.depth, hst.stack]
    rfl
  have htok : s1.token = .ok { s1 with
      tokens := ⟨.streamEnd, s1.cursor.spot⟩ :: ⟨.blockEnd, s1.cursor.spot⟩ :: s1.tokens
      indent := -1
      outer := []
      keyAllowed := false
      candidates := [] } := by
    rw [token_end hst.rest, endStream, leaveDocument, hclose]
    simp [dropCandidate, candidate?, hst.candidates, bind, Except.bind, pure, Except.pure, put]
  rw [run, hset.next htok fuel (by omega)]
  simp [hst.words]

end Units

end Lexer

end Formulary.Yaml
