import LoxTools.Proofs.ScanInvariant

/-!
# The state at every position

What the state of a scan can be asked for at any position, in the middle of a token or a comment as well
as between them:

* `Commenting` — an open comment has its slashes behind all tokens, on the line of the state;
* `Lexer.sound_stateAt` — the invariant of scanning holds wherever no error has been recorded;
* `ScanState.Faithful` — what the state says of its tokens, its comment and its line;
* `scan_state_faithful` — every state without an error is faithful, and one with an error is final.

Looking at the token emitted last is enough to know whether a position lies in a token, because all
tokens before it have ended.
-/

namespace LoxTools

namespace ScanState

variable {lexer : Lexer} {state : ScanState} {index count : Nat}

/-- **The slashes of an open comment**: they stand behind all tokens, on the line, and no line feed has
come since. -/
def Commenting (lexer : Lexer) (state : ScanState) (count : Nat) : Prop :=
  ∃ first, state.line.start ≤ first ∧ first < count ∧ ['/', '/'] <+: lexer.rest first ∧
    (∀ token ∈ state.tokens.toList, token.stop ≤ first) ∧
    ∀ i, first ≤ i → i < count → lexer.chars[i]? ≠ some '\n'

/-- A position that has no line feed leaves a comment open. -/
theorem Commenting.succ (h : state.Commenting lexer count)
    (hfeed : lexer.chars[count]? ≠ some '\n') : state.Commenting lexer (count + 1) := by
  obtain ⟨first, hline, hfirst, hslashes, hstops, hfeeds⟩ := h
  refine ⟨first, hline, Nat.lt_succ_of_lt hfirst, hslashes, hstops, fun i hi hcount => ?_⟩
  rcases Nat.lt_succ_iff_lt_or_eq.mp hcount with hlt | rfl
  · exact hfeeds i hi hlt
  · exact hfeed

/-- Behind the end of the source nothing is decided, and the state stays. -/
theorem step_of_size_le (hindex : lexer.chars.size ≤ index) : step lexer state index = state := by
  rw [step, Array.getElem?_eq_none hindex]
  exact ite_self state

namespace Sound

/-- Behind the end of the source the invariant holds at the next position too. -/
theorem beyond (h : state.Sound lexer index) (hindex : lexer.chars.size ≤ index) :
    state.Sound lexer (index + 1) := by
  have hnone : lexer.chars[index]? = none := Array.getElem?_eq_none hindex
  refine h.pass (fun _ heq => ?_) (fun hopen => (h.opened hopen).1) fun _ _ hslashes => ?_
  · cases hnone.symm.trans heq
  · cases hnone.symm.trans (Lexer.getElem?_of_slashes hslashes)

/-- **A decision keeps the slashes** of a comment in their place, and the decision that opens a comment
puts them there. -/
theorem commenting_step (h : state.Sound lexer index)
    (hcomment : state.inComment = true → state.Commenting lexer index)
    (hindex : index < lexer.chars.size)
    (herror : (ScanState.step lexer state index).error = none)
    (hopen : (ScanState.step lexer state index).inComment = true) :
    (ScanState.step lexer state index).Commenting lexer (index + 1) := by
  have hbefore := error_of_step herror
  by_cases hcovers : state.covers index = true
  · -- the comment would be behind all tokens
    rw [step_of_covers hcovers] at hopen
    exact absurd (loose_of_stop_le (h.opened hopen).1) (not_loose_of_covers hcovers)
  have hfree : state.covers index = false := Bool.eq_false_iff.mpr hcovers
  have hdecision := step_decision hbefore hfree hindex
  generalize ScanState.step lexer state index = next at *
  cases hdecision with
  | lineFeed => cases hopen
  | commented hc hfeed _ =>
    exact (hcomment hopen).succ fun heq => hfeed (Option.some.inj (hc.symm.trans heq))
  | blank _ _ hclosed => cases hclosed.symm.trans hopen
  | slashes _ hslashes =>
    have hslash := Lexer.getElem?_of_slashes hslashes
    refine ⟨index, h.line_start_le, Nat.lt_succ_self index, hslashes, h.stop_le hfree,
      fun i hi hcount => ?_⟩
    obtain rfl : i = index := Nat.le_antisymm (Nat.le_of_lt_succ hcount) hi
    simp [hslash]
  | lexeme hclosed => cases hclosed.symm.trans hopen
  | fault => cases herror

end Sound

end ScanState

/-! ## At every position -/

namespace Lexer

variable {lexer : Lexer} {count later : Nat}

/-- An error that has not been recorded at the next position has not been recorded before. -/
theorem error_stateAt_of_succ (h : (lexer.stateAt (count + 1)).error = none) :
    (lexer.stateAt count).error = none := by
  rw [stateAt_succ] at h
  exact ScanState.error_of_step h

/-- **The invariant holds at every position**, as long as no error has been recorded. By induction on
the position. -/
theorem sound_stateAt (herror : (lexer.stateAt count).error = none) :
    (lexer.stateAt count).Sound lexer count := by
  induction count with
  | zero => exact lexer.sound_ready
  | succ count ih =>
    have hsound := ih (error_stateAt_of_succ herror)
    rw [stateAt_succ] at herror ⊢
    rcases Nat.lt_or_ge count lexer.chars.size with hcount | hcount
    · exact hsound.step hcount herror
    · rw [ScanState.step_of_size_le hcount]
      exact hsound.beyond hcount

/-- **An open comment has its slashes in place** at every position, as long as no error has been
recorded. -/
theorem commenting_stateAt (herror : (lexer.stateAt count).error = none)
    (hopen : (lexer.stateAt count).inComment = true) :
    (lexer.stateAt count).Commenting lexer count := by
  induction count with
  | zero => cases hopen
  | succ count ih =>
    have hbefore := error_stateAt_of_succ herror
    rw [stateAt_succ] at herror hopen ⊢
    rcases Nat.lt_or_ge count lexer.chars.size with hcount | hcount
    · exact (sound_stateAt hbefore).commenting_step (ih hbefore) hcount herror hopen
    · rw [ScanState.step_of_size_le hcount] at hopen ⊢
      refine (ih hbefore hopen).succ ?_
      simp [Array.getElem?_eq_none hcount]

/-- **A state with an error is final**: no later position changes it. -/
theorem stateAt_of_error (herror : (lexer.stateAt count).error ≠ none) (hlater : count ≤ later) :
    lexer.stateAt later = lexer.stateAt count := by
  obtain ⟨more, rfl⟩ := Nat.exists_eq_add_of_le hlater
  rw [stateAt_add]
  exact ScanState.along_of_step_eq fun _ _ _ =>
    ScanState.step_of_error (Option.isSome_iff_ne_none.mpr herror)

end Lexer

/-! ## What a state says -/

/-- **A state that is faithful** before the decision at a position: what it keeps of its tokens, its
comment and its line is what the source up to there says. -/
structure ScanState.Faithful (lexer : Lexer) (state : ScanState) (count : Nat) : Prop where
  /-- the tokens are in order and apart -/
  ordered : state.tokens.toList.Pairwise fun a b => a.start < b.start ∧ a.stop ≤ b.start
  /-- all tokens but the last have ended -/
  ended : ∀ token ∈ state.tokens.toList.dropLast, token.stop ≤ count
  /-- from here on a position lies in some token exactly if it lies in the last one -/
  covers_iff : ∀ index, count ≤ index →
    ((∃ token ∈ state.tokens.toList, token.contains index = true) ↔ state.covers index = true)
  /-- while a comment is open, all tokens have ended -/
  commentEnded : state.inComment = true → ∀ token ∈ state.tokens.toList, token.stop ≤ count
  /-- while a comment is open, its two slashes stand on the line, outside of all tokens and with no line
  feed since -/
  slashes : state.inComment = true → ∃ first, state.line.start ≤ first ∧ first < count ∧
    ['/', '/'] <+: lexer.rest first ∧
    Loose state.tokens.toList first ∧ Loose state.tokens.toList (first + 1) ∧
    ∀ i, first ≤ i → i < count → lexer.chars[i]? ≠ some '\n'
  /-- the line has started -/
  line_start_le : state.line.start ≤ count
  /-- the line starts with the source, or behind a line feed that lies in no token -/
  line_start : state.line.start = 0 ∨ ∃ i, state.line.start = i + 1 ∧
    lexer.chars[i]? = some '\n' ∧ Loose state.tokens.toList i
  /-- the number of the line counts the line feeds so far that lie in no token -/
  line_number : state.line.number =
    1 + (openFeeds lexer.chars.toList state.tokens.toList count).card

namespace ScanState.Sound

variable {lexer : Lexer} {state : ScanState} {count : Nat} {token : Token}

/-- No token that has been emitted is empty. -/
theorem start_lt_stop (h : state.Sound lexer count) (htoken : token ∈ state.tokens.toList) :
    token.start < token.stop := by
  obtain ⟨lexeme, after, htok, -, fits⟩ := h.placed token htoken
  have hpos := List.length_pos_iff.mpr fits.wellFormed.spelling_ne_nil
  rw [htok, Lexeme.stop_token, Lexeme.start_token]
  omega

/-- All tokens but the last have ended, since the one behind has begun. -/
theorem stop_le_of_mem_dropLast (h : state.Sound lexer count)
    (htoken : token ∈ state.tokens.toList.dropLast) : token.stop ≤ count := by
  have hne : state.tokens.toList ≠ [] := by
    intro hnil
    rw [hnil] at htoken
    cases htoken
  have happart := h.apart
  have hlast := h.begun _ (List.getLast_mem hne)
  rw [← List.dropLast_append_getLast hne] at happart
  have hstop := (List.pairwise_append.mp happart).2.2 token htoken _ (List.mem_singleton_self _)
  omega

/-- **A sound state is faithful**, if its comment has its slashes in place when one is open. -/
theorem faithful (h : state.Sound lexer count)
    (hcomment : state.inComment = true → state.Commenting lexer count) :
    state.Faithful lexer count where
  ordered := by
    refine h.apart.imp_of_mem fun {a b} ha hb happart => ⟨?_, happart⟩
    exact Nat.lt_of_lt_of_le (h.start_lt_stop ha) happart
  ended _ htoken := h.stop_le_of_mem_dropLast htoken
  covers_iff index hindex := by
    constructor
    · rintro ⟨token, htoken, hinside⟩
      by_contra hcovers
      have hloose := h.loose_of_covers hindex (Bool.eq_false_iff.mpr hcovers) token htoken
      cases hinside.symm.trans hloose
    · intro hcovers
      by_contra hnone
      refine not_loose_of_covers hcovers fun token htoken => Bool.eq_false_iff.mpr fun hinside => ?_
      exact hnone ⟨token, htoken, hinside⟩
  commentEnded hopen := (h.opened hopen).1
  slashes hopen := by
    obtain ⟨first, hline, hfirst, hslashes, hstops, hfeeds⟩ := hcomment hopen
    refine ⟨first, hline, hfirst, hslashes, loose_of_stop_le hstops, ?_, hfeeds⟩
    exact loose_of_stop_le fun token htoken => Nat.le_succ_of_le (hstops token htoken)
  line_start_le := h.line_start_le
  line_start := by
    rcases Nat.eq_zero_or_pos state.line.start with hzero | hpos
    · exact Or.inl hzero
    · rw [h.line] at hpos ⊢
      obtain ⟨i, hi, hstart⟩ := Line.exists_of_lt_behind_start hpos
      obtain ⟨-, hfeed, hloose⟩ := mem_openFeeds.mp hi
      exact Or.inr ⟨i, hstart, by rwa [Array.getElem?_toList] at hfeed, hloose⟩
  line_number := congrArg Line.number h.line

end ScanState.Sound

/-- **The state of a scan is faithful at every position** up to the first error, and from then on no
decision changes any part of it. -/
theorem scan_state_faithful (source : String) (strict : Bool) (count : Nat) :
    (((Lexer.ofString source strict).stateAt count).error = none →
      ((Lexer.ofString source strict).stateAt count).Faithful (Lexer.ofString source strict) count) ∧
    (((Lexer.ofString source strict).stateAt count).error ≠ none →
      ∀ later, count ≤ later →
        (Lexer.ofString source strict).stateAt later =
          (Lexer.ofString source strict).stateAt count) := by
  constructor
  · intro herror
    exact (Lexer.sound_stateAt herror).faithful (Lexer.commenting_stateAt herror)
  · intro herror later
    exact Lexer.stateAt_of_error herror

/-- In the middle of a string over two lines with slashes in it, behind a comment, the line is still the
second one. Behind the character at fault the state is final. -/
theorem scan_state_faithful_midway :
    let lexer := Lexer.ofString "x // é\n\"a\n//\" #" false
    (lexer.stateAt 10).error = none ∧
      (lexer.stateAt 10).tokens = #[⟨.identifier, some "x", 0, 1⟩, ⟨.string, some "a\n//", 7, 6⟩] ∧
      (lexer.stateAt 10).line = ⟨2, 7⟩ ∧ (lexer.stateAt 10).Faithful lexer 10 ∧
      (lexer.stateAt 15).error = some ⟨.unexpectedCharacter '#', 2, "\"a\n//\" #", 14⟩ ∧
      lexer.stateAt 20 = lexer.stateAt 15 := by
  have hfine : ((Lexer.ofString "x // é\n\"a\n//\" #" false).stateAt 10).error = none := by rfl
  have hfault : ((Lexer.ofString "x // é\n\"a\n//\" #" false).stateAt 15).error =
      some ⟨.unexpectedCharacter '#', 2, "\"a\n//\" #", 14⟩ := by rfl
  refine ⟨hfine, by rfl, by rfl, ?_, hfault, ?_⟩
  · exact (scan_state_faithful _ _ 10).1 hfine
  · refine (scan_state_faithful _ _ 15).2 ?_ 20 (by decide)
    rw [hfault]
    exact Option.some_ne_none _

end LoxTools
