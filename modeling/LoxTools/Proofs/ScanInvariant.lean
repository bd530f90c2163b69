import Mathlib.Data.Finset.Range
import Mathlib.Data.Finset.Lattice.Fold
import Mathlib.Order.Lattice.Nat
import LoxTools.Proofs.Scanning

/-!
# The invariant of a scan

What the state of a scan says about the part of the source that lies behind it, at every position
and not only between tokens:

* `Decision` — what a single decision can do, with the reason for it;
* `openFeeds` — the line feeds that lie inside no token, which are the ones that end lines;
* `Sound` — the invariant: where the tokens stand, which line it is, and what an open comment means;
* `Sound.step` and `Lexer.sound_after` — every decision keeps it, so every run has it.
-/

namespace LoxTools

/-! ## Outside of all tokens -/

/-- A position that lies inside no token. Tokens and positions are given as they are, so the notion
makes sense for the tokens of an unfinished scan, too. -/
def Loose (tokens : List Token) (index : Nat) : Prop :=
  ∀ token ∈ tokens, token.contains index = false

instance (tokens : List Token) (index : Nat) : Decidable (Loose tokens index) :=
  inferInstanceAs (Decidable (∀ token ∈ tokens, token.contains index = false))

theorem Token.contains_iff {token : Token} {index : Nat} :
    token.contains index = true ↔ token.start ≤ index ∧ index < token.stop := by
  simp [Token.contains]

theorem loose_of_stop_le {tokens : List Token} {index : Nat}
    (h : ∀ token ∈ tokens, token.stop ≤ index) : Loose tokens index := by
  intro token htoken
  have hstop := h token htoken
  rw [Bool.eq_false_iff, ne_eq, Token.contains_iff]
  omega

theorem loose_append {tokens more : List Token} {index : Nat} :
    Loose (tokens ++ more) index ↔ Loose tokens index ∧ Loose more index :=
  List.forall_mem_append

theorem loose_singleton {token : Token} {index : Nat} :
    Loose [token] index ↔ (token.start ≤ index → token.stop ≤ index) := by
  simp [Loose, Token.contains]

/-- **The line feeds before a position that lie inside no token.** These are the ones that end lines; a
line feed inside a string does not count. -/
def openFeeds (source : List Char) (tokens : List Token) (count : Nat) : Finset Nat :=
  (Finset.range count).filter fun index => source[index]? = some '\n' ∧ Loose tokens index

/-- **The line behind some line feeds**: its number counts them, and it starts behind the last one, or
at the beginning of the source if there is none. No run of anything is needed to say which line a
position is on. -/
def Line.behind (feeds : Finset Nat) : Line :=
  ⟨1 + feeds.card, feeds.sup (· + 1)⟩

section OpenFeeds

variable {source : List Char} {tokens : List Token} {count index : Nat}

/-- Membership in the open line feeds, spelled out. -/
theorem mem_openFeeds : index ∈ openFeeds source tokens count ↔
    index < count ∧ source[index]? = some '\n' ∧ Loose tokens index := by
  rw [openFeeds, Finset.mem_filter, Finset.mem_range]

/-- Any other position does not matter: only an open line feed changes the line. -/
theorem openFeeds_succ_of_not (h : ¬ (source[count]? = some '\n' ∧ Loose tokens count)) :
    openFeeds source tokens (count + 1) = openFeeds source tokens count := by
  rw [openFeeds, Finset.range_add_one, Finset.filter_insert, if_neg h]
  rfl

/-- An open line feed is the new last one. -/
theorem openFeeds_succ (h : source[count]? = some '\n' ∧ Loose tokens count) :
    openFeeds source tokens (count + 1) = insert count (openFeeds source tokens count) := by
  rw [openFeeds, Finset.range_add_one, Finset.filter_insert, if_pos h]
  rfl

/-- Tokens that start behind line feeds do not hide them, so the open line feeds are settled before
later tokens are known. -/
theorem openFeeds_append {more : List Token} (h : ∀ token ∈ more, count ≤ token.start) :
    openFeeds source (tokens ++ more) count = openFeeds source tokens count := by
  refine Finset.filter_congr fun i hi => ?_
  rw [Finset.mem_range] at hi
  have hloose : Loose more i := by
    intro token htoken
    have hstart := h token htoken
    rw [Bool.eq_false_iff, ne_eq, Token.contains_iff]
    omega
  rw [loose_append, and_iff_left hloose]

/-- One more open line feed leads to the next line. -/
theorem Line.behind_insert :
    Line.behind (insert count (openFeeds source tokens count)) =
      (Line.behind (openFeeds source tokens count)).next count := by
  have hnew : count ∉ openFeeds source tokens count := by simp [mem_openFeeds]
  have hlast : (openFeeds source tokens count).sup (· + 1) ≤ count + 1 :=
    Finset.sup_le fun i hi => Nat.le_succ_of_le (mem_openFeeds.mp hi).1
  simp only [Line.behind, Line.next, Finset.card_insert_of_notMem hnew, Finset.sup_insert,
    sup_eq_left.mpr hlast, Nat.add_assoc]

/-- No line starts ahead. -/
theorem Line.behind_start_le : (Line.behind (openFeeds source tokens count)).start ≤ count := by
  show (openFeeds source tokens count).sup (· + 1) ≤ count
  exact Finset.sup_le fun i hi => (mem_openFeeds.mp hi).1

/-- The last of the line feeds is right before the line. -/
theorem Line.lt_behind_start (h : index ∈ openFeeds source tokens count) :
    index < (Line.behind (openFeeds source tokens count)).start := by
  have hlast : index + 1 ≤ (openFeeds source tokens count).sup (· + 1) :=
    Finset.le_sup (f := fun i : Nat => i + 1) h
  exact hlast

/-- A line that does not start the source starts behind a line feed. -/
theorem Line.exists_of_lt_behind_start
    (h : index < (Line.behind (openFeeds source tokens count)).start) :
    ∃ i ∈ openFeeds source tokens count,
      (Line.behind (openFeeds source tokens count)).start = i + 1 := by
  have hne : (openFeeds source tokens count).Nonempty := by
    rw [Finset.nonempty_iff_ne_empty]
    intro hempty
    rw [hempty] at h
    exact Nat.not_lt_zero _ h
  exact Finset.exists_mem_eq_sup _ hne _

end OpenFeeds

/-! ## Decisions -/

theorem Lexer.getElem?_of_slashes {lexer : Lexer} {index : Nat}
    (h : ['/', '/'] <+: lexer.rest index) : lexer.chars[index]? = some '/' := by
  obtain ⟨more, hmore⟩ := h
  exact Lexer.getElem?_of_rest hmore.symm

namespace ScanState

variable {lexer : Lexer} {state : ScanState} {index count : Nat}

/-- **What a decision can do** at a position that is not passed over, and when it does. The cases
exclude one another; every invariant below is proved by going through them. -/
inductive Decision (lexer : Lexer) (state : ScanState) (index : Nat) : ScanState → Prop
  /-- a line feed ends the line -/
  | lineFeed : lexer.chars[index]? = some '\n' →
    Decision lexer state index (state.endLine index)
  /-- in a comment nothing else happens -/
  | commented {c : Char} : lexer.chars[index]? = some c → c ≠ '\n' → state.inComment = true →
    Decision lexer state index state
  /-- at any other blank nothing happens -/
  | blank {c : Char} : lexer.chars[index]? = some c → c ≠ '\n' → state.inComment = false →
    isBlank c = true → Decision lexer state index state
  /-- two slashes open a comment -/
  | slashes : state.inComment = false → ['/', '/'] <+: lexer.rest index →
    Decision lexer state index { state with inComment := true }
  /-- a lexeme that fits is emitted -/
  | lexeme {lexeme : Lexeme} {after : List Char} : state.inComment = false →
    lexer.rest index = lexeme.spelling ++ after → lexeme.Fits lexer.strictKeywords after →
    Decision lexer state index (state.emit (lexeme.token index))
  /-- a fault is reported -/
  | fault {fault : LexFault} : state.inComment = false → Stuck fault (lexer.rest index) →
    Decision lexer state index
      { state with error := some (lexer.errorAt fault state.line index) }

/-- A decision does one of these things. This is the inversion of the step that all invariants use. -/
theorem step_decision (herror : state.error = none) (hcovers : state.covers index = false)
    (hindex : index < lexer.chars.size) :
    Decision lexer state index (step lexer state index) := by
  have hc : lexer.chars[index]? = some lexer.chars[index] := Array.getElem?_eq_getElem hindex
  generalize lexer.chars[index] = c at hc
  obtain ⟨more, hrest⟩ := Lexer.exists_rest hc
  rw [step_eq herror hcovers hrest]
  by_cases hfeed : c = '\n'
  · subst hfeed
    exact .lineFeed hc
  rw [if_neg (by simpa using hfeed)]
  by_cases hopen : state.inComment = true
  · rw [if_pos (by simp [hopen])]
    exact .commented hc hfeed hopen
  have hclosed : state.inComment = false := Bool.eq_false_iff.mpr hopen
  by_cases hblank : isBlank c = true
  · rw [if_pos (by simp [hblank])]
    exact .blank hc hfeed hclosed hblank
  rw [if_neg (by simp [hopen, hblank])]
  by_cases hstarts : lexer.commentStarts index = true
  · rw [if_pos hstarts]
    exact .slashes hclosed (Lexer.commentStarts_eq.mp hstarts)
  rw [if_neg hstarts]
  cases htoken : lexer.tokenAt state.line index with
  | ok token =>
    obtain ⟨lexeme, after, rfl, htext, fits⟩ := Lexer.lexeme_of_tokenAt hrest hblank hstarts htoken
    exact .lexeme hclosed htext fits
  | error error =>
    obtain ⟨fault, rfl, hstuck⟩ := Lexer.stuck_of_tokenAt hrest hblank hstarts htoken
    exact .fault hclosed hstuck

/-- An error stays. -/
theorem error_of_step (h : (step lexer state index).error = none) : state.error = none := by
  by_contra hne
  rw [step_of_error (Option.isSome_iff_ne_none.mpr hne)] at h
  exact hne h

/-! ## The invariant -/

/-- **What holds before the decision at a position**, as long as nothing is at fault. The part of the
source that lies behind is told completely: where its tokens stand, which of its line feeds end lines,
and where on the line a comment was opened. -/
structure Sound (lexer : Lexer) (state : ScanState) (count : Nat) : Prop where
  /-- every token stands where its lexeme does -/
  placed : ∀ token ∈ state.tokens.toList, ∃ (lexeme : Lexeme) (after : List Char),
    token = lexeme.token token.start ∧ lexer.rest token.start = lexeme.spelling ++ after ∧
      lexeme.Fits lexer.strictKeywords after
  /-- every token has begun -/
  begun : ∀ token ∈ state.tokens.toList, token.start < count
  /-- the tokens are in order and apart -/
  apart : state.tokens.toList.Pairwise fun a b => a.stop ≤ b.start
  /-- the line is the one behind the line feeds so far that lie inside no token -/
  line : state.line = Line.behind (openFeeds lexer.chars.toList state.tokens.toList count)
  /-- an open comment stands behind all tokens, and its slashes are on the line -/
  opened : state.inComment = true → (∀ token ∈ state.tokens.toList, token.stop ≤ count) ∧
    ∃ i, state.line.start ≤ i ∧ i < count ∧ Loose state.tokens.toList i ∧
      ['/', '/'] <+: lexer.rest i ∧ ∀ j, i ≤ j → j < count → lexer.chars[j]? ≠ some '\n'
  /-- without one there are no slashes on the line but in tokens -/
  closed : state.inComment = false → ∀ i, state.line.start ≤ i → i < count →
    Loose state.tokens.toList i → ¬ ['/', '/'] <+: lexer.rest i

/-- The token emitted last is the last one of the list, so a position is passed over exactly if it lies
in that one. -/
theorem covers_eq_any (state : ScanState) (index : Nat) :
    state.covers index = state.tokens.toList.getLast?.any (·.contains index) := by
  rw [covers, Array.getLast?_toList]
  cases state.tokens.back? <;> rfl

/-- A position that is passed over lies inside a token. -/
theorem not_loose_of_covers (h : state.covers index = true) :
    ¬ Loose state.tokens.toList index := by
  intro hloose
  rw [covers_eq_any, Option.any_eq_true] at h
  obtain ⟨token, htoken, hinside⟩ := h
  rw [hloose token (List.mem_of_getLast? htoken)] at hinside
  cases hinside

namespace Sound

/-- Ahead, a token is met by going inside it only if it is the one emitted last. Every token has begun
before. -/
theorem contains_iff {token : Token} (h : state.Sound lexer count)
    (htoken : token ∈ state.tokens.toList) (hindex : count ≤ index) :
    token.contains index = true ↔ index < token.stop := by
  have hbegun := h.begun token htoken
  rw [Token.contains_iff]
  exact and_iff_right (by omega)

/-- **Looking at the token emitted last is enough**: ahead, no other one is met, since tokens are in
order and apart. -/
theorem loose_of_covers (h : state.Sound lexer count) (hindex : count ≤ index)
    (hcovers : state.covers index = false) : Loose state.tokens.toList index := by
  have happart := h.apart
  have hbegun := h.begun
  rw [covers_eq_any] at hcovers
  generalize state.tokens.toList = tokens at *
  rcases List.eq_nil_or_concat tokens with rfl | ⟨front, last, rfl⟩
  · nofun
  · rw [List.concat_eq_append] at *
    rw [List.getLast?_concat, Option.any_some] at hcovers
    refine loose_append.mpr ⟨fun token htoken => ?_, List.forall_mem_singleton.mpr hcovers⟩
    have hlast := hbegun last (List.mem_append_right front (List.mem_singleton_self last))
    have hstop := (List.pairwise_append.mp happart).2.2 token htoken last
      (List.mem_singleton_self last)
    refine Bool.eq_false_iff.mpr fun hinside => ?_
    have hinside := (Token.contains_iff.mp hinside).2
    omega

/-- Where no position is passed over all of the tokens have ended. -/
theorem stop_le (h : state.Sound lexer count) (hcovers : state.covers count = false) :
    ∀ token ∈ state.tokens.toList, token.stop ≤ count := by
  intro token htoken
  have hloose := h.loose_of_covers (Nat.le_refl count) hcovers token htoken
  rw [Bool.eq_false_iff, ne_eq, h.contains_iff htoken (Nat.le_refl count)] at hloose
  exact Nat.le_of_not_lt hloose

/-- The line that scanning is in has started. -/
theorem line_start_le (h : state.Sound lexer count) : state.line.start ≤ count := by
  rw [h.line]
  exact Line.behind_start_le

/-! ### What one decision keeps -/

/-- A position that is passed over ends no line and begins no comment, and the invariant moves on by
one. The hypotheses are what a decision without effect has to check. -/
theorem pass (h : state.Sound lexer index)
    (hfeed : Loose state.tokens.toList index → lexer.chars[index]? ≠ some '\n')
    (hstops : state.inComment = true → ∀ token ∈ state.tokens.toList, token.stop ≤ index)
    (hslashes : state.inComment = false → Loose state.tokens.toList index →
      ¬ ['/', '/'] <+: lexer.rest index) : state.Sound lexer (index + 1) where
  placed := h.placed
  begun token htoken := Nat.lt_succ_of_lt (h.begun token htoken)
  apart := h.apart
  line := by
    rw [openFeeds_succ_of_not, h.line]
    rw [Array.getElem?_toList]
    exact fun hopen => hfeed hopen.2 hopen.1
  opened hopen := by
    obtain ⟨-, i, hstart, hi, hloose, hcomment, hfeeds⟩ := h.opened hopen
    refine ⟨fun token htoken => Nat.le_succ_of_le (hstops hopen token htoken), i, hstart, by omega,
      hloose, hcomment, fun j hij hj => ?_⟩
    rcases Nat.lt_succ_iff_lt_or_eq.mp hj with hj | rfl
    · exact hfeeds j hij hj
    · exact hfeed (loose_of_stop_le (hstops hopen))
  closed hclosed i hstart hi hloose := by
    rcases Nat.lt_succ_iff_lt_or_eq.mp hi with hi | rfl
    · exact h.closed hclosed i hstart hi hloose
    · exact hslashes hclosed hloose

/-- A position inside of a token is passed over. -/
theorem inside (h : state.Sound lexer index) (hcovers : state.covers index = true) :
    state.Sound lexer (index + 1) := by
  have hnot := not_loose_of_covers hcovers
  refine h.pass (fun hloose => absurd hloose hnot) (fun hopen => ?_) fun _ hloose =>
    absurd hloose hnot
  exact (h.opened hopen).1

/-- A line feed outside of tokens ends the line and what comment there was. -/
theorem endLine (h : state.Sound lexer index) (hcovers : state.covers index = false)
    (hc : lexer.chars[index]? = some '\n') : (state.endLine index).Sound lexer (index + 1) where
  placed := h.placed
  begun token htoken := Nat.lt_succ_of_lt (h.begun token htoken)
  apart := h.apart
  line := by
    have hfeed : lexer.chars.toList[index]? = some '\n' ∧ Loose state.tokens.toList index :=
      ⟨by rwa [Array.getElem?_toList], h.loose_of_covers (Nat.le_refl index) hcovers⟩
    have htokens : (state.endLine index).tokens = state.tokens := rfl
    rw [htokens, openFeeds_succ hfeed, Line.behind_insert, ← h.line]
    rfl
  opened := nofun
  closed _ i hstart hi := absurd (Nat.lt_of_lt_of_le hi hstart) (Nat.lt_irrefl _)

/-- Two slashes outside of tokens open a comment, which has begun on this line. -/
theorem openComment (h : state.Sound lexer index) (hcovers : state.covers index = false)
    (hslashes : ['/', '/'] <+: lexer.rest index) :
    ScanState.Sound lexer { state with inComment := true } (index + 1) where
  placed := h.placed
  begun token htoken := Nat.lt_succ_of_lt (h.begun token htoken)
  apart := h.apart
  line := by
    have hslash := Lexer.getElem?_of_slashes hslashes
    refine h.line.trans (congrArg Line.behind (openFeeds_succ_of_not ?_).symm)
    simp [hslash]
  opened _ := by
    have hslash := Lexer.getElem?_of_slashes hslashes
    refine ⟨fun token htoken => Nat.le_succ_of_le (h.stop_le hcovers token htoken), index,
      h.line_start_le, Nat.lt_succ_self index, h.loose_of_covers (Nat.le_refl index) hcovers,
      hslashes, fun j hij hj => ?_⟩
    obtain rfl : j = index := Nat.le_antisymm (Nat.le_of_lt_succ hj) hij
    simp [hslash]
  closed := nofun

/-- A token is emitted where its lexeme stands, behind the end of all others. -/
theorem emit {lexeme : Lexeme} {after : List Char} (h : state.Sound lexer index)
    (hcovers : state.covers index = false) (hclosed : state.inComment = false)
    (htext : lexer.rest index = lexeme.spelling ++ after)
    (fits : lexeme.Fits lexer.strictKeywords after) :
    (state.emit (lexeme.token index)).Sound lexer (index + 1) := by
  have hinside : ¬ Loose (state.tokens.toList ++ [lexeme.token index]) index := by
    have hpos := List.length_pos_iff.mpr fits.wellFormed.spelling_ne_nil
    rw [loose_append, loose_singleton, Lexeme.start_token, Lexeme.stop_token]
    omega
  refine {
    placed := ?placed
    begun := ?begun
    apart := ?apart
    line := ?line
    opened := fun hopen => absurd (hclosed.symm.trans hopen) nofun
    closed := ?closed }
  all_goals rw [toList_emit]
  case placed =>
    refine List.forall_mem_append.mpr ⟨h.placed, List.forall_mem_singleton.mpr ?_⟩
    exact ⟨lexeme, after, rfl, htext, fits⟩
  case begun =>
    refine List.forall_mem_append.mpr ⟨fun token htoken => ?_, List.forall_mem_singleton.mpr ?_⟩
    · exact Nat.lt_succ_of_lt (h.begun token htoken)
    · exact Nat.lt_succ_self index
  case apart =>
    refine List.pairwise_append.mpr ⟨h.apart, List.pairwise_singleton _ _, fun token htoken => ?_⟩
    exact List.forall_mem_singleton.mpr (h.stop_le hcovers token htoken)
  case line =>
    have hstart : ∀ token ∈ [lexeme.token index], index ≤ token.start :=
      List.forall_mem_singleton.mpr (Nat.le_refl index)
    rw [openFeeds_succ_of_not fun hfeed => hinside hfeed.2, openFeeds_append hstart]
    exact h.line
  case closed =>
    intro _ i hstart hi hloose
    rcases Nat.lt_succ_iff_lt_or_eq.mp hi with hi | rfl
    · exact h.closed hclosed i hstart hi (loose_append.mp hloose).1
    · exact absurd hloose hinside

/-- **Every decision keeps the invariant**, unless it reports a fault. By the cases of a decision, each
with its lemma from above. -/
theorem step (h : state.Sound lexer index) (hindex : index < lexer.chars.size)
    (herror : (ScanState.step lexer state index).error = none) :
    (ScanState.step lexer state index).Sound lexer (index + 1) := by
  have hbefore := error_of_step herror
  by_cases hcovers : state.covers index = true
  · rw [step_of_covers hcovers]
    exact h.inside hcovers
  have hfree : state.covers index = false := Bool.eq_false_iff.mpr hcovers
  have hdecision := step_decision hbefore hfree hindex
  generalize ScanState.step lexer state index = next at *
  cases hdecision with
  | lineFeed hc => exact h.endLine hfree hc
  | commented hc hfeed hopen =>
    refine h.pass (fun _ heq => ?_) (fun _ => h.stop_le hfree) fun hclosed => ?_
    · exact hfeed (Option.some.inj (hc.symm.trans heq))
    · exact absurd (hclosed.symm.trans hopen) nofun
  | blank hc hfeed hclosed hblank =>
    refine h.pass (fun _ heq => ?_) (fun _ => h.stop_le hfree) fun _ _ hslashes => ?_
    · exact hfeed (Option.some.inj (hc.symm.trans heq))
    · obtain rfl := Option.some.inj (hc.symm.trans (Lexer.getElem?_of_slashes hslashes))
      cases hblank
  | slashes hclosed hslashes => exact h.openComment hfree hslashes
  | lexeme hclosed htext fits => exact h.emit hfree hclosed htext fits
  | fault => cases herror

end Sound

end ScanState

/-! ## Whole runs -/

namespace Lexer

variable {lexer : Lexer}

/-- In the beginning there is nothing to say. -/
theorem sound_ready (lexer : Lexer) : lexer.ready.Sound lexer 0 where
  placed := nofun
  begun := nofun
  apart := List.Pairwise.nil
  line := rfl
  opened := nofun
  closed _ i _ hi := absurd hi (Nat.not_lt_zero i)

/-- **Every run without a fault has the invariant**, wherever it has come. By induction on the number of
positions; an error stays, so there was none before. -/
theorem sound_after {count : Nat} (hcount : count ≤ lexer.chars.size)
    (herror : (lexer.ready.after lexer count).error = none) :
    (lexer.ready.after lexer count).Sound lexer count := by
  induction count with
  | zero => exact lexer.sound_ready
  | succ count ih =>
    rw [after_succ] at herror ⊢
    have hbefore := ScanState.error_of_step herror
    exact (ih (Nat.le_of_succ_le hcount) hbefore).step hcount herror

end Lexer

end LoxTools
