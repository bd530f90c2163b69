import LoxTools.Proofs.CursorSuffix
import LoxTools.Proofs.StateInvariant
import LoxTools.Proofs.Tokenisation

/-!
# Scanning stays within its source

Cursors clamp, subtraction stops at zero, and a character behind the end is none, so a scan would go on
quietly if it ever left its source. A second scan is written here that does not: it asks for characters,
places, lengths and texts as if they were there, and is refused where they are not.

* `Bounded` — results that are refused outside of the source, and the four operations that can be;
* `Bounded.tokenAt` and `Bounded.step` — recognition and the decision at a position, by those operations;
* `Bounded.tokenAt_eq` — recognition is not refused where a character stands, on a line that has begun;
* `Bounded.step_eq` — nor is a decision, because the line of a state has begun;
* `scan_within_bounds` — so the whole bounded scan runs through, and it is the scan.
-/

namespace LoxTools

/-- What is not within a source. -/
inductive OutOfBounds where
  /-- a character at a position where none stands -/
  | character (index : Nat)
  /-- a place behind the end -/
  | place (position : Nat)
  /-- the length of a token that ends before it starts -/
  | length (start stop : Nat)
  /-- a text with ends in the wrong order, or behind the end of the source -/
  | text (first stop : Nat)
  deriving DecidableEq, Repr

/-- A result, unless something asked for on the way is not within the source. -/
abbrev Bounded (α : Type) : Type :=
  Except OutOfBounds α

namespace Bounded

/-! ## The operations that can be refused -/

/-- The character at a position; refused where none stands. -/
def charAt (lexer : Lexer) (index : Nat) : Bounded Char :=
  match lexer.chars[index]? with
  | some c => return c
  | none => throw (.character index)

/-- The cursor at a position, which is refused behind the end instead of being put back to it. -/
def cursorAt (lexer : Lexer) (index : Nat) : Bounded Cursor :=
  if index ≤ lexer.chars.size then return ⟨lexer.chars, index⟩ else throw (.place index)

/-- The token from `start` up to a cursor, which is refused if it would end before it starts. -/
def tokenTo (kind : TokenKind) (text : Option String) (start : Nat) (stop : Cursor) :
    Bounded Token :=
  if start ≤ stop.position then return ⟨kind, text, start, stop.position - start⟩
  else throw (.length start stop.position)

/-- A part of the whole text, which is refused where its ends would have to be clamped. -/
def slice (c : Cursor) (first stop : Nat) : Bounded String :=
  if first ≤ stop ∧ stop ≤ c.chars.size then
    return String.ofList ((c.chars.toList.drop first).take (stop - first))
  else throw (.text first stop)

/-- The part of the whole text from `first` up to the cursor. -/
def sliceFrom (c : Cursor) (first : Nat) : Bounded String :=
  slice c first c.position

/-- The token from `start` up to a cursor, with all that it covers as its text. -/
def spelledTo (kind : TokenKind) (start : Nat) (stop : Cursor) : Bounded Token := do
  let text ← sliceFrom stop start
  tokenTo kind (some text) start stop

/-! ## Scanning by them -/

/-- The text of a line through the character at `index`. -/
def context (lexer : Lexer) (line : Line) (index : Nat) : Bounded String := do
  let here ← cursorAt lexer line.start
  slice here line.start (index + 1)

/-- The error for the character at `index`. -/
def errorAt (lexer : Lexer) (fault : LexFault) (line : Line) (index : Nat) : Bounded LexError := do
  let context ← context lexer line index
  return ⟨fault, line.number, context, index⟩

/-- Whether a comment starts at `index`. -/
def commentStarts (lexer : Lexer) (index : Nat) : Bounded Bool := do
  let here ← cursorAt lexer index
  return here.startsWith "//"

/-- An operator or a punctuation mark. -/
def operator? (lexer : Lexer) (start : Nat) : Bounded (Option Token) := do
  let here ← cursorAt lexer start
  match equatable? here.current with
  | some (alone, withEqual) =>
    let kind := if here.advance.accepts '=' then withEqual else alone
    let token ← tokenTo kind none start (here.advance.accept '=')
    return some token
  | none =>
    match punctuation? here.current with
    | some kind =>
      let token ← tokenTo kind none start here.advance
      return some token
    | none => return none

/-- A string whose opening quote stands at `start`. -/
def string (lexer : Lexer) (line : Line) (start : Nat) : Bounded (Except LexError Token) := do
  let here ← cursorAt lexer start
  let close := Lexer.closingQuote here
  if close.atEnd then
    let error ← errorAt lexer .unterminatedString line start
    return .error error
  else
    let text ← sliceFrom close (start + 1)
    let token ← tokenTo .string (some text) start close.advance
    return .ok token

/-- A number whose first digit stands at `start`. -/
def number (lexer : Lexer) (start : Nat) : Bounded Token := do
  let here ← cursorAt lexer start
  spelledTo .number start (Lexer.numberEnd here)

/-- A reserved word. -/
def keyword? (lexer : Lexer) (start : Nat) : Bounded (Option Token) := do
  let here ← cursorAt lexer start
  return (keywords.find? fun entry => lexer.spellsKeyword here entry.1).map fun entry =>
    ⟨entry.2, none, start, entry.1.length⟩

/-- An identifier whose first character stands at `start`. -/
def identifier (lexer : Lexer) (start : Nat) : Bounded Token := do
  let here ← cursorAt lexer start
  spelledTo .identifier start (Lexer.wordEnd here)

/-- Recognition: the token at `index`, by the first rule that applies. -/
def tokenAt (lexer : Lexer) (line : Line) (index : Nat) : Bounded (Except LexError Token) := do
  let c ← charAt lexer index
  match ← operator? lexer index with
  | some token => return .ok token
  | none =>
    if c == '"' then string lexer line index
    else if isDigit c then
      let token ← number lexer index
      return .ok token
    else match ← keyword? lexer index with
      | some token => return .ok token
      | none =>
        if isAlpha c then
          let token ← identifier lexer index
          return .ok token
        else
          let error ← errorAt lexer (.unexpectedCharacter c) line index
          return .error error

/-- The decision at one position. -/
def step (lexer : Lexer) (state : ScanState) (index : Nat) : Bounded ScanState :=
  if state.error.isSome || state.covers index then return state
  else do
    let c ← charAt lexer index
    if c == '\n' then return state.endLine index
    else if state.inComment || isBlank c then return state
    else if ← commentStarts lexer index then return { state with inComment := true }
    else match ← tokenAt lexer state.line index with
      | .ok token => return state.emit token
      | .error error => return { state with error := some error }

/-- The state that the first `count` positions lead to. -/
def after (lexer : Lexer) (state : ScanState) (count : Nat) : Bounded ScanState :=
  (List.range count).foldlM (step lexer) state

/-- **A whole bounded scan**, with its reports. -/
def run (lexer : Lexer) : Bounded ScanState := do
  let final ← after lexer (ScanState.initial.report lexer.startEvent) lexer.chars.size
  return final.report (Lexer.finishEvent final)

/-! ## Where nothing is refused -/

variable {lexer : Lexer} {line : Line} {state : ScanState} {index start : Nat} {c : Char}
  {l : List Char} {stop : Cursor}

/-- Where a character stands, it is what is asked for. -/
theorem charAt_eq (h : lexer.chars[index]? = some c) : charAt lexer index = pure c := by
  rw [charAt, h]

/-- The cursor at a place within the source is not refused. -/
theorem cursorAt_eq (h : index ≤ lexer.chars.size) :
    cursorAt lexer index = pure (lexer.cursorAt index) := by
  rw [cursorAt, if_pos h, Lexer.cursorAt, Cursor.ofPosition, Nat.min_eq_left h]

/-- A part between two ends within the source, in their order, is not refused. -/
theorem slice_eq {here : Cursor} {first stop : Nat} (h : first ≤ stop)
    (hstop : stop ≤ here.chars.size) : slice here first stop = pure (here.slice first stop) := by
  rw [slice, if_pos ⟨h, hstop⟩, Cursor.slice_eq]

/-- A cursor that has moved on from a place within the source is not before this place and not behind
the end. -/
theorem reached (h : start ≤ lexer.chars.size) (hstop : (lexer.cursorAt start).Past l stop) :
    start + l.length = stop.position ∧ stop.position ≤ stop.chars.size := by
  have hinside : (lexer.cursorAt start).Inside := Nat.min_le_right _ _
  have hposition : (lexer.cursorAt start).position = start := Cursor.position_ofPosition h
  exact ⟨by rw [hstop.position, hposition], hstop.inside hinside⟩

/-- The token up to a cursor that has moved on is not refused. -/
theorem tokenTo_eq (kind : TokenKind) (text : Option String) (h : start ≤ lexer.chars.size)
    (hstop : (lexer.cursorAt start).Past l stop) :
    tokenTo kind text start stop = pure (Lexer.tokenTo kind text start stop) := by
  have hreached := (reached h hstop).1
  rw [tokenTo, if_pos (by omega), Lexer.tokenTo]

/-- The part up to a cursor that has moved on is not refused, from any position that it has passed. -/
theorem sliceFrom_eq {first : Nat} (h : start ≤ lexer.chars.size)
    (hstop : (lexer.cursorAt start).Past l stop) (hfirst : first ≤ start + l.length) :
    sliceFrom stop first = pure (stop.sliceFrom first) := by
  obtain ⟨hreached, hend⟩ := reached h hstop
  exact slice_eq (hreached ▸ hfirst) hend

/-- The token up to a cursor that has moved on, with all that it covers as its text, is not refused. -/
theorem spelledTo_eq (kind : TokenKind) (h : start ≤ lexer.chars.size)
    (hstop : (lexer.cursorAt start).Past l stop) :
    spelledTo kind start stop =
      pure (Lexer.tokenTo kind (some (stop.sliceFrom start)) start stop) := by
  rw [spelledTo, sliceFrom_eq h hstop (Nat.le_add_right _ _), pure_bind]
  exact tokenTo_eq _ _ h hstop

/-- The text of a line that has begun is not refused, up to a character of the source. -/
theorem context_eq (hline : line.start ≤ index) (hindex : index < lexer.chars.size) :
    context lexer line index = pure (lexer.context line index) := by
  rw [context, cursorAt_eq (by omega), pure_bind]
  exact slice_eq (Nat.le_succ_of_le hline) hindex

/-- The error for a character of the source is not refused, on a line that has begun. -/
theorem errorAt_eq (fault : LexFault) (hline : line.start ≤ index)
    (hindex : index < lexer.chars.size) :
    errorAt lexer fault line index = pure (lexer.errorAt fault line index) := by
  rw [errorAt, context_eq hline hindex, pure_bind]
  rfl

/-- Looking for a comment is not refused within the source. -/
theorem commentStarts_eq (h : index ≤ lexer.chars.size) :
    commentStarts lexer index = pure (lexer.commentStarts index) := by
  rw [commentStarts, cursorAt_eq h, pure_bind]
  rfl

/-! ### The rules -/

/-- The rule for operators and punctuation is not refused within the source. -/
theorem operator?_eq (h : start ≤ lexer.chars.size) :
    operator? lexer start = pure (lexer.operator? start) := by
  have hone := (lexer.cursorAt start).past_take_one
  have htwo := hone.trans ((lexer.cursorAt start).advance.past_accepted '=')
  rw [operator?, cursorAt_eq h, pure_bind, Lexer.operator?]
  cases equatable? (lexer.cursorAt start).current with
  | some kinds =>
    simp only [tokenTo_eq _ _ h htwo, pure_bind]
  | none =>
    cases punctuation? (lexer.cursorAt start).current with
    | some kind => simp only [tokenTo_eq _ _ h hone, pure_bind, Option.map_some]
    | none => rfl

/-- The rule for strings is not refused: the text of a string starts behind its opening quote, which the
cursor passes. -/
theorem string_eq (hline : line.start ≤ start) (hstart : start < lexer.chars.size) :
    string lexer line start = pure (lexer.string line start) := by
  have hle := Nat.le_of_lt hstart
  have hopen := (lexer.cursorAt start).past_take_one
  have hclose := hopen.trans ((lexer.cursorAt start).advance.past_takeWhile (· != '"'))
  have hbehind := hclose.trans
    (Lexer.closingQuote (lexer.cursorAt start)).past_take_one
  have hquote : ((lexer.cursorAt start).rest.take 1).length = 1 := by
    rw [List.length_take, Lexer.rest_cursorAt rfl, Lexer.length_rest]
    omega
  have htext : sliceFrom (Lexer.closingQuote (lexer.cursorAt start)) (start + 1) =
      pure ((Lexer.closingQuote (lexer.cursorAt start)).sliceFrom (start + 1)) := by
    refine sliceFrom_eq hle hclose ?_
    rw [List.length_append, hquote]
    omega
  rw [string, cursorAt_eq hle, pure_bind, Lexer.string]
  dsimp only
  split
  · rw [errorAt_eq _ hline hstart, pure_bind]
  · rw [htext, pure_bind, tokenTo_eq _ _ hle hbehind, pure_bind]

/-- The end of a number is reached by moving on, with a dot or without one. -/
theorem exists_past_numberEnd (here : Cursor) : ∃ l, here.Past l (Lexer.numberEnd here) := by
  have hwhole := here.past_takeWhile isDigit
  unfold Lexer.numberEnd
  dsimp only
  split
  · have hdot := (here.advanceWhile isDigit).past_take_one
    exact ⟨_, hwhole.trans (hdot.trans (Cursor.past_takeWhile _ isDigit))⟩
  · exact ⟨_, hwhole⟩

/-- The rule for numbers is not refused within the source. -/
theorem number_eq (h : start ≤ lexer.chars.size) :
    number lexer start = pure (lexer.number start) := by
  obtain ⟨l, hstop⟩ := exists_past_numberEnd (lexer.cursorAt start)
  rw [number, cursorAt_eq h, pure_bind]
  exact spelledTo_eq _ h hstop

/-- The rule for reserved words is not refused within the source. -/
theorem keyword?_eq (h : start ≤ lexer.chars.size) :
    keyword? lexer start = pure (lexer.keyword? start) := by
  rw [keyword?, cursorAt_eq h, pure_bind]
  rfl

/-- The rule for names is not refused within the source. -/
theorem identifier_eq (h : start ≤ lexer.chars.size) :
    identifier lexer start = pure (lexer.identifier start) := by
  have hstop := (lexer.cursorAt start).past_takeWhile isAlphaNumeric
  rw [identifier, cursorAt_eq h, pure_bind]
  exact spelledTo_eq _ h hstop

/-- **Recognition stays within the source** where a character stands, on a line that has begun. -/
theorem tokenAt_eq (hline : line.start ≤ index) (hindex : index < lexer.chars.size) :
    tokenAt lexer line index = pure (lexer.tokenAt line index) := by
  have hle := Nat.le_of_lt hindex
  have hc : lexer.chars[index]? = some lexer.chars[index] := Array.getElem?_eq_getElem hindex
  generalize lexer.chars[index] = c at hc
  obtain ⟨more, hrest⟩ := Lexer.exists_rest hc
  rw [tokenAt, charAt_eq hc, pure_bind, operator?_eq hle, pure_bind, Lexer.tokenAt,
    Lexer.current_cursorAt hrest]
  cases lexer.operator? index with
  | some token => rfl
  | none =>
    dsimp only
    split
    · exact string_eq hline hindex
    · split
      · rw [number_eq hle, pure_bind]
      · rw [keyword?_eq hle, pure_bind]
        cases lexer.keyword? index with
        | some token => rfl
        | none =>
          dsimp only
          split
          · rw [identifier_eq hle, pure_bind]
          · rw [errorAt_eq _ hline hindex, pure_bind]

/-- The line has to have begun: up to a character before it there is no text. -/
example : tokenAt (Lexer.ofString "# é" false) ⟨2, 2⟩ 0 = .error (.text 2 1) := by decide

/-! ## The decisions -/

/-- **A decision stays within the source**, as long as the line of the state has begun or there is an
error already. -/
theorem step_eq (hline : state.error = none → state.line.start ≤ index)
    (hindex : index < lexer.chars.size) :
    step lexer state index = pure (ScanState.step lexer state index) := by
  have hc : lexer.chars[index]? = some lexer.chars[index] := Array.getElem?_eq_getElem hindex
  generalize lexer.chars[index] = c at hc
  rw [step, ScanState.step]
  split
  · rfl
  · rename_i hfree
    have herror : state.error = none := by
      rw [Bool.or_eq_true, not_or, Option.not_isSome_iff_eq_none] at hfree
      exact hfree.1
    rw [charAt_eq hc, pure_bind, hc]
    dsimp only
    split
    · rfl
    split
    · rfl
    rw [commentStarts_eq (Nat.le_of_lt hindex), pure_bind]
    split
    · rfl
    -- only here the line matters: an error quotes it
    rw [tokenAt_eq (hline herror) hindex, pure_bind]
    cases lexer.tokenAt state.line index <;> rfl

/-- **The decisions in turn stay within the source**: they lead through the states of the scan, and the
line of each of them has begun. By induction on the number of decisions. -/
theorem after_eq {count : Nat} (hcount : count ≤ lexer.chars.size) :
    after lexer lexer.ready count = pure (lexer.stateAt count) := by
  induction count with
  | zero => rfl
  | succ count ih =>
    have hbefore := ih (Nat.le_of_succ_le hcount)
    -- the invariant of scanning says where the line starts, until an error ends all decisions
    have hline : (lexer.stateAt count).error = none → (lexer.stateAt count).line.start ≤ count :=
      fun herror => (Lexer.sound_stateAt herror).line_start_le
    unfold after at hbefore ⊢
    rw [List.range_succ, List.foldlM_append, hbefore, pure_bind, List.foldlM_cons,
      step_eq hline hcount, pure_bind, List.foldlM_nil, Lexer.stateAt_succ]

/-- **A whole bounded scan is not refused**, and it is the scan. -/
theorem run_eq (lexer : Lexer) : run lexer = pure lexer.run := by
  rw [run, ← Lexer.ready, after_eq (Nat.le_refl _), pure_bind]
  rfl

end Bounded

/-- Every token that is emitted covers something of the source and nothing behind its end, whether an
error comes later or not. -/
theorem Lexer.tokens_within (lexer : Lexer) : ∀ token ∈ lexer.run.tokens.toList,
    1 ≤ token.length ∧ token.stop ≤ lexer.chars.toList.length := by
  obtain ⟨rest, reading, -, htokens⟩ := lexer.exists_reading_of_run
  rw [htokens]
  intro token htoken
  obtain ⟨-, hlength, hstop, -⟩ := reading.cut_token htoken
  exact ⟨hlength, hstop⟩

/-- **A scan never leaves its source**: asked for without clamping, every character, place, length and
text is there, and the results are the same. No token is empty or goes on behind the end. -/
theorem scan_within_bounds (source : String) (strict : Bool) :
    Bounded.run (Lexer.ofString source strict) = .ok (Lexer.ofString source strict).run ∧
      ∀ token ∈ (Lexer.ofString source strict).run.tokens.toList,
        1 ≤ token.length ∧ token.stop ≤ source.length := by
  refine ⟨Bounded.run_eq _, ?_⟩
  rw [← String.length_toList]
  exact Lexer.tokens_within (Lexer.ofString source strict)

end LoxTools
