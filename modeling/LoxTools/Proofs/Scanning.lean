import LoxTools.Lexer.Scan
import LoxTools.Proofs.Reading
import LoxTools.Proofs.Recognition

/-!
# Scanning follows a reading

Scanning decides at every position, also inside tokens and comments. Over a whole gap, a whole
lexeme or a whole reading these decisions come to what one would do by jumping:

* `Between.over_gap` — over a gap only the line moves on;
* `Between.over_lexeme` — over a lexeme its token is emitted;
* `Between.over_pieces` — over several pieces, all of their tokens;
* `Lexer.scan_eq_ok` and `Lexer.scan_eq_error` — so a reading of the whole source settles the scan;
* `ScanState.Reported` — what is emitted is reported at once, so `Lexer.log_eq` tells the whole log.

The invariant between two tokens is `ScanState.Between`. A comment may be open there; the text
ahead is then at the end of its line, which is where the comment is closed.
-/

namespace LoxTools

/-- The line that is reached from a line by passing some text. Only line feeds matter; this is what a
gap does to the line, while a line feed inside a string is passed over with its token. -/
def Line.through (line : Line) (index : Nat) : List Char → Line
  | [] => line
  | c :: more => (if c = '\n' then line.next index else line).through (index + 1) more

theorem Line.through_append (line : Line) (index : Nat) (text more : List Char) :
    line.through index (text ++ more) =
      (line.through index text).through (index + text.length) more := by
  induction text generalizing line index with
  | nil => rfl
  | cons c text ih =>
    rw [List.cons_append, Line.through, ih, Line.through, List.length_cons, Nat.add_assoc,
      Nat.add_comm 1]

theorem Line.through_of_not_mem (line : Line) (index : Nat) {text : List Char}
    (h : '\n' ∉ text) : line.through index text = line := by
  induction text generalizing index with
  | nil => rfl
  | cons c text ih =>
    rw [List.mem_cons, not_or] at h
    rw [Line.through, if_neg (Ne.symm h.1), ih _ h.2]

/-- A comment does not end its line: the line feed behind it does. -/
theorem Line.through_comment (line : Line) (index : Nat) {body : List Char} (gap : List Char)
    (h : '\n' ∉ body) :
    line.through index ('/' :: '/' :: (body ++ gap)) =
      line.through (index + (body.length + 2)) gap := by
  have hcomment : '\n' ∉ '/' :: '/' :: body := by simp [h]
  rw [← List.cons_append, ← List.cons_append, Line.through_append,
    Line.through_of_not_mem _ _ hcomment, List.length_cons, List.length_cons]

/-- The line behind some pieces: lines end in gaps only, since the line feeds in a string belong to its
token. -/
def Piece.lineAfter (line : Line) (index : Nat) : List Piece → Line
  | [] => line
  | piece :: pieces =>
    lineAfter (line.through index piece.gap) (index + piece.spelling.length) pieces

theorem Piece.lineAfter_append (line : Line) (index : Nat) (pieces more : List Piece) :
    lineAfter line index (pieces ++ more) =
      lineAfter (lineAfter line index pieces) (index + (spell pieces).length) more := by
  induction pieces generalizing line index with
  | nil => rfl
  | cons piece pieces ih =>
    rw [List.cons_append, lineAfter, lineAfter, ih, spell_cons, length_spelling, List.length_append,
      List.length_append]
    simp only [Nat.add_assoc]

namespace ScanState

variable {lexer : Lexer} {state : ScanState} {index count : Nat} {c : Char}
  {text gap more after : List Char}

/-- The state that `count` positions from `first` on lead to. Runs are cut and joined as such stretches.
-/
def along (lexer : Lexer) (state : ScanState) (first count : Nat) : ScanState :=
  (List.range' first count).foldl (step lexer) state

theorem toList_emit (state : ScanState) (token : Token) :
    (state.emit token).tokens.toList = state.tokens.toList ++ [token] :=
  Array.toList_push

/-- Several more tokens, and their reports. Scanning emits them one by one; over a list of pieces they
are told together. -/
def emitAll (state : ScanState) (tokens : List Token) : ScanState :=
  { state with
    tokens := state.tokens ++ tokens.toArray
    events := state.events ++ (tokens.map tokenEvent).toArray }

theorem emitAll_nil (state : ScanState) : state.emitAll [] = state := by
  rw [emitAll, List.map_nil, Array.append_empty, Array.append_empty]

theorem emitAll_cons (state : ScanState) (token : Token) (tokens : List Token) :
    state.emitAll (token :: tokens) = (state.emit token).emitAll tokens := by
  have hpush : ∀ {α : Type} (xs : Array α) (x : α) (l : List α),
      xs ++ (x :: l).toArray = xs.push x ++ l.toArray := by
    intro α xs x l
    apply Array.ext'
    simp
  rw [emitAll, List.map_cons, hpush, hpush]
  rfl

theorem after_eq_along (lexer : Lexer) (state : ScanState) (count : Nat) :
    state.after lexer count = state.along lexer 0 count := by
  rw [ScanState.after, along, List.range_eq_range']

theorem along_succ (lexer : Lexer) (state : ScanState) (first count : Nat) :
    state.along lexer first (count + 1) = (step lexer state first).along lexer (first + 1) count := by
  rw [along, List.range'_succ, List.foldl_cons]
  rfl

/-- A stretch can be cut into two, the second of which starts from the state behind the first. -/
theorem along_add (lexer : Lexer) (state : ScanState) (first m n : Nat) :
    state.along lexer first (m + n) = (state.along lexer first m).along lexer (first + m) n := by
  rw [along, along, along, ← List.foldl_append, ← List.range'_append, Nat.one_mul]

/-- Positions that change nothing lead nowhere. This is what happens inside of tokens and comments. -/
theorem along_of_step_eq (h : ∀ i, index ≤ i → i < index + count → step lexer state i = state) :
    state.along lexer index count = state := by
  induction count generalizing index with
  | zero => rfl
  | succ n ih =>
    rw [along_succ, h index (Nat.le_refl _) (by omega)]
    exact ih fun i hi hn => h i (by omega) (by omega)

/-! ## Between tokens -/

/-- No error so far, and the token emitted last ends here or before. This is the invariant at the places
where a piece begins or ends; inside a token it does not hold, which is why a token is passed over as a
whole. -/
structure Between (state : ScanState) (index : Nat) : Prop where
  /-- nothing was at fault -/
  error : state.error = none
  /-- nothing from here on is inside a token -/
  past : ∀ token ∈ state.tokens.back?, token.stop ≤ index

theorem Between.mono {i : Nat} (h : state.Between index) (hi : index ≤ i) : state.Between i :=
  ⟨h.error, fun token htoken => Nat.le_trans (h.past token htoken) hi⟩

/-- Only the tokens matter: further along the line and the comment may be others. -/
theorem Between.moved {i : Nat} (h : state.Between index) (hi : index ≤ i) (line : Line)
    (inComment : Bool) :
    ScanState.Between { state with line := line, inComment := inComment } i :=
  ⟨h.error, (h.mono hi).past⟩

/-- Between two tokens no position is passed over. -/
theorem Between.covers_eq (h : state.Between index) : state.covers index = false := by
  rw [covers]
  cases hback : state.tokens.back? with
  | none => rfl
  | some token =>
    have hstop := h.past token hback
    simp only [Token.contains, Bool.and_eq_false_iff, decide_eq_false_iff_not]
    omega

theorem between_initial (state : ScanState) (herror : state.error = none)
    (htokens : state.tokens = #[]) (index : Nat) : state.Between index := by
  refine ⟨herror, fun token htoken => ?_⟩
  rw [htokens] at htoken
  cases htoken

/-- An error stops all decisions. -/
theorem step_of_error (h : state.error.isSome = true) : step lexer state index = state := by
  rw [step, h, Bool.true_or, if_pos rfl]

/-- A position inside the token emitted last is passed over. -/
theorem step_of_covers (h : state.covers index = true) : step lexer state index = state := by
  rw [step, h, Bool.or_true, if_pos rfl]

/-- The decision at a position that is not passed over, by the character that stands there. This is the
only lemma that opens the definition of a step; the lemmas below take one of its branches each. -/
theorem step_eq (herror : state.error = none) (hcovers : state.covers index = false)
    (hrest : lexer.rest index = c :: more) :
    step lexer state index =
      if c == '\n' then state.endLine index
      else if state.inComment || isBlank c then state
      else if lexer.commentStarts index then { state with inComment := true }
      else match lexer.tokenAt state.line index with
        | .ok token => state.emit token
        | .error error => { state with error := some error } := by
  rw [step, herror, hcovers, Lexer.getElem?_of_rest hrest]
  rfl

theorem Between.step_eq (h : state.Between index) (hrest : lexer.rest index = c :: more) :
    step lexer state index =
      if c == '\n' then state.endLine index
      else if state.inComment || isBlank c then state
      else if lexer.commentStarts index then { state with inComment := true }
      else match lexer.tokenAt state.line index with
        | .ok token => state.emit token
        | .error error => { state with error := some error } :=
  ScanState.step_eq h.error h.covers_eq hrest

/-- A line feed ends the line, and the comment that is open on it. -/
theorem Between.step_lineFeed (h : state.Between index) (hrest : lexer.rest index = '\n' :: more) :
    step lexer state index = state.endLine index := by
  rw [h.step_eq hrest]
  rfl

/-- A blank changes nothing, unless it is a line feed. -/
theorem Between.step_blank (h : state.Between index) (hrest : lexer.rest index = c :: more)
    (hblank : isBlank c = true) (hfeed : c ≠ '\n') : step lexer state index = state := by
  rw [h.step_eq hrest, if_neg (by simpa using hfeed), hblank, Bool.or_true, if_pos rfl]

/-- In a comment nothing matters but the end of the line. -/
theorem Between.step_comment (h : state.Between index) (hrest : lexer.rest index = c :: more)
    (hopen : state.inComment = true) (hc : c ≠ '\n') : step lexer state index = state := by
  rw [h.step_eq hrest, if_neg (by simpa using hc), hopen]
  rfl

/-! ## Over a gap -/

/-- An open comment takes everything up to the end of its line. -/
theorem Between.over_comment (h : state.Between index) (hrest : lexer.rest index = text ++ after)
    (hopen : state.inComment = true) (htext : '\n' ∉ text) :
    state.along lexer index text.length = state := by
  induction text generalizing index with
  | nil => rfl
  | cons c text ih =>
    rw [List.mem_cons, not_or] at htext
    rw [List.length_cons, along_succ, h.step_comment hrest hopen (Ne.symm htext.1)]
    exact ih (h.mono (Nat.le_succ index)) (Lexer.rest_succ hrest) htext.2

/-- Two slashes open a comment. -/
theorem Between.step_slashes (h : state.Between index)
    (hrest : lexer.rest index = '/' :: '/' :: more) (hclosed : state.inComment = false) :
    step lexer state index = { state with inComment := true } := by
  have hstarts : lexer.commentStarts index = true :=
    Lexer.commentStarts_eq.mpr ⟨more, hrest.symm⟩
  rw [h.step_eq hrest, hclosed, hstarts]
  rfl

/-- **Over a comment**, its slashes and its body, nothing happens but that it is open behind them. -/
theorem Between.over_slashes (h : state.Between index) (hclosed : state.inComment = false)
    (hrest : lexer.rest index = '/' :: '/' :: (text ++ after)) (htext : '\n' ∉ text) :
    ScanState.Between { state with inComment := true } (index + (text.length + 2)) ∧
      state.along lexer index (text.length + 2) = { state with inComment := true } := by
  have hopened : ScanState.Between { state with inComment := true } (index + 1) :=
    h.moved (Nat.le_succ index) state.line true
  -- the first slash opens the comment; its second one and the body are inside
  have hinside : lexer.rest (index + 1) = ('/' :: text) ++ after := Lexer.rest_succ hrest
  have hslash : '\n' ∉ '/' :: text := by simp [htext]
  refine ⟨h.moved (Nat.le_add_right _ _) state.line true, ?_⟩
  rw [along_succ, h.step_slashes hrest hclosed]
  exact hopened.over_comment hinside rfl hslash

/-- **Over a gap** only the line moves on. A comment may stay open, up to the end of its line. By
induction on the gap: a blank is one step, and a comment takes its slashes and its body at once. -/
theorem Between.over_gap (hgap : Gap gap after) (h : state.Between index)
    (hcomment : state.inComment = true → EndsLine (gap ++ after))
    (hrest : lexer.rest index = gap ++ after) :
    ∃ inComment, (inComment = true → EndsLine after) ∧
      state.along lexer index gap.length =
        { state with line := state.line.through index gap, inComment := inComment } := by
  induction hgap generalizing state index with
  | nil => exact ⟨state.inComment, hcomment, rfl⟩
  | @blank c gap after hc hgap ih =>
    have hnext := Lexer.rest_succ hrest
    rw [List.length_cons, along_succ, Line.through]
    by_cases hfeed : c = '\n'
    · subst hfeed
      rw [h.step_lineFeed hrest, if_pos rfl]
      exact ih (h.moved (Nat.le_succ index) _ _) nofun hnext
    · -- an open comment would stand at the end of its line
      have hclosed : state.inComment = false := by
        refine Bool.eq_false_iff.mpr fun hopen => hfeed ?_
        simpa using stopsBefore_cons.mp (hcomment hopen)
      rw [h.step_blank hrest hc hfeed, if_neg hfeed]
      exact ih (h.mono (Nat.le_succ index)) (by rw [hclosed]; nofun) hnext
  | @comment body gap after hbody hends hgap ih =>
    have hclosed : state.inComment = false := by
      refine Bool.eq_false_iff.mpr fun hopen => ?_
      exact absurd (stopsBefore_cons.mp (hcomment hopen)) (by decide)
    have hcommentRest : lexer.rest index = '/' :: '/' :: (body ++ (gap ++ after)) := by
      rw [hrest, List.cons_append, List.cons_append, List.append_assoc]
    have hgapRest : lexer.rest (index + (body.length + 2)) = gap ++ after :=
      @Lexer.rest_add lexer index ('/' :: '/' :: body) (gap ++ after) hcommentRest
    obtain ⟨hopened, hslashes⟩ := h.over_slashes hclosed hcommentRest hbody
    obtain ⟨inComment, hafter, hover⟩ := ih hopened (fun _ => hends) hgapRest
    have hlen : ('/' :: '/' :: (body ++ gap)).length = body.length + 2 + gap.length := by
      simp only [List.length_cons, List.length_append]
      omega
    refine ⟨inComment, hafter, ?_⟩
    rw [hlen, along_add, hslashes, hover, Line.through_comment _ _ _ hbody]

/-! ## Over a lexeme -/

/-- The token emitted last ends where its lexeme does, so behind it scanning is between two tokens
again. -/
theorem Between.emit (h : state.Between index) (lexeme : Lexeme) :
    (state.emit (lexeme.token index)).Between (index + lexeme.spelling.length) := by
  refine ⟨h.error, fun token htoken => ?_⟩
  rw [ScanState.emit, Array.back?_push] at htoken
  obtain rfl := Option.some.inj htoken
  exact Nat.le_refl _

/-- Where a lexeme fits its token is emitted, as recognition follows the grammar. -/
theorem Between.step_lexeme {lexeme : Lexeme} (h : state.Between index)
    (hclosed : state.inComment = false) (hrest : lexer.rest index = lexeme.spelling ++ after)
    (fits : lexeme.Fits lexer.strictKeywords after) :
    step lexer state index = state.emit (lexeme.token index) := by
  obtain ⟨c, more, hc, hblank⟩ := fits.wellFormed.head_not_blank
  have hfeed : (c == '\n') = false := beq_false_of_ne (ne_lineFeed_of_not_blank hblank)
  have hstarts : lexer.commentStarts index = false := by
    refine Bool.eq_false_iff.mpr fun hslashes => fits.not_slashes ?_
    rw [← hrest]
    exact Lexer.commentStarts_eq.mp hslashes
  rw [h.step_eq (hrest.trans (congrArg (· ++ after) hc)), hfeed, hclosed, hblank, hstarts,
    Lexer.tokenAt_eq_ok hrest fits]
  rfl

/-- A token just emitted covers all of its lexeme. -/
theorem covers_emit (state : ScanState) {lexeme : Lexeme} {i : Nat} (hi : index ≤ i)
    (hstop : i < index + lexeme.spelling.length) :
    (state.emit (lexeme.token index)).covers i = true := by
  simp [covers, ScanState.emit, Token.contains, hi, hstop]

/-- The positions of a lexeme behind its first one change nothing, since they lie in the token just
emitted. -/
theorem along_emit {lexeme : Lexeme} (hcount : count + 1 ≤ lexeme.spelling.length) :
    (state.emit (lexeme.token index)).along lexer (index + 1) count =
      state.emit (lexeme.token index) :=
  along_of_step_eq fun _ hi hn => step_of_covers (covers_emit state (by omega) (by omega))

/-- **Over a lexeme** its token is emitted; the positions inside the token are passed over. -/
theorem Between.over_lexeme {lexeme : Lexeme} (h : state.Between index)
    (hclosed : state.inComment = false) (hrest : lexer.rest index = lexeme.spelling ++ after)
    (fits : lexeme.Fits lexer.strictKeywords after) :
    state.along lexer index lexeme.spelling.length = state.emit (lexeme.token index) := by
  obtain ⟨c, more, hc, -⟩ := fits.wellFormed.head_not_blank
  have hlen : lexeme.spelling.length = more.length + 1 := by rw [hc, List.length_cons]
  rw [hlen, along_succ, h.step_lexeme hclosed hrest fits, along_emit hlen.ge]

/-! ## Over pieces -/

/-- The state behind some pieces: their tokens are emitted, and the line moved on in their gaps. -/
def passed (state : ScanState) (index : Nat) (pieces : List Piece) (inComment : Bool) :
    ScanState :=
  { state.emitAll (Piece.tokens index pieces) with
    line := Piece.lineAfter state.line index pieces
    inComment := inComment }

/-- **Over several pieces** their tokens are emitted in order. By induction on the pieces; the state
behind the first of them is again between two tokens. -/
theorem Between.over_pieces (pieces : List Piece)
    (fit : Piece.Fit lexer.strictKeywords pieces after) (h : state.Between index)
    (hcomment : state.inComment = true → EndsLine (Piece.spell pieces ++ after))
    (hrest : lexer.rest index = Piece.spell pieces ++ after) :
    ∃ inComment, (inComment = true → EndsLine after) ∧
      (state.passed index pieces inComment).Between (index + (Piece.spell pieces).length) ∧
      state.along lexer index (Piece.spell pieces).length =
        state.passed index pieces inComment := by
  induction pieces generalizing state index with
  | nil =>
    refine ⟨state.inComment, hcomment, ?_, ?_⟩
    · rw [passed, Piece.tokens, emitAll_nil]
      exact h
    · rw [passed, Piece.tokens, emitAll_nil]
      rfl
  | cons piece pieces ih =>
    obtain ⟨hgap, fits, fit⟩ := fit
    simp only [Piece.spell_cons, List.append_assoc] at hcomment hrest
    obtain ⟨inComment, hends, hgapped⟩ := h.over_gap hgap hcomment hrest
    have hlexeme := Lexer.rest_add hrest
    -- a comment that is open goes up to the end of its line, and there is a lexeme
    obtain rfl : inComment = false :=
      Bool.eq_false_iff.mpr fun hopen => fits.wellFormed.not_endsLine _ (hends hopen)
    have hbetween : ScanState.Between { state with
        line := state.line.through index piece.gap
        inComment := false } (index + piece.gap.length) :=
      h.moved (Nat.le_add_right _ _) _ _
    have hemitted := hbetween.over_lexeme rfl hlexeme fits
    obtain ⟨inComment, hafter, hpassed, hover⟩ :=
      ih fit (hbetween.emit piece.lexeme) (fun hopen => absurd hopen Bool.false_ne_true)
        (Lexer.rest_add hlexeme)
    have hstate : state.passed index (piece :: pieces) inComment =
        ScanState.passed (ScanState.emit { state with
            line := state.line.through index piece.gap
            inComment := false } (piece.lexeme.token (index + piece.gap.length)))
          (index + piece.gap.length + piece.lexeme.spelling.length) pieces inComment := by
      rw [passed, passed, Piece.tokens_cons, Piece.lineAfter, emitAll_cons, Piece.length_spelling,
        ← Nat.add_assoc]
      rfl
    refine ⟨inComment, hafter, ?_, ?_⟩
    · rw [hstate]
      have hlen : index + (Piece.spell (piece :: pieces)).length =
          index + piece.gap.length + piece.lexeme.spelling.length +
            (Piece.spell pieces).length := by
        rw [Piece.spell_cons, List.length_append, List.length_append]
        omega
      rw [hlen]
      exact hpassed
    · rw [hstate, Piece.spell_cons, List.length_append, List.length_append, along_add, hgapped,
        along_add, hemitted, hover]

/-! ## At a fault -/

/-- At a fault the error is found, with the line that scanning is in. -/
theorem Between.step_stuck {fault : LexFault} (h : state.Between index)
    (hclosed : state.inComment = false) (hstuck : Stuck fault (lexer.rest index)) :
    step lexer state index =
      { state with error := some (lexer.errorAt fault state.line index) } := by
  obtain ⟨c, more, hc, hblank, hslash⟩ := hstuck.head
  have hfeed : (c == '\n') = false := beq_false_of_ne (ne_lineFeed_of_not_blank hblank)
  have hstarts : lexer.commentStarts index = false := by
    refine Bool.eq_false_iff.mpr fun hslashes => ?_
    obtain ⟨tail, htail⟩ := Lexer.commentStarts_eq.mp hslashes
    exact hslash (List.cons.inj (hc.symm.trans htail.symm)).1
  rw [h.step_eq hc, hfeed, hclosed, hblank, hstarts, Lexer.tokenAt_eq_error hstuck]
  rfl

/-- Behind an error nothing changes any more. -/
theorem along_of_error (h : state.error.isSome = true) : state.along lexer index count = state := by
  exact along_of_step_eq fun i _ _ => step_of_error h

end ScanState

/-! ## Over a reading -/

namespace Reading

variable {strict : Bool} {source rest : List Char}

/-- The line on which the rest begins. -/
def line (reading : Reading strict source rest) : Line :=
  (Piece.lineAfter Line.first 0 reading.pieces).through
    (Piece.spell reading.pieces).length reading.last

theorem length_source (reading : Reading strict source rest) :
    source.length = reading.stop + rest.length := by
  have h := congrArg List.length reading.source_eq
  rw [List.length_append, List.length_append] at h
  rw [h, stop, Nat.add_assoc]

theorem drop_stop (reading : Reading strict source rest) : source.drop reading.stop = rest := by
  have h := congrArg (List.drop reading.stop) reading.source_eq
  rwa [← List.append_assoc, List.drop_left' (by rw [stop, List.length_append])] at h

end Reading

/-- The state that a reading leads to. Whether a comment is open there is not told by the reading, only
that the rest is then at the end of a line. -/
def ScanState.read {strict : Bool} {source rest : List Char} (state : ScanState)
    (reading : Reading strict source rest) (inComment : Bool) : ScanState :=
  { state.emitAll reading.tokens with
    line := reading.line
    inComment := inComment }

namespace Lexer

variable {lexer : Lexer} {rest : List Char}

/-- The state that scanning starts from. -/
def ready (lexer : Lexer) : ScanState :=
  ScanState.initial.report lexer.startEvent

/-- A scan is the result of the state behind all positions. -/
theorem scan_eq (lexer : Lexer) :
    lexer.scan = (lexer.ready.after lexer lexer.chars.size).result :=
  rfl

/-- The state before the decision at a position. Statements about a scan in progress are about these
states. -/
def stateAt (lexer : Lexer) (index : Nat) : ScanState :=
  lexer.ready.after lexer index

theorem after_succ (lexer : Lexer) (state : ScanState) (count : Nat) :
    state.after lexer (count + 1) = ScanState.step lexer (state.after lexer count) count := by
  rw [ScanState.after, List.range_succ, List.foldl_append]
  rfl

theorem stateAt_succ (lexer : Lexer) (index : Nat) :
    lexer.stateAt (index + 1) = ScanState.step lexer (lexer.stateAt index) index :=
  after_succ lexer lexer.ready index

theorem stateAt_add (lexer : Lexer) (index count : Nat) :
    lexer.stateAt (index + count) = (lexer.stateAt index).along lexer index count := by
  rw [stateAt, stateAt, ScanState.after_eq_along, ScanState.after_eq_along, ScanState.along_add,
    Nat.zero_add]

/-- Up to the rest of a reading, scanning emits its tokens and reaches its line. This joins the pieces
and the last gap, and all that follows about whole scans comes from it. -/
theorem over_reading (reading : Reading lexer.strictKeywords lexer.chars.toList rest) :
    ∃ inComment, (inComment = true → EndsLine rest) ∧
      (lexer.ready.read reading inComment).Between reading.stop ∧
      lexer.ready.along lexer 0 reading.stop = lexer.ready.read reading inComment := by
  have hready : lexer.ready.Between 0 := ScanState.between_initial _ rfl rfl 0
  have hrest : lexer.rest 0 = Piece.spell reading.pieces ++ (reading.last ++ rest) :=
    reading.source_eq
  obtain ⟨open₁, hends₁, hbetween, hpieces⟩ :=
    hready.over_pieces reading.pieces reading.fit nofun hrest
  obtain ⟨open₂, hends₂, hlast⟩ :=
    hbetween.over_gap reading.last_gap hends₁ (rest_add hrest)
  refine ⟨open₂, hends₂, hbetween.moved ?_ reading.line open₂, ?_⟩
  · rw [Reading.stop, Nat.zero_add]
    exact Nat.le_add_right _ _
  · rw [Reading.stop, ScanState.along_add, hpieces, hlast, Nat.zero_add]
    rfl

/-- A reading of the whole source settles the state that scanning ends in. -/
theorem after_eq_of_reading (reading : Reading lexer.strictKeywords lexer.chars.toList []) :
    ∃ inComment, lexer.ready.after lexer lexer.chars.size =
      lexer.ready.read reading inComment := by
  obtain ⟨inComment, -, -, hover⟩ := over_reading reading
  have hsize : lexer.chars.size = reading.stop := by
    rw [← Array.length_toList, reading.length_source, List.length_nil, Nat.add_zero]
  rw [ScanState.after_eq_along, hsize, hover]
  exact ⟨inComment, rfl⟩

/-- A reading up to a fault settles the state that gets there, which is not in a comment. -/
theorem stateAt_stop {fault : LexFault}
    (reading : Reading lexer.strictKeywords lexer.chars.toList rest) (h : Stuck fault rest) :
    lexer.stateAt reading.stop = lexer.ready.read reading false ∧
      (lexer.ready.read reading false).Between reading.stop := by
  obtain ⟨inComment, hends, hbetween, hover⟩ := over_reading reading
  obtain rfl : inComment = false :=
    Bool.eq_false_iff.mpr fun hopen => h.not_endsLine (hends hopen)
  rw [stateAt, ScanState.after_eq_along, hover]
  exact ⟨rfl, hbetween⟩

/-- **Behind a fault nothing changes any more**: at every later position the state is the one that got
to the fault, with its error. -/
theorem stateAt_of_stuck {fault : LexFault} {index : Nat}
    (reading : Reading lexer.strictKeywords lexer.chars.toList rest) (h : Stuck fault rest)
    (hindex : reading.stop < index) :
    lexer.stateAt index = { lexer.ready.read reading false with
      error := some (lexer.errorAt fault reading.line reading.stop) } := by
  obtain ⟨hstop, hbetween⟩ := stateAt_stop reading h
  obtain ⟨c, more, rfl, -⟩ := h.head
  have hrest : lexer.rest reading.stop = c :: more := reading.drop_stop
  obtain ⟨count, rfl⟩ := Nat.exists_eq_add_of_lt hindex
  rw [Nat.add_assoc, stateAt_add, hstop, ScanState.along_succ, hbetween.step_stuck rfl (hrest ▸ h),
    ScanState.along_of_error rfl]
  rfl

/-- A reading up to a fault settles the state that scanning ends in, which has the error of this fault.
-/
theorem after_eq_of_stuck {fault : LexFault}
    (reading : Reading lexer.strictKeywords lexer.chars.toList rest) (h : Stuck fault rest) :
    lexer.ready.after lexer lexer.chars.size =
      { lexer.ready.read reading false with
        error := some (lexer.errorAt fault reading.line reading.stop) } := by
  obtain ⟨c, more, rfl, -⟩ := h.head
  have hlength := reading.length_source
  rw [Array.length_toList, List.length_cons] at hlength
  exact stateAt_of_stuck reading h (by omega)

/-- **A reading of the whole source gives the scan**: its tokens. -/
theorem scan_eq_ok (reading : Reading lexer.strictKeywords lexer.chars.toList []) :
    lexer.scan = .ok reading.tokens := by
  obtain ⟨inComment, hafter⟩ := after_eq_of_reading reading
  have htokens : (lexer.ready.read reading inComment).tokens = reading.tokens.toArray :=
    Array.empty_append
  rw [scan_eq, hafter, ScanState.result, htokens]
  rfl

/-- **A reading up to a fault gives the scan**: the fault, on its line. -/
theorem scan_eq_error {fault : LexFault}
    (reading : Reading lexer.strictKeywords lexer.chars.toList rest) (h : Stuck fault rest) :
    lexer.scan = .error (lexer.errorAt fault reading.line reading.stop) := by
  rw [scan_eq, after_eq_of_stuck reading h]
  rfl

/-- Every scan comes from a reading, so its outcome tells how far the reading goes. -/
theorem exists_reading_of_ok {tokens : List Token} (h : lexer.scan = .ok tokens) :
    ∃ reading : Reading lexer.strictKeywords lexer.chars.toList [], reading.tokens = tokens := by
  obtain ⟨rest, ⟨reading⟩, rfl | ⟨fault, hstuck⟩⟩ :=
    exists_reading lexer.strictKeywords lexer.chars.toList
  · exact ⟨reading, Except.ok.inj ((scan_eq_ok reading).symm.trans h)⟩
  · rw [scan_eq_error reading hstuck] at h
    cases h

/-- A scan that fails comes from a reading up to the fault that it reports. -/
theorem exists_reading_of_error {error : LexError} (h : lexer.scan = .error error) :
    ∃ (fault : LexFault) (rest : List Char)
      (reading : Reading lexer.strictKeywords lexer.chars.toList rest),
      Stuck fault rest ∧ error = lexer.errorAt fault reading.line reading.stop := by
  obtain ⟨rest, ⟨reading⟩, rfl | ⟨fault, hstuck⟩⟩ :=
    exists_reading lexer.strictKeywords lexer.chars.toList
  · rw [scan_eq_ok reading] at h
    cases h
  · exact ⟨fault, rest, reading, hstuck,
      Except.error.inj (h.symm.trans (scan_eq_error reading hstuck))⟩

theorem tokens_read (reading : Reading lexer.strictKeywords lexer.chars.toList rest)
    (inComment : Bool) : (lexer.ready.read reading inComment).tokens.toList = reading.tokens := by
  simp [ScanState.read, ScanState.emitAll, ready, ScanState.report, ScanState.initial]

/-- **What a run emits**, also if it ends with an error, are the tokens of a reading that goes as far
as it can. -/
theorem tokens_run (reading : Reading lexer.strictKeywords lexer.chars.toList rest)
    (h : rest = [] ∨ ∃ fault, Stuck fault rest) : lexer.run.tokens.toList = reading.tokens := by
  have hrun : lexer.run.tokens = (lexer.ready.after lexer lexer.chars.size).tokens := rfl
  rcases h with rfl | ⟨fault, hstuck⟩
  · obtain ⟨inComment, hafter⟩ := after_eq_of_reading reading
    rw [hrun, hafter, tokens_read]
  · rw [hrun, after_eq_of_stuck reading hstuck]
    exact tokens_read reading false

theorem tokens_run_of_stuck {fault : LexFault}
    (reading : Reading lexer.strictKeywords lexer.chars.toList rest) (h : Stuck fault rest) :
    lexer.run.tokens.toList = reading.tokens :=
  tokens_run reading (Or.inr ⟨fault, h⟩)

/-- Every run comes from a reading, whether it ends with an error or not. -/
theorem exists_reading_of_run (lexer : Lexer) : ∃ (rest : List Char)
    (reading : Reading lexer.strictKeywords lexer.chars.toList rest),
    (rest = [] ∨ ∃ fault, Stuck fault rest) ∧ lexer.run.tokens.toList = reading.tokens := by
  obtain ⟨rest, ⟨reading⟩, hrest⟩ := exists_reading lexer.strictKeywords lexer.chars.toList
  exact ⟨rest, reading, hrest, tokens_run reading hrest⟩

end Lexer

namespace Reading

variable {strict : Bool} {source : String} {rest : List Char}

/-- A reading of a whole source, with the setting that it is read in, gives the scan: all of its tokens.
-/
theorem scan_eq_ok (reading : Reading strict source.toList []) :
    (Lexer.ofString source strict).scan = .ok reading.tokens :=
  @Lexer.scan_eq_ok (Lexer.ofString source strict) reading

/-- A reading of a source up to a fault gives the scan: the fault, where the reading stops. -/
theorem scan_eq_error {fault : LexFault} (reading : Reading strict source.toList rest)
    (h : Stuck fault rest) : (Lexer.ofString source strict).scan =
      .error ((Lexer.ofString source strict).errorAt fault reading.line reading.stop) :=
  @Lexer.scan_eq_error (Lexer.ofString source strict) rest fault reading h

/-- A reading that goes as far as it can gives what is emitted in a run over the source, with an error
at the end or without. -/
theorem tokens_run (reading : Reading strict source.toList rest)
    (h : rest = [] ∨ ∃ fault, Stuck fault rest) :
    (Lexer.ofString source strict).run.tokens.toList = reading.tokens :=
  @Lexer.tokens_run (Lexer.ofString source strict) rest reading h

end Reading

/-! ## What is reported on the way -/

/-- **A state that has told of all its tokens**: it has reported the beginning, and then every token that
it has emitted. -/
def ScanState.Reported (lexer : Lexer) (state : ScanState) : Prop :=
  state.events.toList = lexer.startEvent :: state.tokens.toList.map tokenEvent

namespace ScanState.Reported

variable {lexer : Lexer} {state : ScanState}

/-- A token comes with its report. -/
theorem emit (h : state.Reported lexer) (token : Token) : (state.emit token).Reported lexer := by
  unfold Reported at h ⊢
  simp [ScanState.emit, h]

/-- **Every decision keeps this**: only a token that is emitted is reported. -/
theorem step (h : state.Reported lexer) (index : Nat) :
    (ScanState.step lexer state index).Reported lexer := by
  fun_cases ScanState.step lexer state index
  case case6 token htoken => exact h.emit token
  all_goals exact h

end ScanState.Reported

namespace Lexer

/-- Every state of a run has told of its tokens, by induction on the position. -/
theorem reported_stateAt (lexer : Lexer) (index : Nat) : (lexer.stateAt index).Reported lexer := by
  induction index with
  | zero => rfl
  | succ index ih =>
    rw [stateAt_succ]
    exact ih.step index

/-- **What scanning reports**: its beginning, the tokens emitted, and its end. The last report tells
from the final state whether there was an error. -/
theorem log_eq (lexer : Lexer) :
    lexer.log = lexer.startEvent :: (lexer.run.tokens.toList.map ScanState.tokenEvent ++
      [finishEvent (lexer.stateAt lexer.chars.size)]) := by
  have hlog : lexer.log = ((lexer.stateAt lexer.chars.size).events.push
      (finishEvent (lexer.stateAt lexer.chars.size))).toList := rfl
  rw [hlog, Array.toList_push, lexer.reported_stateAt lexer.chars.size]
  rfl

/-- The levels and messages of these reports. No report of the tool about files has one of them. -/
def reports : List (Log.Level × String) :=
  [(.debug, "scanning source"), (.trace, "token"), (.debug, "scan failed"), (.debug, "scan finished")]

theorem mem_reports {lexer : Lexer} {event : Log.Event} (h : event ∈ lexer.log) :
    (event.level, event.message) ∈ reports := by
  rw [log_eq, List.mem_cons, List.mem_append, List.mem_map, List.mem_singleton] at h
  rcases h with rfl | ⟨token, -, rfl⟩ | rfl
  · simp [reports, startEvent]
  · simp [reports, ScanState.tokenEvent]
  · rw [finishEvent]
    split
    · simp [reports]
    · simp [reports]

end Lexer

end LoxTools
