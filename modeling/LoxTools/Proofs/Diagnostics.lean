import LoxTools.Proofs.Automaton
import LoxTools.Proofs.ScanInvariant
import LoxTools.Proofs.Tokenisation

/-!
# Diagnostics point at the right place

An error names a line and quotes it up to the offending character. Which line that is follows from
the line feeds before the character: those inside a string do not end a line, all others do.

* `Reading.line_eq` — the line that a reading reaches is the one behind the line feeds it passed;
* `InComment` — the positions of comments;
* `PointsAt` — what a diagnostic says about its source, and `scan_error_points_at` that it does.
-/

namespace LoxTools

/-! ## At the end of a reading -/

namespace Lexer

variable {lexer : Lexer} {rest : List Char}

/-- The state that a reading leads to keeps the invariant of scans at the position where the reading
stops, and none of its tokens reaches over this position. A comment may be open there only if its line
ends there. -/
theorem sound_read (reading : Reading lexer.strictKeywords lexer.chars.toList rest) :
    ∃ inComment, (inComment = true → EndsLine rest) ∧
      (lexer.ready.read reading inComment).Sound lexer reading.stop ∧
      (lexer.ready.read reading inComment).covers reading.stop = false := by
  obtain ⟨inComment, hends, hbetween, hover⟩ := over_reading reading
  have hstop : reading.stop ≤ lexer.chars.size := by
    rw [← Array.length_toList, reading.length_source]
    exact Nat.le_add_right _ _
  have hafter : lexer.ready.after lexer reading.stop = lexer.ready.read reading inComment :=
    (ScanState.after_eq_along ..).trans hover
  have hsound := sound_after hstop (by rw [hafter]; rfl)
  rw [hafter] at hsound
  exact ⟨inComment, hends, hsound, hbetween.covers_eq⟩

end Lexer

/-- **The line of a reading** is the one behind the line feeds that it passed outside of tokens. Those
inside of tokens are passed as a part of the token, so they do not count. -/
theorem Reading.line_eq {lexer : Lexer} {rest : List Char}
    (reading : Reading lexer.strictKeywords lexer.chars.toList rest) :
    reading.line = Line.behind (openFeeds lexer.chars.toList reading.tokens reading.stop) := by
  obtain ⟨inComment, -, hsound, -⟩ := Lexer.sound_read reading
  have hline := hsound.line
  rwa [Lexer.tokens_read] at hline

/-- The tokens of a reading have ended where it stops. -/
theorem Reading.ended {lexer : Lexer} {rest : List Char}
    (reading : Reading lexer.strictKeywords lexer.chars.toList rest) :
    ∀ token ∈ reading.tokens, token.start < reading.stop ∧ token.stop ≤ reading.stop := by
  obtain ⟨inComment, -, hsound, hcovers⟩ := Lexer.sound_read reading
  intro token htoken
  rw [← Lexer.tokens_read reading inComment] at htoken
  exact ⟨hsound.begun token htoken, hsound.stop_le hcovers token htoken⟩

/-! ## Diagnostics -/

/-- **A position in a comment**: two slashes stand outside of all tokens, there or before, and their
line goes on. -/
def InComment (source : List Char) (tokens : List Token) (index : Nat) : Prop :=
  ∃ i ≤ index, ['/', '/'] <+: source.drop i ∧ Loose tokens i ∧
    ∀ j, i ≤ j → j ≤ index → source[j]? ≠ some '\n'

/-- The character that a fault is about: the quote that opens a string, or the character that begins no
lexeme. -/
def LexFault.character : LexFault → Char
  | .unterminatedString => '"'
  | .unexpectedCharacter found => found

/-- Where the line of a position starts: behind the last line feed before it that lies inside no
token, or at the beginning of the source. -/
def lineStart (source : List Char) (tokens : List Token) (position : Nat) : Nat :=
  (openFeeds source tokens position).sup (· + 1)

/-- **A diagnostic that points at the right place**, with the tokens in front of it. -/
structure PointsAt (source : List Char) (tokens : List Token) (error : LexError) : Prop where
  /-- the position is inside the source -/
  inside : error.position < source.length
  /-- the character that is at fault stands there -/
  found : source[error.position]? = some error.fault.character
  /-- the line is counted by the line feeds before it that lie inside no token -/
  line : error.line = 1 + (openFeeds source tokens error.position).card
  /-- the context is the line up to the position and with it -/
  context : error.context.toList =
    cut source (lineStart source tokens error.position) (error.position + 1)
  /-- the context ends with the character at fault -/
  last : error.context.toList.getLast? = some error.fault.character
  /-- nothing of a comment is quoted -/
  uncommented : ∀ index, lineStart source tokens error.position ≤ index →
    index ≤ error.position → ¬ InComment source tokens index
  /-- a line feed is quoted only as a part of a string, and then the whole string is quoted -/
  feeds : ∀ index, lineStart source tokens error.position ≤ index → index ≤ error.position →
    source[index]? = some '\n' → ∃ token ∈ tokens, token.kind = .string ∧
      token.contains index = true ∧ lineStart source tokens error.position ≤ token.start ∧
      token.stop ≤ error.position

/-! ## What is quoted -/

/-- Among lexemes only strings go over lines: one with a line feed in its spelling is a string. -/
theorem Lexeme.WellFormed.kind_of_lineFeed {lexeme : Lexeme} (h : lexeme.WellFormed)
    (hfeed : '\n' ∈ lexeme.spelling) : lexeme.kind = .string := by
  by_contra hstring
  by_cases hslash : lexeme.kind = .slash
  · obtain ⟨kind, text⟩ := lexeme
    obtain rfl : kind = .slash := hslash
    cases h with
    | fixed hs => simp [Lexeme.spelling, TokenKind.spelling?] at hfeed
  · have hplain := Walk.isPlain_of_wellFormed h hslash hstring _ hfeed
    cases hplain

/-- A cut that goes just beyond a position ends with the character at this position. -/
theorem getLast?_cut {source : List Char} {first last : Nat} {c : Char} (hfirst : first ≤ last)
    (hc : source[last]? = some c) : (cut source first (last + 1)).getLast? = some c := by
  have hlast : (source.drop first)[last + 1 - first - 1]? = some c := by
    rw [List.getElem?_drop, ← hc]
    congr 1
    omega
  rw [cut, List.getLast?_take, if_neg (by omega), hlast, Option.some_or]

/-- The context of an error is the part of the source from the beginning of its line to the character at
fault. -/
theorem Lexer.toList_context (lexer : Lexer) (line : Line) (index : Nat) :
    (lexer.context line index).toList = cut lexer.chars.toList line.start (index + 1) := by
  rw [context, Cursor.slice_eq, String.toList_ofList]
  rfl

namespace ScanState.Sound

variable {lexer : Lexer} {state : ScanState} {count index : Nat} {token : Token}

/-- The line that a scan has reached starts behind the last line feed outside of the tokens that it has
emitted. -/
theorem line_start_eq (h : state.Sound lexer count) :
    state.line.start = lineStart lexer.chars.toList state.tokens.toList count := by
  rw [h.line]
  rfl

/-- A line feed inside of a token is inside of a string, as no other token has one. -/
theorem kind_of_lineFeed (h : state.Sound lexer count) (htoken : token ∈ state.tokens.toList)
    (hinside : token.contains index = true) (hfeed : lexer.chars.toList[index]? = some '\n') :
    token.kind = .string := by
  obtain ⟨lexeme, after, htok, hrest, fits⟩ := h.placed token htoken
  obtain ⟨hstart, hstop⟩ := Token.contains_iff.mp hinside
  have hlength : token.stop = token.start + lexeme.spelling.length := by rw [htok]; rfl
  have hmem : lexeme.spelling[index - token.start]? = some '\n' := by
    have hat : (lexer.rest token.start)[index - token.start]? = some '\n' := by
      rw [Lexer.rest, List.getElem?_drop, Nat.add_sub_cancel' hstart, hfeed]
    rw [hrest, List.getElem?_append_left (by omega)] at hat
    exact hat
  have hkind : token.kind = lexeme.kind := by rw [htok]; rfl
  rw [hkind]
  exact fits.wellFormed.kind_of_lineFeed (List.mem_of_getElem? hmem)

/-- A token that reaches onto the line starts on it: the line feed before the line is in no token. -/
theorem line_start_le_start (h : state.Sound lexer count) (htoken : token ∈ state.tokens.toList)
    (hinside : token.contains index = true) (hindex : state.line.start ≤ index) :
    state.line.start ≤ token.start := by
  obtain ⟨-, hstop⟩ := Token.contains_iff.mp hinside
  by_contra hbefore
  rw [h.line] at hbefore hindex
  obtain ⟨i, hi, hstart⟩ := Line.exists_of_lt_behind_start (Nat.lt_of_not_le hbefore)
  have hloose := (mem_openFeeds.mp hi).2.2 token htoken
  rw [Bool.eq_false_iff, ne_eq, Token.contains_iff] at hloose
  omega

/-- A line feed that the scan has passed since its line began is inside of some token. -/
theorem exists_token_of_lineFeed (h : state.Sound lexer count) (hstart : state.line.start ≤ index)
    (hindex : index < count) (hfeed : lexer.chars.toList[index]? = some '\n') :
    ∃ token ∈ state.tokens.toList, token.contains index = true := by
  by_contra hnone
  have hloose : Loose state.tokens.toList index := by
    intro token htoken
    exact Bool.eq_false_iff.mpr fun hinside => hnone ⟨token, htoken, hinside⟩
  have hopen := Line.lt_behind_start (mem_openFeeds.mpr ⟨hindex, hfeed, hloose⟩)
  rw [← h.line] at hopen
  omega

/-- Without an open comment nothing on the line is in one, up to a character that opens none. -/
theorem not_inComment (h : state.Sound lexer count) (hclosed : state.inComment = false)
    (hslashes : ¬ ['/', '/'] <+: lexer.rest count) (hstart : state.line.start ≤ index)
    (hindex : index ≤ count) : ¬ InComment lexer.chars.toList state.tokens.toList index := by
  rintro ⟨i, hi, hcomment, hloose, hfeeds⟩
  have hline : state.line.start ≤ i := by
    -- the line feed before the line would end the comment
    by_contra hbefore
    rw [h.line] at hbefore hstart
    obtain ⟨j, hj, hstart'⟩ := Line.exists_of_lt_behind_start (Nat.lt_of_not_le hbefore)
    exact hfeeds j (by omega) (by omega) (mem_openFeeds.mp hj).2.1
  rcases Nat.lt_or_eq_of_le (Nat.le_trans hi hindex) with hlt | rfl
  · exact h.closed hclosed i hline hlt hloose hcomment
  · exact hslashes hcomment

end ScanState.Sound

/-- Where a fault is found, the text goes on with the character that the fault is about. -/
theorem Stuck.exists_character {fault : LexFault} {text : List Char} (h : Stuck fault text) :
    ∃ more, text = fault.character :: more := by
  cases h with
  | unclosed => exact ⟨_, rfl⟩
  | foreign => exact ⟨_, rfl⟩

/-- **A fault that is reported where the invariant holds** gives a diagnostic that points there. -/
theorem ScanState.Sound.points_at {lexer : Lexer} {state : ScanState} {index : Nat}
    {fault : LexFault} (h : state.Sound lexer index) (hcovers : state.covers index = false)
    (hclosed : state.inComment = false) (hstuck : Stuck fault (lexer.rest index)) :
    PointsAt lexer.chars.toList state.tokens.toList (lexer.errorAt fault state.line index) := by
  obtain ⟨c, more, hc, hblank, hslash⟩ := hstuck.head
  obtain ⟨more', hcharacter⟩ := hstuck.exists_character
  have hfound : lexer.chars.toList[index]? = some fault.character := by
    rw [Array.getElem?_toList]
    exact Lexer.getElem?_of_rest hcharacter
  have hslashes : ¬ ['/', '/'] <+: lexer.rest index := by
    rintro ⟨tail, htail⟩
    exact hslash (List.cons.inj (hc.symm.trans htail.symm)).1
  have hne : fault.character ≠ '\n' := by
    have heq : fault.character = c := (List.cons.inj (hcharacter.symm.trans hc)).1
    rw [heq]
    exact ne_lineFeed_of_not_blank hblank
  have hline := h.line_start_eq
  have hcontext := lexer.toList_context state.line index
  refine {
    inside := (List.getElem?_eq_some_iff.mp hfound).1
    found := hfound
    line := congrArg Line.number h.line
    context := ?_
    last := ?_
    uncommented := fun i hstart hi => ?_
    feeds := fun i hstart hi hfeed => ?_ }
  · exact hcontext.trans (by rw [hline]; rfl)
  · exact (congrArg List.getLast? hcontext).trans (getLast?_cut h.line_start_le hfound)
  · exact h.not_inComment hclosed hslashes (by rw [hline]; exact hstart) hi
  · have hlt : i < index := by
      refine Nat.lt_of_le_of_ne hi ?_
      rintro rfl
      exact hne (Option.some.inj (hfound.symm.trans hfeed))
    have hstart' : state.line.start ≤ i := by rw [hline]; exact hstart
    obtain ⟨token, htoken, hinside⟩ := h.exists_token_of_lineFeed hstart' hlt hfeed
    refine ⟨token, htoken, h.kind_of_lineFeed htoken hinside hfeed, hinside, ?_,
      h.stop_le hcovers token htoken⟩
    have hbegins := h.line_start_le_start htoken hinside hstart'
    rwa [hline] at hbegins

/-- **Diagnostics point at the right place**: the position and the line of an error, and the text that
it quotes, are those of the character at fault, with respect to the tokens that the scan has emitted
before it. -/
theorem scan_error_points_at (source : String) (strict : Bool) (error : LexError)
    (h : (Lexer.ofString source strict).scan = .error error) :
    PointsAt source.toList (Lexer.ofString source strict).run.tokens.toList error := by
  obtain ⟨fault, rest, reading, hstuck, rfl⟩ := Lexer.exists_reading_of_error h
  obtain ⟨inComment, hends, hsound, hcovers⟩ := Lexer.sound_read reading
  obtain rfl : inComment = false :=
    Bool.eq_false_iff.mpr fun hopen => hstuck.not_endsLine (hends hopen)
  have hrest : (Lexer.ofString source strict).rest reading.stop = rest := reading.drop_stop
  have hpoints := hsound.points_at hcovers rfl (hrest ▸ hstuck)
  have hafter := congrArg ScanState.tokens (Lexer.after_eq_of_stuck reading hstuck)
  have hrun : (Lexer.ofString source strict).run.tokens =
      ((Lexer.ofString source strict).ready.read reading false).tokens := hafter
  rw [hrun]
  exact hpoints

/-- A carriage return, a comment with a quote in it, a string over two lines, and a character beyond
ASCII before the one at fault: the third line feed is inside the string. -/
theorem scan_error_points_at_foreign :
    (Lexer.ofString "x\r\n// \"\n\"é\n\" or #" false).scan =
        .error ⟨.unexpectedCharacter '#', 3, "\"é\n\" or #", 16⟩ ∧
      PointsAt "x\r\n// \"\n\"é\n\" or #".toList
        [⟨.identifier, some "x", 0, 1⟩, ⟨.string, some "é\n", 8, 4⟩, ⟨.orWord, none, 13, 2⟩]
        ⟨.unexpectedCharacter '#', 3, "\"é\n\" or #", 16⟩ :=
  ⟨rfl, scan_error_points_at _ false _ rfl⟩

end LoxTools
