import LoxTools.Proofs.Boundaries
import LoxTools.Proofs.Diagnostics

/-!
# Scanning line by line

A line feed behind a source that scans ends everything that could be open there, so what comes behind
it is scanned as if nothing stood before, only further along:

* `Line.shift`, `Piece.tokens_shift` and `Piece.lineAfter_shift` — reading somewhere else gives the same
  tokens and lines somewhere else;
* `Reading.newline` — a source that is read whole may go on behind a line feed;
* `Reading.exists_append` — two readings, one behind the other, are a reading;
* `Line.Moves` and `Reading.lineFrom_cases` — a reading that starts on another line either stays on it or
  leaves it for its own;
* `scan_append_line` — scanning two sources with a line feed between them.
-/

namespace LoxTools

/-! ## Further along -/

/-- The line that is further along by some lines and code points. -/
def Line.shift (line : Line) (lines offset : Nat) : Line :=
  ⟨line.number + lines, line.start + offset⟩

/-- Going through a text on a line that is further along leads to a line that is further along by as
much. -/
theorem Line.through_shift (line : Line) (lines offset index : Nat) (text : List Char) :
    (line.shift lines offset).through (index + offset) text =
      (line.through index text).shift lines offset := by
  induction text generalizing line index with
  | nil => rfl
  | cons c text ih =>
    have hnext : (if c = '\n' then (line.shift lines offset).next (index + offset)
        else line.shift lines offset) =
        (if c = '\n' then line.next index else line).shift lines offset := by
      split
      · simp only [Line.next, Line.shift, Line.mk.injEq]
        omega
      · rfl
    rw [Line.through, Line.through, hnext, Nat.add_right_comm, ih]

namespace Piece

/-- Pieces that start further along have their tokens further along. -/
theorem tokens_shift (start offset : Nat) (pieces : List Piece) :
    tokens (start + offset) pieces = (tokens start pieces).map (·.shift offset) := by
  induction pieces generalizing start with
  | nil => rfl
  | cons piece pieces ih =>
    rw [tokens, tokens, List.map_cons, ← ih, Nat.add_right_comm, Nat.add_right_comm start offset]
    rfl

/-- Pieces on a line that is further along lead to a line that is further along by as much. -/
theorem lineAfter_shift (line : Line) (lines offset index : Nat) (pieces : List Piece) :
    lineAfter (line.shift lines offset) (index + offset) pieces =
      (lineAfter line index pieces).shift lines offset := by
  induction pieces generalizing line index with
  | nil => rfl
  | cons piece pieces ih =>
    rw [lineAfter, lineAfter, Line.through_shift, Nat.add_right_comm, ih]

end Piece

namespace Reading

variable {strict : Bool} {source text rest : List Char}

/-- The line on which the rest of a reading begins, if its source begins at a position on a given line.
-/
def lineFrom (reading : Reading strict source rest) (line : Line) (index : Nat) : Line :=
  (Piece.lineAfter line index reading.pieces).through
    (index + (Piece.spell reading.pieces).length) reading.last

/-- The line of a reading is the one that it leads to from the first line. -/
theorem line_eq_lineFrom (reading : Reading strict source rest) :
    reading.line = reading.lineFrom Line.first 0 := by
  rw [line, lineFrom, Nat.zero_add]

/-- **Further along a reading has the same tokens** further along. -/
theorem tokens_behind (reading : Reading strict source rest) (offset : Nat) :
    Piece.tokens offset reading.pieces = reading.tokens.map (·.shift offset) := by
  rw [tokens, ← Piece.tokens_shift, Nat.zero_add]

/-- From a line that is further along a reading leads to a line that is further along by as much. -/
theorem lineFrom_shift (reading : Reading strict source rest) (line : Line)
    (lines offset index : Nat) : reading.lineFrom (line.shift lines offset) (index + offset) =
      (reading.lineFrom line index).shift lines offset := by
  rw [lineFrom, lineFrom, Piece.lineAfter_shift, Nat.add_right_comm, Line.through_shift]

/-- **A source that is read whole may go on behind a line feed**, which ends a comment at its end. -/
def newline (reading : Reading strict source []) (further : List Char) :
    Reading strict (source ++ '\n' :: further) further where
  pieces := reading.pieces
  last := reading.last ++ ['\n']
  source_eq := by
    have hsource := congrArg (· ++ '\n' :: further) reading.source_eq
    simpa using hsource
  fit := by
    rw [List.append_assoc]
    exact reading.fit.replace (inert_cons_of_isBlank rfl) fun _ => stopsBefore_cons.mpr rfl
  last_gap := by
    have hends : EndsLine [] → EndsLine ('\n' :: further) := fun _ => endsLine_cons.mpr rfl
    have hgap : Gap reading.last ([] ++ '\n' :: further) := Gap.replace reading.last_gap hends
    have hfeed : Gap ['\n'] further := .blank rfl .nil
    exact Gap.append hgap hfeed

/-- A reading that goes on behind a line feed stops behind it. -/
theorem stop_newline (reading : Reading strict source []) (further : List Char) :
    (reading.newline further).stop = source.length + 1 := by
  have hlength := reading.length_source
  rw [List.length_nil, Nat.add_zero] at hlength
  rw [hlength]
  simp [stop, newline, Nat.add_assoc]

/-- A reading that goes on behind a line feed comes to a new line there. -/
theorem line_newline (reading : Reading strict source []) (further : List Char) :
    (reading.newline further).line = reading.line.next source.length := by
  have hline : (reading.newline further).line =
      reading.line.through reading.stop ['\n'] := Line.through_append ..
  rw [hline, reading.length_source]
  rfl

/-- **Two readings, one behind the other.** The gap at the end of the first one and the gap at the
beginning of the second one are a single gap. -/
theorem exists_append (first : Reading strict source text) (second : Reading strict text rest) :
    ∃ whole : Reading strict source rest,
      whole.tokens = first.tokens ++ Piece.tokens first.stop second.pieces ∧
      whole.stop = first.stop + second.stop ∧
      whole.line = second.lineFrom first.line first.stop := by
  obtain ⟨pieces, last, hsource, fit, hlast⟩ := first
  obtain ⟨pieces', last', rfl, fit', hlast'⟩ := second
  cases pieces' with
  | nil =>
    have hgap : Gap (last ++ last') rest := Gap.append hlast hlast'
    refine ⟨⟨pieces, last ++ last', ?_, ?_, hgap⟩, ?_, ?_, ?_⟩
    · simpa using hsource
    · simpa using fit
    · exact (List.append_nil _).symm
    · simp [stop, Nat.add_assoc]
    · simp [Reading.line, lineFrom, Line.through_append, Piece.lineAfter, stop]
  | cons piece pieces' =>
    obtain ⟨hgap, fits, fit'⟩ := fit'
    rw [Piece.spell_cons, List.append_assoc, List.append_assoc] at hsource fit hlast
    have hjoined : Gap (last ++ piece.gap)
        (piece.lexeme.spelling ++ (Piece.spell pieces' ++ (last' ++ rest))) := hlast.append hgap
    refine ⟨⟨pieces ++ ⟨last ++ piece.gap, piece.lexeme⟩ :: pieces', last', ?_, ?_, hlast'⟩,
      ?_, ?_, ?_⟩
    · rw [hsource, Piece.spell_append, Piece.spell_cons]
      simp only [List.append_assoc]
    · refine Piece.fit_append.mpr ⟨?_, hjoined, fits, fit'⟩
      rw [Piece.spell_cons]
      simpa only [List.append_assoc] using fit
    · rw [tokens, tokens, Piece.tokens_append, Piece.tokens_cons, Piece.tokens_cons, stop]
      simp only [List.length_append, Nat.zero_add, Nat.add_assoc]
    · simp only [stop, Piece.spell_append, Piece.spell_cons, List.length_append, Nat.add_assoc]
    · simp only [Reading.line, lineFrom, Piece.lineAfter_append, Piece.lineAfter, stop,
        Piece.spell_append, Piece.spell_cons, Line.through_append, Piece.length_spelling,
        List.length_append, Nat.zero_add, Nat.add_assoc]

/-- **Two readings with a line feed between them**: the second one begins on a new line, so it reads
what it reads by itself, further along. -/
theorem exists_behind (first : Reading strict source []) (second : Reading strict text rest) :
    ∃ whole : Reading strict (source ++ '\n' :: text) rest,
      whole.tokens = first.tokens ++ second.tokens.map (·.shift (source.length + 1)) ∧
      whole.stop = second.stop + (source.length + 1) ∧
      whole.line = second.line.shift first.line.number (source.length + 1) := by
  obtain ⟨whole, htokens, hstop, hline⟩ := (first.newline text).exists_append second
  have hbegins : first.line.next source.length =
      Line.first.shift first.line.number (source.length + 1) := by
    simp [Line.next, Line.shift, Line.first, Nat.add_comm]
  refine ⟨whole, ?_, ?_, ?_⟩
  · rw [htokens, stop_newline, second.tokens_behind]
    rfl
  · rw [hstop, stop_newline, Nat.add_comm]
  · have hshift := second.lineFrom_shift Line.first first.line.number (source.length + 1) 0
    rw [Nat.zero_add] at hshift
    rw [hline, stop_newline, line_newline, hbegins, hshift, ← second.line_eq_lineFrom]

end Reading

/-! ## From line to line -/

/-- **How a text moves from line to line**: it ends no line, or it ends some and then a line begins at a
place that has nothing to do with the line before. -/
inductive Line.Moves : (Line → Line) → Prop
  | stay : Moves id
  | on {lines start : Nat} : 0 < lines → Moves fun line => ⟨line.number + lines, start⟩

/-- Two moves from line to line, one after the other, are one move. -/
theorem Line.Moves.comp {first second : Line → Line} (hsecond : Moves second) (hfirst : Moves first) :
    Moves (second ∘ first) := by
  cases hsecond with
  | stay => exact hfirst
  | @on more start hmore =>
    cases hfirst with
    | stay => exact .on hmore
    | @on lines _ hlines =>
      have hboth : (fun line : Line => (⟨line.number + lines + more, start⟩ : Line)) =
          fun line => ⟨line.number + (lines + more), start⟩ := by
        funext line
        rw [Nat.add_assoc]
      have hmoves : Moves fun line => ⟨line.number + lines + more, start⟩ := by
        rw [hboth]
        exact .on (Nat.add_pos_left hlines more)
      exact hmoves

/-- Going through a text moves from line to line. -/
theorem Line.moves_through (index : Nat) (text : List Char) :
    Moves fun line => line.through index text := by
  induction text generalizing index with
  | nil => exact .stay
  | cons c text ih =>
    have hhead : Moves fun line : Line => if c = '\n' then line.next index else line := by
      by_cases hfeed : c = '\n'
      · simp only [if_pos hfeed]
        exact .on Nat.one_pos
      · simp only [if_neg hfeed]
        exact .stay
    exact (ih (index + 1)).comp hhead

theorem Piece.moves_lineAfter (index : Nat) (pieces : List Piece) :
    Line.Moves fun line => lineAfter line index pieces := by
  induction pieces generalizing index with
  | nil => exact .stay
  | cons piece pieces ih => exact (ih _).comp (Line.moves_through index piece.gap)

/-- A reading moves from line to line, by its pieces and its last gap. -/
theorem Reading.moves_lineFrom {strict : Bool} {source rest : List Char}
    (reading : Reading strict source rest) (index : Nat) :
    Line.Moves fun line => reading.lineFrom line index :=
  (Line.moves_through _ reading.last).comp (Piece.moves_lineAfter index reading.pieces)

/-- **On a line that began before**: a reading that ends no line stays on it; any other one comes to where
it comes by itself, further along and behind the lines before. -/
theorem Reading.lineFrom_cases {strict : Bool} {source rest : List Char}
    (reading : Reading strict source rest) (line : Line) (offset : Nat) :
    (reading.line = Line.first ∧ reading.lineFrom line offset = line) ∨
      ∃ lines start, 0 < lines ∧ reading.line = ⟨1 + lines, start⟩ ∧
        reading.lineFrom line offset = ⟨line.number + lines, start + offset⟩ := by
  have hshift := reading.lineFrom_shift Line.first 0 offset 0
  rw [Nat.zero_add, ← line_eq_lineFrom] at hshift
  have hmoves := reading.moves_lineFrom offset
  generalize hmove : (fun line => reading.lineFrom line offset) = move at hmoves
  have hline : reading.lineFrom line offset = move line := congrFun hmove _
  have halong : move (Line.first.shift 0 offset) = reading.line.shift 0 offset :=
    (congrFun hmove _).symm.trans hshift
  rw [hline]
  generalize reading.line = own at halong
  obtain ⟨number, start⟩ := own
  cases hmoves with
  | stay =>
    -- it is on the first line, further along or not
    refine Or.inl ⟨?_, rfl⟩
    simp only [id_eq, Line.shift, Line.first, Line.mk.injEq] at halong ⊢
    omega
  | @on lines begins hlines =>
    simp only [Line.shift, Line.first, Line.mk.injEq, Nat.add_zero] at halong
    obtain ⟨rfl, rfl⟩ := halong
    exact Or.inr ⟨lines, start, hlines, rfl, rfl⟩

/-- The number of the line at the end of a source counts the line feeds outside of its tokens. -/
theorem Reading.number_line {strict : Bool} {source : String}
    (reading : Reading strict source.toList []) :
    reading.line.number = 1 + (openFeeds source.toList reading.tokens source.length).card := by
  have hstop : source.length = reading.stop := reading.length_source
  have hline := @Reading.line_eq (Lexer.ofString source strict) [] reading
  rw [hstop]
  exact congrArg Line.number hline

/-! ## Scanning further along -/

/-- The error that is further along by some lines and code points, with the same fault and the same
context. -/
def LexError.shift (error : LexError) (lines offset : Nat) : LexError :=
  { error with line := error.line + lines, position := error.position + offset }

/-- A cut of what is left of a source is a cut of the source, further along. -/
theorem cut_drop (source : List Char) (index first stop : Nat) :
    cut (source.drop index) first stop = cut source (first + index) (stop + index) := by
  rw [cut, cut, List.drop_drop, Nat.add_sub_add_right, Nat.add_comm]

/-- A cut of a source is a cut of any text that ends with it, further along. -/
theorem cut_append (front source : List Char) (first stop : Nat) :
    cut (front ++ source) (first + front.length) (stop + front.length) = cut source first stop := by
  rw [← cut_drop, List.drop_left]

/-- An error further along quotes the same text, if its line begins in the source and not before it. -/
theorem Lexer.errorAt_shift {whole lexer : Lexer} {front : List Char}
    (h : whole.chars.toList = front ++ lexer.chars.toList) (fault : LexFault) (line : Line)
    (lines index : Nat) :
    whole.errorAt fault (line.shift lines front.length) (index + front.length) =
      (lexer.errorAt fault line index).shift lines front.length := by
  have hcontext : whole.context (line.shift lines front.length) (index + front.length) =
      lexer.context line index := by
    rw [← String.toList_inj, toList_context, toList_context, h, Nat.add_right_comm]
    exact cut_append front lexer.chars.toList line.start (index + 1)
  rw [errorAt, hcontext]
  rfl

/-- **Scanning goes line by line**: behind a source that scans and a line feed, a source is scanned as
it is by itself. Its tokens or its error are further along, the error also by the lines before it. -/
theorem scan_append_line (source further : String) (strict : Bool) (tokens : List Token)
    (h : (Lexer.ofString source strict).scan = .ok tokens) :
    (Lexer.ofString (source ++ "\n" ++ further) strict).scan =
      match (Lexer.ofString further strict).scan with
      | .ok more => .ok (tokens ++ more.map (·.shift (source.length + 1)))
      | .error error =>
        .error (error.shift (1 + (openFeeds source.toList tokens source.length).card)
          (source.length + 1)) := by
  have hfirst : ∃ reading : Reading strict source.toList [], reading.tokens = tokens :=
    Lexer.exists_reading_of_ok h
  obtain ⟨first, rfl⟩ := hfirst
  obtain ⟨rest, ⟨second⟩, hrest⟩ := exists_reading strict further.toList
  have hjoined : (source ++ "\n" ++ further).toList = source.toList ++ '\n' :: further.toList := by
    simp
  have hlength : (source.toList ++ ['\n']).length = source.length + 1 := List.length_append
  have hbehind := first.exists_behind second
  rw [← hjoined] at hbehind
  generalize source ++ "\n" ++ further = joined at *
  obtain ⟨whole, htokens, hstop, hline⟩ := hbehind
  rcases hrest with rfl | ⟨fault, hstuck⟩
  · have hfurther := @Lexer.scan_eq_ok (Lexer.ofString further strict) second
    have hscan := @Lexer.scan_eq_ok (Lexer.ofString joined strict) whole
    rw [hfurther]
    exact hscan.trans (congrArg Except.ok htokens)
  · have hfurther := @Lexer.scan_eq_error (Lexer.ofString further strict) rest fault second hstuck
    have hscan := @Lexer.scan_eq_error (Lexer.ofString joined strict) rest fault whole hstuck
    have hchars : (Lexer.ofString joined strict).chars.toList =
        (source.toList ++ ['\n']) ++ (Lexer.ofString further strict).chars.toList :=
      hjoined.trans (List.append_cons ..)
    have hshift := Lexer.errorAt_shift hchars fault second.line first.line.number second.stop
    rw [hlength] at hshift
    rw [hfurther, hscan, ← first.number_line]
    exact congrArg Except.error ((congrArg₂ _ hline hstop).trans hshift)

/-- A string over two lines and a comment that the end of the source would leave open, then a number
and a string, or a character at fault on the second line of the second source. -/
theorem scan_append_line_commented :
    (Lexer.ofString "x\r\n\"a\nb\" // c\"" false).scan =
      .ok [⟨.identifier, some "x", 0, 1⟩, ⟨.string, some "a\nb", 3, 5⟩] ∧
    (Lexer.ofString ("x\r\n\"a\nb\" // c\"" ++ "\n" ++ "1.5 \"d\"") false).scan =
      .ok [⟨.identifier, some "x", 0, 1⟩, ⟨.string, some "a\nb", 3, 5⟩,
        ⟨.number, some "1.5", 15, 3⟩, ⟨.string, some "d", 19, 3⟩] ∧
    (Lexer.ofString ("x\r\n\"a\nb\" // c\"" ++ "\n" ++ "1\nor é") false).scan =
      .error ⟨.unexpectedCharacter 'é', 4, "or é", 20⟩ := by
  have hscan : (Lexer.ofString "x\r\n\"a\nb\" // c\"" false).scan =
      .ok [⟨.identifier, some "x", 0, 1⟩, ⟨.string, some "a\nb", 3, 5⟩] := rfl
  exact ⟨hscan, scan_append_line _ "1.5 \"d\"" false _ hscan,
    scan_append_line _ "1\nor é" false _ hscan⟩

end LoxTools
