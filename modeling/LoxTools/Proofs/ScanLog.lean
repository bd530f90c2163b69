import LoxTools.Proofs.ErrorPrefix

/-!
# What the log of a scan says

A scan reports its beginning, every token when it is emitted, and its end. The tokens are returned only if
the scan succeeds, but they are reported also if it fails, and which ones these are the source before the
error decides:

* `Log.ofScan` — the events that tell of some tokens;
* `Log.scanFinished` and `Log.scanFailed` — the events that tell of an end;
* `Lexer.log_of_reading` and `Lexer.log_of_stuck` — the log that a reading of the source comes to;
* `Lexer.LogsFailure` — what a failing scan has reported, and when;
* `scan_log_faithful` — every log tells what its scan does.
-/

namespace LoxTools

namespace Log

/-- **The log of a scan** that emits some tokens and then comes to an end: the report of its beginning,
one report for each token, and that of its end. -/
def ofScan (source : List Char) (strict : Bool) (tokens : List Token) (last : Event) : List Event :=
  ⟨.debug, "scanning source",
      [("code_points", .nat source.length), ("strict_keywords", .bool strict)]⟩ ::
    (tokens.map fun token => ⟨.trace, "token", [("kind", .shown token.kind.name),
      ("start", .nat token.start), ("length", .nat token.length)]⟩) ++ [last]

/-- The end of a scan that returns tokens. It counts them, and the lines: a line feed inside of a token
does not end one. -/
def scanFinished (source : List Char) (tokens : List Token) : Event :=
  ⟨.debug, "scan finished", [("tokens", .nat tokens.length),
    ("lines", .nat (1 + (openFeeds source tokens source.length).card))]⟩

/-- The end of a scan that returns an error, with the line that it is on. -/
def scanFailed (error : LexError) : Event :=
  ⟨.debug, "scan failed", [("line", .nat error.line), ("position", .nat error.position)]⟩

end Log

namespace Lexer

variable {rest : List Char} {fault : LexFault}

/-! ## How a log ends -/

/-- The log of a scan has the tokens that it emits, and its end is told by the state that it ends in. -/
theorem log_eq_ofScan (lexer : Lexer) :
    lexer.log = Log.ofScan lexer.chars.toList lexer.strictKeywords lexer.run.tokens.toList
      (finishEvent (lexer.stateAt lexer.chars.size)) := by
  rw [log_eq, Log.ofScan, Array.length_toList]
  rfl

/-- **A reading of the whole source** is reported with its tokens and its lines. -/
theorem log_of_reading (lexer : Lexer)
    (reading : Reading lexer.strictKeywords lexer.chars.toList []) :
    lexer.log = Log.ofScan lexer.chars.toList lexer.strictKeywords reading.tokens
      (Log.scanFinished lexer.chars.toList reading.tokens) := by
  obtain ⟨inComment, hafter⟩ := after_eq_of_reading reading
  -- nothing is left, so the line reached is the one behind all line feeds outside of tokens
  have hstop : lexer.chars.toList.length = reading.stop := reading.length_source
  have hlines : reading.line.number =
      1 + (openFeeds lexer.chars.toList reading.tokens lexer.chars.toList.length).card := by
    rw [hstop]
    exact congrArg Line.number reading.line_eq
  have hcount : (lexer.ready.read reading inComment).tokens.size = reading.tokens.length := by
    rw [← Array.length_toList, tokens_read]
  have hend : finishEvent (lexer.ready.read reading inComment) =
      Log.scanFinished lexer.chars.toList reading.tokens := by
    rw [Log.scanFinished, ← hlines, ← hcount]
    rfl
  rw [log_eq_ofScan, stateAt, hafter, hend, tokens_run reading (Or.inl rfl)]

/-- **A reading up to a fault** is reported with its tokens and then the error that the fault makes
there. -/
theorem log_of_stuck (lexer : Lexer)
    (reading : Reading lexer.strictKeywords lexer.chars.toList rest) (h : Stuck fault rest) :
    lexer.log = Log.ofScan lexer.chars.toList lexer.strictKeywords reading.tokens
      (Log.scanFailed (lexer.errorAt fault reading.line reading.stop)) := by
  rw [log_eq_ofScan, stateAt, after_eq_of_stuck reading h, tokens_run_of_stuck reading h]
  rfl

/-- From the fault on nothing is reported, however long the source goes on. -/
theorem events_of_stuck (lexer : Lexer)
    (reading : Reading lexer.strictKeywords lexer.chars.toList rest) (h : Stuck fault rest)
    {index : Nat} (hindex : reading.stop ≤ index) :
    (lexer.stateAt index).events = (lexer.stateAt reading.stop).events := by
  obtain ⟨hstop, -⟩ := stateAt_stop reading h
  rcases Nat.eq_or_lt_of_le hindex with rfl | hlt
  · rfl
  · rw [stateAt_of_stuck reading h hlt, hstop]

end Lexer

/-! ## Faithful logs -/

/-- **What a failing scan has reported**: some tokens, and then its error. -/
structure Lexer.LogsFailure (source : String) (strict : Bool) (tokens : List Token)
    (error : LexError) : Prop where
  /-- the log is that of the tokens and of the error -/
  reported : (ofString source strict).log =
    Log.ofScan source.toList strict tokens (Log.scanFailed error)
  /-- the source before the error scans to the tokens -/
  front : (ofString (String.ofList (source.toList.take error.position)) strict).scan = .ok tokens
  /-- every token ends before the error -/
  before : ∀ token ∈ tokens, token.stop ≤ error.position
  /-- from the error on no decision reports anything -/
  quiet : ∀ index, error.position ≤ index →
    ((ofString source strict).stateAt index).events =
      ((ofString source strict).stateAt error.position).events

/-- **The log of a scan is faithful**: it tells the source's length and the setting, then the tokens that
are emitted, and then how the scan ends. If it succeeds, the tokens are those returned; if it fails, they
are those of the source before the error. -/
theorem scan_log_faithful (source : String) (strict : Bool) :
    match (Lexer.ofString source strict).scan with
    | .ok tokens => (Lexer.ofString source strict).log =
        Log.ofScan source.toList strict tokens (Log.scanFinished source.toList tokens)
    | .error error => ∃ tokens, Lexer.LogsFailure source strict tokens error := by
  obtain ⟨rest, ⟨reading⟩, rfl | ⟨fault, hstuck⟩⟩ := exists_reading strict source.toList
  · rw [reading.scan_eq_ok]
    exact (Lexer.ofString source strict).log_of_reading reading
  · rw [reading.scan_eq_error hstuck]
    refine ⟨reading.tokens, ?_, reading.scan_front hstuck, ?_, ?_⟩
    · exact (Lexer.ofString source strict).log_of_stuck reading hstuck
    · intro token htoken
      exact (@Reading.ended (Lexer.ofString source strict) rest reading token htoken).2
    · intro index hindex
      exact (Lexer.ofString source strict).events_of_stuck reading hstuck hindex

/-- Of the two line feeds only the one behind the comment ends a line. -/
example : (Lexer.ofString "\"\n\" // +\n1" false).log =
    Log.ofScan "\"\n\" // +\n1".toList false
      [⟨.string, some "\n", 0, 3⟩, ⟨.number, some "1", 9, 1⟩]
      ⟨.debug, "scan finished", [("tokens", .nat 2), ("lines", .nat 2)]⟩ := rfl

end LoxTools
