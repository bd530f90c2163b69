import LoxTools.Proofs.LineByLine

/-!
# What stands behind an error

Scanning stops at its first error, so an error and the tokens before it are settled by the source up
to the character at fault:

* `Reading.exchange` — a reading goes on being one when its rest is exchanged for a text that ends
  every lexeme, and a text at fault is such a text (`Stuck.inert`);
* `Lexer.errorAt_eq_of_take_eq` — an error says the same about sources that are the same up to it;
* `SettledBefore` — what the source up to an error decides, and `scan_error_settled` that it does.
-/

namespace LoxTools

/-! ## Exchanging the rest -/

/-- No lexeme goes on with a foreign character. -/
theorem isContinuing_eq_false_of_isForeign {c : Char} (h : isForeign c = true) :
    isContinuing c = false := by
  have hchars : ∀ d ∈ operatorChars, isForeign d = false := by
    have hall : operatorChars.all (!isForeign ·) = true := rfl
    simpa using hall
  have hne : ∀ d ∈ operatorChars, c ≠ d := by
    rintro d hd rfl
    rw [hchars c hd] at h
    cases h
  simp only [isForeign, Bool.not_eq_true', Bool.or_eq_false_iff] at h
  simp [isContinuing, h.1.1.2, hne '=' (by decide), hne '/' (by decide), hne '.' (by decide)]

/-- A text at fault ends every lexeme: it begins with a quote, or with a character that no lexeme takes.
-/
theorem Stuck.inert {fault : LexFault} {text : List Char} (h : Stuck fault text) : Inert text := by
  cases h with
  | unclosed => exact stopsBefore_cons.mpr rfl
  | foreign hc => exact stopsBefore_cons.mpr (isContinuing_eq_false_of_isForeign hc)

namespace Reading

variable {strict : Bool} {source changed rest other : List Char}

/-- What a reading has read is the source up to its rest. -/
theorem take_stop (reading : Reading strict source rest) :
    source.take reading.stop = Piece.spell reading.pieces ++ reading.last := by
  have hstop : reading.stop = (Piece.spell reading.pieces ++ reading.last).length :=
    List.length_append.symm
  have hsource := congrArg (List.take reading.stop) reading.source_eq
  rwa [← List.append_assoc, List.take_left' hstop.symm] at hsource

/-- **The rest of a reading exchanged** for a text that ends every lexeme. An open comment has to end
there too. -/
def exchange (reading : Reading strict source rest)
    (hchanged : changed = source.take reading.stop ++ other) (hother : Inert other)
    (hline : EndsLine rest → EndsLine other) : Reading strict changed other where
  pieces := reading.pieces
  last := reading.last
  source_eq := by
    rw [hchanged, take_stop, List.append_assoc]
  fit := reading.fit.replace hother hline
  last_gap := by
    have hgap : Gap reading.last ([] ++ rest) := reading.last_gap
    exact hgap.replace hline

end Reading

/-! ## The same error -/

/-- A cut of a source depends only on the source up to where the cut ends. -/
theorem cut_eq_drop_take (source : List Char) (first stop : Nat) :
    cut source first stop = (source.take stop).drop first := by
  rw [cut, List.drop_take]

/-- **An error says the same** about sources that are the same up to the character at fault. -/
theorem Lexer.errorAt_eq_of_take_eq {lexer other : Lexer} {index : Nat}
    (h : lexer.chars.toList.take (index + 1) = other.chars.toList.take (index + 1))
    (fault : LexFault) (line : Line) :
    lexer.errorAt fault line index = other.errorAt fault line index := by
  have hcontext : lexer.context line index = other.context line index := by
    rw [← String.toList_inj, toList_context, toList_context, cut_eq_drop_take, cut_eq_drop_take, h]
  rw [errorAt, errorAt, hcontext]

/-! ## Settled before -/

/-- **What the source up to an error decides**, whatever stands behind it. -/
structure SettledBefore (source : String) (strict : Bool) (error : LexError) : Prop where
  /-- the source before the error scans, to the tokens that were emitted before the error -/
  front : (Lexer.ofString (String.ofList (source.toList.take error.position)) strict).scan =
    .ok (Lexer.ofString source strict).run.tokens.toList
  /-- every source that is the same up to an unexpected character has the same error -/
  unexpected : ∀ found, error.fault = .unexpectedCharacter found → ∀ other : String,
    source.toList.take (error.position + 1) <+: other.toList →
      (Lexer.ofString other strict).scan = .error error
  /-- a string that is closed behind the end of the source is the one token more -/
  unterminated : error.fault = .unterminatedString → ∀ further : String, '"' ∉ further.toList →
    (Lexer.ofString (source ++ further ++ "\"") strict).scan =
      .ok ((Lexer.ofString source strict).run.tokens.toList ++
        [⟨.string, some (String.ofList (source.toList.drop (error.position + 1)) ++ further),
          error.position, source.length - error.position + further.length + 1⟩])

section Settled

variable {source : String} {strict : Bool} {rest : List Char} {fault : LexFault}

/-- The source before a fault scans by itself, to the tokens before the fault. -/
theorem Reading.scan_front (reading : Reading strict source.toList rest) (h : Stuck fault rest) :
    (Lexer.ofString (String.ofList (source.toList.take reading.stop)) strict).scan =
      .ok reading.tokens := by
  have hfront : (String.ofList (source.toList.take reading.stop)).toList =
      source.toList.take reading.stop ++ [] := by
    rw [String.toList_ofList, List.append_nil]
  let front := reading.exchange hfront inert_nil fun hline => absurd hline h.not_endsLine
  exact front.scan_eq_ok

/-- A foreign character is at fault whatever stands behind it. -/
theorem Reading.scan_unexpected {c : Char} {more : List Char}
    (reading : Reading strict source.toList (c :: more)) (h : isForeign c = true) {other : String}
    (hother : source.toList.take (reading.stop + 1) <+: other.toList) :
    (Lexer.ofString other strict).scan = .error ((Lexer.ofString source strict).errorAt
      (.unexpectedCharacter c) reading.line reading.stop) := by
  obtain ⟨behind, hbehind⟩ := hother
  have htake : source.toList.take (reading.stop + 1) = source.toList.take reading.stop ++ [c] := by
    rw [List.take_add, reading.drop_stop]
    rfl
  have hlength : (source.toList.take (reading.stop + 1)).length = reading.stop + 1 := by
    have hsource := reading.length_source
    rw [List.length_cons] at hsource
    rw [List.length_take]
    omega
  have hchanged : other.toList = source.toList.take reading.stop ++ c :: behind := by
    rw [← hbehind, htake, List.append_assoc]
    rfl
  have hstuck : Stuck (.unexpectedCharacter c) (c :: behind) := .foreign h
  let again := reading.exchange hchanged hstuck.inert fun hline =>
    absurd hline (Stuck.foreign h).not_endsLine
  have hscan := again.scan_eq_error hstuck
  have hsame : other.toList.take (reading.stop + 1) = source.toList.take (reading.stop + 1) := by
    rw [← hbehind, List.take_left' hlength]
  rw [hscan]
  exact congrArg Except.error (Lexer.errorAt_eq_of_take_eq hsame _ _)

/-- Behind the quote of a string that is not closed all of the source is its text, once the string is
closed further on. -/
theorem Reading.token_closed {more : List Char} (reading : Reading strict source.toList ('"' :: more))
    (further : String) :
    Lexeme.token ⟨.string, some (String.ofList (more ++ further.toList))⟩ reading.stop =
      ⟨.string, some (String.ofList (source.toList.drop (reading.stop + 1)) ++ further), reading.stop,
        source.length - reading.stop + further.length + 1⟩ := by
  have hmore : source.toList.drop (reading.stop + 1) = more := by
    rw [List.drop_add_one_eq_tail_drop, reading.drop_stop]
    rfl
  have hlength : source.length = reading.stop + (more.length + 1) := reading.length_source
  have hfurther : further.toList.length = further.length := rfl
  rw [Lexeme.token, Lexeme.spelling_string, String.ofList_append, String.ofList_toList, hmore]
  simp only [List.length_cons, List.length_append, List.length_nil, Token.mk.injEq, true_and]
  omega

/-- A string that was not closed is closed further on. -/
theorem Reading.scan_closed {more : List Char} (reading : Reading strict source.toList ('"' :: more))
    (h : '"' ∉ more) {further : String} (hfurther : '"' ∉ further.toList) :
    (Lexer.ofString (source ++ further ++ "\"") strict).scan =
      .ok (reading.tokens ++
        [⟨.string, some (String.ofList (source.toList.drop (reading.stop + 1)) ++ further),
          reading.stop, source.length - reading.stop + further.length + 1⟩]) := by
  have hquoted : '"' ∉ more ++ further.toList := by simp [h, hfurther]
  have hspelling := Lexeme.spelling_string (more ++ further.toList)
  have htoken := reading.token_closed further
  generalize hlexeme : (⟨.string, some (String.ofList (more ++ further.toList))⟩ : Lexeme) = lexeme
    at hspelling htoken
  have hsource : source.toList = source.toList.take reading.stop ++ '"' :: more := by
    conv_lhs => rw [← List.take_append_drop reading.stop source.toList, reading.drop_stop]
  have hchanged : (source ++ further ++ "\"").toList =
      source.toList.take reading.stop ++ (lexeme.spelling ++ []) := by
    have hquote : "\"".toList = ['"'] := rfl
    rw [String.toList_append, String.toList_append, hquote, hspelling]
    conv_lhs => rw [hsource]
    simp
  have hinert : Inert (lexeme.spelling ++ []) := by
    rw [hspelling]
    exact stopsBefore_cons.mpr rfl
  have hstuck : Stuck .unterminatedString ('"' :: more) := .unclosed h
  have fits : lexeme.Fits strict [] := hlexeme ▸ Lexeme.fits_string hquoted
  let front := reading.exchange hchanged hinert fun hline => absurd hline hstuck.not_endsLine
  let closed : Reading strict (lexeme.spelling ++ []) [] :=
    Reading.cons [] lexeme .nil fits ⟨[], [], rfl, trivial, .nil⟩
  obtain ⟨whole, htokens, -, -⟩ := front.exists_append closed
  have hscan := whole.scan_eq_ok
  rw [← htoken]
  exact hscan.trans (congrArg Except.ok htokens)

/-- The error of a reading that gets stuck is settled by the source up to where it gets stuck. -/
theorem Reading.settled (reading : Reading strict source.toList rest) (h : Stuck fault rest) :
    SettledBefore source strict
      ((Lexer.ofString source strict).errorAt fault reading.line reading.stop) := by
  have hrun : (Lexer.ofString source strict).run.tokens.toList = reading.tokens :=
    reading.tokens_run (Or.inr ⟨fault, h⟩)
  constructor
  · rw [hrun]
    exact reading.scan_front h
  · intro found hfound other hother
    obtain rfl : fault = .unexpectedCharacter found := hfound
    cases h with
    | foreign hc => exact reading.scan_unexpected hc hother
  · intro hfault further hfurther
    obtain rfl : fault = .unterminatedString := hfault
    cases h with
    | unclosed hmore =>
      rw [hrun]
      exact reading.scan_closed hmore hfurther

end Settled

/-- **An error is settled by the source up to it**: what stands before is scanned as it is by itself,
an unexpected character is the error of every source that goes on differently behind it, and an
unterminated string needs no more than its quote. -/
theorem scan_error_settled (source : String) (strict : Bool) (error : LexError)
    (h : (Lexer.ofString source strict).scan = .error error) :
    SettledBefore source strict error := by
  obtain ⟨fault, rest, reading, hstuck, rfl⟩ := Lexer.exists_reading_of_error h
  exact Reading.settled reading hstuck

/-- A number whose dot the cut leaves alone and slashes in the text of a string; and a reserved word that
ends at the character at fault. -/
theorem scan_error_settled_cut :
    (Lexer.ofString "x // é\n1.\"a // b" true).scan =
      .error ⟨.unterminatedString, 2, "1.\"", 9⟩ ∧
    SettledBefore "x // é\n1.\"a // b" true ⟨.unterminatedString, 2, "1.\"", 9⟩ ∧
    (Lexer.ofString "x // é\n1.\"a // b\n\"" true).scan =
      .ok [⟨.identifier, some "x", 0, 1⟩, ⟨.number, some "1", 7, 1⟩, ⟨.dot, none, 8, 1⟩,
        ⟨.string, some "a // b\n", 9, 9⟩] ∧
    (Lexer.ofString "or# 5" false).scan = .error ⟨.unexpectedCharacter '#', 1, "or#", 2⟩ := by
  have hopen := scan_error_settled "x // é\n1.\"a // b" true _ rfl
  have hforeign := scan_error_settled "or#\"" false _ rfl
  exact ⟨rfl, hopen, hopen.unterminated rfl "\n" (by decide),
    hforeign.unexpected '#' rfl "or# 5" ⟨" 5".toList, rfl⟩⟩

end LoxTools
