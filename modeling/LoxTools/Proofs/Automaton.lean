import LoxTools.Proofs.Scanning

/-!
# Acceptance by an automaton

Whether a source scans, and what is at fault if it does not, needs no tokens: an automaton with
three modes that reads one character at a time tells the same.

* `Mode.next` — what a character does to the mode; `none` where the automaton fails;
* `Walk.run` — the automaton over a text, with the position and the line that it reaches;
* `Walk.run_reading` — a reading leads the automaton to its rest, on its line;
* `Lexer.scan_verdict` — so the automaton and the scan come to the same end;
* `scan_iff_automaton` — which sources scan, and which errors the others give.
-/

namespace LoxTools

/-- **The modes** of the automaton. A string remembers where it was opened, since that is where an error
is found if it is never closed. -/
inductive Mode where
  /-- between tokens and inside tokens other than strings -/
  | code
  /-- inside a string that was opened at a position -/
  | string (opened : Nat)
  /-- inside a comment -/
  | comment
  deriving DecidableEq, Repr

namespace Mode

/-- **One character**, with the text behind it: the mode that it leads to. The text behind matters only
for a slash, which opens a comment if another one follows. In code the automaton fails at a foreign
character. -/
def next (mode : Mode) (index : Nat) (c : Char) (after : List Char) : Option Mode :=
  match mode with
  | code =>
    if c = '"' then some (string index)
    else if c = '/' ∧ after.head? = some '/' then some comment
    else if isForeign c then none
    else some code
  | string opened => some (if c = '"' then code else string opened)
  | comment => some (if c = '\n' then code else comment)

/-- The line behind a character: a line feed in a string does not end the line. -/
def lineAfter (mode : Mode) (line : Line) (index : Nat) (c : Char) : Line :=
  match mode with
  | string _ => line
  | _ => if c = '\n' then line.next index else line

end Mode

/-- How far the automaton has come. The line is carried along for the sake of errors; it has no say in
which sources are accepted. -/
structure Walk where
  /-- the mode it is in -/
  mode : Mode
  /-- the position that it reads next -/
  index : Nat
  /-- the line of that position -/
  line : Line
  deriving DecidableEq, Repr

namespace Walk

/-- Nothing read yet. -/
def start : Walk := ⟨.code, 0, Line.first⟩

/-- One character further, unless the automaton fails there. -/
def step (walk : Walk) (c : Char) (after : List Char) : Option Walk :=
  (walk.mode.next walk.index c after).map fun mode =>
    ⟨mode, walk.index + 1, walk.mode.lineAfter walk.line walk.index c⟩

/-- **The automaton over a text**: where it ends, or where it fails first. Failing gives the place in
front of the character at fault. -/
def run (walk : Walk) : List Char → Except Walk Walk
  | [] => .ok walk
  | c :: after =>
    match walk.step c after with
    | none => .error walk
    | some further => further.run after

variable {walk further : Walk} {mode : Mode} {index opened : Nat} {line : Line} {c : Char}
  {text gap after : List Char}

theorem run_of_step (h : walk.step c after = some further) :
    walk.run (c :: after) = further.run after := by
  rw [run, h]

theorem run_of_fail (h : walk.step c after = none) : walk.run (c :: after) = .error walk := by
  rw [run, h]

/-! ## Single steps -/

/-- A quote in code opens a string, which remembers its position. -/
theorem step_quote :
    step ⟨.code, index, line⟩ '"' after = some ⟨.string index, index + 1, line⟩ :=
  rfl

/-- The first of two slashes in code opens a comment. -/
theorem step_slashes (more : List Char) :
    step ⟨.code, index, line⟩ '/' ('/' :: more) = some ⟨.comment, index + 1, line⟩ :=
  rfl

theorem step_foreign (h : isForeign c = true) : step ⟨.code, index, line⟩ c after = none := by
  have hquote : c ≠ '"' := by
    rintro rfl
    cases h
  have hslash : c ≠ '/' := by
    rintro rfl
    cases h
  simp only [step, Mode.next, if_neg hquote, hslash, false_and, if_false, h, if_true,
    Option.map_none]

/-- A character that is not foreign and opens neither a string nor a comment is read in code. -/
theorem step_code (hforeign : isForeign c = false) (hquote : c ≠ '"')
    (hslashes : ¬ (c = '/' ∧ after.head? = some '/')) :
    step ⟨.code, index, line⟩ c after =
      some ⟨.code, index + 1, if c = '\n' then line.next index else line⟩ := by
  simp only [step, Mode.next, Mode.lineAfter, if_neg hquote, if_neg hslashes, hforeign,
    Bool.false_eq_true, if_false, Option.map_some]

/-- In a string only a quote matters; a line feed does not end the line there. -/
theorem step_in_string (h : c ≠ '"') :
    step ⟨.string opened, index, line⟩ c after = some ⟨.string opened, index + 1, line⟩ := by
  simp only [step, Mode.next, Mode.lineAfter, if_neg h, Option.map_some]

theorem step_end_string :
    step ⟨.string opened, index, line⟩ '"' after = some ⟨.code, index + 1, line⟩ :=
  rfl

/-- In a comment only a line feed matters. -/
theorem step_in_comment (h : c ≠ '\n') :
    step ⟨.comment, index, line⟩ c after = some ⟨.comment, index + 1, line⟩ := by
  simp only [step, Mode.next, Mode.lineAfter, if_neg h, Option.map_some]

/-! ## Stretches of one mode -/

/-- Characters that keep the mode and the line are passed. The three lemmas behind this one are its
instances for words and numbers, for strings and for comments. -/
theorem run_stay (h : ∀ c ∈ text, ∀ i more,
      step ⟨mode, i, line⟩ c more = some ⟨mode, i + 1, line⟩) :
    run ⟨mode, index, line⟩ (text ++ after) = run ⟨mode, index + text.length, line⟩ after := by
  induction text generalizing index with
  | nil => rfl
  | cons c text ih =>
    have hstep := h c (List.mem_cons_self ..) index (text ++ after)
    have htail := @ih (index + 1) fun d hd => h d (List.mem_cons_of_mem _ hd)
    rw [List.cons_append, run_of_step hstep, htail, List.length_cons, Nat.add_assoc,
      Nat.add_comm 1]

/-- Whether a character means the same wherever it stands in code: it is not foreign, and is neither a
quote, a slash nor a line feed. -/
def isPlain (c : Char) : Bool :=
  !(isForeign c || c == '"' || c == '/' || c == '\n')

theorem isPlain_of_isAlphaNumeric (h : isAlphaNumeric c = true) : isPlain c = true := by
  have hforeign : isForeign c = false := by simp [isForeign, h]
  have hquote : c ≠ '"' := ne_of_isAlphaNumeric h rfl
  have hslash : c ≠ '/' := ne_of_isAlphaNumeric h rfl
  have hfeed : c ≠ '\n' := ne_of_isAlphaNumeric h rfl
  simp [isPlain, hforeign, hquote, hslash, hfeed]

/-- Over plain characters the automaton stays in code. -/
theorem run_plain (h : ∀ c ∈ text, isPlain c = true) :
    run ⟨.code, index, line⟩ (text ++ after) =
      run ⟨.code, index + text.length, line⟩ after := by
  refine run_stay fun c hc i more => ?_
  have hplain := h c hc
  simp only [isPlain, Bool.not_eq_true', Bool.or_eq_false_iff, beq_eq_false_iff_ne] at hplain
  obtain ⟨⟨⟨hforeign, hquote⟩, hslash⟩, hfeed⟩ := hplain
  rw [step_code hforeign hquote fun h => hslash h.1, if_neg hfeed]

/-- Over the text of a string the automaton stays in the string. -/
theorem run_string (h : '"' ∉ text) :
    run ⟨.string opened, index, line⟩ (text ++ after) =
      run ⟨.string opened, index + text.length, line⟩ after :=
  run_stay fun _ hc _ _ => step_in_string fun heq => h (heq ▸ hc)

/-- Over the body of a comment the automaton stays in the comment. -/
theorem run_comment (h : '\n' ∉ text) :
    run ⟨.comment, index, line⟩ (text ++ after) =
      run ⟨.comment, index + text.length, line⟩ after :=
  run_stay fun _ hc _ _ => step_in_comment fun heq => h (heq ▸ hc)

/-! ## Over a lexeme -/

theorem isPlain_of_isDigits (h : IsDigits text) : ∀ c ∈ text, isPlain c = true :=
  fun c hc => isPlain_of_isAlphaNumeric (isAlphaNumeric_of_isDigit (h.2 c hc))

/-- Apart from slashes and strings, lexemes are written with plain characters. -/
theorem isPlain_of_wellFormed {lexeme : Lexeme} (h : lexeme.WellFormed)
    (hslash : lexeme.kind ≠ .slash) (hstring : lexeme.kind ≠ .string) :
    ∀ c ∈ lexeme.spelling, isPlain c = true := by
  cases h with
  | @fixed kind spelling hs =>
    rw [Lexeme.spelling_fixed hs]
    refine List.all_eq_true.mp ?_
    cases kind <;> cases hs <;> first | exact absurd rfl hslash | decide
  | @number text htext =>
    have hspelling : Lexeme.spelling ⟨.number, some text⟩ = text.toList := rfl
    rw [hspelling]
    rcases htext with hdigits | ⟨whole, part, hwhole, hpart, hdotted⟩
    · exact isPlain_of_isDigits hdigits
    · intro c hc
      rw [hdotted, List.mem_append, List.mem_cons] at hc
      rcases hc with hc | rfl | hc
      · exact isPlain_of_isDigits hwhole c hc
      · rfl
      · exact isPlain_of_isDigits hpart c hc
  | string htext => exact absurd rfl hstring
  | name htext => exact fun c hc => isPlain_of_isAlphaNumeric (htext.isAlphaNumeric c hc)

/-- A whole string leads back to code, on the same line. -/
theorem run_quoted (h : '"' ∉ text) :
    run ⟨.code, index, line⟩ ('"' :: (text ++ '"' :: after)) =
      run ⟨.code, index + (text.length + 2), line⟩ after := by
  have hindex : index + 1 + text.length + 1 = index + (text.length + 2) := by omega
  rw [run_of_step step_quote, run_string h, run_of_step step_end_string, hindex]

/-- **Over a lexeme** the automaton comes back to code, and no lexeme ends the line. A lexeme is plain,
or a slash, or a string; a slash that fits has no second one behind it. -/
theorem run_lexeme {strict : Bool} {lexeme : Lexeme} (fits : lexeme.Fits strict after) :
    run ⟨.code, index, line⟩ (lexeme.spelling ++ after) =
      run ⟨.code, index + lexeme.spelling.length, line⟩ after := by
  by_cases hslash : lexeme.kind = .slash
  · have hspelling : lexeme.spelling = ['/'] := by
      obtain ⟨kind, text⟩ := lexeme
      obtain rfl : kind = .slash := hslash
      cases fits.wellFormed
      rfl
    -- a second slash would have made it a comment
    have halone : ¬ ('/' = '/' ∧ after.head? = some '/') := fun h =>
      absurd (fits.no_slash hslash _ h.2) (by decide)
    rw [hspelling, List.singleton_append, run_of_step (step_code rfl (by decide) halone)]
    rfl
  · by_cases hstring : lexeme.kind = .string
    · obtain ⟨text, -, hspelling, htext⟩ := fits.wellFormed.exists_quoted hstring
      rw [hspelling, List.cons_append, List.append_assoc, List.singleton_append, run_quoted htext,
        List.length_cons, List.length_append, List.length_singleton]
    · exact run_plain (isPlain_of_wellFormed fits.wellFormed hslash hstring)

/-! ## Over a gap -/

/-- Between two tokens the automaton is in code, or still in a comment at the end of its line. It
corresponds to what is known of an open comment between two tokens of a scan. -/
def Idle (mode : Mode) (text : List Char) : Prop :=
  mode = .code ∨ mode = .comment ∧ EndsLine text

/-- Only a line feed is read in a comment that is at the end of its line. -/
theorem Idle.eq_code {more : List Char} (h : Idle mode (c :: more)) (hc : c ≠ '\n') :
    mode = .code := by
  rcases h with hcode | ⟨-, hends⟩
  · exact hcode
  · exact absurd (endsLine_cons.mp hends) hc

/-- A blank leads to code, whether it ends a comment or not. -/
theorem Idle.step_blank {more : List Char} (h : Idle mode (c :: more)) (hc : isBlank c = true) :
    step ⟨mode, index, line⟩ c more =
      some ⟨.code, index + 1, if c = '\n' then line.next index else line⟩ := by
  by_cases hfeed : c = '\n'
  · subst hfeed
    rcases h with rfl | ⟨rfl, -⟩ <;> rfl
  · obtain rfl := h.eq_code hfeed
    have hforeign : isForeign c = false := by simp [isForeign, hc]
    refine step_code hforeign ?_ ?_
    · rintro rfl
      cases hc
    · rintro ⟨rfl, -⟩
      cases hc

/-- **Over a gap** the line moves on as the gap says. By induction on the gap, a comment in it taken as
a whole. -/
theorem run_gap (hgap : Gap gap after) (h : Idle mode (gap ++ after)) :
    ∃ other, Idle other after ∧
      run ⟨mode, index, line⟩ (gap ++ after) =
        run ⟨other, index + gap.length, line.through index gap⟩ after := by
  induction hgap generalizing mode index line with
  | nil => exact ⟨mode, h, rfl⟩
  | @blank c gap after hc hgap ih =>
    obtain ⟨other, hother, hrun⟩ := @ih .code (index + 1)
      (if c = '\n' then line.next index else line) (Or.inl rfl)
    refine ⟨other, hother, ?_⟩
    have hstep : step ⟨mode, index, line⟩ c (gap ++ after) = _ := h.step_blank hc
    rw [List.cons_append, run_of_step hstep, hrun, Line.through, List.length_cons, Nat.add_assoc,
      Nat.add_comm 1]
  | @comment body gap after hbody hends hgap ih =>
    -- the first slash leads into the comment, the second one is read there
    obtain rfl := h.eq_code (by decide)
    obtain ⟨other, hother, hrun⟩ := @ih .comment (index + (body.length + 2)) line
      (Or.inr ⟨rfl, hends⟩)
    refine ⟨other, hother, ?_⟩
    have hslash : '\n' ∉ '/' :: body := by simp [hbody]
    have hindex : index + 1 + ('/' :: body).length = index + (body.length + 2) := by
      rw [List.length_cons]
      omega
    have hlength : index + ('/' :: '/' :: (body ++ gap)).length =
        index + (body.length + 2) + gap.length := by
      simp only [List.length_cons, List.length_append]
      omega
    have hopened := @run_comment (index + 1) line ('/' :: body) (gap ++ after) hslash
    rw [List.cons_append, List.cons_append, List.append_assoc, run_of_step (step_slashes _),
      ← List.cons_append, hopened, hindex, hrun, hlength, Line.through_comment _ _ _ hbody]

/-! ## Over a reading -/

/-- Over several pieces the automaton comes to the line behind them, by induction on the pieces. -/
theorem run_pieces {strict : Bool} {pieces : List Piece} (fit : Piece.Fit strict pieces after)
    (h : Idle mode (Piece.spell pieces ++ after)) :
    ∃ other, Idle other after ∧
      run ⟨mode, index, line⟩ (Piece.spell pieces ++ after) =
        run ⟨other, index + (Piece.spell pieces).length, Piece.lineAfter line index pieces⟩
          after := by
  induction pieces generalizing mode index line with
  | nil => exact ⟨mode, h, rfl⟩
  | cons piece pieces ih =>
    obtain ⟨hgap, fits, fit⟩ := fit
    simp only [Piece.spell_cons, List.append_assoc] at h ⊢
    obtain ⟨between, hbetween, hgapped⟩ := @run_gap _ index line _ _ hgap h
    obtain rfl : between = .code := by
      obtain ⟨c, more, hc, hblank⟩ := fits.wellFormed.head_not_blank
      rw [hc] at hbetween
      exact hbetween.eq_code (ne_lineFeed_of_not_blank hblank)
    obtain ⟨other, hother, hrun⟩ := @ih .code
      (index + piece.gap.length + piece.lexeme.spelling.length) (line.through index piece.gap) fit
      (Or.inl rfl)
    refine ⟨other, hother, ?_⟩
    rw [hgapped, run_lexeme fits, hrun, Piece.lineAfter, Piece.length_spelling,
      List.length_append, List.length_append]
    simp only [Nat.add_assoc]

/-- **A reading leads the automaton** to its rest, on its line. -/
theorem run_reading {strict : Bool} {source rest : List Char}
    (reading : Reading strict source rest) :
    ∃ mode, Idle mode rest ∧
      start.run source = run ⟨mode, reading.stop, reading.line⟩ rest := by
  obtain ⟨between, hbetween, hpieces⟩ :=
    @run_pieces .code 0 Line.first _ strict _ reading.fit (Or.inl rfl)
  obtain ⟨mode, hmode, hlast⟩ := @run_gap between (0 + (Piece.spell reading.pieces).length)
    (Piece.lineAfter Line.first 0 reading.pieces) _ _ reading.last_gap hbetween
  refine ⟨mode, hmode, (congrArg start.run reading.source_eq).trans ?_⟩
  rw [start, hpieces, hlast, Nat.zero_add]
  rfl

/-- A string that is never closed takes the rest of the text, and the automaton ends in it. -/
theorem run_unclosed {more : List Char} (h : '"' ∉ more) :
    run ⟨.code, index, line⟩ ('"' :: more) =
      .ok ⟨.string index, index + 1 + more.length, line⟩ := by
  rw [run_of_step step_quote, ← List.append_nil more, run_string h, List.append_nil]
  rfl

end Walk

/-! ## The same end -/

namespace Lexer

/-- **How the automaton and a scan end together.** Each case relates one way of ending to one result, so
that the three equivalences about them are read off by cases. -/
inductive Verdict (lexer : Lexer) : Except Walk Walk → Except LexError (List Token) → Prop
  /-- the automaton ends in code or in a comment, and there are tokens -/
  | accepted {walk : Walk} {tokens : List Token} :
    walk.mode = .code ∨ walk.mode = .comment → Verdict lexer (.ok walk) (.ok tokens)
  /-- the automaton ends in a string, which is the error -/
  | unterminated {walk : Walk} {opened : Nat} : walk.mode = .string opened →
    Verdict lexer (.ok walk) (.error (lexer.errorAt .unterminatedString walk.line opened))
  /-- the automaton fails at a character, which is the error -/
  | unexpected {walk : Walk} {c : Char} : lexer.chars[walk.index]? = some c →
    Verdict lexer (.error walk)
      (.error (lexer.errorAt (.unexpectedCharacter c) walk.line walk.index))

/-- **The automaton and the scan** come to the same end. A reading that goes as far as it can leads both
of them there: either nothing is left, or the rest is at fault, with an unclosed string or with a
foreign character. -/
theorem scan_verdict (lexer : Lexer) :
    lexer.Verdict (Walk.start.run lexer.chars.toList) lexer.scan := by
  obtain ⟨rest, ⟨reading⟩, hrest⟩ := exists_reading lexer.strictKeywords lexer.chars.toList
  obtain ⟨mode, hmode, hrun⟩ := Walk.run_reading reading
  rw [hrun]
  rcases hrest with rfl | ⟨fault, hstuck⟩
  · rw [scan_eq_ok reading]
    exact .accepted (hmode.imp_right And.left)
  · rw [scan_eq_error reading hstuck]
    obtain ⟨c, more, rfl, hblank, -⟩ := hstuck.head
    obtain rfl : mode = .code := hmode.eq_code (ne_lineFeed_of_not_blank hblank)
    cases hstuck with
    | unclosed h =>
      rw [Walk.run_unclosed h]
      exact .unterminated rfl
    | foreign h =>
      have hfound : lexer.rest reading.stop = c :: more := reading.drop_stop
      rw [Walk.run_of_fail (Walk.step_foreign h)]
      exact .unexpected (getElem?_of_rest hfound)

namespace Verdict

variable {lexer : Lexer} {ended : Except Walk Walk} {scanned : Except LexError (List Token)}

/-- A scan succeeds exactly if the automaton ends in code or in a comment. -/
theorem accepted_iff (h : lexer.Verdict ended scanned) :
    (∃ tokens, scanned = .ok tokens) ↔
      ∃ walk, ended = .ok walk ∧ (walk.mode = .code ∨ walk.mode = .comment) := by
  cases h with
  | @accepted walk tokens hmode => exact ⟨fun _ => ⟨walk, rfl, hmode⟩, fun _ => ⟨tokens, rfl⟩⟩
  | @unterminated walk opened hmode =>
    constructor
    · rintro ⟨tokens, ⟨⟩⟩
    · rintro ⟨other, ⟨⟩, hcode | hcomment⟩
      · cases hmode.symm.trans hcode
      · cases hmode.symm.trans hcomment
  | unexpected hfound =>
    constructor
    · rintro ⟨tokens, ⟨⟩⟩
    · rintro ⟨other, ⟨⟩, -⟩

/-- A string is unterminated exactly if the automaton ends in it. -/
theorem unterminated_iff (h : lexer.Verdict ended scanned) (opened : Nat) :
    (∃ error, scanned = .error error ∧
      error.fault = .unterminatedString ∧ error.position = opened) ↔
      ∃ walk, ended = .ok walk ∧ walk.mode = .string opened := by
  cases h with
  | accepted hmode =>
    constructor
    · rintro ⟨error, ⟨⟩, -⟩
    · rintro ⟨other, ⟨⟩, hstring⟩
      rcases hmode with hcode | hcomment
      · cases hcode.symm.trans hstring
      · cases hcomment.symm.trans hstring
  | @unterminated walk position hmode =>
    constructor
    · rintro ⟨error, ⟨⟩, -, rfl⟩
      exact ⟨walk, rfl, hmode⟩
    · rintro ⟨other, ⟨⟩, hstring⟩
      exact ⟨_, rfl, rfl, Mode.string.inj (hmode.symm.trans hstring)⟩
  | unexpected hfound =>
    constructor
    · rintro ⟨error, ⟨⟩, ⟨⟩, -⟩
    · rintro ⟨other, ⟨⟩, -⟩

/-- A character is unexpected exactly if the automaton fails in front of it. -/
theorem unexpected_iff (h : lexer.Verdict ended scanned) (position : Nat) (found : Char) :
    (∃ error, scanned = .error error ∧
      error.fault = .unexpectedCharacter found ∧ error.position = position) ↔
      ∃ walk, ended = .error walk ∧ walk.index = position ∧
        lexer.chars[position]? = some found := by
  cases h with
  | accepted hmode =>
    constructor
    · rintro ⟨error, ⟨⟩, -⟩
    · rintro ⟨other, ⟨⟩, -⟩
  | unterminated hmode =>
    constructor
    · rintro ⟨error, ⟨⟩, ⟨⟩, -⟩
    · rintro ⟨other, ⟨⟩, -⟩
  | @unexpected walk c hfound =>
    constructor
    · rintro ⟨error, ⟨⟩, ⟨⟩, rfl⟩
      exact ⟨walk, rfl, rfl, hfound⟩
    · rintro ⟨other, ⟨⟩, rfl, hother⟩
      obtain rfl : c = found := Option.some.inj (hfound.symm.trans hother)
      exact ⟨_, rfl, rfl, rfl⟩

end Verdict

end Lexer

/-- **Exact acceptance and exact errors**: a source scans when the automaton ends in code or in a
comment. It has an unexpected character where the automaton fails, and an unterminated string
where the string was opened that the automaton ends in. -/
theorem scan_iff_automaton (source : String) (strict : Bool) :
    (∀ position found,
      (∃ error, (Lexer.ofString source strict).scan = .error error ∧
        error.fault = .unexpectedCharacter found ∧ error.position = position) ↔
      ∃ walk, Walk.start.run source.toList = .error walk ∧ walk.index = position ∧
        source.toList[position]? = some found) ∧
    (∀ opened,
      (∃ error, (Lexer.ofString source strict).scan = .error error ∧
        error.fault = .unterminatedString ∧ error.position = opened) ↔
      ∃ walk, Walk.start.run source.toList = .ok walk ∧ walk.mode = .string opened) ∧
    ((∃ tokens, (Lexer.ofString source strict).scan = .ok tokens) ↔
      ∃ walk, Walk.start.run source.toList = .ok walk ∧
        (walk.mode = .code ∨ walk.mode = .comment)) := by
  have hverdict := (Lexer.ofString source strict).scan_verdict
  refine ⟨fun position found => ?_, hverdict.unterminated_iff, hverdict.accepted_iff⟩
  have hchars : (Lexer.ofString source strict).chars[position]? = source.toList[position]? :=
    List.getElem?_toArray
  rw [hverdict.unexpected_iff, hchars]
  rfl

end LoxTools
