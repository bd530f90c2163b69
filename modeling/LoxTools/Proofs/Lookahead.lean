import LoxTools.Proofs.LineByLine

/-!
# How far a token looks ahead

A token takes all that it can, and where it ends is settled by the two characters behind it:

* `MaximalMunch` — what cannot stand behind a token, and `scan_maximal_munch` that it never does;
* `Piece.Fit.extend` — pieces that leave two characters behind them still fit when the source goes on;
* `Reading.exists_extension` — so the tokens that end two characters before the end are there to stay;
* `scan_settled_tokens` — whatever the source goes on with, and also if it then fails to scan.
-/

namespace LoxTools

/-! ## Maximal munch -/

/-- A text from a position on stops before a class exactly if no character of the class stands there. -/
theorem stopsBefore_drop {p : Char → Bool} {source : List Char} {index : Nat} :
    StopsBefore p (source.drop index) ↔ ∀ c, source[index]? = some c → p c = false := by
  simp [StopsBefore, List.head?_drop]

/-- **A token that takes all it can** of the source that it stands in. There is no character at the end
of the source, so nothing is taken there. -/
structure MaximalMunch (strict : Bool) (source : List Char) (token : Token) : Prop where
  /-- a name takes every alphanumeric character -/
  name_ends : token.kind = .identifier →
    ∀ c, source[token.stop]? = some c → isAlphaNumeric c = false
  /-- a number takes every digit -/
  number_ends : token.kind = .number → ∀ c, source[token.stop]? = some c → isDigit c = false
  /-- a number without a dot takes a dot that a digit follows -/
  no_fraction : token.kind = .number → ∃ text, token.text = some text ∧
    ('.' ∉ text.toList → source[token.stop]? = some '.' →
      ∀ d, source[token.stop + 1]? = some d → isDigit d = false)
  /-- an operator takes an equals sign -/
  no_equals : token.kind ∈ [.bang, .equal, .less, .greater] → source[token.stop]? ≠ some '='
  /-- two slashes are a comment -/
  no_slash : token.kind = .slash → source[token.stop]? ≠ some '/'
  /-- a string ends at the next quote -/
  unquoted : token.kind = .string → ∃ text, token.text = some text ∧ '"' ∉ text.toList
  /-- a strict reserved word is a whole word -/
  word_ends : strict = true → token.kind.isKeyword = true →
    ∀ c, source[token.stop]? = some c → isAlphaNumeric c = false
  /-- no name is a strict reserved word, and none begins with a plain one -/
  name_free : token.kind = .identifier → ∃ text, token.text = some text ∧
    ∀ entry ∈ keywords, if strict then text ≠ entry.1 else ¬ entry.1.toList <+: text.toList

namespace Lexeme

variable {lexeme : Lexeme}

/-- Names and numbers are spelled as their text, which they have. -/
theorem WellFormed.exists_text (h : lexeme.WellFormed)
    (hkind : lexeme.kind = .identifier ∨ lexeme.kind = .number) :
    ∃ text, lexeme.text = some text ∧ lexeme.spelling = text.toList := by
  have hsome : lexeme.text.isSome = true := by
    rw [h.kind_text.2]
    rcases hkind with hname | hnumber
    · exact Or.inl hname
    · exact Or.inr (Or.inr hnumber)
  obtain ⟨text, htext⟩ := Option.isSome_iff_exists.mp hsome
  have hstring : lexeme.kind ≠ .string := by
    rcases hkind with hname | hnumber <;> simp [*]
  exact ⟨text, htext, (spelling_of_some htext).trans (if_neg hstring)⟩

/-- **A token that fits takes all it can.** -/
theorem Fits.maximalMunch {strict : Bool} {source : List Char} {token : Token}
    (fits : token.lexeme.Fits strict (source.drop token.stop)) :
    MaximalMunch strict source token where
  name_ends hkind := stopsBefore_drop.mp (fits.name_ends hkind)
  number_ends hkind := stopsBefore_drop.mp (fits.number_ends hkind)
  no_fraction hkind := by
    obtain ⟨text, htext, hspelling⟩ := fits.wellFormed.exists_text (Or.inr hkind)
    refine ⟨text, htext, fun hdot hc d hd => ?_⟩
    obtain ⟨hstop, hc⟩ := List.getElem?_eq_some_iff.mp hc
    obtain ⟨hnext, hd⟩ := List.getElem?_eq_some_iff.mp hd
    refine fits.no_fraction hkind (by rwa [hspelling]) d (source.drop (token.stop + 2)) ?_
    rw [List.drop_eq_getElem_cons hstop, hc, List.drop_eq_getElem_cons hnext, hd]
  no_equals hkind hc := by
    simpa using stopsBefore_drop.mp (fits.no_equals hkind) _ hc
  no_slash hkind hc := by
    simpa using stopsBefore_drop.mp (fits.no_slash hkind) _ hc
  unquoted hkind := by
    obtain ⟨text, htext, -, hquote⟩ := fits.wellFormed.exists_quoted hkind
    exact ⟨text, htext, hquote⟩
  word_ends hstrict hkind := stopsBefore_drop.mp (fits.word_ends hstrict hkind)
  name_free hkind := by
    obtain ⟨text, htext, hspelling⟩ := fits.wellFormed.exists_text (Or.inl hkind)
    refine ⟨text, htext, fun entry he => ?_⟩
    simpa [hspelling, String.toList_inj] using fits.name_free hkind entry he

end Lexeme

/-- **Maximal munch**: every token of a scan takes all it can, under either rule for reserved words. -/
theorem scan_maximal_munch (source : String) (strict : Bool) (tokens : List Token)
    (h : (Lexer.ofString source strict).scan = .ok tokens) :
    ∀ token ∈ tokens, MaximalMunch strict source.toList token := by
  intro token htoken
  obtain ⟨reading, rfl⟩ := Lexer.exists_reading_of_ok h
  exact (reading.fits_token htoken).maximalMunch

/-- Words, numbers and operators that each could have ended earlier, and slashes in a string. -/
theorem scan_maximal_munch_strict :
    (Lexer.ofString "or1.5.a!== /2.\"//\"" true).scan =
      .ok [⟨.identifier, some "or1", 0, 3⟩, ⟨.dot, none, 3, 1⟩, ⟨.number, some "5", 4, 1⟩,
        ⟨.dot, none, 5, 1⟩, ⟨.identifier, some "a", 6, 1⟩, ⟨.bangEqual, none, 7, 2⟩,
        ⟨.equal, none, 9, 1⟩, ⟨.slash, none, 11, 1⟩, ⟨.number, some "2", 12, 1⟩,
        ⟨.dot, none, 13, 1⟩, ⟨.string, some "//", 14, 4⟩] ∧
      MaximalMunch true "or1.5.a!== /2.\"//\"".toList ⟨.number, some "5", 4, 1⟩ :=
  ⟨rfl, scan_maximal_munch _ true _ rfl _ (by decide)⟩

/-! ## Tokens that stay -/

namespace Piece

variable {strict : Bool} {pieces : List Piece} {after : List Char}

/-- Pieces that leave two characters behind them still fit when the source goes on, whatever it goes on
with. -/
theorem Fit.extend (fit : Fit strict pieces after) (h : 2 ≤ after.length)
    (further : List Char) : Fit strict pieces (after ++ further) := by
  induction pieces with
  | nil => trivial
  | cons piece pieces ih =>
    obtain ⟨hgap, fits, fit⟩ := fit
    -- a comment at the end of the gap has a lexeme behind it, now as before
    have hends : EndsLine after → EndsLine (after ++ further) := by
      obtain ⟨c, more, rfl⟩ := List.exists_cons_of_length_pos (Nat.lt_of_succ_lt h)
      simp
    have hlength : 2 ≤ (spell pieces ++ after).length := by
      rw [List.length_append]
      omega
    have htwo : (spell pieces ++ after).take 2 = (spell pieces ++ (after ++ further)).take 2 := by
      rw [← List.append_assoc, List.take_append_of_le_length hlength]
    refine ⟨?_, fits.of_take_two htwo, ih fit⟩
    rw [← List.append_assoc] at hgap ⊢
    exact hgap.replace hends

/-- The tokens that end some characters before a limit are those of the first pieces, since all of them
stand in order. -/
theorem exists_front (pieces : List Piece) (start ahead limit : Nat) :
    ∃ front back, pieces = front ++ back ∧
      (tokens start pieces).filter (fun token => token.stop + ahead ≤ limit) = tokens start front ∧
      (front ≠ [] → start + (spell front).length + ahead ≤ limit) := by
  induction pieces generalizing start with
  | nil => exact ⟨[], [], rfl, rfl, fun h => absurd rfl h⟩
  | cons piece pieces ih =>
    by_cases hstop : start + piece.spelling.length + ahead ≤ limit
    · obtain ⟨front, back, rfl, htokens, hfront⟩ := ih (start + piece.spelling.length)
      refine ⟨piece :: front, back, rfl, ?_, fun _ => ?_⟩
      · rw [tokens, tokens, List.filter_cons_of_pos, htokens]
        rw [length_spelling] at hstop
        simpa [Nat.add_assoc] using hstop
      · rcases front with _ | ⟨next, front⟩
        · simpa [spelling] using hstop
        · have hnext := hfront (List.cons_ne_nil _ _)
          rw [spell, List.flatMap_cons, List.length_append, ← spell]
          omega
    · refine ⟨[], piece :: pieces, rfl, ?_, fun h => absurd rfl h⟩
      refine List.filter_eq_nil_iff.mpr fun token htoken => ?_
      have hend : start + piece.spelling.length ≤ token.stop := by
        rw [tokens] at htoken
        rcases List.mem_cons.mp htoken with rfl | htoken
        · simp [length_spelling, Nat.add_assoc]
        · exact Nat.le_trans (start_le_of_mem_tokens htoken) (Nat.le_add_right _ _)
      simp only [decide_eq_true_eq]
      omega

end Piece

/-- **When a source goes on**, its tokens that end two characters before its end come first, and a new
reading goes as far as it can. -/
theorem Reading.exists_extension {strict : Bool} {source : List Char}
    (reading : Reading strict source []) (further : List Char) :
    ∃ (rest : List Char) (whole : Reading strict (source ++ further) rest),
      (rest = [] ∨ ∃ fault, Stuck fault rest) ∧
      (reading.tokens.filter fun token => token.stop + 2 ≤ source.length) <+: whole.tokens := by
  obtain ⟨front, back, hpieces, htokens, hfront⟩ :=
    Piece.exists_front reading.pieces 0 2 source.length
  have hsource : source = Piece.spell front ++ (Piece.spell back ++ reading.last) := by
    have hsource := reading.source_eq
    rwa [hpieces, Piece.spell_append, List.append_assoc, List.append_nil] at hsource
  have fit : Piece.Fit strict front (Piece.spell back ++ reading.last) := by
    have fit := reading.fit
    rw [hpieces, Piece.fit_append, List.append_nil] at fit
    exact fit.1
  have hextended : Piece.Fit strict front (Piece.spell back ++ reading.last ++ further) := by
    rcases front with _ | ⟨piece, front⟩
    · trivial
    · have hlength := hfront (List.cons_ne_nil _ _)
      have hsize := congrArg List.length hsource
      rw [List.length_append] at hsize
      exact fit.extend (by omega) further
  generalize Piece.spell back ++ reading.last = behind at hsource hextended
  obtain ⟨rest, ⟨second⟩, hrest⟩ := exists_reading strict (behind ++ further)
  let first : Reading strict (source ++ further) (behind ++ further) :=
    ⟨front, [], by rw [hsource, List.append_assoc]; rfl, hextended, .nil⟩
  obtain ⟨whole, hwhole, -, -⟩ := first.exists_append second
  refine ⟨rest, whole, hrest, ?_⟩
  have hfirst : first.tokens =
      reading.tokens.filter fun token => token.stop + 2 ≤ source.length := htokens.symm
  rw [hwhole, hfirst]
  exact List.prefix_append _ _

/-- Whether an event is the report of a token. -/
def Log.Event.isToken (event : Log.Event) : Bool :=
  event.level == .trace && event.message == "token"

/-- **The tokens that a scan emits**, in order: all that it returns, and if it fails in the end all that
it came to before. -/
structure Lexer.Emits (lexer : Lexer) (tokens : List Token) : Prop where
  /-- they are collected on the way -/
  collected : lexer.run.tokens.toList = tokens
  /-- they are what is returned if nothing is at fault -/
  returned : ∀ others, lexer.scan = .ok others → tokens = others
  /-- they are what is reported, whether something is at fault or not -/
  reported : lexer.log.filter Log.Event.isToken = tokens.map ScanState.tokenEvent

theorem Lexer.isToken_finishEvent (state : ScanState) :
    (finishEvent state).isToken = false := by
  unfold finishEvent
  split <;> rfl

/-- A scan emits the tokens of a reading that goes as far as it can, to the end of the source or up to a
fault. -/
theorem Lexer.emits_tokens {lexer : Lexer} {rest : List Char}
    (reading : Reading lexer.strictKeywords lexer.chars.toList rest)
    (hrest : rest = [] ∨ ∃ fault, Stuck fault rest) : lexer.Emits reading.tokens where
  collected := tokens_run reading hrest
  returned others hscan := by
    rcases hrest with rfl | ⟨fault, hstuck⟩
    · exact Except.ok.inj ((scan_eq_ok reading).symm.trans hscan)
    · rw [scan_eq_error reading hstuck] at hscan
      cases hscan
  reported := by
    have hstart : lexer.startEvent.isToken = false := rfl
    have hall : (reading.tokens.map ScanState.tokenEvent).filter Log.Event.isToken =
        reading.tokens.map ScanState.tokenEvent := by
      refine List.filter_eq_self.mpr fun event hevent => ?_
      obtain ⟨token, -, rfl⟩ := List.mem_map.mp hevent
      rfl
    rw [log_eq, tokens_run reading hrest, List.filter_cons_of_neg (by simp [hstart]),
      List.filter_append, hall, List.filter_cons_of_neg (by simp [isToken_finishEvent]),
      List.filter_nil, List.append_nil]

/-- **Two characters settle a token**: the tokens of a source that end two characters before its end or
earlier are the first tokens that are emitted when the source goes on, whatever it goes on with. -/
theorem scan_settled_tokens (source further : String) (strict : Bool) (tokens : List Token)
    (h : (Lexer.ofString source strict).scan = .ok tokens) :
    ∃ emitted, (Lexer.ofString (source ++ further) strict).Emits emitted ∧
      (tokens.filter fun token => token.stop + 2 ≤ source.length) <+: emitted := by
  have hreading : ∃ reading : Reading strict source.toList [], reading.tokens = tokens :=
    Lexer.exists_reading_of_ok h
  obtain ⟨reading, rfl⟩ := hreading
  have hextension := reading.exists_extension further.toList
  rw [← String.toList_append] at hextension
  obtain ⟨rest, whole, hrest, hprefix⟩ := hextension
  exact ⟨whole.tokens, @Lexer.emits_tokens (Lexer.ofString (source ++ further) strict) rest whole hrest,
    hprefix⟩

/-- The last number of the source takes a dot and a digit that come behind it, and its first tokens stay,
also where the source then goes on with a string that is not closed. -/
theorem scan_settled_tokens_fraction :
    (Lexer.ofString "orx = 1." false).scan =
      .ok [⟨.orWord, none, 0, 2⟩, ⟨.identifier, some "x", 2, 1⟩, ⟨.equal, none, 4, 1⟩,
        ⟨.number, some "1", 6, 1⟩, ⟨.dot, none, 7, 1⟩] ∧
    (Lexer.ofString ("orx = 1." ++ "5 \"") false).scan =
      .error ⟨.unterminatedString, 1, "orx = 1.5 \"", 10⟩ ∧
    ∃ emitted, (Lexer.ofString ("orx = 1." ++ "5 \"") false).Emits emitted ∧
      [⟨.orWord, none, 0, 2⟩, ⟨.identifier, some "x", 2, 1⟩, ⟨.equal, none, 4, 1⟩] <+: emitted :=
  ⟨rfl, rfl, scan_settled_tokens "orx = 1." "5 \"" false _ rfl⟩

end LoxTools
