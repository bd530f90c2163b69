import LoxTools.Proofs.Boundaries
import LoxTools.Proofs.Tokenisation

/-!
# Spelling out tokens and scanning them again

What tokens say can be written down again, with a single space between two of them, and scanning that
gives the same tokens, only their places are new. No space is needed inside a lexeme and one space
keeps any two apart.

* `Lexeme.written` and `Lexeme.laidOut` — lexemes written down, and the tokens they then are;
* `scan_written` — scanning undoes writing, and there is nothing in a scan that cannot be written.
-/

namespace LoxTools

namespace Lexeme

variable {strict : Bool}

/-- **Lexemes written down**, with single spaces between them. -/
def written (lexemes : List Lexeme) : String :=
  " ".intercalate (lexemes.map fun lexeme => String.ofList lexeme.spelling)

/-- **The tokens of lexemes that are written down** from a position on. -/
def laidOut (start : Nat) : List Lexeme → List Token
  | [] => []
  | lexeme :: lexemes =>
    lexeme.token start :: laidOut (start + lexeme.spelling.length + 1) lexemes

/-- The tokens that lexemes are laid out as are tokens of these lexemes. -/
theorem map_lexeme_laidOut (start : Nat) (lexemes : List Lexeme) :
    (laidOut start lexemes).map Token.lexeme = lexemes := by
  induction lexemes generalizing start with
  | nil => rfl
  | cons lexeme lexemes ih =>
    rw [laidOut, List.map_cons, ih]
    rfl

/-! ## As pieces -/

/-- A lexeme behind a space, as a piece of a source. -/
def spaced (lexeme : Lexeme) : Piece :=
  ⟨[' '], lexeme⟩

theorem toList_written_cons (lexeme : Lexeme) (lexemes : List Lexeme) :
    (written (lexeme :: lexemes)).toList =
      lexeme.spelling ++ Piece.spell (lexemes.map spaced) := by
  induction lexemes generalizing lexeme with
  | nil => simp [written]
  | cons second lexemes ih =>
    have htail := ih second
    rw [written, List.map_cons] at htail
    rw [written, List.map_cons, List.map_cons, String.intercalate_cons_cons, String.toList_append,
      String.toList_append, String.toList_ofList, htail, List.map_cons, Piece.spell_cons,
      List.append_assoc]
    rfl

/-- The tokens of lexemes that stand behind spaces are those laid out from one position further on. -/
theorem tokens_spaced (start : Nat) (lexemes : List Lexeme) :
    Piece.tokens start (lexemes.map spaced) = laidOut (start + 1) lexemes := by
  induction lexemes generalizing start with
  | nil => rfl
  | cons lexeme lexemes ih =>
    rw [List.map_cons, Piece.tokens_cons, ih]
    rfl

/-- Behind a lexeme that is written down comes a space, or the end of the source. -/
theorem inert_spell_spaced (lexemes : List Lexeme) :
    Inert (Piece.spell (lexemes.map spaced)) := by
  cases lexemes with
  | nil => exact inert_nil
  | cons lexeme lexemes => exact inert_cons_of_isBlank rfl

/-- Valid lexemes behind spaces fit before the end of the source. -/
theorem fit_spaced {lexemes : List Lexeme} (h : ∀ lexeme ∈ lexemes, lexeme.Valid strict) :
    Piece.Fit strict (lexemes.map spaced) [] := by
  induction lexemes with
  | nil => trivial
  | cons lexeme lexemes ih =>
    obtain ⟨hvalid, hmore⟩ := List.forall_mem_cons.mp h
    refine ⟨.blank rfl .nil, hvalid.fits ?_, ih hmore⟩
    rw [List.append_nil]
    exact inert_spell_spaced lexemes

end Lexeme

/-- Valid lexemes that are written down can be read, as the tokens that they are laid out as. -/
theorem exists_reading_written {strict : Bool} {lexemes : List Lexeme}
    (h : ∀ lexeme ∈ lexemes, lexeme.Valid strict) :
    ∃ reading : Reading strict (Lexeme.written lexemes).toList [],
      reading.tokens = Lexeme.laidOut 0 lexemes := by
  cases lexemes with
  | nil => exact ⟨⟨[], [], rfl, trivial, .nil⟩, rfl⟩
  | cons lexeme lexemes =>
    obtain ⟨hvalid, hmore⟩ := List.forall_mem_cons.mp h
    have hfits : lexeme.Fits strict (Piece.spell (lexemes.map Lexeme.spaced) ++ []) := by
      rw [List.append_nil]
      exact hvalid.fits (Lexeme.inert_spell_spaced lexemes)
    have hsource : (Lexeme.written (lexeme :: lexemes)).toList =
        Piece.spell (⟨[], lexeme⟩ :: lexemes.map Lexeme.spaced) ++ ([] ++ []) := by
      rw [Lexeme.toList_written_cons, Piece.spell_cons, List.append_nil, List.append_nil]
      rfl
    refine ⟨⟨⟨[], lexeme⟩ :: lexemes.map Lexeme.spaced, [], hsource,
      ⟨.nil, hfits, Lexeme.fit_spaced hmore⟩, .nil⟩, ?_⟩
    rw [Reading.tokens, Piece.tokens_cons, Lexeme.tokens_spaced]
    rfl

/-- Every token of a reading is that of a valid lexeme, so it can be written down. -/
theorem Reading.valid_of_mem_tokens {strict : Bool} {source rest : List Char}
    (reading : Reading strict source rest) :
    ∀ token ∈ reading.tokens, token.lexeme.Valid strict :=
  fun _ htoken => (reading.fits_token htoken).valid

/-- **Scanning undoes writing**: valid lexemes that are written down with single spaces are scanned as
they are, each at the place where it was written. All that a scan gives is valid, so writing it down
and scanning it again gives the same kinds and texts. -/
theorem scan_written (strict : Bool) :
    (∀ lexemes : List Lexeme, (∀ lexeme ∈ lexemes, lexeme.Valid strict) →
      (Lexer.ofString (Lexeme.written lexemes) strict).scan = .ok (Lexeme.laidOut 0 lexemes)) ∧
    ∀ (source : String) (tokens : List Token),
      (Lexer.ofString source strict).scan = .ok tokens →
        (∀ token ∈ tokens, token.lexeme.Valid strict) ∧
        ∃ again, (Lexer.ofString (Lexeme.written (tokens.map Token.lexeme)) strict).scan =
          .ok again ∧ again.map Token.lexeme = tokens.map Token.lexeme := by
  have hwritten : ∀ lexemes : List Lexeme, (∀ lexeme ∈ lexemes, lexeme.Valid strict) →
      (Lexer.ofString (Lexeme.written lexemes) strict).scan =
        .ok (Lexeme.laidOut 0 lexemes) := by
    intro lexemes h
    obtain ⟨reading, htokens⟩ := exists_reading_written h
    rw [← htokens]
    exact @Lexer.scan_eq_ok (Lexer.ofString (Lexeme.written lexemes) strict) reading
  refine ⟨hwritten, fun source tokens h => ?_⟩
  obtain ⟨reading, rfl⟩ := Lexer.exists_reading_of_ok h
  have hvalid := reading.valid_of_mem_tokens
  refine ⟨hvalid, _, hwritten _ (List.forall_mem_map.mpr hvalid), ?_⟩
  exact Lexeme.map_lexeme_laidOut 0 _

/-- A string over two lines with slashes in it, two operators that would be one without the space, and
a number behind a dot; and a source whose words have to be taken apart. -/
theorem scan_written_mixed :
    (Lexer.ofString (Lexeme.written [⟨.string, some "a // b\n"⟩, ⟨.equal, none⟩, ⟨.equal, none⟩,
        ⟨.dot, none⟩, ⟨.number, some "1.5"⟩]) false).scan =
      .ok [⟨.string, some "a // b\n", 0, 9⟩, ⟨.equal, none, 10, 1⟩, ⟨.equal, none, 12, 1⟩,
        ⟨.dot, none, 14, 1⟩, ⟨.number, some "1.5", 16, 3⟩] ∧
    (Lexer.ofString "orx1.5" false).scan =
      .ok [⟨.orWord, none, 0, 2⟩, ⟨.identifier, some "x1", 2, 2⟩, ⟨.dot, none, 4, 1⟩,
        ⟨.number, some "5", 5, 1⟩] ∧
    ∃ again, (Lexer.ofString (Lexeme.written [⟨.orWord, none⟩, ⟨.identifier, some "x1"⟩,
        ⟨.dot, none⟩, ⟨.number, some "5"⟩]) false).scan = .ok again ∧
      again.map Token.lexeme = [⟨.orWord, none⟩, ⟨.identifier, some "x1"⟩, ⟨.dot, none⟩,
        ⟨.number, some "5"⟩] := by
  refine ⟨(scan_written false).1 _ ?_, rfl, ((scan_written false).2 "orx1.5" _ rfl).2⟩
  have hnumeral : IsNumeral "1.5".toList :=
    Or.inr ⟨['1'], ['5'], ⟨nofun, List.forall_mem_singleton.mpr rfl⟩,
      ⟨nofun, List.forall_mem_singleton.mpr rfl⟩, rfl⟩
  simp only [List.forall_mem_cons]
  exact ⟨⟨.string (by decide), nofun⟩, ⟨.fixed rfl, nofun⟩, ⟨.fixed rfl, nofun⟩, ⟨.fixed rfl, nofun⟩,
    ⟨.number hnumeral, nofun⟩, nofun⟩

end LoxTools
