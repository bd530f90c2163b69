import LoxTools.Proofs.Grammar

/-!
# Readings

A reading writes a source as pieces, each a gap and the lexeme behind it, then a last gap, then a
rest that is not read. Every piece fits before what follows it, so a reading says all that the
grammar has to say about a source:

* `Reading` — the pieces with the proof that they are the source and that they fit;
* `Reading.tokens` — the tokens it stands for;
* `exists_reading` — every source has a reading whose rest is empty or at fault.
-/

namespace LoxTools

/-- A gap and the lexeme behind it. The gap may be empty, as it is between a name and a parenthesis. -/
structure Piece where
  /-- what stands before the lexeme: blanks and comments -/
  gap : List Char
  /-- the lexeme -/
  lexeme : Lexeme
  deriving DecidableEq, Repr

namespace Piece

/-- The characters of a piece. -/
def spelling (piece : Piece) : List Char :=
  piece.gap ++ piece.lexeme.spelling

/-- The characters of several pieces. -/
def spell (pieces : List Piece) : List Char :=
  pieces.flatMap spelling

/-- The tokens of several pieces, the first of which begins at `start`. -/
def tokens (start : Nat) : List Piece → List Token
  | [] => []
  | piece :: pieces =>
    piece.lexeme.token (start + piece.gap.length) :: tokens (start + piece.spelling.length) pieces

/-- Every gap and every lexeme ends where it must, with the text behind the last one. What stands behind
a piece is the text of the pieces that follow and then that text, so a piece cannot be judged alone. -/
def Fit (strict : Bool) : List Piece → List Char → Prop
  | [], _ => True
  | piece :: pieces, after =>
    Gap piece.gap (piece.lexeme.spelling ++ (spell pieces ++ after)) ∧
      piece.lexeme.Fits strict (spell pieces ++ after) ∧ Fit strict pieces after

@[simp] theorem spell_nil : spell [] = [] := rfl

@[simp] theorem spell_cons (piece : Piece) (pieces : List Piece) :
    spell (piece :: pieces) = piece.gap ++ (piece.lexeme.spelling ++ spell pieces) := by
  rw [spell, List.flatMap_cons, spelling, List.append_assoc]
  rfl

theorem length_spelling (piece : Piece) :
    piece.spelling.length = piece.gap.length + piece.lexeme.spelling.length :=
  List.length_append

theorem tokens_cons (start : Nat) (piece : Piece) (pieces : List Piece) :
    tokens start (piece :: pieces) = piece.lexeme.token (start + piece.gap.length) ::
      tokens (start + piece.gap.length + piece.lexeme.spelling.length) pieces := by
  rw [tokens, length_spelling, Nat.add_assoc]

/-- No token of some pieces begins before the first of them. -/
theorem start_le_of_mem_tokens {token : Token} {start : Nat} {pieces : List Piece}
    (h : token ∈ tokens start pieces) : start ≤ token.start := by
  induction pieces generalizing start with
  | nil => cases h
  | cons piece pieces ih =>
    rw [tokens_cons] at h
    rcases List.mem_cons.mp h with rfl | h
    · exact Nat.le_add_right _ _
    · have hstart := ih h
      omega

/-! One behind the other, pieces are pieces. -/

theorem spell_append (pieces more : List Piece) :
    spell (pieces ++ more) = spell pieces ++ spell more :=
  List.flatMap_append

theorem tokens_append (start : Nat) (pieces more : List Piece) :
    tokens start (pieces ++ more) =
      tokens start pieces ++ tokens (start + (spell pieces).length) more := by
  induction pieces generalizing start with
  | nil => rfl
  | cons piece pieces ih =>
    rw [List.cons_append, tokens, tokens, ih, spell_cons, length_spelling, List.length_append,
      List.length_append, List.cons_append]
    simp only [Nat.add_assoc]

/-- Pieces that fit can be cut anywhere: the first of them fit before what the others are written as. -/
theorem fit_append {strict : Bool} {pieces more : List Piece} {after : List Char} :
    Fit strict (pieces ++ more) after ↔
      Fit strict pieces (spell more ++ after) ∧ Fit strict more after := by
  induction pieces with
  | nil => simp [Fit]
  | cons piece pieces ih =>
    rw [List.cons_append, Fit, Fit, ih, spell_append, List.append_assoc, and_assoc, and_assoc]

end Piece

/-- **A reading** of a source up to a rest: pieces and a last gap that come to the source, each of them
ending where it must. The fields with the proofs make it impossible to read a source in a way that the
grammar does not allow. -/
@[ext] structure Reading (strict : Bool) (source rest : List Char) where
  /-- the gaps and lexemes -/
  pieces : List Piece
  /-- the gap behind the last lexeme -/
  last : List Char
  /-- they are the source -/
  source_eq : source = Piece.spell pieces ++ (last ++ rest)
  /-- the pieces end where they must -/
  fit : Piece.Fit strict pieces (last ++ rest)
  /-- the last gap ends where it must, too -/
  last_gap : Gap last rest

namespace Reading

variable {strict : Bool} {source rest : List Char}

/-- The tokens of a reading. -/
def tokens (reading : Reading strict source rest) : List Token :=
  Piece.tokens 0 reading.pieces

/-- Where the rest begins, in code points from the beginning of the source. -/
def stop (reading : Reading strict source rest) : Nat :=
  (Piece.spell reading.pieces).length + reading.last.length

/-- The reading with one more piece in front. Its gap and its lexeme must fit before the source that was
read. -/
def cons {after : List Char} (gap : List Char) (lexeme : Lexeme)
    (hgap : Gap gap (lexeme.spelling ++ after)) (fits : lexeme.Fits strict after)
    (reading : Reading strict after rest) :
    Reading strict (gap ++ (lexeme.spelling ++ after)) rest where
  pieces := ⟨gap, lexeme⟩ :: reading.pieces
  last := reading.last
  source_eq := by
    rw [Piece.spell_cons, List.append_assoc, List.append_assoc, ← reading.source_eq]
  fit := by
    refine ⟨?_, ?_, reading.fit⟩
    · rwa [← reading.source_eq]
    · rwa [← reading.source_eq]
  last_gap := reading.last_gap

end Reading

/-- **Every source has a reading** that goes on until nothing is left or the rest is at fault. By
induction on the length of the source: behind the first gap a lexeme fits or the text is at fault, by
completeness of the grammar. -/
theorem exists_reading (strict : Bool) (source : List Char) :
    ∃ rest, Nonempty (Reading strict source rest) ∧ (rest = [] ∨ ∃ fault, Stuck fault rest) := by
  induction hn : source.length using Nat.strongRecOn generalizing source with
  | ind n ih =>
    subst hn
    obtain ⟨gap, text, rfl, hgap, hblank, hslashes⟩ := exists_gap source
    have hlast : Nonempty (Reading strict (gap ++ text) text) := ⟨⟨[], gap, rfl, trivial, hgap⟩⟩
    by_cases hne : text = []
    · exact ⟨text, hlast, Or.inl hne⟩
    · rcases beginsLexeme_or_stuck strict hne hblank hslashes with
        ⟨lexeme, after, rfl, fits⟩ | hstuck
      · have hshort : after.length < (gap ++ (lexeme.spelling ++ after)).length := by
          have := List.length_pos_iff.mpr fits.wellFormed.spelling_ne_nil
          simp only [List.length_append]
          omega
        obtain ⟨rest, ⟨reading⟩, hrest⟩ := ih _ hshort after rfl
        exact ⟨rest, ⟨reading.cons gap lexeme hgap fits⟩, hrest⟩
      · exact ⟨text, hlast, Or.inr hstuck⟩

end LoxTools
