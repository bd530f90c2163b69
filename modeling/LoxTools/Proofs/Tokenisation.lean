import LoxTools.Proofs.Scanning

/-!
# Tokenisation

A source that scans is cut into tokens in one way only, and nothing of it gets lost:

* `scan_complete_unique` — any way of writing a source by gaps and fitting lexemes is the
  scan's, there is at most one, and a source that scans has one;
* `scan_lossless` — the tokens of a scan are in order, apart and inside the source, each covers
  what it says, and only blanks and comments are left between them.
-/

namespace LoxTools

/-! ## Uniqueness -/

/-- Tokens tell kinds and lengths, so together with the source they tell the pieces. By induction on the
pieces: the first tokens of both start at the same place, which cuts off the same gap. -/
theorem Piece.eq_of_tokens_eq {pieces others : List Piece} {start : Nat} {last after : List Char}
    (htokens : Piece.tokens start pieces = Piece.tokens start others)
    (hspell : Piece.spell pieces ++ last = Piece.spell others ++ after) :
    pieces = others ∧ last = after := by
  induction pieces generalizing start others with
  | nil =>
    cases others with
    | nil => exact ⟨rfl, hspell⟩
    | cons other others => cases htokens
  | cons piece pieces ih =>
    cases others with
    | nil => cases htokens
    | cons other others =>
      obtain ⟨gap, lexeme⟩ := piece
      obtain ⟨gap', lexeme'⟩ := other
      obtain ⟨hhead, htail⟩ := List.cons.inj htokens
      obtain ⟨hkind, htext, hstart, -⟩ := Token.mk.inj hhead
      -- equal kinds and texts make equal lexemes, equal starts make equal gaps
      obtain rfl : lexeme = lexeme' := by
        cases lexeme
        cases lexeme'
        exact congrArg₂ Lexeme.mk hkind htext
      simp only [Piece.spell_cons, List.append_assoc] at hspell
      obtain ⟨rfl, hrest⟩ := List.append_inj hspell (Nat.add_left_cancel hstart)
      obtain ⟨rfl, rfl⟩ := ih htail (List.append_cancel_left hrest)
      exact ⟨rfl, rfl⟩

/-- A reading is told by its tokens. -/
theorem Reading.eq_of_tokens_eq {strict : Bool} {source rest : List Char}
    {reading other : Reading strict source rest} (h : reading.tokens = other.tokens) :
    reading = other := by
  have hspell := reading.source_eq.symm.trans other.source_eq
  obtain ⟨hpieces, hlast⟩ := Piece.eq_of_tokens_eq h hspell
  exact Reading.ext hpieces (List.append_cancel_right hlast)

/-- **Tokenisation is complete and unique**: a reading of the whole source gives the tokens of the scan,
there is no second one, and there is one whenever the scan succeeds. The reading is a notion of the
grammar, with no scan in it. -/
theorem scan_complete_unique (source : String) (strict : Bool) :
    (∀ reading : Reading strict source.toList [],
      (Lexer.ofString source strict).scan = .ok reading.tokens) ∧
    (∀ reading other : Reading strict source.toList [], reading = other) ∧
    ((∃ tokens, (Lexer.ofString source strict).scan = .ok tokens) ↔
      Nonempty (Reading strict source.toList [])) := by
  have hscan : ∀ reading : Reading strict source.toList [],
      (Lexer.ofString source strict).scan = .ok reading.tokens :=
    @Lexer.scan_eq_ok (Lexer.ofString source strict)
  refine ⟨hscan, fun reading other => ?_, ?_, ?_⟩
  · exact Reading.eq_of_tokens_eq
      (Except.ok.inj ((hscan reading).symm.trans (hscan other)))
  · rintro ⟨tokens, htokens⟩
    obtain ⟨reading, -⟩ := Lexer.exists_reading_of_ok htokens
    exact ⟨reading⟩
  · rintro ⟨reading⟩
    exact ⟨_, hscan reading⟩

/-! ## Nothing is lost -/

/-- What stands in a source from one position up to another one. -/
def cut (source : List Char) (first stop : Nat) : List Char :=
  (source.drop first).take (stop - first)

/-- What a token says apart from its place. -/
def Token.lexeme (token : Token) : Lexeme :=
  ⟨token.kind, token.text⟩

/-- The stretches before, between and behind tokens, by their ends. There is one more of them than there
are tokens. -/
def stretches (length first : Nat) : List Token → List (Nat × Nat)
  | [] => [(first, length)]
  | token :: tokens => (first, token.start) :: stretches length token.stop tokens

/-- The text that tokens and the stretches of the source between them come to: each token is written out
from its kind and its text, and only the stretches are taken from the source. -/
def weave (source : List Char) (first : Nat) : List Token → List Char
  | [] => source.drop first
  | token :: tokens =>
    cut source first token.start ++ (token.lexeme.spelling ++ weave source token.stop tokens)

/-- **Tokens that say all of a source** but its blanks and comments. The fields tell where the tokens
lie, what each of them covers, and what is left between them. -/
structure Lossless (source : List Char) (tokens : List Token) : Prop where
  /-- later tokens begin later, and behind the end of earlier ones -/
  ordered : tokens.Pairwise fun a b => a.start < b.start ∧ a.stop ≤ b.start
  /-- every token covers something, and only of the source -/
  inside : ∀ token ∈ tokens, 1 ≤ token.length ∧ token.stop ≤ source.length
  /-- no token is an end marker -/
  not_end : ∀ token ∈ tokens, token.kind ≠ .endOfFile
  /-- three kinds carry a text -/
  text_iff : ∀ token ∈ tokens, token.text.isSome = true ↔
    token.kind = .identifier ∨ token.kind = .string ∨ token.kind = .number
  /-- a token without text covers the spelling of its kind -/
  fixed : ∀ token ∈ tokens, token.text = none → ∃ spelling,
    token.kind.spelling? = some spelling ∧ cut source token.start token.stop = spelling.toList
  /-- a string covers its text and two quotes -/
  quoted : ∀ token ∈ tokens, ∀ text, token.text = some text → token.kind = .string →
    cut source token.start token.stop = '"' :: (text.toList ++ ['"'])
  /-- any other token with a text covers it -/
  worded : ∀ token ∈ tokens, ∀ text, token.text = some text → token.kind ≠ .string →
    cut source token.start token.stop = text.toList
  /-- the stretches between are gaps -/
  gaps : ∀ stretch ∈ stretches source.length 0 tokens, stretch.1 ≤ stretch.2 ∧
    Gap (cut source stretch.1 stretch.2) (source.drop stretch.2)
  /-- gaps and spellings are the source -/
  woven : weave source 0 tokens = source

theorem drop_add_of_eq {source text after : List Char} {start : Nat}
    (h : source.drop start = text ++ after) : source.drop (start + text.length) = after := by
  rw [← List.drop_drop, h, List.drop_left]

/-- A text that stands at a place is what is cut out there. -/
theorem cut_of_eq {source text after : List Char} {start : Nat}
    (h : source.drop start = text ++ after) : cut source start (start + text.length) = text := by
  rw [cut, h, Nat.add_sub_cancel_left, List.take_left]

theorem add_le_length_of_eq {source text after : List Char} {start : Nat}
    (h : source.drop start = text ++ after) (hne : text ≠ []) :
    start + text.length ≤ source.length := by
  have hlen := congrArg List.length h
  have hpos := List.length_pos_iff.mpr hne
  rw [List.length_drop, List.length_append] at hlen
  omega

/-- Where pieces stand, their parts stand. -/
theorem Piece.drop_cons {source after : List Char} {piece : Piece} {pieces : List Piece}
    {start : Nat} (h : source.drop start = Piece.spell (piece :: pieces) ++ after) :
    source.drop start = piece.gap ++ (piece.lexeme.spelling ++ (Piece.spell pieces ++ after)) ∧
      source.drop (start + piece.gap.length) =
        piece.lexeme.spelling ++ (Piece.spell pieces ++ after) ∧
      source.drop (start + piece.gap.length + piece.lexeme.spelling.length) =
        Piece.spell pieces ++ after := by
  rw [Piece.spell_cons, List.append_assoc, List.append_assoc] at h
  have hlexeme := drop_add_of_eq h
  exact ⟨h, hlexeme, drop_add_of_eq hlexeme⟩

/-- Every token of some pieces stands where its lexeme does. -/
theorem Piece.exists_lexeme {strict : Bool} {source after : List Char} {pieces : List Piece}
    {start : Nat} (fit : Piece.Fit strict pieces after)
    (h : source.drop start = Piece.spell pieces ++ after) :
    ∀ token ∈ Piece.tokens start pieces, start ≤ token.start ∧
      ∃ (lexeme : Lexeme) (back : List Char),
      token = lexeme.token token.start ∧ lexeme.Fits strict back ∧
      source.drop token.start = lexeme.spelling ++ back := by
  induction pieces generalizing start with
  | nil => nofun
  | cons piece pieces ih =>
    obtain ⟨-, fits, fit⟩ := fit
    obtain ⟨-, hlexeme, htail⟩ := Piece.drop_cons h
    intro token htoken
    rw [Piece.tokens_cons] at htoken
    rcases List.mem_cons.mp htoken with rfl | htoken
    · exact ⟨Nat.le_add_right _ _, piece.lexeme, _, rfl, fits, hlexeme⟩
    · obtain ⟨hstart, hplace⟩ := ih fit htail token htoken
      exact ⟨by omega, hplace⟩

/-- The tokens of some pieces begin one behind the end of the other. -/
theorem Piece.tokens_ordered {strict : Bool} {source after : List Char} {pieces : List Piece}
    {start : Nat} (fit : Piece.Fit strict pieces after)
    (h : source.drop start = Piece.spell pieces ++ after) :
    (Piece.tokens start pieces).Pairwise fun a b => a.start < b.start ∧ a.stop ≤ b.start := by
  induction pieces generalizing start with
  | nil => exact List.Pairwise.nil
  | cons piece pieces ih =>
    obtain ⟨-, fits, fit⟩ := fit
    obtain ⟨-, -, htail⟩ := Piece.drop_cons h
    rw [Piece.tokens_cons]
    refine List.pairwise_cons.mpr ⟨fun token htoken => ?_, ih fit htail⟩
    have hstart := (Piece.exists_lexeme fit htail token htoken).1
    have hpos := List.length_pos_iff.mpr fits.wellFormed.spelling_ne_nil
    simp only [Token.stop, Lexeme.token]
    omega

/-- Between the tokens of some pieces, and behind them up to the end, are gaps. -/
theorem Piece.gap_of_mem_stretches {strict : Bool} {source last : List Char}
    {pieces : List Piece} {start : Nat} (fit : Piece.Fit strict pieces last) (hlast : Gap last [])
    (h : source.drop start = Piece.spell pieces ++ last) (hstart : start ≤ source.length) :
    ∀ stretch ∈ stretches source.length start (Piece.tokens start pieces),
      stretch.1 ≤ stretch.2 ∧ Gap (cut source stretch.1 stretch.2) (source.drop stretch.2) := by
  induction pieces generalizing start with
  | nil =>
    intro stretch hstretch
    obtain rfl := List.mem_singleton.mp hstretch
    refine ⟨hstart, ?_⟩
    have hcut : cut source start source.length = last := by
      rw [cut, ← List.length_drop, List.take_length, h]
      rfl
    rw [hcut, List.drop_length]
    exact hlast
  | cons piece pieces ih =>
    obtain ⟨hgap, fits, fit⟩ := fit
    obtain ⟨hgapped, hlexeme, htail⟩ := Piece.drop_cons h
    rw [Piece.tokens_cons]
    intro stretch hstretch
    rcases List.mem_cons.mp hstretch with rfl | hstretch
    · refine ⟨Nat.le_add_right _ _, ?_⟩
      rw [Lexeme.token, cut_of_eq hgapped, hlexeme]
      exact hgap
    · exact ih fit htail (add_le_length_of_eq hlexeme fits.wellFormed.spelling_ne_nil)
        stretch hstretch

/-- Written out and woven into the source, the tokens of some pieces give the source back. -/
theorem Piece.weave_tokens {source after : List Char} {pieces : List Piece} {start : Nat}
    (h : source.drop start = Piece.spell pieces ++ after) :
    weave source start (Piece.tokens start pieces) = source.drop start := by
  induction pieces generalizing start with
  | nil => rfl
  | cons piece pieces ih =>
    obtain ⟨hgapped, hlexeme, htail⟩ := Piece.drop_cons h
    rw [Piece.tokens_cons, weave]
    simp only [Lexeme.token, Token.lexeme, Token.stop]
    rw [cut_of_eq hgapped, ih htail, htail, hgapped]

/-! ## What single tokens say -/

/-- No lexeme is an end marker, and three kinds carry a text. -/
theorem Lexeme.WellFormed.kind_text {lexeme : Lexeme} (h : lexeme.WellFormed) :
    lexeme.kind ≠ .endOfFile ∧ (lexeme.text.isSome = true ↔
      lexeme.kind = .identifier ∨ lexeme.kind = .string ∨ lexeme.kind = .number) := by
  cases h with
  | @fixed kind spelling hs => cases kind <;> cases hs <;> decide
  | number => exact ⟨nofun, by simp⟩
  | string => exact ⟨nofun, by simp⟩
  | name => exact ⟨nofun, by simp⟩

/-- A lexeme without a text is spelled as its kind is. -/
theorem Lexeme.WellFormed.spelling_of_none {lexeme : Lexeme} (h : lexeme.WellFormed)
    (htext : lexeme.text = none) :
    ∃ spelling, lexeme.kind.spelling? = some spelling ∧ lexeme.spelling = spelling.toList := by
  cases h with
  | fixed hs => exact ⟨_, hs, Lexeme.spelling_fixed hs⟩
  | number => cases htext
  | string => cases htext
  | name => cases htext

/-- A lexeme with a text is spelled by it, a string with two quotes around. -/
theorem Lexeme.spelling_of_some {lexeme : Lexeme} {text : String} (htext : lexeme.text = some text) :
    lexeme.spelling =
      if lexeme.kind = .string then '"' :: (text.toList ++ ['"']) else text.toList := by
  rw [Lexeme.spelling, htext]

/-- Every token of a reading stands where a lexeme does. -/
theorem Reading.exists_lexeme {strict : Bool} {source rest : List Char}
    (reading : Reading strict source rest) {token : Token} (htoken : token ∈ reading.tokens) :
    ∃ (lexeme : Lexeme) (back : List Char), token = lexeme.token token.start ∧
      lexeme.Fits strict back ∧ source.drop token.start = lexeme.spelling ++ back := by
  have hsource : source.drop 0 = Piece.spell reading.pieces ++ (reading.last ++ rest) :=
    reading.source_eq
  exact (Piece.exists_lexeme reading.fit hsource token htoken).2

/-- **Every token of a reading fits** before the source behind it. This carries all that the grammar
says of lexemes over to the tokens of a scan. -/
theorem Reading.fits_token {strict : Bool} {source rest : List Char}
    (reading : Reading strict source rest) {token : Token} (htoken : token ∈ reading.tokens) :
    token.lexeme.Fits strict (source.drop token.stop) := by
  obtain ⟨lexeme, back, htok, fits, hdrop⟩ := reading.exists_lexeme htoken
  have hlexeme : token.lexeme = lexeme := by rw [htok]; rfl
  have hstop : token.stop = token.start + lexeme.spelling.length := by rw [Token.stop, htok]; rfl
  rwa [hlexeme, hstop, drop_add_of_eq hdrop]

/-- Every token of a reading covers the spelling of its lexeme. -/
theorem Reading.cut_token {strict : Bool} {source rest : List Char}
    (reading : Reading strict source rest) {token : Token} (htoken : token ∈ reading.tokens) :
    token.lexeme.WellFormed ∧ 1 ≤ token.length ∧ token.stop ≤ source.length ∧
      cut source token.start token.stop = token.lexeme.spelling := by
  obtain ⟨lexeme, back, htok, fits, hdrop⟩ := reading.exists_lexeme htoken
  have hne := fits.wellFormed.spelling_ne_nil
  have hlexeme : token.lexeme = lexeme := by rw [htok]; rfl
  have hlen : token.length = lexeme.spelling.length := by rw [htok]; rfl
  rw [Token.stop, hlexeme, hlen]
  exact ⟨fits.wellFormed, List.length_pos_iff.mpr hne, add_le_length_of_eq hdrop hne,
    cut_of_eq hdrop⟩

/-- **A scan is lossless.** The tokens are those of a reading of the whole source, whose pieces are the
tokens with the gaps before them. -/
theorem scan_lossless (source : String) (strict : Bool) (tokens : List Token)
    (h : (Lexer.ofString source strict).scan = .ok tokens) :
    Lossless source.toList tokens := by
  obtain ⟨reading, rfl⟩ := Lexer.exists_reading_of_ok h
  have hsource : source.toList.drop 0 = Piece.spell reading.pieces ++ (reading.last ++ []) :=
    reading.source_eq
  have hlast : Gap (reading.last ++ []) [] := by
    rw [List.append_nil]
    exact reading.last_gap
  refine {
    ordered := Piece.tokens_ordered reading.fit hsource
    inside := fun token htoken => ?_
    not_end := fun token htoken => (reading.cut_token htoken).1.kind_text.1
    text_iff := fun token htoken => (reading.cut_token htoken).1.kind_text.2
    fixed := fun token htoken htext => ?_
    quoted := fun token htoken text htext hkind => ?_
    worded := fun token htoken text htext hkind => ?_
    gaps := Piece.gap_of_mem_stretches reading.fit hlast hsource (Nat.zero_le _)
    woven := Piece.weave_tokens hsource }
  · obtain ⟨-, hpos, hstop, -⟩ := reading.cut_token htoken
    exact ⟨hpos, hstop⟩
  · obtain ⟨hwell, -, -, hcut⟩ := reading.cut_token htoken
    obtain ⟨spelling, hs, hspelling⟩ := hwell.spelling_of_none htext
    exact ⟨spelling, hs, hcut.trans hspelling⟩
  · obtain ⟨-, -, -, hcut⟩ := reading.cut_token htoken
    exact hcut.trans ((Lexeme.spelling_of_some htext).trans (if_pos hkind))
  · obtain ⟨-, -, -, hcut⟩ := reading.cut_token htoken
    exact hcut.trans ((Lexeme.spelling_of_some htext).trans (if_neg hkind))

/-- A string over two lines with slashes in it, a word that a number stands behind, a comment with
a quote in it, and characters beyond ASCII. -/
theorem scan_lossless_mixed :
    Lossless "\"é//\n\" or1 // \"π\n1.5".toList
      [⟨.string, some "é//\n", 0, 6⟩, ⟨.orWord, none, 7, 2⟩, ⟨.number, some "1", 9, 1⟩,
        ⟨.number, some "1.5", 17, 3⟩] :=
  scan_lossless _ false _ rfl

end LoxTools
