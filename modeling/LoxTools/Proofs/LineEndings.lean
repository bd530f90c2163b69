import Mathlib.Data.Nat.Count
import LoxTools.Proofs.Boundaries
import LoxTools.Proofs.Diagnostics

/-!
# Both kinds of line endings

A line may end with a carriage return and a line feed as well as with a line feed alone. The carriage
return is a blank, or the last character of a comment, so putting one in before a line feed that ends a
line moves what stands behind it and changes nothing else:

* `insertReturns` and `place` — the text with the carriage returns, and where a position of the old text
  is in the new one;
* `Piece.relocate` and `Reading.relocate` — a reading of the new text, with the same lexemes;
* `Reading.line_relocate` and `Lexer.errorAt_relocate` — on the lines that were there before, so an error
  quotes the same;
* `scan_withReturns` — the scan is the same but for the places.
-/

namespace LoxTools

variable {feeds : Finset Nat} {index : Nat} {text more : List Char} {c : Char}

/-! ## Carriage returns put in -/

/-- **The text with a carriage return before each of some positions.** The text begins at `index`, and
positions that lie outside of it do not count. -/
def insertReturns (feeds : Finset Nat) (index : Nat) : List Char → List Char
  | [] => []
  | c :: text =>
    if index ∈ feeds then '\r' :: c :: insertReturns feeds (index + 1) text
    else c :: insertReturns feeds (index + 1) text

/-- **Where a position is then**: further along by the carriage returns that are put in before it. -/
def place (feeds : Finset Nat) (index : Nat) : Nat :=
  index + Nat.count (· ∈ feeds) index

theorem insertReturns_cons_of_mem (h : index ∈ feeds) : insertReturns feeds index (c :: text) =
    '\r' :: c :: insertReturns feeds (index + 1) text :=
  if_pos h

theorem insertReturns_cons_of_notMem (h : index ∉ feeds) : insertReturns feeds index (c :: text) =
    c :: insertReturns feeds (index + 1) text :=
  if_neg h

/-- Carriage returns are put into two texts, one behind the other, as they are put into each of them. -/
theorem insertReturns_append (feeds : Finset Nat) (index : Nat) (text more : List Char) :
    insertReturns feeds index (text ++ more) =
      insertReturns feeds index text ++ insertReturns feeds (index + text.length) more := by
  induction text generalizing index with
  | nil => rfl
  | cons c text ih =>
    by_cases h : index ∈ feeds
    · simp [insertReturns_cons_of_mem h, ih, Nat.add_assoc, Nat.add_comm 1]
    · simp [insertReturns_cons_of_notMem h, ih, Nat.add_assoc, Nat.add_comm 1]

/-- A text that has none of the positions stays as it is. -/
theorem insertReturns_of_disjoint (h : ∀ i ∈ feeds, i < index ∨ index + text.length ≤ i) :
    insertReturns feeds index text = text := by
  induction text generalizing index with
  | nil => rfl
  | cons c text ih =>
    rw [List.length_cons] at h
    have hindex : index ∉ feeds := fun hmem => by
      have := h index hmem
      omega
    rw [insertReturns_cons_of_notMem hindex, ih fun i hi => by have := h i hi; omega]

theorem place_succ_of_mem (h : index ∈ feeds) :
    place feeds (index + 1) = place feeds index + 2 := by
  rw [place, place, Nat.count_succ, if_pos h]
  omega

theorem place_succ_of_notMem (h : index ∉ feeds) :
    place feeds (index + 1) = place feeds index + 1 := by
  rw [place, place, Nat.count_succ, if_neg h]
  omega

/-- **A text ends where its last position is then**: it has become longer by the carriage returns put
into it. -/
theorem place_add_length (feeds : Finset Nat) (index : Nat) (text : List Char) :
    place feeds index + (insertReturns feeds index text).length =
      place feeds (index + text.length) := by
  induction text generalizing index with
  | nil => rfl
  | cons c text ih =>
    have htail := ih (index + 1)
    rw [List.length_cons, ← Nat.add_assoc, Nat.add_right_comm, ← htail]
    by_cases h : index ∈ feeds
    · simp only [insertReturns_cons_of_mem h, place_succ_of_mem h, List.length_cons]
      omega
    · simp only [insertReturns_cons_of_notMem h, place_succ_of_notMem h, List.length_cons]
      omega

/-- Behind all of the positions nothing moves any further apart. -/
theorem place_add_of_lt (h : ∀ i ∈ feeds, i < index) (count : Nat) :
    place feeds (index + count) = place feeds index + count := by
  induction count with
  | zero => rfl
  | succ count ih =>
    have hnot : index + count ∉ feeds := fun hmem => by
      have := h _ hmem
      omega
    rw [← Nat.add_assoc, place_succ_of_notMem hnot, ih, Nat.add_assoc]

/-- What stood at a position stands at its new place. -/
theorem drop_insertReturns {source : List Char} (h : index ≤ source.length) :
    (insertReturns feeds 0 source).drop (place feeds index) =
      insertReturns feeds index (source.drop index) := by
  have hlength : (source.take index).length = index := List.length_take_of_le h
  have hplace := place_add_length feeds 0 (source.take index)
  rw [hlength, Nat.zero_add] at hplace
  have hzero : place feeds 0 = 0 := rfl
  rw [hzero, Nat.zero_add] at hplace
  conv_lhs => rw [← List.take_append_drop index source]
  rw [insertReturns_append, hlength, Nat.zero_add, List.drop_left' hplace]

/-- A cut that lies behind all of the positions has the same text at its new place. -/
theorem cut_insertReturns {source : List Char} {first stop : Nat} (h : ∀ i ∈ feeds, i < first)
    (hfirst : first ≤ stop) (hstop : stop ≤ source.length) :
    cut (insertReturns feeds 0 source) (place feeds first) (place feeds stop + 1) =
      cut source first (stop + 1) := by
  obtain ⟨count, rfl⟩ := Nat.exists_eq_add_of_le hfirst
  rw [cut, cut, drop_insertReturns (by omega),
    insertReturns_of_disjoint fun i hi => Or.inl (h i hi), place_add_of_lt h]
  congr 1
  omega

/-- A carriage return ends every lexeme, so no lexeme sees one that is put in behind it. -/
theorem diverges_insertReturns (feeds : Finset Nat) (index : Nat) (text : List Char) :
    DivergesInert text (insertReturns feeds index text) := by
  induction text generalizing index with
  | nil => exact .refl []
  | cons c text ih =>
    by_cases h : index ∈ feeds
    · rw [insertReturns_cons_of_mem h]
      exact .of_inert _ (inert_cons_of_isBlank rfl)
    · rw [insertReturns_cons_of_notMem h]
      exact (ih (index + 1)).cons c

/-- **The same line**, where it starts then: the line feed before it comes last, behind its carriage
return. -/
def Line.relocate (feeds : Finset Nat) (line : Line) : Line :=
  ⟨line.number, place feeds line.start⟩

/-- The line behind a line feed starts behind its new place. -/
theorem Line.relocate_next (line : Line) {further : Nat}
    (h : place feeds (index + 1) = further + 1) :
    (line.next index).relocate feeds = (line.relocate feeds).next further := by
  rw [next, next, relocate, relocate, h]

/-- Going through a text with carriage returns leads to the same line as going through the text, where
it starts then. -/
theorem Line.through_relocate (feeds : Finset Nat) (line : Line) (index : Nat) (text : List Char) :
    (line.relocate feeds).through (place feeds index) (insertReturns feeds index text) =
      (line.through index text).relocate feeds := by
  induction text generalizing line index with
  | nil => rfl
  | cons c text ih =>
    by_cases h : index ∈ feeds
    · have hplace := place_succ_of_mem h
      rw [insertReturns_cons_of_mem h, through, if_neg (by decide), through, through, ← ih, hplace,
        apply_ite (relocate feeds), relocate_next line hplace]
    · have hplace := place_succ_of_notMem h
      rw [insertReturns_cons_of_notMem h, through, through, ← ih, hplace,
        apply_ite (relocate feeds), relocate_next line hplace]

/-! ## In gaps -/

/-- **Only line feeds get a carriage return** in a text that begins at `index`. -/
def OnlyFeeds (feeds : Finset Nat) (index : Nat) : List Char → Prop
  | [] => True
  | c :: text => (index ∈ feeds → c = '\n') ∧ OnlyFeeds feeds (index + 1) text

/-- Only line feeds get a carriage return in two texts, one behind the other, exactly if this holds of
each of them. -/
theorem onlyFeeds_append : OnlyFeeds feeds index (text ++ more) ↔
    OnlyFeeds feeds index text ∧ OnlyFeeds feeds (index + text.length) more := by
  induction text generalizing index with
  | nil => simp [OnlyFeeds]
  | cons c text ih =>
    rw [List.cons_append, OnlyFeeds, OnlyFeeds, ih, and_assoc, List.length_cons, Nat.add_assoc,
      Nat.add_comm 1]

/-- If all of the positions are those of line feeds, only line feeds get a carriage return in the source
from any position on. -/
theorem onlyFeeds_drop {source : List Char} (h : ∀ i ∈ feeds, source[i]? = some '\n') :
    OnlyFeeds feeds index (source.drop index) := by
  generalize hdrop : source.drop index = text
  induction text generalizing index with
  | nil => trivial
  | cons c text ih =>
    have hc : source[index]? = some c := by
      rw [← List.head?_drop, hdrop, List.head?_cons]
    refine ⟨fun hmem => Option.some.inj (hc.symm.trans (h index hmem)), ih ?_⟩
    rw [← List.tail_drop, hdrop, List.tail_cons]

/-- A text without line feeds gets no carriage return, such as that of a comment. -/
theorem OnlyFeeds.insertReturns_eq (h : OnlyFeeds feeds index text) (hfeed : '\n' ∉ text) :
    insertReturns feeds index text = text := by
  induction text generalizing index with
  | nil => rfl
  | cons c text ih =>
    obtain ⟨hc, hfeed⟩ := not_or.mp (mt List.mem_cons.mpr hfeed)
    rw [insertReturns_cons_of_notMem fun hmem => hc (h.1 hmem).symm, ih h.2 hfeed]

/-- **A gap with carriage returns is a gap**: they are blanks, and the one that is put in at the end of a
comment belongs to the comment. -/
theorem Gap.relocate {gap after other : List Char} (h : Gap gap after)
    (honly : OnlyFeeds feeds index gap) (hline : EndsLine after → EndsLine other) :
    Gap (insertReturns feeds index gap) other := by
  induction h generalizing index with
  | nil => exact .nil
  | blank hc hgap ih =>
    have hrest := ih honly.2 hline
    by_cases h : index ∈ feeds
    · rw [insertReturns_cons_of_mem h]
      exact .blank rfl (.blank hc hrest)
    · rw [insertReturns_cons_of_notMem h]
      exact .blank hc hrest
  | @comment body gap after hbody hends hgap ih =>
    rw [← List.cons_append, ← List.cons_append] at honly ⊢
    obtain ⟨hslashes, honly⟩ := onlyFeeds_append.mp honly
    have hrest := ih honly hline
    rw [insertReturns_append, hslashes.insertReturns_eq (by simp [hbody])]
    generalize index + (('/' :: '/' :: body).length) = further at honly hrest ⊢
    cases gap with
    | nil => exact .comment hbody (hline hends) hrest
    | cons c gap =>
      rw [List.cons_append, endsLine_cons] at hends
      have hfeed : ∀ behind, EndsLine (c :: behind) := fun _ => endsLine_cons.mpr hends
      by_cases h : further ∈ feeds
      · rw [insertReturns_cons_of_mem h] at hrest ⊢
        -- the carriage return goes to the comment, and the line feed behind it ends the line
        have hreturn : ('/' :: '/' :: body) ++ '\r' :: c :: insertReturns feeds (further + 1) gap =
            '/' :: '/' :: ((body ++ ['\r']) ++ c :: insertReturns feeds (further + 1) gap) := by
          simp
        rw [hreturn]
        refine .comment (by simp [hbody]) (hfeed _) ?_
        cases hrest with
        | blank _ hrest => exact hrest
      · rw [insertReturns_cons_of_notMem h] at hrest ⊢
        exact .comment hbody (hfeed _) hrest

/-! ## In pieces -/

/-- **A token further along**, by the carriage returns put in before it. -/
def Token.relocate (feeds : Finset Nat) (token : Token) : Token :=
  { token with start := place feeds token.start }

namespace Piece

variable {strict : Bool} {pieces : List Piece} {after : List Char}

/-- **Pieces with carriage returns in their gaps.** -/
def relocate (feeds : Finset Nat) (index : Nat) : List Piece → List Piece
  | [] => []
  | piece :: pieces =>
    ⟨insertReturns feeds index piece.gap, piece.lexeme⟩ ::
      relocate feeds (index + piece.gap.length + piece.lexeme.spelling.length) pieces

/-- A lexeme stays as it is if no carriage return is put in inside of its token. -/
theorem insertReturns_spelling {lexeme : Lexeme} (h : ∀ i ∈ feeds, Loose [lexeme.token index] i) :
    insertReturns feeds index lexeme.spelling = lexeme.spelling := by
  refine insertReturns_of_disjoint fun i hi => ?_
  have hloose := loose_singleton.mp (h i hi)
  simp only [Lexeme.token, Token.stop] at hloose
  omega

/-- Positions that lie in no token of some pieces lie neither in that of the first piece nor in those of
the others. -/
theorem loose_cons {piece : Piece} (h : ∀ i ∈ feeds, Loose (tokens index (piece :: pieces)) i) :
    (∀ i ∈ feeds, Loose [piece.lexeme.token (index + piece.gap.length)] i) ∧
      ∀ i ∈ feeds, Loose (tokens (index + piece.gap.length + piece.lexeme.spelling.length) pieces) i := by
  simp only [tokens_cons, Loose, List.forall_mem_cons] at h
  exact ⟨fun i hi => List.forall_mem_singleton.mpr (h i hi).1, fun i hi => (h i hi).2⟩

/-- Pieces with carriage returns in their gaps are spelled as their text with these carriage returns. -/
theorem spell_relocate (h : ∀ i ∈ feeds, Loose (tokens index pieces) i) :
    spell (relocate feeds index pieces) = insertReturns feeds index (spell pieces) := by
  induction pieces generalizing index with
  | nil => rfl
  | cons piece pieces ih =>
    obtain ⟨hlexeme, hmore⟩ := loose_cons h
    rw [relocate, spell_cons, spell_cons, insertReturns_append, insertReturns_append,
      insertReturns_spelling hlexeme, ih hmore]

/-- The new place of the end of a piece is where the next one begins. -/
theorem place_add_spelling {lexeme : Lexeme} {gap : List Char}
    (h : ∀ i ∈ feeds, Loose [lexeme.token (index + gap.length)] i) :
    place feeds index + (insertReturns feeds index gap).length + lexeme.spelling.length =
      place feeds (index + gap.length + lexeme.spelling.length) := by
  have hlexeme := place_add_length feeds (index + gap.length) lexeme.spelling
  rwa [insertReturns_spelling h, ← place_add_length] at hlexeme

/-- **Their tokens are the same**, further along. -/
theorem tokens_relocate (h : ∀ i ∈ feeds, Loose (tokens index pieces) i) :
    tokens (place feeds index) (relocate feeds index pieces) =
      (tokens index pieces).map (·.relocate feeds) := by
  induction pieces generalizing index with
  | nil => rfl
  | cons piece pieces ih =>
    obtain ⟨hlexeme, hmore⟩ := loose_cons h
    rw [relocate, tokens_cons, tokens_cons, List.map_cons, ← ih hmore, place_add_spelling hlexeme,
      place_add_length]
    rfl

/-- Pieces with carriage returns in their gaps lead to the same line as without them, where it starts
then. -/
theorem lineAfter_relocate (h : ∀ i ∈ feeds, Loose (tokens index pieces) i) (line : Line) :
    lineAfter (line.relocate feeds) (place feeds index) (relocate feeds index pieces) =
      (lineAfter line index pieces).relocate feeds := by
  induction pieces generalizing index line with
  | nil => rfl
  | cons piece pieces ih =>
    obtain ⟨hlexeme, hmore⟩ := loose_cons h
    rw [relocate, lineAfter, lineAfter, length_spelling, length_spelling, Line.through_relocate,
      ← Nat.add_assoc, place_add_spelling hlexeme, ih hmore, Nat.add_assoc]

/-- **Pieces with carriage returns in their gaps fit** before what the text behind them becomes. -/
theorem Fit.relocate (fit : Fit strict pieces after) (honly : OnlyFeeds feeds index (spell pieces))
    (h : ∀ i ∈ feeds, Loose (tokens index pieces) i) : Fit strict (relocate feeds index pieces)
      (insertReturns feeds (index + (spell pieces).length) after) := by
  induction pieces generalizing index with
  | nil => trivial
  | cons piece pieces ih =>
    obtain ⟨hgap, fits, fit⟩ := fit
    obtain ⟨hlexeme, hmore⟩ := loose_cons h
    rw [spell_cons] at honly ⊢
    obtain ⟨hgapped, honly⟩ := onlyFeeds_append.mp honly
    have hlength : index + (piece.gap ++ (piece.lexeme.spelling ++ spell pieces)).length =
        index + piece.gap.length + piece.lexeme.spelling.length + (spell pieces).length := by
      simp [Nat.add_assoc]
    rw [hlength]
    refine ⟨hgap.relocate hgapped fun hends => absurd hends (fits.wellFormed.not_endsLine _), ?_,
      ih fit (onlyFeeds_append.mp honly).2 hmore⟩
    rw [spell_relocate hmore, ← insertReturns_append]
    exact fits.diverge (diverges_insertReturns _ _ _)

end Piece

/-! ## In readings -/

namespace Reading

variable {strict : Bool} {source rest : List Char}

/-- The line feeds that a reading passed outside of its tokens. -/
def lineFeeds (reading : Reading strict source rest) : Finset Nat :=
  openFeeds source reading.tokens reading.stop

/-- The line feeds that a reading passed outside of its tokens lie in none of them. -/
theorem loose_of_mem_lineFeeds (reading : Reading strict source rest) :
    ∀ i ∈ reading.lineFeeds, Loose reading.tokens i :=
  fun _ hi => (mem_openFeeds.mp hi).2.2

/-- Of the text that a reading passed only line feeds get a carriage return, in its pieces and in its
last gap. -/
theorem onlyFeeds (reading : Reading strict source rest) :
    OnlyFeeds reading.lineFeeds 0 (Piece.spell reading.pieces) ∧
      OnlyFeeds reading.lineFeeds (Piece.spell reading.pieces).length reading.last := by
  have honly : OnlyFeeds reading.lineFeeds 0 (source.drop 0) :=
    onlyFeeds_drop fun _ hi => (mem_openFeeds.mp hi).2.1
  have hsource : source.drop 0 = Piece.spell reading.pieces ++ (reading.last ++ rest) :=
    reading.source_eq
  rw [hsource, onlyFeeds_append, onlyFeeds_append, Nat.zero_add] at honly
  exact ⟨honly.1, honly.2.1⟩

/-- The rest of a reading comes behind all line feeds that the reading passed, so it gets no carriage
return. -/
theorem insertReturns_rest (reading : Reading strict source rest) :
    insertReturns reading.lineFeeds reading.stop rest = rest :=
  insertReturns_of_disjoint fun _ hi => Or.inl (mem_openFeeds.mp hi).1

/-- **A reading of the source with carriage returns**, with the same lexemes and the same rest. -/
def relocate (reading : Reading strict source rest) :
    Reading strict (insertReturns reading.lineFeeds 0 source) rest where
  pieces := Piece.relocate reading.lineFeeds 0 reading.pieces
  last := insertReturns reading.lineFeeds (Piece.spell reading.pieces).length reading.last
  source_eq := by
    have hrest := reading.insertReturns_rest
    have hsource := congrArg (insertReturns reading.lineFeeds 0) reading.source_eq
    rwa [insertReturns_append, insertReturns_append, Nat.zero_add, ← stop, hrest,
      ← Piece.spell_relocate reading.loose_of_mem_lineFeeds] at hsource
  fit := by
    have hfit := reading.fit.relocate reading.onlyFeeds.1 reading.loose_of_mem_lineFeeds
    rwa [insertReturns_append, Nat.zero_add, ← stop, reading.insertReturns_rest] at hfit
  last_gap := reading.last_gap.relocate reading.onlyFeeds.2 id

theorem tokens_relocate (reading : Reading strict source rest) :
    reading.relocate.tokens = reading.tokens.map (·.relocate reading.lineFeeds) :=
  Piece.tokens_relocate reading.loose_of_mem_lineFeeds

/-- With the carriage returns the pieces of a reading end at the new place of where they ended. -/
theorem length_spell_relocate (reading : Reading strict source rest) :
    (Piece.spell reading.relocate.pieces).length =
      place reading.lineFeeds (Piece.spell reading.pieces).length := by
  have hlength := place_add_length reading.lineFeeds 0 (Piece.spell reading.pieces)
  rw [← Piece.spell_relocate reading.loose_of_mem_lineFeeds, Nat.zero_add] at hlength
  rw [← hlength]
  exact (Nat.zero_add _).symm

/-- With the carriage returns a reading stops at the new place of where it stopped. -/
theorem stop_relocate (reading : Reading strict source rest) :
    reading.relocate.stop = place reading.lineFeeds reading.stop := by
  rw [stop, stop, length_spell_relocate, ← place_add_length]
  rfl

/-- **The line of the rest** is the same, where it starts then. -/
theorem line_relocate (reading : Reading strict source rest) :
    reading.relocate.line = reading.line.relocate reading.lineFeeds := by
  rw [line, line, length_spell_relocate, ← Line.through_relocate,
    ← Piece.lineAfter_relocate reading.loose_of_mem_lineFeeds]
  rfl

end Reading

/-! ## In scans -/

/-- **The same error**, further along. -/
def LexError.relocate (feeds : Finset Nat) (error : LexError) : LexError :=
  { error with position := place feeds error.position }

namespace Lexer

variable {lexer other : Lexer} {rest : List Char}

/-- **The line feeds that end lines**: those that lie inside no emitted token, and if there is an error
stand before it. -/
def lineFeeds (lexer : Lexer) : Finset Nat :=
  openFeeds lexer.chars.toList lexer.run.tokens.toList
    (match lexer.scan with
    | .ok _ => lexer.chars.size
    | .error error => error.position)

/-- The line feeds that end lines are those that a reading passed outside of its tokens, if it goes as
far as it can. -/
theorem lineFeeds_eq (reading : Reading lexer.strictKeywords lexer.chars.toList rest)
    (hrest : rest = [] ∨ ∃ fault, Stuck fault rest) : lexer.lineFeeds = reading.lineFeeds := by
  have hstop : (match lexer.scan with
      | .ok _ => lexer.chars.size
      | .error error => error.position) = reading.stop := by
    rcases hrest with rfl | ⟨fault, hstuck⟩
    · rw [scan_eq_ok reading, ← Array.length_toList, reading.length_source]
      rfl
    · rw [scan_eq_error reading hstuck]
      rfl
  rw [lineFeeds, hstop, tokens_run reading hrest]
  rfl

/-- **An error quotes the same**: on its line no carriage return is put in. -/
theorem errorAt_relocate (reading : Reading lexer.strictKeywords lexer.chars.toList rest)
    (hother : other.chars.toList = insertReturns reading.lineFeeds 0 lexer.chars.toList)
    (fault : LexFault) :
    other.errorAt fault reading.relocate.line reading.relocate.stop =
      (lexer.errorAt fault reading.line reading.stop).relocate reading.lineFeeds := by
  have hline : reading.line = Line.behind reading.lineFeeds := reading.line_eq
  have hbefore : ∀ i ∈ reading.lineFeeds, i < reading.line.start := by
    rw [hline]
    exact fun i hi => Line.lt_behind_start hi
  have hstart : reading.line.start ≤ reading.stop := by
    rw [hline]
    exact Line.behind_start_le
  have hstop : reading.stop ≤ lexer.chars.toList.length := by
    rw [reading.length_source]
    exact Nat.le_add_right _ _
  have hcontext : other.context (reading.line.relocate reading.lineFeeds)
      (place reading.lineFeeds reading.stop) = lexer.context reading.line reading.stop := by
    rw [← String.toList_inj, toList_context, toList_context, hother]
    exact cut_insertReturns hbefore hstart hstop
  rw [errorAt, errorAt, reading.line_relocate, reading.stop_relocate, hcontext]
  rfl

/-- **A scan of the source with the carriage returns** is the same, further along. -/
theorem scan_relocate (hstrict : other.strictKeywords = lexer.strictKeywords)
    (hother : other.chars.toList = insertReturns lexer.lineFeeds 0 lexer.chars.toList) :
    other.scan = match lexer.scan with
      | .ok tokens => .ok (tokens.map (·.relocate lexer.lineFeeds))
      | .error error => .error (error.relocate lexer.lineFeeds) := by
  obtain ⟨rest, ⟨reading⟩, hrest⟩ := exists_reading lexer.strictKeywords lexer.chars.toList
  rw [lineFeeds_eq reading hrest] at hother ⊢
  obtain ⟨again, htokens, hline, hstop⟩ :
      ∃ again : Reading other.strictKeywords other.chars.toList rest,
        again.tokens = reading.tokens.map (·.relocate reading.lineFeeds) ∧
          again.line = reading.relocate.line ∧ again.stop = reading.relocate.stop := by
    rw [hstrict, hother]
    exact ⟨reading.relocate, reading.tokens_relocate, rfl, rfl⟩
  rcases hrest with rfl | ⟨fault, hstuck⟩
  · rw [scan_eq_ok reading, scan_eq_ok again, htokens]
  · rw [scan_eq_error reading hstuck, scan_eq_error again hstuck, hline, hstop,
      errorAt_relocate reading hother]

end Lexer

/-- **A source with carriage returns** before the line feeds that end its lines. -/
def withReturns (source : String) (strict : Bool) : String :=
  String.ofList (insertReturns (Lexer.ofString source strict).lineFeeds 0 source.toList)

/-- **Line endings are transparent.** With a carriage return before every line feed that ends a line, a
source scans to the same tokens or to the same error, each further along by the carriage returns that
were put in before it. -/
theorem scan_withReturns (source : String) (strict : Bool) :
    (Lexer.ofString (withReturns source strict) strict).scan =
      match (Lexer.ofString source strict).scan with
      | .ok tokens => .ok (tokens.map (·.relocate (Lexer.ofString source strict).lineFeeds))
      | .error error => .error (error.relocate (Lexer.ofString source strict).lineFeeds) :=
  Lexer.scan_relocate rfl String.toList_ofList

/-- The line feeds inside the string and behind the error stay alone, and one carriage return stands
before the error. -/
theorem scan_withReturns_string :
    withReturns "\"a\nb\" // c\n#\n" false = "\"a\nb\" // c\r\n#\n" ∧
    (Lexer.ofString "\"a\nb\" // c\n#\n" false).scan = .error ⟨.unexpectedCharacter '#', 2, "#", 11⟩ ∧
    (Lexer.ofString "\"a\nb\" // c\r\n#\n" false).scan =
      .error ⟨.unexpectedCharacter '#', 2, "#", 12⟩ :=
  ⟨rfl, rfl, scan_withReturns "\"a\nb\" // c\n#\n" false⟩

end LoxTools
