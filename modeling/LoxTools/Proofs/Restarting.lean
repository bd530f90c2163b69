import LoxTools.Proofs.LineByLine

/-!
# Starting over at a token

Where a token starts or ends, a scan has nothing in mind of what came before but its line. So a scan of
what is left of the source from there on finds the same, only nearer to the beginning:

* `Reading.exists_cut` — a reading may be cut at both ends of its tokens;
* `LexError.FoundFrom` — what an error has to do with the same error of what is left of the source;
* `StartsOver` — scanning what is left instead of the whole source, and `scan_starts_over` that this can be
  done at both ends of every token that is emitted.
-/

namespace LoxTools

/-- **What is left of a source** from a position on. -/
def onwards (source : String) (index : Nat) : String :=
  String.ofList (source.toList.drop index)

/-! ## Cutting a reading -/

/-- A token of some pieces belongs to one of them, and stands where the pieces before and the gap put
its lexeme. -/
theorem Piece.exists_of_mem_tokens {token : Token} {start : Nat} {pieces : List Piece}
    (h : token ∈ tokens start pieces) : ∃ front piece back, pieces = front ++ piece :: back ∧
      token = piece.lexeme.token (start + (spell front).length + piece.gap.length) := by
  induction pieces generalizing start with
  | nil => cases h
  | cons piece pieces ih =>
    rw [tokens] at h
    rcases List.mem_cons.mp h with rfl | h
    · exact ⟨[], piece, pieces, rfl, rfl⟩
    · obtain ⟨front, other, back, rfl, rfl⟩ := ih h
      refine ⟨piece :: front, other, back, rfl, ?_⟩
      simp [length_spelling, Nat.add_assoc]

namespace Reading

variable {strict : Bool} {source rest : List Char}

/-- **A reading may be cut where a token starts or ends**, into a reading up to there and a reading of
what is left from there on. Behind the start of a token the second reading begins with an empty gap. -/
theorem exists_cut (reading : Reading strict source rest) {token : Token} {index : Nat}
    (htoken : token ∈ reading.tokens) (hindex : index = token.start ∨ index = token.stop) :
    ∃ (text : List Char) (before : Reading strict source text) (_ : Reading strict text rest),
      before.stop = index := by
  obtain ⟨pieces, last, rfl, fit, hlast⟩ := reading
  obtain ⟨front, piece, back, rfl, rfl⟩ := Piece.exists_of_mem_tokens htoken
  rw [Piece.fit_append] at fit
  obtain ⟨hfront, hgap, fits, hback⟩ := fit
  let behind : Reading strict (Piece.spell back ++ (last ++ rest)) rest :=
    ⟨back, last, rfl, hback, hlast⟩
  rcases hindex with rfl | rfl
  · -- the gap in front of the token is the last one before the cut
    refine ⟨piece.lexeme.spelling ++ (Piece.spell back ++ (last ++ rest)),
      ⟨front, piece.gap, ?_, ?_, hgap⟩, behind.cons [] piece.lexeme .nil fits, ?_⟩
    · simp [Piece.spell_append]
    · simpa using hfront
    · simp [stop]
  · -- the token itself is the last one before the cut
    refine ⟨Piece.spell back ++ (last ++ rest), ⟨front ++ [piece], [], ?_, ?_, .nil⟩, behind, ?_⟩
    · simp [Piece.spell_append]
    · rw [Piece.fit_append]
      refine ⟨?_, hgap, fits, trivial⟩
      simpa using hfront
    · simp [stop, Piece.spell_append, Nat.add_assoc]

/-- The tokens that start where a reading stops, or later, are those of the reading behind it. -/
theorem filter_tokens {lexer : Lexer} {text rest : List Char}
    (before : Reading lexer.strictKeywords lexer.chars.toList text)
    (again : Reading lexer.strictKeywords text rest) :
    (before.tokens ++ again.tokens.map (·.shift before.stop)).filter (before.stop ≤ ·.start) =
      again.tokens.map (·.shift before.stop) := by
  have hbefore : before.tokens.filter (before.stop ≤ ·.start) = [] := by
    rw [List.filter_eq_nil_iff]
    intro token htoken
    have hstart := (before.ended token htoken).1
    simpa using hstart
  have hagain : (again.tokens.map (·.shift before.stop)).filter (before.stop ≤ ·.start) =
      again.tokens.map (·.shift before.stop) := by
    rw [List.filter_eq_self]
    intro token htoken
    obtain ⟨own, -, rfl⟩ := List.mem_map.mp htoken
    simp [Token.shift]
  rw [List.filter_append, hbefore, hagain, List.nil_append]

end Reading

/-! ## The same error -/

/-- **An error of a source and of what is left of it** from a position on, with the tokens that the whole
source emits: both are one error. -/
structure LexError.FoundFrom (source : List Char) (tokens : List Token) (index : Nat)
    (error again : LexError) : Prop where
  /-- both errors have the same fault -/
  fault : again.fault = error.fault
  /-- what is at fault stands as many code points nearer to the beginning of what is left -/
  position : error.position = again.position + index
  /-- the line in what is left is counted without the line feeds before it that lie in no token -/
  line : error.line = again.line + (openFeeds source tokens index).card
  /-- the context of the error in what is left goes back to the beginning of its line, or to the
  beginning of what is left -/
  context : again.context.toList =
    cut source (max index (lineStart source tokens error.position)) (error.position + 1)

/-- **Scanning what is left of a source** from a position on, instead of the whole. -/
structure StartsOver (strict : Bool) (source left : String) (index : Nat) : Prop where
  /-- scanning what is left emits the tokens that start there or later, nearer to the beginning -/
  emitted : (Lexer.ofString source strict).run.tokens.toList.filter (index ≤ ·.start) =
    (Lexer.ofString left strict).run.tokens.toList.map (·.shift index)
  /-- if the whole source scans, then what is left scans to these tokens -/
  scanned : ∀ tokens, (Lexer.ofString source strict).scan = .ok tokens →
    ∃ again, (Lexer.ofString left strict).scan = .ok again ∧
      tokens.filter (index ≤ ·.start) = again.map (·.shift index)
  /-- if the whole source fails, then what is left fails with the same error -/
  failed : ∀ error, (Lexer.ofString source strict).scan = .error error →
    ∃ again, (Lexer.ofString left strict).scan = .error again ∧
      error.FoundFrom source.toList (Lexer.ofString source strict).run.tokens.toList index again

section Over

variable {lexer : Lexer} {text rest : List Char}

/-- **The line behind two readings** is counted by both of them, and it starts in the one that ended a
line last. -/
theorem Reading.line_behind (before : Reading lexer.strictKeywords lexer.chars.toList text)
    (again : Reading lexer.strictKeywords text rest) :
    (again.lineFrom before.line before.stop).number + 1 = again.line.number + before.line.number ∧
      max before.stop (again.lineFrom before.line before.stop).start =
        again.line.start + before.stop := by
  have hbegun : before.line.start ≤ before.stop := by
    rw [before.line_eq]
    exact Line.behind_start_le
  rcases again.lineFrom_cases before.line before.stop with
    ⟨hfirst, hstays⟩ | ⟨lines, start, -, hown, hmoves⟩
  · rw [hstays, hfirst]
    simp only [Line.first]
    omega
  · rw [hmoves, hown]
    simp only
    omega

/-- The line that a reading stops on is counted by the line feeds outside of all tokens, those behind it
included, since these have not begun. -/
theorem Reading.openFeeds_before (before : Reading lexer.strictKeywords lexer.chars.toList text)
    (again : Reading lexer.strictKeywords text rest) :
    before.line.number = 1 + (openFeeds lexer.chars.toList
      (before.tokens ++ again.tokens.map (·.shift before.stop)) before.stop).card := by
  have hbehind : ∀ token ∈ again.tokens.map (·.shift before.stop), before.stop ≤ token.start := by
    intro token htoken
    obtain ⟨own, -, rfl⟩ := List.mem_map.mp htoken
    exact Nat.le_add_left _ _
  rw [openFeeds_append hbehind]
  exact congrArg Line.number before.line_eq

/-- **A fault behind a cut** is found by a scan of the whole source and by one of what is left, as the
same error. -/
theorem Reading.foundFrom {other : Lexer} {whole : Reading lexer.strictKeywords lexer.chars.toList rest}
    {before : Reading lexer.strictKeywords lexer.chars.toList other.chars.toList}
    {again : Reading lexer.strictKeywords other.chars.toList rest} (fault : LexFault)
    (htokens : whole.tokens = before.tokens ++ again.tokens.map (·.shift before.stop))
    (hstop : whole.stop = before.stop + again.stop)
    (hline : whole.line = again.lineFrom before.line before.stop) :
    (lexer.errorAt fault whole.line whole.stop).FoundFrom lexer.chars.toList whole.tokens before.stop
      (other.errorAt fault again.line again.stop) := by
  obtain ⟨hnumber, hstart⟩ := before.line_behind again
  have hcounted := before.openFeeds_before again
  rw [← hline] at hnumber hstart
  rw [← htokens] at hcounted
  refine ⟨rfl, ?_, ?_, ?_⟩
  · simp only [Lexer.errorAt, hstop, Nat.add_comm]
  · simp only [Lexer.errorAt]
    omega
  · have hbegins : lineStart lexer.chars.toList whole.tokens whole.stop = whole.line.start :=
      (congrArg Line.start whole.line_eq).symm
    have hleft : ∀ first stop, cut other.chars.toList first stop =
        cut lexer.chars.toList (first + before.stop) (stop + before.stop) := by
      intro first stop
      rw [← cut_drop, before.drop_stop]
    simp only [Lexer.errorAt, Lexer.toList_context]
    rw [hleft, hbegins, hstart, hstop]
    congr 1
    omega

/-- **Two readings with a cut between them**: scanning what is left at the cut takes the second one, as
scanning the whole source takes both. -/
theorem Reading.startsOver {strict : Bool} {source left : String}
    (before : Reading strict source.toList left.toList) (again : Reading strict left.toList rest)
    (hends : rest = [] ∨ ∃ fault, Stuck fault rest) : StartsOver strict source left before.stop := by
  obtain ⟨whole, htokens, hstop, hline⟩ := before.exists_append again
  rw [again.tokens_behind] at htokens
  have hrun := whole.tokens_run hends
  have hrunAgain := again.tokens_run hends
  have hfilter : whole.tokens.filter (before.stop ≤ ·.start) =
      again.tokens.map (·.shift before.stop) := by
    rw [htokens]
    exact @Reading.filter_tokens (Lexer.ofString source strict) _ _ before again
  constructor
  case emitted => rw [hrun, hrunAgain, hfilter]
  case scanned =>
    intro tokens h
    rcases hends with rfl | ⟨fault, hstuck⟩
    · have hscan := whole.scan_eq_ok
      obtain rfl := Except.ok.inj (hscan.symm.trans h)
      exact ⟨again.tokens, again.scan_eq_ok, hfilter⟩
    · have hscan := whole.scan_eq_error hstuck
      cases hscan.symm.trans h
  case failed =>
    intro error h
    rcases hends with rfl | ⟨fault, hstuck⟩
    · have hscan := whole.scan_eq_ok
      cases hscan.symm.trans h
    · have hscan := whole.scan_eq_error hstuck
      obtain rfl := Except.error.inj (hscan.symm.trans h)
      rw [hrun]
      exact ⟨_, again.scan_eq_error hstuck,
        @Reading.foundFrom (Lexer.ofString source strict) rest (Lexer.ofString left strict) whole before
          again fault htokens hstop hline⟩

end Over

/-- **Scanning can start over at both ends of every token** that is emitted, whether or not the source
scans. -/
theorem scan_starts_over (source : String) (strict : Bool) (token : Token) (index : Nat)
    (htoken : token ∈ (Lexer.ofString source strict).run.tokens.toList)
    (hindex : index = token.start ∨ index = token.stop) :
    StartsOver strict source (onwards source index) index := by
  obtain ⟨rest, ⟨reading⟩, hends⟩ := exists_reading strict source.toList
  have hrun := reading.tokens_run hends
  rw [hrun] at htoken
  obtain ⟨text, before, again, rfl⟩ := reading.exists_cut htoken hindex
  obtain ⟨left, rfl⟩ : ∃ left : String, left.toList = text := ⟨_, String.toList_ofList⟩
  have hleft : onwards source before.stop = left := by
    rw [onwards, before.drop_stop, String.ofList_toList]
  rw [hleft]
  exact before.startsOver again hends

/-- Behind a reserved word, in the middle of a line that a string over two lines stands on, what is left
is one line with the same error. -/
theorem scan_starts_over_midline :
    (Lexer.ofString "x\n\"a\nb\" or1 é" false).run.tokens.toList =
      [⟨.identifier, some "x", 0, 1⟩, ⟨.string, some "a\nb", 2, 5⟩, ⟨.orWord, none, 8, 2⟩,
        ⟨.number, some "1", 10, 1⟩] ∧
    (Lexer.ofString "x\n\"a\nb\" or1 é" false).scan =
      .error ⟨.unexpectedCharacter 'é', 2, "\"a\nb\" or1 é", 12⟩ ∧
    StartsOver false "x\n\"a\nb\" or1 é" "1 é" 10 ∧
    (Lexer.ofString "1 é" false).scan = .error ⟨.unexpectedCharacter 'é', 1, "1 é", 2⟩ := by
  have hrun : (Lexer.ofString "x\n\"a\nb\" or1 é" false).run.tokens.toList =
      [⟨.identifier, some "x", 0, 1⟩, ⟨.string, some "a\nb", 2, 5⟩, ⟨.orWord, none, 8, 2⟩,
        ⟨.number, some "1", 10, 1⟩] := rfl
  exact ⟨hrun, rfl, scan_starts_over _ false ⟨.orWord, none, 8, 2⟩ 10 (by simp [hrun]) (Or.inr rfl), rfl⟩

end LoxTools
