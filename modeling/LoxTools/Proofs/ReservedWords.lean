import LoxTools.Proofs.ErrorPrefix

/-!
# Reserved words

How the rule for reserved words, which compares beginnings, comes to read words:

* `wordToken` — the token that a whole word stands for, by looking it up in the table;
* `Lexer.tokenAt_of_word` — under strict keywords a word is read whole and looked up;
* `strict_words_looked_up` — so every token that begins with a letter is that of a whole word;
* `scan_keyword_append` — without strict keywords a reserved word comes off the beginning of any source.
-/

namespace LoxTools

/-! ## Looking up -/

/-- A word is looked up as a kind exactly if this is an entry of the table. -/
theorem TokenKind.ofKeyword?_eq_some {word : String} {kind : TokenKind} :
    ofKeyword? word = some kind ↔ (word, kind) ∈ keywords := by
  constructor
  · intro h
    rw [ofKeyword?, List.lookup_eq_some_iff] at h
    obtain ⟨front, back, htable, -⟩ := h
    rw [htable]
    exact List.mem_append_right front (List.mem_cons_self ..)
  · intro h
    have hall : ∀ entry ∈ keywords, ofKeyword? entry.1 = some entry.2 := by decide
    exact hall _ h

/-- A word that is not found is that of no entry. -/
theorem TokenKind.ne_of_ofKeyword?_eq_none {word : String} (h : ofKeyword? word = none) :
    ∀ entry ∈ keywords, word ≠ entry.1 := by
  rintro entry he rfl
  have hsome := ofKeyword?_eq_some.mpr he
  rw [h] at hsome
  cases hsome

/-- Every kind that is a reserved word has an entry in the table. -/
theorem TokenKind.exists_entry {kind : TokenKind} (h : kind.isKeyword = true) :
    ∃ word, (word, kind) ∈ keywords := by
  obtain ⟨⟨word, found⟩, he, hkind⟩ := List.any_eq_true.mp h
  obtain rfl : found = kind := eq_of_beq hkind
  exact ⟨word, he⟩

/-- The longest run of alphanumeric characters from a position on. -/
def wordAt (source : List Char) (index : Nat) : List Char :=
  (source.drop index).takeWhile isAlphaNumeric

/-- **The token of a whole word**: a reserved word if it is in the table, and a name if it is not. -/
def wordToken (word : List Char) (start : Nat) : Token :=
  match TokenKind.ofKeyword? (String.ofList word) with
  | some kind => ⟨kind, none, start, word.length⟩
  | none => ⟨.identifier, some (String.ofList word), start, word.length⟩

/-! ## Whole words -/

namespace Lexer

variable {lexer : Lexer} {index : Nat} {line : Line} {c : Char} {more : List Char}

/-- **Under strict keywords a word is looked up whole.** A reserved word with nothing alphanumeric behind
it is the whole run, and if the run is none, none is spelled at its beginning. -/
theorem tokenAt_of_word (hstrict : lexer.strictKeywords = true) (h : lexer.rest index = c :: more)
    (hc : isAlpha c = true) :
    lexer.tokenAt line index = .ok (wordToken (wordAt lexer.chars.toList index) index) := by
  have hname : IsName (wordAt lexer.chars.toList index) := by
    refine ⟨c, more.takeWhile isAlphaNumeric, ?_, hc, fun d hd => List.mem_takeWhile_imp hd⟩
    rw [wordAt, ← Lexer.rest, h, List.takeWhile_cons_of_pos (isAlphaNumeric_of_isAlpha hc)]
  have hstop := stopsBefore_dropWhile isAlphaNumeric (lexer.rest index)
  have hsplit : lexer.rest index =
      wordAt lexer.chars.toList index ++ (lexer.rest index).dropWhile isAlphaNumeric :=
    List.takeWhile_append_dropWhile.symm
  generalize wordAt lexer.chars.toList index = word at *
  rw [wordToken]
  cases hlook : TokenKind.ofKeyword? (String.ofList word) with
  | some kind =>
    have he := TokenKind.ofKeyword?_eq_some.mp hlook
    have hspells : SpellsWord lexer.strictKeywords (String.ofList word).toList (lexer.rest index) :=
      ⟨_, by rwa [String.toList_ofList], fun _ => hstop⟩
    rw [tokenAt_of_alpha h hc, keyword?_eq_some he hspells, String.length_ofList]
    rfl
  | none =>
    apply tokenAt_of_name hsplit hname hstop
    intro entry he
    rw [if_pos hstrict]
    rintro rfl
    apply TokenKind.ne_of_ofKeyword?_eq_none hlook entry he
    exact String.ofList_toList

/-- Every token that a run emits is what recognition gives where it starts, on whichever line. -/
theorem tokenAt_of_mem_run {token : Token} (h : token ∈ lexer.run.tokens) (line : Line) :
    lexer.tokenAt line token.start = .ok token := by
  obtain ⟨rest, reading, -, htokens⟩ := lexer.exists_reading_of_run
  rw [← Array.mem_toList_iff, htokens] at h
  obtain ⟨lexeme, back, htoken, fits, hdrop⟩ := reading.exists_lexeme h
  have hrest : lexer.rest token.start = lexeme.spelling ++ back := hdrop
  rw [tokenAt_eq_ok hrest fits, ← htoken]

end Lexer

/-! ## A word in front -/

namespace Reading

variable {strict : Bool} {source text rest : List Char} {lexeme : Lexeme}

/-- A reading with a lexeme right in front of it, without a gap between them. -/
def prepend (lexeme : Lexeme) (hsource : source = lexeme.spelling ++ text)
    (fits : lexeme.Fits strict text) (reading : Reading strict text rest) :
    Reading strict source rest where
  pieces := ⟨[], lexeme⟩ :: reading.pieces
  last := reading.last
  source_eq := by
    rw [hsource, Piece.spell_cons, List.nil_append, List.append_assoc, ← reading.source_eq]
  fit := ⟨.nil, by rwa [← reading.source_eq], reading.fit⟩
  last_gap := reading.last_gap

variable (hsource : source = lexeme.spelling ++ text) (fits : lexeme.Fits strict text)
  (reading : Reading strict text rest)

/-- The tokens with a lexeme in front are its own one and those of the reading, further along. -/
theorem tokens_prepend : (prepend lexeme hsource fits reading).tokens =
    lexeme.token 0 :: reading.tokens.map (·.shift lexeme.spelling.length) := by
  rw [tokens, tokens, ← Piece.tokens_shift]
  exact Piece.tokens_cons ..

/-- With a lexeme in front a reading stops as much further along. -/
theorem stop_prepend : (prepend lexeme hsource fits reading).stop =
    reading.stop + lexeme.spelling.length := by
  simp only [stop, prepend, Piece.spell_cons, List.nil_append, List.length_append]
  omega

/-- With a lexeme in front a reading starts further along on the first line. -/
theorem line_prepend : (prepend lexeme hsource fits reading).line =
    reading.lineFrom Line.first lexeme.spelling.length := by
  simp only [line, lineFrom, prepend, Piece.lineAfter, Line.through, Piece.spell_cons,
    Piece.length_spelling, List.nil_append, List.length_nil, List.length_append, Nat.zero_add]

end Reading

/-- A reserved word by itself is scanned as one token, under either rule. -/
theorem Lexer.scan_keyword {word : String} {kind : TokenKind} (strict : Bool)
    (he : (word, kind) ∈ keywords) :
    (Lexer.ofString word strict).scan = .ok [⟨kind, none, 0, word.length⟩] := by
  obtain ⟨hspelling, fits⟩ := @Lexeme.fits_keyword strict [] _ he fun _ => stopsBefore_nil _
  have hsource : word.toList = Lexeme.spelling ⟨kind, none⟩ ++ [] := by
    rw [hspelling, List.append_nil]
  let nothing : Reading strict [] [] := ⟨[], [], rfl, trivial, .nil⟩
  have htokens := nothing.tokens_prepend hsource fits
  have hscan := (nothing.prepend _ hsource fits).scan_eq_ok
  rw [Lexeme.token, hspelling] at htokens
  exact hscan.trans (congrArg Except.ok htokens)

/-- A text that is scanned as one reserved word is this word, under either rule. -/
theorem Lexer.eq_of_scan_keyword {source word : String} {kind : TokenKind} {strict : Bool}
    (he : (word, kind) ∈ keywords)
    (h : (Lexer.ofString source strict).scan = .ok [⟨kind, none, 0, source.length⟩]) :
    source = word := by
  obtain ⟨reading, htokens⟩ := Lexer.exists_reading_of_ok h
  have hmem : (⟨kind, none, 0, source.length⟩ : Token) ∈ reading.tokens := by simp [htokens]
  obtain ⟨-, -, -, hcut⟩ := reading.cut_token hmem
  have hwhole : cut source.toList 0 (0 + source.length) = source.toList := by
    rw [cut, Nat.zero_add, Nat.sub_zero, List.drop_zero, ← String.length_toList, List.take_length]
  have hspelling := Lexeme.spelling_fixed (spelling_of_keyword _ he)
  apply String.toList_inj.mp
  exact hwhole.symm.trans (hcut.trans hspelling)

/-- **Strict reserved words are whole words**: where a letter stands, the rules for reserved words and for
names come to looking up the longest run of alphanumeric characters, and every token that begins with
a letter was found so. With or without strict keywords, a text is scanned as one reserved word if and
only if it is in the table. -/
theorem strict_words_looked_up (source : String) :
    (∀ index c, source.toList[index]? = some c → isAlpha c = true →
      (((Lexer.ofString source true).keyword? index).getD ((Lexer.ofString source true).identifier index) =
          wordToken (wordAt source.toList index) index ∧
        ∀ line, (Lexer.ofString source true).tokenAt line index =
          .ok (wordToken (wordAt source.toList index) index))) ∧
    (∀ token ∈ (Lexer.ofString source true).run.tokens, ∀ c,
      source.toList[token.start]? = some c → isAlpha c = true →
        token = wordToken (wordAt source.toList token.start) token.start) ∧
    ∀ strict kind, kind.isKeyword = true →
      ((Lexer.ofString source strict).scan = .ok [⟨kind, none, 0, source.length⟩] ↔
        TokenKind.ofKeyword? source = some kind) := by
  have hword : ∀ index c, source.toList[index]? = some c → isAlpha c = true →
      ∃ more, (Lexer.ofString source true).rest index = c :: more ∧
        ∀ line, (Lexer.ofString source true).tokenAt line index =
          .ok (wordToken (wordAt source.toList index) index) := by
    intro index c hindex hc
    obtain ⟨more, hrest⟩ := @Lexer.exists_rest (Lexer.ofString source true) index c
      (by rwa [← Array.getElem?_toList])
    exact ⟨more, hrest, fun line => Lexer.tokenAt_of_word rfl hrest hc⟩
  refine ⟨?_, ?_, ?_⟩
  · intro index c hindex hc
    obtain ⟨more, hrest, htoken⟩ := hword index c hindex hc
    have hrules := @Lexer.tokenAt_of_alpha _ index Line.first c more hrest hc
    exact ⟨Except.ok.inj (hrules.symm.trans (htoken Line.first)), htoken⟩
  · intro token htoken c hindex hc
    obtain ⟨more, -, hlook⟩ := hword token.start c hindex hc
    have hrun := Lexer.tokenAt_of_mem_run htoken Line.first
    exact Except.ok.inj (hrun.symm.trans (hlook Line.first))
  · intro strict kind hkind
    constructor
    · intro h
      obtain ⟨word, he⟩ := TokenKind.exists_entry hkind
      obtain rfl := Lexer.eq_of_scan_keyword he h
      exact TokenKind.ofKeyword?_eq_some.mpr he
    · intro h
      exact Lexer.scan_keyword strict (TokenKind.ofKeyword?_eq_some.mp h)

/-- A run of letters and an underscore, a reserved word before U+0000, and one that ends the source. -/
theorem strict_words_looked_up_superb :
    ((Lexer.ofString "super_ this\x00" true).tokenAt Line.first 0 =
        .ok ⟨.identifier, some "super_", 0, 6⟩ ∧
      (Lexer.ofString "super_ this\x00" true).tokenAt Line.first 7 = .ok ⟨.thisWord, none, 7, 4⟩) ∧
    (Lexer.ofString "fun" true).scan = .ok [⟨.funWord, none, 0, 3⟩] := by
  obtain ⟨hrules, -, -⟩ := strict_words_looked_up "super_ this\x00"
  obtain ⟨-, -, hwhole⟩ := strict_words_looked_up "fun"
  exact ⟨⟨(hrules 0 's' rfl rfl).2 Line.first, (hrules 7 't' rfl rfl).2 Line.first⟩,
    (hwhole true .funWord rfl).mpr rfl⟩

/-! ## Coming off the beginning -/

/-- A cut from the beginning of a source is extended to the front by what stands there. -/
theorem cut_zero_append (front source : List Char) (stop : Nat) :
    cut (front ++ source) 0 (stop + front.length) = front ++ cut source 0 stop := by
  rw [cut, cut, List.drop_zero, List.drop_zero, Nat.sub_zero, Nat.sub_zero, Nat.add_comm,
    List.take_length_add_append]

/-- An error on the first line also quotes what stands in front of the source. -/
theorem Lexer.errorAt_first {whole lexer : Lexer} {front : String}
    (h : whole.chars.toList = front.toList ++ lexer.chars.toList) (fault : LexFault) (index : Nat) :
    whole.errorAt fault Line.first (index + front.length) =
      { (lexer.errorAt fault Line.first index).shift 0 front.length with
        context := front ++ lexer.context Line.first index } := by
  have hcontext : whole.context Line.first (index + front.length) =
      front ++ lexer.context Line.first index := by
    rw [← String.toList_inj, String.toList_append, toList_context, toList_context, h,
      Nat.add_right_comm]
    exact cut_zero_append front.toList lexer.chars.toList (index + 1)
  rw [errorAt, hcontext]
  rfl

/-- A reading has passed no line feed outside of all tokens exactly if it is still on the first line. -/
theorem Reading.openFeeds_eq_empty_iff {lexer : Lexer} {rest : List Char}
    (reading : Reading lexer.strictKeywords lexer.chars.toList rest) :
    openFeeds lexer.chars.toList reading.tokens reading.stop = ∅ ↔ reading.line.number = 1 := by
  have hnumber : reading.line.number =
      1 + (openFeeds lexer.chars.toList reading.tokens reading.stop).card :=
    congrArg Line.number reading.line_eq
  rw [hnumber, ← Finset.card_eq_zero]
  omega

/-- **An error further along on its line** quotes what stands in front of the source if no line has ended
before it. -/
theorem Reading.errorAt_behind {whole lexer : Lexer} {front : String} {rest : List Char}
    (h : whole.chars.toList = front.toList ++ lexer.chars.toList)
    (reading : Reading lexer.strictKeywords lexer.chars.toList rest) (fault : LexFault) :
    whole.errorAt fault (reading.lineFrom Line.first front.length) (reading.stop + front.length) =
      { (lexer.errorAt fault reading.line reading.stop).shift 0 front.length with
        context :=
          if openFeeds lexer.chars.toList reading.tokens reading.stop = ∅ then
            front ++ lexer.context reading.line reading.stop
          else lexer.context reading.line reading.stop } := by
  have hfeeds := reading.openFeeds_eq_empty_iff
  rcases reading.lineFrom_cases Line.first front.length with
    ⟨hfirst, hstays⟩ | ⟨lines, start, hlines, hline, hmoves⟩
  · have hnone : openFeeds lexer.chars.toList reading.tokens reading.stop = ∅ :=
      hfeeds.mpr (by rw [hfirst]; rfl)
    rw [hstays, if_pos hnone, hfirst]
    exact Lexer.errorAt_first h fault reading.stop
  · have hsome : openFeeds lexer.chars.toList reading.tokens reading.stop ≠ ∅ := by
      intro hnone
      have hnumber : reading.line.number = 1 + lines := congrArg Line.number hline
      have hone := hfeeds.mp hnone
      omega
    have hshift : reading.lineFrom Line.first front.length = reading.line.shift 0 front.length := by
      rw [hmoves, hline]
      rfl
    rw [hshift, if_neg hsome]
    exact Lexer.errorAt_shift h fault reading.line 0 reading.stop

/-- **Without strict keywords a reserved word comes off the beginning of any source**, whatever the source
begins with. What stands behind it is scanned as it is by itself, further along, on the same line. An
error quotes the word if no line has ended before. -/
theorem scan_keyword_append (source : String) (entry : String × TokenKind) (he : entry ∈ keywords) :
    (Lexer.ofString (entry.1 ++ source) false).scan =
      match (Lexer.ofString source false).scan with
      | .ok tokens => .ok (⟨entry.2, none, 0, entry.1.length⟩ :: tokens.map (·.shift entry.1.length))
      | .error error => .error { error.shift 0 entry.1.length with
          context :=
            if openFeeds source.toList (Lexer.ofString source false).run.tokens.toList
                error.position = ∅ then entry.1 ++ error.context
            else error.context } := by
  obtain ⟨word, kind⟩ := entry
  obtain ⟨hspelling, fits⟩ := @Lexeme.fits_keyword false source.toList _ he nofun
  have hsource : (word ++ source).toList = Lexeme.spelling ⟨kind, none⟩ ++ source.toList := by
    rw [hspelling, String.toList_append]
  have hlength : (Lexeme.spelling ⟨kind, none⟩).length = word.length := by
    rw [hspelling, String.length_toList]
  obtain ⟨rest, ⟨reading⟩, hrest⟩ := exists_reading false source.toList
  have htokens := reading.tokens_prepend hsource fits
  have hstop := reading.stop_prepend hsource fits
  have hline := reading.line_prepend hsource fits
  generalize reading.prepend _ hsource fits = whole at htokens hstop hline
  rw [Lexeme.token] at htokens
  rw [hlength] at htokens hstop hline
  rcases hrest with rfl | ⟨fault, hstuck⟩
  · have hplain := @Lexer.scan_eq_ok (Lexer.ofString source false) reading
    have hscan := @Lexer.scan_eq_ok (Lexer.ofString (word ++ source) false) whole
    rw [hplain]
    exact hscan.trans (congrArg Except.ok htokens)
  · have hplain := @Lexer.scan_eq_error (Lexer.ofString source false) rest fault reading hstuck
    have hscan := @Lexer.scan_eq_error (Lexer.ofString (word ++ source) false) rest fault whole hstuck
    have hrun := @Lexer.tokens_run_of_stuck (Lexer.ofString source false) rest fault reading hstuck
    have hchars : (Lexer.ofString (word ++ source) false).chars.toList =
        word.toList ++ (Lexer.ofString source false).chars.toList := String.toList_append
    have herror := @Reading.errorAt_behind _ (Lexer.ofString source false) word rest hchars reading fault
    rw [hplain, hrun]
    exact hscan.trans (congrArg Except.error ((congrArg₂ _ hline hstop).trans herror))

/-- A word that goes on where the reserved word ends, a number that a reserved word would run into, and
errors before and behind the end of a line. -/
theorem scan_keyword_append_or :
    ("or", TokenKind.orWord) ∈ keywords ∧
    (Lexer.ofString ("or" ++ "chid 1") false).scan = .ok [⟨.orWord, none, 0, 2⟩,
      ⟨.identifier, some "chid", 2, 4⟩, ⟨.number, some "1", 7, 1⟩] ∧
    (Lexer.ofString ("or" ++ "1.5\"") false).scan =
      .error ⟨.unterminatedString, 1, "or1.5\"", 5⟩ ∧
    (Lexer.ofString ("or" ++ "d // \"\n\"a\n\" é") false).scan =
      .error ⟨.unexpectedCharacter 'é', 2, "\"a\n\" é", 14⟩ := by
  have he : ("or", TokenKind.orWord) ∈ keywords := by decide
  have hname := scan_keyword_append "chid 1" _ he
  have hfirst := scan_keyword_append "1.5\"" _ he
  have hbehind := scan_keyword_append "d // \"\n\"a\n\" é" _ he
  have hopen : (Lexer.ofString "1.5\"" false).scan =
      .error ⟨.unterminatedString, 1, "1.5\"", 3⟩ := rfl
  have hforeign : (Lexer.ofString "d // \"\n\"a\n\" é" false).scan =
      .error ⟨.unexpectedCharacter 'é', 2, "\"a\n\" é", 12⟩ := rfl
  rw [hopen] at hfirst
  rw [hforeign] at hbehind
  exact ⟨he, hname, hfirst, hbehind⟩

end LoxTools
