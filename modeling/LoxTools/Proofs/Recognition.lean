import LoxTools.Proofs.Grammar

/-!
# Recognition follows the grammar

Each lexical rule is met by the lexemes of its shape, and the order of the rules gives way to none
of the others:

* `Lexer.tokenAt_eq_ok` — where a lexeme fits, recognition gives its token;
* `Lexer.tokenAt_eq_error` — where the text is at fault, recognition gives that fault;
* `Lexer.commentStarts_eq` — a comment starts exactly at two slashes;
* `Lexer.lexeme_of_tokenAt` and `Lexer.stuck_of_tokenAt` — where neither a blank nor a comment is,
  one of the first two is the case.

What a rule reads is the source from its position on, `Lexer.rest`.
-/

namespace LoxTools

namespace Lexer

variable {lexer : Lexer} {index : Nat} {line : Line} {c : Char} {text more after : List Char}

/-- The source from a position on. The rules read the source through a cursor; what they read is stated
about this list. -/
def rest (lexer : Lexer) (index : Nat) : List Char :=
  lexer.chars.toList.drop index

theorem rest_add (h : lexer.rest index = text ++ after) :
    lexer.rest (index + text.length) = after := by
  rw [rest, ← List.drop_drop, ← rest, h, List.drop_left]

theorem rest_succ (h : lexer.rest index = c :: more) : lexer.rest (index + 1) = more := by
  rw [rest, ← List.tail_drop, ← rest, h, List.tail_cons]

theorem getElem?_of_rest (h : lexer.rest index = c :: more) : lexer.chars[index]? = some c := by
  rw [← Array.getElem?_toList, ← List.head?_drop, ← rest, h, List.head?_cons]

theorem exists_rest (h : lexer.chars[index]? = some c) :
    ∃ more, lexer.rest index = c :: more := by
  rw [← Array.getElem?_toList, ← List.head?_drop, ← rest] at h
  exact List.head?_eq_some_iff.mp h

theorem length_rest : (lexer.rest index).length = lexer.chars.size - index := by
  rw [rest, List.length_drop, Array.length_toList]

/-- The cursor of a rule starts where the rule is asked. -/
theorem rest_cursorAt (h : lexer.rest index = text) : (lexer.cursorAt index).rest = text :=
  (Cursor.rest_ofPosition _ _).trans h

theorem position_cursorAt (h : lexer.rest index = c :: more) :
    (lexer.cursorAt index).position = index := by
  refine Cursor.position_ofPosition (Nat.le_of_lt ?_)
  exact (Array.getElem?_eq_some_iff.mp (getElem?_of_rest h)).1

theorem current_cursorAt (h : lexer.rest index = c :: more) :
    (lexer.cursorAt index).current = c := by
  rw [Cursor.current_eq, rest_cursorAt h]
  rfl

/-- A token up to a cursor is as long as the text that the cursor has passed. -/
theorem tokenTo_eq {stop : Cursor} (kind : TokenKind) (shown : Option String)
    (h : lexer.rest index = c :: more) (hstop : (lexer.cursorAt index).Past text stop) :
    tokenTo kind shown index stop = ⟨kind, shown, index, text.length⟩ := by
  have hlen := hstop.distance
  rw [position_cursorAt h] at hlen
  rw [tokenTo, hlen]

/-- The text from a position up to a cursor is the text that the cursor has passed. -/
theorem sliceFrom_eq {stop : Cursor} (h : lexer.rest index = c :: more)
    (hstop : (lexer.cursorAt index).Past text stop) :
    stop.sliceFrom index = String.ofList text := by
  have hslice := hstop.sliceFrom_eq
  rwa [position_cursorAt h] at hslice

/-- **A comment starts exactly at two slashes**; the end of the source counts as no slash. -/
theorem commentStarts_eq :
    lexer.commentStarts index = true ↔ ['/', '/'] <+: lexer.rest index := by
  rw [commentStarts, Cursor.startsWith_eq, rest_cursorAt rfl, List.isPrefixOf_iff_prefix]
  rfl

/-! ## Operators -/

/-- An operator without an equals sign behind it is one character long. -/
theorem operator?_eq_alone {alone withEqual : TokenKind} (h : lexer.rest index = c :: more)
    (hc : equatable? c = some (alone, withEqual)) (hmore : StopsBefore (· == '=') more) :
    lexer.operator? index = some ⟨alone, none, index, 1⟩ := by
  have hpast := Cursor.past_advance (rest_cursorAt h)
  have hrest : (lexer.cursorAt index).advance.rest = more :=
    hpast.rest_eq (rest_cursorAt h)
  have hno : (lexer.cursorAt index).advance.accepts '=' = false := by
    rw [Cursor.accepts_eq, hrest]
    cases more with
    | nil => rfl
    | cons d rest => exact stopsBefore_cons.mp hmore
  rw [operator?, current_cursorAt h, hc]
  simp only [hno]
  rw [Cursor.accept_of_stopsBefore (by rwa [hrest]), tokenTo_eq _ _ h hpast]
  rfl

/-- An operator takes the equals sign behind it, and is two characters long. -/
theorem operator?_eq_withEqual {alone withEqual : TokenKind}
    (h : lexer.rest index = c :: '=' :: more) (hc : equatable? c = some (alone, withEqual)) :
    lexer.operator? index = some ⟨withEqual, none, index, 2⟩ := by
  have hpast := Cursor.past_advance (rest_cursorAt h)
  have hrest := hpast.rest_eq (rest_cursorAt h)
  have hyes : (lexer.cursorAt index).advance.accepts '=' = true := by
    rw [Cursor.accepts_eq, hrest]
    rfl
  rw [operator?, current_cursorAt h, hc]
  simp only [hyes]
  rw [tokenTo_eq _ _ h (hpast.trans (Cursor.past_accept hrest))]
  rfl

/-- A mark that no equals sign belongs to is one character long, whatever follows. -/
theorem operator?_eq_punctuation {kind : TokenKind} (h : lexer.rest index = c :: more)
    (hc : equatable? c = none) (hkind : punctuation? c = some kind) :
    lexer.operator? index = some ⟨kind, none, index, 1⟩ := by
  have hpast := Cursor.past_advance (rest_cursorAt h)
  rw [operator?, current_cursorAt h, hc, hkind]
  simp only [Option.map_some]
  rw [tokenTo_eq _ _ h hpast]
  rfl

/-- The rule on operators leaves all other characters to the rules behind it. -/
theorem operator?_eq_none (h : lexer.rest index = c :: more) (hc : c ∉ operatorChars) :
    lexer.operator? index = none := by
  rw [mem_operatorChars, not_or, not_not, not_not] at hc
  rw [operator?, current_cursorAt h, hc.1, hc.2]
  rfl

/-! ## Strings -/

/-- Behind the opening quote, the closing one is found behind the text. The same search ends at the end
of the source if there is no other quote. -/
theorem past_closingQuote (h : lexer.rest index = '"' :: (text ++ after)) (htext : '"' ∉ text)
    (hafter : StopsBefore (· != '"') after) :
    (lexer.cursorAt index).advance.Past text (closingQuote (lexer.cursorAt index)) := by
  have hopen := Cursor.past_advance (rest_cursorAt h)
  have hinside : ∀ x ∈ text, (x != '"') = true := by
    intro x hx
    exact bne_iff_ne.mpr fun heq => htext (heq ▸ hx)
  exact Cursor.past_advanceWhile _ (hopen.rest_eq (rest_cursorAt h)) hinside hafter

/-- A string that is closed has the text between its quotes, and is two characters longer than that. -/
theorem string_eq_ok (h : lexer.rest index = '"' :: (text ++ '"' :: after))
    (htext : '"' ∉ text) :
    lexer.string line index = .ok ⟨.string, some (String.ofList text), index, text.length + 2⟩ := by
  have hopen := Cursor.past_advance (rest_cursorAt h)
  have hinside := past_closingQuote h htext (stopsBefore_cons.mpr rfl)
  have hrest := hinside.rest_eq (hopen.rest_eq (rest_cursorAt h))
  have hend : (closingQuote (lexer.cursorAt index)).atEnd = false := by
    rw [Cursor.atEnd_eq, hrest]
    rfl
  have hslice := hinside.sliceFrom_eq
  rw [hopen.position, position_cursorAt h, List.length_singleton] at hslice
  have hwhole := hopen.trans (hinside.trans (Cursor.past_advance hrest))
  rw [string]
  simp only [hend, Bool.false_eq_true, if_false]
  rw [tokenTo_eq _ _ h hwhole, hslice]
  have hlen : (['"'] ++ (text ++ ['"'])).length = text.length + 2 := by
    simp only [List.length_append, List.length_singleton]
    omega
  rw [hlen]

/-- A string that is not closed is an error at its opening quote. -/
theorem string_eq_error (h : lexer.rest index = '"' :: more) (hmore : '"' ∉ more) :
    lexer.string line index = .error (lexer.errorAt .unterminatedString line index) := by
  have hall : lexer.rest index = '"' :: (more ++ []) := by rw [h, List.append_nil]
  have hopen := Cursor.past_advance (rest_cursorAt hall)
  have hinside := past_closingQuote hall hmore (stopsBefore_nil _)
  have hrest := hinside.rest_eq (hopen.rest_eq (rest_cursorAt hall))
  have hend : (closingQuote (lexer.cursorAt index)).atEnd = true := by
    rw [Cursor.atEnd_eq, hrest]
    rfl
  rw [string]
  simp only [hend, if_true]

/-! ## Numbers -/

/-- A dot with a digit behind it is told by looking at two characters; U+0000, which stands for
the end, is no digit. -/
theorem fractionFollows_iff (here : Cursor) :
    (here.current == '.' && isDigit (here.peek 1)) = true ↔
      ∃ d more, here.rest = '.' :: d :: more ∧ isDigit d = true := by
  rw [Cursor.current_eq, Cursor.peek_eq]
  rcases here.rest with _ | ⟨c, _ | ⟨d, more⟩⟩
  · simp
  · simp [isDigit]
  · simp [and_assoc]

/-- The end of a number is behind the longest spelling: the digits, and the dot with more digits if
there are any behind it. -/
theorem past_numberEnd (h : lexer.rest index = text ++ after) (htext : IsNumeral text)
    (hdigit : StopsBefore isDigit after)
    (hfraction : '.' ∉ text → ∀ d more, after = '.' :: d :: more → isDigit d = false) :
    (lexer.cursorAt index).Past text (numberEnd (lexer.cursorAt index)) := by
  rcases htext with hdigits | ⟨whole, part, hwhole, hpart, rfl⟩
  · have hpast := Cursor.past_advanceWhile isDigit (rest_cursorAt h) hdigits.2 hdigit
    have hdot : '.' ∉ text := fun hmem => absurd (hdigits.2 _ hmem) (by decide)
    rw [numberEnd]
    split
    · rename_i hfollows
      obtain ⟨d, more, hrest, hd⟩ := (fractionFollows_iff _).mp hfollows
      rw [hpast.rest_eq (rest_cursorAt h)] at hrest
      rw [hfraction hdot d more hrest] at hd
      cases hd
    · exact hpast
  · rw [List.append_assoc, List.cons_append] at h
    have hpast := Cursor.past_advanceWhile isDigit (rest_cursorAt h) hwhole.2
      (stopsBefore_cons.mpr (by decide))
    have hrest := hpast.rest_eq (rest_cursorAt h)
    obtain ⟨d, more, hpart_eq⟩ := List.exists_cons_of_ne_nil hpart.1
    have hfollows := (fractionFollows_iff ((lexer.cursorAt index).advanceWhile isDigit)).mpr
      ⟨d, more ++ after, by rw [hrest, hpart_eq]; rfl, hpart.2 d (by simp [hpart_eq])⟩
    have hdotted := Cursor.past_advance hrest
    rw [numberEnd]
    simp only [hfollows, if_true]
    exact hpast.trans
      (hdotted.trans (Cursor.past_advanceWhile isDigit (hdotted.rest_eq hrest) hpart.2 hdigit))

/-- A number is what it is written as. What it denotes is not looked at. -/
theorem number_eq (h : lexer.rest index = text ++ after) (htext : IsNumeral text)
    (hdigit : StopsBefore isDigit after)
    (hfraction : '.' ∉ text → ∀ d more, after = '.' :: d :: more → isDigit d = false) :
    lexer.number index = ⟨.number, some (String.ofList text), index, text.length⟩ := by
  have hpast := past_numberEnd h htext hdigit hfraction
  obtain ⟨c, more, rfl, -⟩ := htext.head_isDigit
  rw [number, tokenTo_eq _ _ h hpast, sliceFrom_eq h hpast]

/-! ## Words -/

/-- The character behind a word is told by looking past it; U+0000, which stands for the end, is not
alphanumeric. In the plain setting nothing is looked at behind the word. -/
theorem spellsKeyword_iff {word : String} :
    lexer.spellsKeyword (lexer.cursorAt index) word = true ↔
      SpellsWord lexer.strictKeywords word.toList (lexer.rest index) := by
  have hpeek : ∀ after, lexer.rest index = word.toList ++ after →
      (isAlphaNumeric ((lexer.cursorAt index).peek word.length) = false ↔
        StopsBefore isAlphaNumeric after) := by
    intro after hafter
    rw [Cursor.peek_eq, rest_cursorAt hafter, List.getD_eq_getElem?_getD, ← String.length_toList,
      List.getElem?_append_right (Nat.le_refl _), Nat.sub_self]
    cases after with
    | nil => exact iff_of_true (by decide) (stopsBefore_nil _)
    | cons c more => exact stopsBefore_cons.symm
  rw [spellsKeyword, Bool.and_eq_true, Cursor.startsWith_eq, rest_cursorAt rfl,
    List.isPrefixOf_iff_prefix]
  constructor
  · rintro ⟨⟨after, hafter⟩, hboundary⟩
    refine ⟨after, hafter.symm, fun hstrict => (hpeek after hafter.symm).mp ?_⟩
    simpa [hstrict] using hboundary
  · rintro ⟨after, hafter, hboundary⟩
    refine ⟨⟨after, hafter.symm⟩, ?_⟩
    cases hstrict : lexer.strictKeywords with
    | false => rfl
    | true => simp [(hpeek after hafter).mpr (hboundary hstrict)]

/-- No reserved word begins with another one, so at most one is spelled at a place, and the order of the
table does not matter. -/
theorem keyword?_eq_some {entry : String × TokenKind} (he : entry ∈ keywords)
    (hword : SpellsWord lexer.strictKeywords entry.1.toList (lexer.rest index)) :
    lexer.keyword? index = some ⟨entry.2, none, index, entry.1.length⟩ := by
  have hsome : (keywords.find? fun e => lexer.spellsKeyword (lexer.cursorAt index) e.1).isSome := by
    rw [List.find?_isSome]
    exact ⟨entry, he, spellsKeyword_iff.mpr hword⟩
  obtain ⟨found, hfound⟩ := Option.isSome_iff_exists.mp hsome
  have hmem := List.mem_of_find?_eq_some hfound
  have hspells := List.find?_some hfound
  obtain ⟨after, hafter, -⟩ := hword
  obtain ⟨after', hafter', -⟩ := spellsKeyword_iff.mp hspells
  -- both words are spelled at this place, so one is the beginning of the other
  have hsame : found = entry := by
    rcases List.prefix_or_prefix_of_prefix ⟨after', hafter'.symm⟩ ⟨after, hafter.symm⟩ with hp | hp
    · exact keywords_not_nested _ hmem _ he (List.isPrefixOf_iff_prefix.mpr hp)
    · exact (keywords_not_nested _ he _ hmem (List.isPrefixOf_iff_prefix.mpr hp)).symm
  rw [keyword?]
  simp only [hfound, hsame, Option.map_some]

theorem keyword?_eq_none (hword : ∀ entry ∈ keywords,
    ¬ SpellsWord lexer.strictKeywords entry.1.toList (lexer.rest index)) :
    lexer.keyword? index = none := by
  have hnone : (keywords.find? fun e => lexer.spellsKeyword (lexer.cursorAt index) e.1) = none := by
    rw [List.find?_eq_none]
    intro entry he hspells
    exact hword entry he (spellsKeyword_iff.mp hspells)
  rw [keyword?]
  simp only [hnone, Option.map_none]

/-- A name takes all alphanumeric characters. -/
theorem identifier_eq (h : lexer.rest index = text ++ after) (htext : IsName text)
    (hafter : StopsBefore isAlphaNumeric after) :
    lexer.identifier index = ⟨.identifier, some (String.ofList text), index, text.length⟩ := by
  have hpast := Cursor.past_advanceWhile isAlphaNumeric (rest_cursorAt h)
    htext.isAlphaNumeric hafter
  obtain ⟨c, more, rfl, -⟩ := htext
  rw [identifier, wordEnd, tokenTo_eq _ _ h hpast, sliceFrom_eq h hpast]

/-! ## Recognition

Which rule is asked follows from the first character: no character opens tokens of two rules. -/

/-- The rule on operators is asked first. -/
theorem tokenAt_of_operator {token : Token} (h : lexer.operator? index = some token) :
    lexer.tokenAt line index = .ok token := by
  rw [tokenAt]
  simp only [h]

theorem tokenAt_of_quote (h : lexer.rest index = '"' :: more) :
    lexer.tokenAt line index = lexer.string line index := by
  rw [tokenAt]
  simp only [operator?_eq_none h (by decide), current_cursorAt h, beq_self_eq_true, if_true]

theorem tokenAt_of_digit (h : lexer.rest index = c :: more) (hc : isDigit c = true) :
    lexer.tokenAt line index = .ok (lexer.number index) := by
  have hclass := isAlphaNumeric_of_isDigit hc
  have hnone := operator?_eq_none h (not_mem_operatorChars_of_isAlphaNumeric hclass)
  have hquote : (c == '"') = false := beq_false_of_ne (ne_of_isAlphaNumeric hclass rfl)
  rw [tokenAt]
  simp only [hnone, current_cursorAt h, hquote, hc, Bool.false_eq_true, if_false, if_true]

/-- At a letter the reserved words go before names. -/
theorem tokenAt_of_alpha (h : lexer.rest index = c :: more) (hc : isAlpha c = true) :
    lexer.tokenAt line index = .ok ((lexer.keyword? index).getD (lexer.identifier index)) := by
  have hclass := isAlphaNumeric_of_isAlpha hc
  have hnone := operator?_eq_none h (not_mem_operatorChars_of_isAlphaNumeric hclass)
  have hquote : (c == '"') = false := beq_false_of_ne (ne_of_isAlphaNumeric hclass rfl)
  rw [tokenAt]
  simp only [hnone, current_cursorAt h, hquote, isDigit_eq_false_of_isAlpha hc, hc,
    Bool.false_eq_true, if_false, if_true]
  cases lexer.keyword? index <;> rfl

/-- Punctuation, operators and reserved words are recognised where they fit, by the rule for the first
character of their spelling. -/
theorem tokenAt_of_fixed {kind : TokenKind} {spelling : String}
    (hs : kind.spelling? = some spelling) (h : lexer.rest index = spelling.toList ++ after)
    (fits : Lexeme.Fits lexer.strictKeywords ⟨kind, none⟩ after) :
    lexer.tokenAt line index = .ok ⟨kind, none, index, spelling.toList.length⟩ := by
  rcases spelling?_cases hs with
    ⟨c, hc, hno, hmark⟩ | ⟨c, withEqual, hc, hop⟩ | ⟨c, alone, hc, hop⟩ | hentry
  · rw [hc] at h ⊢
    exact tokenAt_of_operator (operator?_eq_punctuation h hno hmark)
  · have halone : kind ∈ [.bang, .equal, .less, .greater] := by
      unfold equatable? at hop
      split at hop <;> cases hop <;> decide
    rw [hc] at h ⊢
    exact tokenAt_of_operator (operator?_eq_alone h hop (fits.no_equals halone))
  · rw [hc] at h ⊢
    exact tokenAt_of_operator (operator?_eq_withEqual h hop)
  · have hkeyword : kind.isKeyword = true := List.any_eq_true.mpr ⟨_, hentry, beq_self_eq_true _⟩
    have hword : SpellsWord lexer.strictKeywords spelling.toList (lexer.rest index) :=
      ⟨after, h, fun hstrict => fits.word_ends hstrict hkeyword⟩
    obtain ⟨c, more, hc, halpha, -⟩ := isName_of_mem_keywords hentry
    have hrest : lexer.rest index = c :: (more ++ after) := by
      rw [h, hc]
      rfl
    rw [tokenAt_of_alpha hrest halpha, keyword?_eq_some hentry hword]
    rfl

/-- A name is recognised because no reserved word is spelled at its beginning: one that reached
beyond it would hold a character that is not alphanumeric. -/
theorem tokenAt_of_name {text : List Char} (h : lexer.rest index = text ++ after)
    (htext : IsName text) (hafter : StopsBefore isAlphaNumeric after)
    (hfree : ∀ entry ∈ keywords,
      if lexer.strictKeywords then text ≠ entry.1.toList else ¬ entry.1.toList <+: text) :
    lexer.tokenAt line index = .ok ⟨.identifier, some (String.ofList text), index, text.length⟩ := by
  have hnone : lexer.keyword? index = none := by
    refine keyword?_eq_none fun entry he hword => ?_
    obtain ⟨tail, htail, hboundary⟩ := hword
    obtain ⟨back, hback⟩ := hafter.isPrefix (h.symm.trans htail)
      (isName_of_mem_keywords he).isAlphaNumeric
    have hno := hfree entry he
    cases hstrict : lexer.strictKeywords with
    | false =>
      rw [hstrict, if_neg Bool.false_ne_true] at hno
      exact hno ⟨back, hback⟩
    | true =>
      rw [hstrict, if_pos rfl] at hno
      cases back with
      | nil => exact hno (by rw [← hback, List.append_nil])
      | cons c more =>
        -- the boundary of the word lies inside the name
        have hin := htext.isAlphaNumeric c
          (by rw [← hback]; exact List.mem_append_right _ (List.mem_cons_self ..))
        rw [h, ← hback, List.append_assoc, List.append_cancel_left_eq] at htail
        have hout := stopsBefore_cons.mp (htail ▸ hboundary hstrict)
        rw [hin] at hout
        cases hout
  obtain ⟨c, more, rfl, halpha, -⟩ := id htext
  rw [tokenAt_of_alpha h halpha, hnone, identifier_eq h htext hafter]
  rfl

/-- **Where a lexeme fits, its token is recognised.** By the kinds of lexemes, each with the lemma for
the rule that its first character leads to. -/
theorem tokenAt_eq_ok {lexeme : Lexeme} (h : lexer.rest index = lexeme.spelling ++ after)
    (fits : lexeme.Fits lexer.strictKeywords after) :
    lexer.tokenAt line index = .ok (lexeme.token index) := by
  cases fits.wellFormed with
  | fixed hs =>
    rw [Lexeme.token, Lexeme.spelling_fixed hs]
    exact tokenAt_of_fixed hs (by rw [h, Lexeme.spelling_fixed hs]) fits
  | @number text htext =>
    change lexer.rest index = text.toList ++ after at h
    obtain ⟨c, more, hc, hdigit⟩ := htext.head_isDigit
    have hrest : lexer.rest index = c :: (more ++ after) := by
      rw [h, hc]
      rfl
    rw [tokenAt_of_digit hrest hdigit, number_eq h htext (fits.number_ends rfl)
      (fits.no_fraction rfl), String.ofList_toList]
    rfl
  | @string text htext =>
    have hrest : lexer.rest index = '"' :: (text.toList ++ '"' :: after) := by
      rw [h]
      exact congrArg ('"' :: ·) (List.append_assoc ..)
    have hlen : (Lexeme.spelling ⟨.string, some text⟩).length = text.toList.length + 2 := by
      show ('"' :: (text.toList ++ ['"'])).length = _
      rw [List.length_cons, List.length_append, List.length_singleton]
    rw [tokenAt_of_quote hrest, string_eq_ok hrest htext, String.ofList_toList, Lexeme.token, hlen]
  | @name text htext =>
    change lexer.rest index = text.toList ++ after at h
    rw [tokenAt_of_name h htext (fits.name_ends rfl) (fits.name_free rfl), String.ofList_toList]
    rfl

/-- **Where the text is at fault, the fault is reported**, on the line that scanning is in and at the
position where it is asked. -/
theorem tokenAt_eq_error {fault : LexFault} (h : Stuck fault (lexer.rest index)) :
    lexer.tokenAt line index = .error (lexer.errorAt fault line index) := by
  generalize hrest : lexer.rest index = text at h
  cases h with
  | unclosed hmore => rw [tokenAt_of_quote hrest, string_eq_error hrest hmore]
  | @foreign c more hc =>
    simp only [isForeign, isAlphaNumeric, Bool.not_eq_true', Bool.or_eq_false_iff,
      List.contains_eq_mem, decide_eq_false_iff_not] at hc
    obtain ⟨⟨⟨-, halpha, hdigit⟩, hquote⟩, hchars⟩ := hc
    have hnone : lexer.keyword? index = none := by
      refine keyword?_eq_none fun entry he hword => ?_
      obtain ⟨tail, htail, -⟩ := hword
      obtain ⟨d, rest, hd, hdalpha, -⟩ := isName_of_mem_keywords he
      rw [hrest, hd] at htail
      rw [(List.cons.inj htail).1, hdalpha] at halpha
      cases halpha
    rw [tokenAt]
    simp only [operator?_eq_none hrest hchars, current_cursorAt hrest, hquote, hdigit, hnone,
      halpha, Bool.false_eq_true, if_false]

/-! ## What recognition says

Behind the blanks and comments a lexeme fits or the text is at fault, so the outcome tells which. -/

theorem beginsLexeme_or_stuck_at (h : lexer.rest index = c :: more)
    (hblank : ¬ isBlank c = true) (hstarts : ¬ lexer.commentStarts index = true) :
    BeginsLexeme lexer.strictKeywords (lexer.rest index) ∨
      ∃ fault, Stuck fault (lexer.rest index) := by
  refine beginsLexeme_or_stuck lexer.strictKeywords ?_ ?_ fun hslashes =>
    hstarts (commentStarts_eq.mpr hslashes)
  · rw [h]
    exact List.cons_ne_nil _ _
  · rw [h]
    exact stopsBefore_cons.mpr (Bool.eq_false_iff.mpr hblank)

/-- **A token that is recognised is that of a lexeme which fits.** By completeness of the grammar a
lexeme fits or the text is at fault, and at a fault no token is recognised. -/
theorem lexeme_of_tokenAt {token : Token} (h : lexer.rest index = c :: more)
    (hblank : ¬ isBlank c = true) (hstarts : ¬ lexer.commentStarts index = true)
    (htoken : lexer.tokenAt line index = .ok token) :
    ∃ (lexeme : Lexeme) (after : List Char), token = lexeme.token index ∧
      lexer.rest index = lexeme.spelling ++ after ∧ lexeme.Fits lexer.strictKeywords after := by
  rcases beginsLexeme_or_stuck_at h hblank hstarts with ⟨lexeme, after, htext, fits⟩ | ⟨fault, hstuck⟩
  · rw [tokenAt_eq_ok htext fits] at htoken
    exact ⟨lexeme, after, (Except.ok.inj htoken).symm, htext, fits⟩
  · rw [tokenAt_eq_error hstuck] at htoken
    cases htoken

/-- **An error that is reported is a fault of the text**, by the same distinction. -/
theorem stuck_of_tokenAt {error : LexError} (h : lexer.rest index = c :: more)
    (hblank : ¬ isBlank c = true) (hstarts : ¬ lexer.commentStarts index = true)
    (herror : lexer.tokenAt line index = .error error) :
    ∃ fault, error = lexer.errorAt fault line index ∧ Stuck fault (lexer.rest index) := by
  rcases beginsLexeme_or_stuck_at h hblank hstarts with ⟨lexeme, after, htext, fits⟩ | ⟨fault, hstuck⟩
  · rw [tokenAt_eq_ok htext fits] at herror
    cases herror
  · rw [tokenAt_eq_error hstuck] at herror
    exact ⟨fault, (Except.error.inj herror).symm, hstuck⟩

end Lexer

end LoxTools
