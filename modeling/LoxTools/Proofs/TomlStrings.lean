import LoxTools.Proofs.TomlReaders

/-!
# TOML strings and keys in front of a line end

A string is closed, and a bare word is followed by something that does not continue it: the readers of
strings and keys do not look behind a line end.

* `Spells` says which texts stand for the characters of a string between double quotes, and
  `basicBody_eq_some` that these are what the reader reads;
* `local_string` and `local_key` are about strings and keys of any form.
-/

namespace LoxTools.Toml

/-! ## Strings on one line -/

/-- **What stands for some characters between double quotes**: themselves, or escapes. -/
inductive Spells : List Char → List Char → Prop where
  | nil : Spells [] []
  /-- a character that needs no escape -/
  | plain {c : Char} {body text : List Char} (hline : isInLine c = true) (hquote : c ≠ '"')
      (hescape : c ≠ '\\') (h : Spells body text) : Spells (c :: body) (c :: text)
  /-- an escape of one letter -/
  | short {letter c : Char} {body text : List Char} (hletter : shortEscape? letter = some c)
      (h : Spells body text) : Spells ('\\' :: letter :: body) (c :: text)
  /-- a code point in four digits -/
  | four {a b c d char : Char} {body text : List Char} (hpoint : codePoint? [a, b, c, d] = some char)
      (h : Spells body text) : Spells ('\\' :: 'u' :: a :: b :: c :: d :: body) (char :: text)
  /-- a code point in eight digits -/
  | eight {a b c d e f g i char : Char} {body text : List Char}
      (hpoint : codePoint? [a, b, c, d, e, f, g, i] = some char) (h : Spells body text) :
      Spells ('\\' :: 'U' :: a :: b :: c :: d :: e :: f :: g :: i :: body) (char :: text)

theorem consChar_eq_some {c : Char} {result : Option (List Char × List Char)} {text rest : List Char}
    (h : consChar c result = some (text, rest)) :
    ∃ behind, text = c :: behind ∧ result = some (behind, rest) := by
  cases result with
  | none => cases h
  | some pair =>
    obtain ⟨rfl, rfl⟩ := Prod.mk.inj (Option.some.inj h)
    exact ⟨pair.1, rfl, rfl⟩

/-- The letters of the escapes of one letter are none of the marks of code points. -/
theorem ne_of_shortEscape? {letter c : Char} (h : shortEscape? letter = some c) :
    letter ≠ 'u' ∧ letter ≠ 'U' := by
  constructor
  · rintro rfl
    cases h
  · rintro rfl
    cases h

/-- What stands for some characters is read as them, up to the quote behind. -/
theorem Spells.basicBody {body text : List Char} (h : Spells body text) (rest : List Char) :
    basicBody (body ++ '"' :: rest) = some (text, rest) := by
  induction h with
  | nil => rw [List.nil_append, Toml.basicBody]
  | plain hline hquote hescape h ih =>
    simp [Toml.basicBody, hline, hescape, ih, consChar]
  | short hletter h ih =>
    obtain ⟨hu, hU⟩ := ne_of_shortEscape? hletter
    simp [Toml.basicBody, hletter, hu, hU, ih, consChar]
  | four hpoint h ih => simp [Toml.basicBody, hpoint, ih, consChar]
  | eight hpoint h ih => simp [Toml.basicBody, hpoint, ih, consChar]

/-- What is read as some characters stands for them, with a quote behind. -/
theorem exists_spells {cs text rest : List Char} (h : basicBody cs = some (text, rest)) :
    ∃ body, Spells body text ∧ cs = body ++ '"' :: rest := by
  fun_induction basicBody cs generalizing text rest with
  | case1 => cases h
  | case2 rest' =>
    obtain ⟨rfl, rfl⟩ := Prod.mk.inj (Option.some.inj h)
    exact ⟨[], .nil, rfl⟩
  | case3 a b c d rest' char hpoint ih =>
    obtain ⟨behind, rfl, hbehind⟩ := consChar_eq_some h
    obtain ⟨body, hbody, rfl⟩ := ih hbehind
    exact ⟨_, .four hpoint hbody, rfl⟩
  | case4 => cases h
  | case5 a b c d e f g i rest' char hpoint ih =>
    obtain ⟨behind, rfl, hbehind⟩ := consChar_eq_some h
    obtain ⟨body, hbody, rfl⟩ := ih hbehind
    exact ⟨_, .eight hpoint hbody, rfl⟩
  | case6 => cases h
  | case7 letter rest' _ _ char hletter ih =>
    obtain ⟨behind, rfl, hbehind⟩ := consChar_eq_some h
    obtain ⟨body, hbody, rfl⟩ := ih hbehind
    exact ⟨_, .short hletter hbody, rfl⟩
  | case8 => cases h
  | case9 c rest' hquote _ _ _ hplain ih =>
    obtain ⟨behind, rfl, hbehind⟩ := consChar_eq_some h
    obtain ⟨body, hbody, rfl⟩ := ih hbehind
    obtain ⟨hline, hescape⟩ := Bool.and_eq_true_iff.mp hplain
    exact ⟨_, .plain hline hquote (bne_iff_ne.mp hescape) hbody, rfl⟩
  | case10 => cases h

/-- **A string between double quotes** is what stands for its characters, up to the next quote. -/
theorem basicBody_eq_some {cs text rest : List Char} :
    basicBody cs = some (text, rest) ↔ ∃ body, Spells body text ∧ cs = body ++ '"' :: rest := by
  refine ⟨exists_spells, ?_⟩
  rintro ⟨body, hbody, rfl⟩
  exact hbody.basicBody rest

/-- A string between double quotes does not look behind a line end, since it is closed before. -/
theorem local_basicBody : Local basicBody := by
  intro cs text rest h
  obtain ⟨body, hbody, rfl⟩ := basicBody_eq_some.mp h
  refine ⟨⟨body ++ ['"'], by simp⟩, fun more => ?_⟩
  rw [List.append_assoc]
  exact basicBody_eq_some.mpr ⟨body, hbody, rfl⟩

/-- A string between apostrophes does not look behind a line end, since it is closed before. -/
theorem local_literalBody : Local literalBody := by
  intro cs text rest h
  fun_induction literalBody cs generalizing text rest with
  | case1 => cases h
  | case2 rest' =>
    obtain ⟨rfl, rfl⟩ := Prod.mk.inj (Option.some.inj h)
    exact ⟨List.suffix_cons .., fun more => rfl⟩
  | case3 c rest' hquote hline ih =>
    obtain ⟨behind, rfl, hbehind⟩ := consChar_eq_some h
    obtain ⟨hsuffix, hmore⟩ := ih _ _ hbehind
    refine ⟨hsuffix.trans (List.suffix_cons ..), fun more => ?_⟩
    simp [literalBody, hline, hmore, consChar]
  | case4 => cases h

/-! ## Strings over several lines -/

theorem lineIsOver_append {cs : List Char} (h : lineIsOver cs = true) (more : List Char) :
    lineIsOver (cs ++ '\n' :: more) = true := by
  obtain ⟨rest, hrest⟩ := Option.isSome_iff_exists.mp h
  rw [lineIsOver, skipSpaces_newLine, (newLine?_eq_some hrest).2]
  rfl

/-- Quotes in front of a line end are the last ones of their run, so they close as many strings as
without it. -/
theorem closingQuotes_newLine {quote : Char} (h : quote ≠ '\n') (cs more : List Char) :
    closingQuotes quote (cs ++ '\n' :: more) =
      ((closingQuotes quote cs).1, (closingQuotes quote cs).2 ++ '\n' :: more) := by
  match cs with
  | [] => cases more <;> simp [closingQuotes, Ne.symm h]
  | [a] => by_cases ha : a = quote <;> simp [closingQuotes, ha, Ne.symm h]
  | a :: b :: cs =>
    by_cases ha : a = quote
    · by_cases hb : b = quote <;> simp [closingQuotes, ha, hb]
    · simp [closingQuotes, ha]

theorem closingQuotes_suffix (quote : Char) (cs : List Char) :
    (closingQuotes quote cs).2 <:+ cs := by
  match cs with
  | [] => exact List.suffix_rfl
  | [a] => by_cases ha : a = quote <;> simp [closingQuotes, ha]
  | a :: b :: cs =>
    by_cases ha : a = quote
    · by_cases hb : b = quote
      · exact ⟨[a, b], by simp [closingQuotes, ha, hb]⟩
      · exact ⟨[a], by simp [closingQuotes, ha, hb]⟩
    · simp [closingQuotes, ha]

theorem isSpace_cases {c : Char} (h : isSpace c = true) : c = ' ' ∨ c = '\t' := by
  simpa [isSpace] using h

/-- A string between three double quotes does not look behind a line end that comes after it. -/
theorem local_multiBasicBody (trimming : Bool) : Local (multiBasicBody trimming) := by
  intro cs text rest h
  fun_induction multiBasicBody trimming cs generalizing text rest with
  | case1 => cases h
  | case2 trimming rest' =>
    have hclose : closingQuotes '"' rest' = (text, rest) := Option.some.inj h
    have hsuffix := closingQuotes_suffix '"' rest'
    rw [hclose] at hsuffix
    refine ⟨hsuffix.trans ⟨['"', '"', '"'], rfl⟩, fun more => ?_⟩
    simp [multiBasicBody, closingQuotes_newLine, hclose]
  | case3 trimming rest' hone ih =>
    obtain ⟨behind, rfl, hbehind⟩ := consChar_eq_some h
    obtain ⟨hsuffix, hmore⟩ := ih _ _ hbehind
    refine ⟨hsuffix.trans (List.suffix_cons ..), fun more => ?_⟩
    rw [List.cons_append, multiBasicBody, hmore]
    · rfl
    · exact ne_cons_cons_newLine (by decide) hone (by decide)
  | case4 rest' ih =>
    obtain ⟨hsuffix, hmore⟩ := ih _ _ h
    refine ⟨hsuffix.trans ⟨['\r', '\n'], rfl⟩, fun more => ?_⟩
    simp [multiBasicBody, hmore]
  | case5 trimming rest' htrimming ih =>
    obtain ⟨behind, rfl, hbehind⟩ := consChar_eq_some h
    obtain ⟨hsuffix, hmore⟩ := ih _ _ hbehind
    refine ⟨hsuffix.trans ⟨['\r', '\n'], rfl⟩, fun more => ?_⟩
    simp [multiBasicBody, htrimming, hmore, consChar]
  | case6 rest' ih =>
    obtain ⟨hsuffix, hmore⟩ := ih _ _ h
    refine ⟨hsuffix.trans (List.suffix_cons ..), fun more => ?_⟩
    simp [multiBasicBody, hmore]
  | case7 trimming rest' htrimming ih =>
    obtain ⟨behind, rfl, hbehind⟩ := consChar_eq_some h
    obtain ⟨hsuffix, hmore⟩ := ih _ _ hbehind
    refine ⟨hsuffix.trans (List.suffix_cons ..), fun more => ?_⟩
    simp [multiBasicBody, htrimming, hmore, consChar]
  | case8 trimming a b c d rest' char hpoint ih =>
    obtain ⟨behind, rfl, hbehind⟩ := consChar_eq_some h
    obtain ⟨hsuffix, hmore⟩ := ih _ _ hbehind
    refine ⟨hsuffix.trans ⟨['\\', 'u', a, b, c, d], rfl⟩, fun more => ?_⟩
    simp [multiBasicBody, hpoint, hmore, consChar]
  | case9 => cases h
  | case10 trimming a b c d e f g i rest' char hpoint ih =>
    obtain ⟨behind, rfl, hbehind⟩ := consChar_eq_some h
    obtain ⟨hsuffix, hmore⟩ := ih _ _ hbehind
    refine ⟨hsuffix.trans ⟨['\\', 'U', a, b, c, d, e, f, g, i], rfl⟩, fun more => ?_⟩
    simp [multiBasicBody, hpoint, hmore, consChar]
  | case11 => cases h
  | case12 trimming letter rest' _ _ char hletter ih =>
    obtain ⟨behind, rfl, hbehind⟩ := consChar_eq_some h
    obtain ⟨hsuffix, hmore⟩ := ih _ _ hbehind
    obtain ⟨hu, hU⟩ := ne_of_shortEscape? hletter
    refine ⟨hsuffix.trans ⟨['\\', letter], rfl⟩, fun more => ?_⟩
    simp [multiBasicBody, hletter, hu, hU, hmore, consChar]
  | case13 trimming letter rest' _ _ hletter hover ih =>
    obtain ⟨hsuffix, hmore⟩ := ih _ _ h
    refine ⟨hsuffix.trans (List.suffix_cons ..), fun more => ?_⟩
    -- a letter on a line that is over is no letter of an escape
    have hne : letter ≠ 'u' ∧ letter ≠ 'U' := by
      constructor
      · rintro rfl
        simp [lineIsOver, skipSpaces, isSpace, newLine?] at hover
      · rintro rfl
        simp [lineIsOver, skipSpaces, isSpace, newLine?] at hover
    have hover' := lineIsOver_append hover more
    have hmore' := hmore more
    rw [List.cons_append] at hover' hmore'
    simp [multiBasicBody, hletter, hne.1, hne.2, hover', hmore']
  | case14 => cases h
  | case15 trimming c rest' _ _ _ _ _ _ _ hspace ih =>
    obtain ⟨hsuffix, hmore⟩ := ih _ _ h
    refine ⟨hsuffix.trans (List.suffix_cons ..), fun more => ?_⟩
    obtain ⟨rfl, hspace⟩ := Bool.and_eq_true_iff.mp hspace
    rcases isSpace_cases hspace with rfl | rfl
    · simp [multiBasicBody, isSpace, hmore]
    · simp [multiBasicBody, isSpace, hmore]
  | case16 trimming c rest' _ hquote _ hfeed _ _ _ hspace hplain ih =>
    obtain ⟨behind, rfl, hbehind⟩ := consChar_eq_some h
    obtain ⟨hsuffix, hmore⟩ := ih _ _ hbehind
    obtain ⟨hline, hescape⟩ := Bool.and_eq_true_iff.mp hplain
    refine ⟨hsuffix.trans (List.suffix_cons ..), fun more => ?_⟩
    have hreturn : c ≠ '\r' := by
      rintro rfl
      cases hline
    have hne : c ≠ '\\' := bne_iff_ne.mp hescape
    rw [List.cons_append, multiBasicBody, if_neg hspace, if_pos hplain, hmore]
    · rfl
    all_goals intros; contradiction
  | case17 => cases h

/-- A string between three apostrophes does not look behind a line end that comes after it. -/
theorem local_multiLiteralBody : Local multiLiteralBody := by
  intro cs text rest h
  fun_induction multiLiteralBody cs generalizing text rest with
  | case1 => cases h
  | case2 rest' =>
    have hclose : closingQuotes '\'' rest' = (text, rest) := Option.some.inj h
    have hsuffix := closingQuotes_suffix '\'' rest'
    rw [hclose] at hsuffix
    refine ⟨hsuffix.trans ⟨['\'', '\'', '\''], rfl⟩, fun more => ?_⟩
    simp [multiLiteralBody, closingQuotes_newLine, hclose]
  | case3 rest' ih =>
    obtain ⟨behind, rfl, hbehind⟩ := consChar_eq_some h
    obtain ⟨hsuffix, hmore⟩ := ih _ _ hbehind
    refine ⟨hsuffix.trans ⟨['\r', '\n'], rfl⟩, fun more => ?_⟩
    simp [multiLiteralBody, hmore, consChar]
  | case4 rest' ih =>
    obtain ⟨behind, rfl, hbehind⟩ := consChar_eq_some h
    obtain ⟨hsuffix, hmore⟩ := ih _ _ hbehind
    refine ⟨hsuffix.trans (List.suffix_cons ..), fun more => ?_⟩
    simp [multiLiteralBody, hmore, consChar]
  | case5 c rest' hquote _ hfeed hline ih =>
    obtain ⟨behind, rfl, hbehind⟩ := consChar_eq_some h
    obtain ⟨hsuffix, hmore⟩ := ih _ _ hbehind
    refine ⟨hsuffix.trans (List.suffix_cons ..), fun more => ?_⟩
    rw [List.cons_append, multiLiteralBody, if_pos hline, hmore]
    · rfl
    · rintro rest rfl
      exact ne_cons_cons_newLine (by decide) (fun rest h => hquote rest rfl h) (by decide) rest
    · rintro rest rfl
      cases hline
    · exact hfeed
  | case6 => cases h

/-! ## Strings and keys -/

/-- The line end that is dropped behind opening quotes is in the text itself, if a string is. -/
theorem local_dropFirstNewLine {α : Type} {read : Reader α} (hread : Local read) (hnil : read [] = none)
    (hreturn : read ['\r'] = none) : Local fun cs => read (dropFirstNewLine cs) := by
  intro cs value rest h
  obtain ⟨hsuffix, hmore⟩ := hread _ _ _ h
  cases hline : newLine? cs with
  | some behind =>
    obtain ⟨hbehind, happend⟩ := newLine?_eq_some hline
    rw [dropFirstNewLine, hline] at hsuffix hmore
    refine ⟨hsuffix.trans hbehind, fun more => ?_⟩
    simp only [dropFirstNewLine, happend]
    exact hmore more
  | none =>
    simp only [dropFirstNewLine, hline, Option.getD_none] at h hsuffix hmore
    refine ⟨hsuffix, fun more => ?_⟩
    have hne : cs ≠ [] := by
      rintro rfl
      exact nomatch hnil.symm.trans h
    have hne' : cs ≠ ['\r'] := by
      rintro rfl
      exact nomatch hreturn.symm.trans h
    simp only [dropFirstNewLine, newLine?_eq_none hline hne hne']
    exact hmore more

/-- **A string of any form does not look behind a line end.** Which form it has is told by its first
quotes. -/
theorem local_string : Local string? := by
  intro cs text rest h
  unfold string? at h
  split at h
  · next cs =>
    obtain ⟨hsuffix, hmore⟩ := (local_dropFirstNewLine (local_multiBasicBody false) rfl rfl).map
      String.ofList _ _ _ h
    exact ⟨hsuffix.trans ⟨['"', '"', '"'], rfl⟩, hmore⟩
  · next cs hone =>
    obtain ⟨hsuffix, hmore⟩ := local_basicBody.map String.ofList _ _ _ h
    refine ⟨hsuffix.trans (List.suffix_cons ..), fun more => ?_⟩
    rw [List.cons_append, string?]
    · exact hmore more
    · exact ne_cons_cons_newLine (by decide) hone (by decide)
  · next cs =>
    obtain ⟨hsuffix, hmore⟩ := (local_dropFirstNewLine local_multiLiteralBody rfl rfl).map
      String.ofList _ _ _ h
    exact ⟨hsuffix.trans ⟨['\'', '\'', '\''], rfl⟩, hmore⟩
  · next cs hone =>
    obtain ⟨hsuffix, hmore⟩ := local_literalBody.map String.ofList _ _ _ h
    refine ⟨hsuffix.trans (List.suffix_cons ..), fun more => ?_⟩
    rw [List.cons_append, string?]
    · exact hmore more
    · exact ne_cons_cons_newLine (by decide) hone (by decide)
  · cases h

theorem keyPart?_of_bare {c : Char} {cs : List Char} (hquote : c ≠ '"') (hapostrophe : c ≠ '\'') :
    keyPart? (c :: cs) =
      if ((c :: cs).takeWhile isBareKeyChar).isEmpty then none
      else some (String.ofList ((c :: cs).takeWhile isBareKeyChar),
        (c :: cs).dropWhile isBareKeyChar) := by
  rw [keyPart?]
  · exact fun rest heq => hquote (List.cons.inj heq).1
  · exact fun rest heq => hapostrophe (List.cons.inj heq).1

theorem local_keyPart : Local keyPart? := by
  intro cs text rest h
  cases cs with
  | nil => cases h
  | cons c cs =>
    by_cases hquote : c = '"'
    · subst hquote
      obtain ⟨hsuffix, hmore⟩ := local_basicBody.map String.ofList _ _ _ h
      exact ⟨hsuffix.trans (List.suffix_cons ..), hmore⟩
    by_cases hapostrophe : c = '\''
    · subst hapostrophe
      obtain ⟨hsuffix, hmore⟩ := local_literalBody.map String.ofList _ _ _ h
      exact ⟨hsuffix.trans (List.suffix_cons ..), hmore⟩
    rw [keyPart?_of_bare hquote hapostrophe] at h
    split at h
    · cases h
    · next hword =>
      obtain ⟨rfl, rfl⟩ := Prod.mk.inj (Option.some.inj h)
      refine ⟨List.dropWhile_suffix _, fun more => ?_⟩
      rw [List.cons_append, keyPart?_of_bare hquote hapostrophe, ← List.cons_append,
        takeWhile_newLine rfl, dropWhile_newLine rfl, if_neg hword]

theorem local_keyPartsUpTo (fuel : Nat) : Local (keyPartsUpTo fuel) := by
  induction fuel with
  | zero => exact fun _ _ _ h => nomatch h
  | succ fuel ih =>
    intro cs parts rest h
    rw [keyPartsUpTo] at h
    obtain ⟨⟨part, behind⟩, hpart, h⟩ := Option.bind_eq_some_iff.mp h
    obtain ⟨hsuffix, hmore⟩ := local_keyPart _ _ _ hpart
    have hbehind : skipSpaces behind <:+ cs :=
      (skipSpaces_suffix _).trans (hsuffix.trans (skipSpaces_suffix _))
    simp only at h
    split at h
    · next next hdot =>
      obtain ⟨⟨parts', rest'⟩, hparts, heq⟩ := Option.bind_eq_some_iff.mp h
      obtain ⟨rfl, rfl⟩ := Prod.mk.inj (Option.some.inj heq)
      obtain ⟨hsuffix', hmore'⟩ := ih _ _ _ hparts
      rw [hdot] at hbehind
      refine ⟨hsuffix'.trans ((List.suffix_cons ..).trans hbehind), fun more => ?_⟩
      rw [keyPartsUpTo, skipSpaces_newLine, hmore]
      simp [skipSpaces_newLine, hdot, hmore']
    · next hdot =>
      obtain ⟨rfl, rfl⟩ := Prod.mk.inj (Option.some.inj h)
      refine ⟨hbehind, fun more => ?_⟩
      rw [keyPartsUpTo, skipSpaces_newLine, hmore]
      simp only [Option.bind_eq_bind, Option.bind_some, skipSpaces_newLine]
      split
      · next heq => exact (ne_cons_newLine hdot (by decide) more _ heq).elim
      · rfl

/-- **A key, dotted or not, does not look behind a line end.** -/
theorem local_key : Local key? := by
  have h := (local_keyPartsUpTo maxKeyParts).bind fun parts =>
    Follows.decided parts.getLast? fun last => .done (parts.dropLast, last)
  exact h

end LoxTools.Toml
