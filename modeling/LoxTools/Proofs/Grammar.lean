import Mathlib.Data.List.TakeWhile
import LoxTools.Lexer.Rules
import LoxTools.Proofs.CursorMotion

/-!
# The lexical grammar

What a source may look like, said without the rules that read it:

* `Lexeme.WellFormed` — what a kind may be spelled like;
* `Lexeme.Fits` — a lexeme together with what may stand behind it, so that no longer or
  other lexeme could have been read in its place;
* `Gap` — blanks and comments, each comment up to the end of its line;
* `Stuck` — what can be at fault where neither a gap goes on nor a lexeme fits.

The grammar is complete (`beginsLexeme_or_stuck`): where no gap goes on, a lexeme fits or the text
is at fault.
-/

namespace LoxTools

/-! ## Lexemes -/

theorem isAlphaNumeric_of_isAlpha {c : Char} (h : isAlpha c = true) : isAlphaNumeric c = true := by
  rw [isAlphaNumeric, h, Bool.true_or]

theorem isAlphaNumeric_of_isDigit {c : Char} (h : isDigit c = true) : isAlphaNumeric c = true := by
  rw [isAlphaNumeric, h, Bool.or_true]

/-- One digit or more. -/
def IsDigits (text : List Char) : Prop :=
  text ≠ [] ∧ ∀ c ∈ text, isDigit c = true

/-- Digits, or digits on both sides of a dot. A dot alone, before or behind the digits, is no part of a
number. -/
def IsNumeral (text : List Char) : Prop :=
  IsDigits text ∨ ∃ whole part, IsDigits whole ∧ IsDigits part ∧ text = whole ++ '.' :: part

/-- A letter or underscore, then alphanumeric characters. Reserved words are names in this sense, too.
-/
def IsName (text : List Char) : Prop :=
  ∃ c more, text = c :: more ∧ isAlpha c = true ∧ ∀ d ∈ more, isAlphaNumeric d = true

theorem IsDigits.head_isDigit {text : List Char} (h : IsDigits text) :
    ∃ c more, text = c :: more ∧ isDigit c = true := by
  obtain ⟨c, more, rfl⟩ := List.exists_cons_of_ne_nil h.1
  exact ⟨c, more, rfl, h.2 c (List.mem_cons_self ..)⟩

theorem IsNumeral.head_isDigit {text : List Char} (h : IsNumeral text) :
    ∃ c more, text = c :: more ∧ isDigit c = true := by
  rcases h with hdigits | ⟨whole, part, hwhole, -, rfl⟩
  · exact hdigits.head_isDigit
  · obtain ⟨c, more, rfl, hc⟩ := hwhole.head_isDigit
    exact ⟨c, _, rfl, hc⟩

theorem IsName.isAlphaNumeric {text : List Char} (h : IsName text) :
    ∀ c ∈ text, isAlphaNumeric c = true := by
  obtain ⟨c, more, rfl, hc, hmore⟩ := h
  intro d hd
  rcases List.mem_cons.mp hd with rfl | hd
  · exact isAlphaNumeric_of_isAlpha hc
  · exact hmore d hd

/-- What a token says apart from its place. The grammar is about lexemes; a token is a lexeme at a
place. -/
structure Lexeme where
  /-- what the token is -/
  kind : TokenKind
  /-- its text, where the kind carries one -/
  text : Option String
  deriving DecidableEq, Repr

namespace Lexeme

/-- The characters that a lexeme is written with. -/
def spelling (lexeme : Lexeme) : List Char :=
  match lexeme.text with
  | none => (lexeme.kind.spelling?.getD "").toList
  | some text =>
    if lexeme.kind = .string then '"' :: (text.toList ++ ['"']) else text.toList

/-- The token for a lexeme at a place. It is as long as the lexeme is written, so its length need not be
given. -/
def token (lexeme : Lexeme) (start : Nat) : Token :=
  ⟨lexeme.kind, lexeme.text, start, lexeme.spelling.length⟩

@[simp] theorem start_token (lexeme : Lexeme) (start : Nat) :
    (lexeme.token start).start = start := rfl

@[simp] theorem stop_token (lexeme : Lexeme) (start : Nat) :
    (lexeme.token start).stop = start + lexeme.spelling.length := rfl

/-- **What each kind may be spelled like**, whatever stands around it. No lexeme is an end marker: that
kind has neither a spelling nor a text. -/
inductive WellFormed : Lexeme → Prop
  /-- punctuation, operators and reserved words have one spelling -/
  | fixed {kind : TokenKind} {spelling : String} :
    kind.spelling? = some spelling → WellFormed ⟨kind, none⟩
  | number {text : String} : IsNumeral text.toList → WellFormed ⟨.number, some text⟩
  | string {text : String} : '"' ∉ text.toList → WellFormed ⟨.string, some text⟩
  | name {text : String} : IsName text.toList → WellFormed ⟨.identifier, some text⟩

/-- **A lexeme that ends where it must**, with the text behind it. Each field but the first forbids one
way in which a longer lexeme, a comment or a lexeme of another kind could have been read at the same
place; together they make the lexeme the only one that can be read there. -/
structure Fits (strict : Bool) (lexeme : Lexeme) (after : List Char) : Prop where
  wellFormed : lexeme.WellFormed
  /-- a name takes all alphanumeric characters -/
  name_ends : lexeme.kind = .identifier → StopsBefore isAlphaNumeric after
  /-- a number takes all digits -/
  number_ends : lexeme.kind = .number → StopsBefore isDigit after
  /-- a number without a dot takes a dot that a digit follows -/
  no_fraction : lexeme.kind = .number → '.' ∉ lexeme.spelling →
    ∀ d more, after = '.' :: d :: more → isDigit d = false
  /-- an operator takes an equals sign if it can -/
  no_equals : lexeme.kind ∈ [.bang, .equal, .less, .greater] → StopsBefore (· == '=') after
  /-- two slashes are a comment -/
  no_slash : lexeme.kind = .slash → StopsBefore (· == '/') after
  /-- a strict reserved word is a whole word -/
  word_ends : strict = true → lexeme.kind.isKeyword = true → StopsBefore isAlphaNumeric after
  /-- reserved words go before names -/
  name_free : lexeme.kind = .identifier → ∀ entry ∈ keywords,
    if strict then lexeme.spelling ≠ entry.1.toList else ¬ entry.1.toList <+: lexeme.spelling

end Lexeme

/-! ## Gaps -/

/-- A text that is at its end or at the end of a line. A comment goes up to such a place and no further.
-/
def EndsLine (text : List Char) : Prop :=
  StopsBefore (· != '\n') text

@[simp] theorem endsLine_cons {c : Char} {more : List Char} :
    EndsLine (c :: more) ↔ c = '\n' := by
  simp [EndsLine, stopsBefore_cons]

theorem EndsLine.head_blank {c : Char} {more : List Char} (h : EndsLine (c :: more)) :
    ¬ isBlank c = false := by
  rw [endsLine_cons.mp h]
  decide

/-- **Blanks and comments**, with the text behind them: a comment goes up to a line feed or to the end
of everything. The text behind matters only for a comment that ends the gap, since that one must not
stop in the middle of its line. -/
inductive Gap : List Char → List Char → Prop
  | nil {after : List Char} : Gap [] after
  | blank {c : Char} {gap after : List Char} : isBlank c = true → Gap gap after → Gap (c :: gap) after
  | comment {body gap after : List Char} : '\n' ∉ body → EndsLine (gap ++ after) →
    Gap gap after → Gap ('/' :: '/' :: (body ++ gap)) after

/-! ## Faults -/

/-- The characters of punctuation and operators. -/
def operatorChars : List Char :=
  ['(', ')', '\x7b', '\x7d', ',', '.', '-', '+', ';', '*', '/', '!', '=', '<', '>']

/-- Whether no rule accepts a character: it is no blank, no alphanumeric character, no quote and belongs
to no operator. Everything outside of ASCII is foreign, as long as it stands in no string and no
comment. -/
def isForeign (c : Char) : Bool :=
  !(isBlank c || isAlphaNumeric c || c == '"' || operatorChars.contains c)

/-- **What is at fault** at the beginning of a text: a string that is never closed, or a character that
no rule accepts. -/
inductive Stuck : LexFault → List Char → Prop
  | unclosed {more : List Char} : '"' ∉ more → Stuck .unterminatedString ('"' :: more)
  | foreign {c : Char} {more : List Char} : isForeign c = true →
    Stuck (.unexpectedCharacter c) (c :: more)

/-- A text at fault begins neither with a blank nor with a slash, so it cannot be read as the beginning
of a gap. -/
theorem Stuck.head {fault : LexFault} {text : List Char} (h : Stuck fault text) :
    ∃ c more, text = c :: more ∧ isBlank c = false ∧ c ≠ '/' := by
  cases h with
  | unclosed => exact ⟨_, _, rfl, rfl, by decide⟩
  | @foreign c more hc =>
    refine ⟨c, more, rfl, ?_, ?_⟩
    · simp only [isForeign, Bool.not_eq_true', Bool.or_eq_false_iff] at hc
      exact hc.1.1.1
    · rintro rfl
      cases hc

/-- A comment goes on up to the end of its line, so none is open before a fault. -/
theorem Stuck.not_endsLine {fault : LexFault} {text : List Char} (h : Stuck fault text) :
    ¬ EndsLine text := by
  obtain ⟨c, more, rfl, hblank, -⟩ := h.head
  intro hends
  exact hends.head_blank hblank

/-! ## The character classes keep apart -/

theorem isDigit_eq_false_of_isAlpha {c : Char} (h : isAlpha c = true) : isDigit c = false := by
  refine Bool.eq_false_iff.mpr fun hdigit => ?_
  simp only [isDigit, Bool.and_eq_true, decide_eq_true_eq] at hdigit
  simp only [isAlpha, Bool.or_eq_true, Bool.and_eq_true, decide_eq_true_eq, beq_iff_eq] at h
  -- letters and the underscore come behind the digits
  rcases h with (hlower | hupper) | rfl
  · exact absurd (Char.le_trans hlower.1 hdigit.2) (by decide)
  · exact absurd (Char.le_trans hupper.1 hdigit.2) (by decide)
  · exact absurd hdigit.2 (by decide)

theorem isBlank_eq_false_of_isAlphaNumeric {c : Char} (h : isAlphaNumeric c = true) :
    isBlank c = false := by
  refine Bool.eq_false_iff.mpr fun hblank => ?_
  simp only [isBlank, Bool.or_eq_true, beq_iff_eq] at hblank
  rcases hblank with ((rfl | rfl) | rfl) | rfl <;> cases h

theorem ne_lineFeed_of_not_blank {c : Char} (h : isBlank c = false) : c ≠ '\n' := by
  rintro rfl
  cases h

theorem ne_of_isAlphaNumeric {c d : Char} (h : isAlphaNumeric c = true)
    (hd : isAlphaNumeric d = false) : c ≠ d := by
  rintro rfl
  rw [h] at hd
  cases hd

theorem not_mem_operatorChars_of_isAlphaNumeric {c : Char} (h : isAlphaNumeric c = true) :
    c ∉ operatorChars := by
  intro hc
  have hall : operatorChars.all (fun d => !isAlphaNumeric d) = true := by decide
  have hnot := List.all_eq_true.mp hall c hc
  rw [h] at hnot
  cases hnot

/-- Every reserved word is spelled like a name, so the longest run of alphanumeric characters decides
about both. -/
theorem isName_of_mem_keywords {entry : String × TokenKind} (he : entry ∈ keywords) :
    IsName entry.1.toList := by
  have hall : ∀ e ∈ keywords,
      (e.1.toList.head?.any isAlpha && e.1.toList.all isAlphaNumeric) = true := by
    decide
  have h := hall entry he
  rw [Bool.and_eq_true, List.all_eq_true] at h
  cases hword : entry.1.toList with
  | nil =>
    rw [hword] at h
    cases h.1
  | cons c more =>
    rw [hword] at h
    exact ⟨c, more, rfl, h.1, fun d hd => h.2 d (List.mem_cons_of_mem _ hd)⟩

/-! ## The operator tables -/

theorem mem_operatorChars {c : Char} :
    c ∈ operatorChars ↔ equatable? c ≠ none ∨ punctuation? c ≠ none := by
  constructor
  · intro hc
    have hall : operatorChars.all
        (fun d => (equatable? d).isSome || (punctuation? d).isSome) = true := by decide
    have hsome := List.all_eq_true.mp hall c hc
    rwa [Bool.or_eq_true, Option.isSome_iff_ne_none, Option.isSome_iff_ne_none] at hsome
  · rintro (h | h)
    · unfold equatable? at h
      split at h <;> first | decide | exact absurd rfl h
    · unfold punctuation? at h
      split at h <;> first | decide | exact absurd rfl h

/-- A fixed spelling is one of four: a mark, an operator alone or with an equals sign, or a reserved
word. The four cases are those of the rules, in the order in which the tables are asked. -/
theorem spelling?_cases {kind : TokenKind} {spelling : String}
    (h : kind.spelling? = some spelling) :
    (∃ c, spelling.toList = [c] ∧ equatable? c = none ∧ punctuation? c = some kind) ∨
    (∃ c withEqual, spelling.toList = [c] ∧ equatable? c = some (kind, withEqual)) ∨
    (∃ c alone, spelling.toList = [c, '='] ∧ equatable? c = some (alone, kind)) ∨
    (spelling, kind) ∈ keywords := by
  cases kind <;> cases h
  all_goals first
    | exact Or.inl ⟨_, rfl, rfl, rfl⟩
    | exact Or.inr (Or.inl ⟨_, _, rfl, rfl⟩)
    | exact Or.inr (Or.inr (Or.inl ⟨_, _, rfl, rfl⟩))
    | exact Or.inr (Or.inr (Or.inr (by decide)))

namespace Lexeme

variable {strict : Bool} {after : List Char}

/-! ## Spellings -/

theorem spelling_fixed {kind : TokenKind} {spelling : String}
    (h : kind.spelling? = some spelling) :
    Lexeme.spelling ⟨kind, none⟩ = spelling.toList := by
  rw [Lexeme.spelling, h, Option.getD_some]

@[simp] theorem spelling_number (text : List Char) :
    Lexeme.spelling ⟨.number, some (String.ofList text)⟩ = text :=
  String.toList_ofList

@[simp] theorem spelling_name (text : List Char) :
    Lexeme.spelling ⟨.identifier, some (String.ofList text)⟩ = text :=
  String.toList_ofList

@[simp] theorem spelling_string (text : List Char) :
    Lexeme.spelling ⟨.string, some (String.ofList text)⟩ = '"' :: (text ++ ['"']) := by
  have h : Lexeme.spelling ⟨.string, some (String.ofList text)⟩ =
      '"' :: ((String.ofList text).toList ++ ['"']) := rfl
  rw [h, String.toList_ofList]

/-! ## How lexemes begin -/

/-- A lexeme begins with some character that is no blank, so it cannot be taken for a gap. -/
theorem WellFormed.head_not_blank {lexeme : Lexeme} (h : lexeme.WellFormed) :
    ∃ c more, lexeme.spelling = c :: more ∧ isBlank c = false := by
  cases h with
  | @fixed kind spelling hs => cases kind <;> cases hs <;> exact ⟨_, _, rfl, rfl⟩
  | number htext =>
    obtain ⟨c, more, hc, hdigit⟩ := htext.head_isDigit
    exact ⟨c, more, hc, isBlank_eq_false_of_isAlphaNumeric (isAlphaNumeric_of_isDigit hdigit)⟩
  | string htext => exact ⟨_, _, rfl, rfl⟩
  | name htext =>
    obtain ⟨c, more, hc, halpha, -⟩ := htext
    exact ⟨c, more, hc, isBlank_eq_false_of_isAlphaNumeric (isAlphaNumeric_of_isAlpha halpha)⟩

/-- A lexeme does not begin with a line feed, so no comment goes up to it. -/
theorem WellFormed.not_endsLine {lexeme : Lexeme} (h : lexeme.WellFormed) (after : List Char) :
    ¬ EndsLine (lexeme.spelling ++ after) := by
  obtain ⟨c, more, hc, hblank⟩ := h.head_not_blank
  rw [hc]
  intro hends
  exact hends.head_blank hblank

/-- Only one lexeme begins with a slash, the operator itself. So two slashes always begin a comment. -/
theorem WellFormed.eq_slash {lexeme : Lexeme} {more : List Char} (h : lexeme.WellFormed)
    (hslash : lexeme.spelling = '/' :: more) : lexeme.kind = .slash ∧ more = [] := by
  cases h with
  | @fixed kind spelling hs =>
    cases kind <;> cases hs <;>
      first
      | exact absurd (List.cons.inj hslash).1 (by decide)
      | exact ⟨rfl, (List.cons.inj hslash).2.symm⟩
  | number htext =>
    obtain ⟨c, rest, hc, hdigit⟩ := htext.head_isDigit
    rw [(List.cons.inj (hc.symm.trans hslash)).1] at hdigit
    cases hdigit
  | string htext => exact absurd (List.cons.inj hslash).1 (by decide)
  | name htext =>
    obtain ⟨c, rest, hc, halpha, -⟩ := htext
    rw [(List.cons.inj (hc.symm.trans hslash)).1] at halpha
    cases halpha

theorem WellFormed.spelling_ne_nil {lexeme : Lexeme} (h : lexeme.WellFormed) :
    lexeme.spelling ≠ [] := by
  obtain ⟨c, more, hc, -⟩ := h.head_not_blank
  rw [hc]
  exact List.cons_ne_nil _ _

/-- A string is its text between quotes, and closed by the first quote behind the opening one. -/
theorem WellFormed.exists_quoted {lexeme : Lexeme} (h : lexeme.WellFormed)
    (hkind : lexeme.kind = .string) : ∃ text, lexeme.text = some text ∧
      lexeme.spelling = '"' :: (text.toList ++ ['"']) ∧ '"' ∉ text.toList := by
  cases h with
  | fixed hs =>
    obtain rfl := hkind
    cases hs
  | number => cases hkind
  | string hquote => exact ⟨_, rfl, rfl, hquote⟩
  | name => cases hkind

/-- No lexeme that fits could be read as a comment. -/
theorem Fits.not_slashes {lexeme : Lexeme} (fits : lexeme.Fits strict after) :
    ¬ ['/', '/'] <+: lexeme.spelling ++ after := by
  rintro ⟨tail, htail⟩
  obtain ⟨c, more, hc, -⟩ := fits.wellFormed.head_not_blank
  rw [hc, List.cons_append, List.cons_append] at htail
  obtain ⟨rfl, hmore⟩ := List.cons.inj htail
  obtain ⟨hkind, rfl⟩ := fits.wellFormed.eq_slash hc
  have hafter : after = '/' :: tail := hmore.symm
  have hstop := fits.no_slash hkind
  rw [hafter] at hstop
  exact absurd (stopsBefore_cons.mp hstop) (by decide)

/-! ## Lexemes that fit -/

/-- A fixed spelling fits when what stands behind it keeps the three rules that concern it: operators
with an equals sign, comments, and whole words. The rules on names and numbers say nothing about it. -/
theorem fits_fixed {kind : TokenKind} {spelling : String} (h : kind.spelling? = some spelling)
    (no_equals : kind ∈ [.bang, .equal, .less, .greater] → StopsBefore (· == '=') after)
    (no_slash : kind = .slash → StopsBefore (· == '/') after)
    (word_ends : strict = true → kind.isKeyword = true → StopsBefore isAlphaNumeric after) :
    Fits strict ⟨kind, none⟩ after where
  wellFormed := .fixed h
  name_ends := by rintro rfl; cases h
  number_ends := by rintro rfl; cases h
  no_fraction := by rintro rfl; cases h
  no_equals := no_equals
  no_slash := no_slash
  word_ends := word_ends
  name_free := by rintro rfl; cases h

/-- An operator fits alone where no equals sign follows. -/
theorem fits_alone (strict : Bool) {c : Char} {alone withEqual : TokenKind}
    (hc : equatable? c = some (alone, withEqual)) (hafter : StopsBefore (· == '=') after) :
    Lexeme.spelling ⟨alone, none⟩ = [c] ∧ Fits strict ⟨alone, none⟩ after := by
  unfold equatable? at hc
  split at hc <;> cases hc
  all_goals
    refine ⟨rfl, fits_fixed rfl (fun _ => hafter) nofun fun _ h => absurd h (by decide)⟩

/-- An operator with its equals sign fits whatever follows. -/
theorem fits_withEqual (strict : Bool) (after : List Char) {c : Char}
    {alone withEqual : TokenKind} (hc : equatable? c = some (alone, withEqual)) :
    Lexeme.spelling ⟨withEqual, none⟩ = [c, '='] ∧ Fits strict ⟨withEqual, none⟩ after := by
  unfold equatable? at hc
  split at hc <;> cases hc
  all_goals
    refine ⟨rfl, fits_fixed rfl (fun h => absurd h (by decide)) nofun
      fun _ h => absurd h (by decide)⟩

/-- Any other mark fits alone, a slash if no other slash follows. -/
theorem fits_punctuation (strict : Bool) {c : Char} {kind : TokenKind}
    (hc : punctuation? c = some kind) (hafter : c = '/' → StopsBefore (· == '/') after) :
    Lexeme.spelling ⟨kind, none⟩ = [c] ∧ Fits strict ⟨kind, none⟩ after := by
  unfold punctuation? at hc
  split at hc <;> cases hc
  all_goals
    refine ⟨rfl, fits_fixed rfl (fun h => absurd h (by decide)) (fun h => ?_)
      fun _ h => absurd h (by decide)⟩
    first | exact hafter rfl | cases h

/-- A reserved word fits whatever follows, or, if it has to be a whole word, before a character that
ends it. -/
theorem fits_keyword {entry : String × TokenKind} (he : entry ∈ keywords)
    (hafter : strict = true → StopsBefore isAlphaNumeric after) :
    Lexeme.spelling ⟨entry.2, none⟩ = entry.1.toList ∧ Fits strict ⟨entry.2, none⟩ after := by
  have hkind : ∀ e ∈ keywords, e.2 ∉ [.bang, .equal, .less, .greater] ∧ e.2 ≠ .slash := by
    decide
  have hs := spelling_of_keyword entry he
  refine ⟨spelling_fixed hs, fits_fixed hs (fun h => absurd h (hkind entry he).1)
    (fun h => absurd h (hkind entry he).2) fun h _ => hafter h⟩

/-- The rules on operators and reserved words do not concern kinds with a text. -/
theorem plain_of_hasText {kind : TokenKind} (h : kind.hasText = true) :
    kind ∉ [.bang, .equal, .less, .greater] ∧ kind ≠ .slash ∧ ¬ kind.isKeyword = true := by
  revert h
  cases kind <;> decide

/-- A number fits where it takes all the digits, and the dot with them if one belongs to it. -/
theorem fits_number {text : List Char} (h : IsNumeral text) (hdigit : StopsBefore isDigit after)
    (hfraction : '.' ∉ text → ∀ d more, after = '.' :: d :: more → isDigit d = false) :
    Fits strict ⟨.number, some (String.ofList text)⟩ after where
  wellFormed := .number (by rwa [String.toList_ofList])
  name_ends := nofun
  number_ends _ := hdigit
  no_fraction _ := by rwa [spelling_number]
  no_equals h := absurd h (plain_of_hasText rfl).1
  no_slash h := absurd h (plain_of_hasText rfl).2.1
  word_ends _ h := absurd h (plain_of_hasText rfl).2.2
  name_free := nofun

/-- A string fits whatever follows its closing quote. -/
theorem fits_string {text : List Char} (h : '"' ∉ text) :
    Fits strict ⟨.string, some (String.ofList text)⟩ after where
  wellFormed := .string (by rwa [String.toList_ofList])
  name_ends := nofun
  number_ends := nofun
  no_fraction := nofun
  no_equals h := absurd h (plain_of_hasText rfl).1
  no_slash h := absurd h (plain_of_hasText rfl).2.1
  word_ends _ h := absurd h (plain_of_hasText rfl).2.2
  name_free := nofun

/-- A name fits where it takes all alphanumeric characters and no reserved word goes before it. -/
theorem fits_name {text : List Char} (h : IsName text) (hafter : StopsBefore isAlphaNumeric after)
    (hfree : ∀ entry ∈ keywords,
      if strict then text ≠ entry.1.toList else ¬ entry.1.toList <+: text) :
    Fits strict ⟨.identifier, some (String.ofList text)⟩ after where
  wellFormed := .name (by rwa [String.toList_ofList])
  name_ends _ := hafter
  number_ends := nofun
  no_fraction := nofun
  no_equals h := absurd h (plain_of_hasText rfl).1
  no_slash h := absurd h (plain_of_hasText rfl).2.1
  word_ends _ h := absurd h (plain_of_hasText rfl).2.2
  name_free _ := by rwa [spelling_name]

end Lexeme

/-! ## Completeness

Every text is a gap, then a lexeme that fits or a fault, unless it ends with the gap. Which of
them it is follows from the first character behind the gap. -/

/-- A lexeme that fits is at the beginning of a text. -/
def BeginsLexeme (strict : Bool) (text : List Char) : Prop :=
  ∃ (lexeme : Lexeme) (after : List Char),
    text = lexeme.spelling ++ after ∧ lexeme.Fits strict after

/-- Every text goes on up to the end of its line. -/
theorem exists_line (text : List Char) :
    ∃ body after, text = body ++ after ∧ '\n' ∉ body ∧ EndsLine after := by
  refine ⟨text.takeWhile (· != '\n'), text.dropWhile (· != '\n'),
    List.takeWhile_append_dropWhile.symm, fun hmem => ?_, stopsBefore_dropWhile _ _⟩
  simpa using List.mem_takeWhile_imp hmem

/-- Reading a gap as far as it goes: what is left begins neither with a blank nor with a comment. By
induction on the length of the text, as a comment takes a whole line at once. -/
theorem exists_gap (text : List Char) : ∃ gap rest, text = gap ++ rest ∧ Gap gap rest ∧
    StopsBefore isBlank rest ∧ ¬ ['/', '/'] <+: rest := by
  induction hn : text.length using Nat.strongRecOn generalizing text with
  | ind n ih =>
    subst hn
    by_cases hblank : StopsBefore isBlank text
    · by_cases hslashes : ['/', '/'] <+: text
      · -- a comment, whose body goes up to the next line feed
        obtain ⟨more, rfl⟩ := hslashes
        obtain ⟨body, after, rfl, hbody, hends⟩ := exists_line more
        have hshort : after.length < (['/', '/'] ++ (body ++ after)).length := by
          simp only [List.length_append, List.length_cons]
          omega
        obtain ⟨gap, rest, rfl, hgap, hrest⟩ := ih _ hshort _ rfl
        refine ⟨'/' :: '/' :: (body ++ gap), rest, ?_, .comment hbody hends hgap, hrest⟩
        simp only [List.cons_append, List.append_assoc, List.nil_append]
      · exact ⟨[], text, rfl, .nil, hblank, hslashes⟩
    · obtain ⟨c, more, rfl, hc⟩ : ∃ c more, text = c :: more ∧ isBlank c = true := by
        cases text with
        | nil => exact absurd (stopsBefore_nil _) hblank
        | cons c more => exact ⟨c, more, rfl, by simpa [stopsBefore_cons] using hblank⟩
      obtain ⟨gap, rest, rfl, hgap, hrest⟩ := ih more.length (by simp) more rfl
      exact ⟨c :: gap, rest, rfl, .blank hc hgap, hrest⟩

theorem isDigits_takeWhile {c : Char} (more : List Char) (hc : isDigit c = true) :
    IsDigits ((c :: more).takeWhile isDigit) := by
  refine ⟨?_, fun d hd => List.mem_takeWhile_imp hd⟩
  rw [List.takeWhile_cons_of_pos hc]
  exact List.cons_ne_nil _ _

/-- Where a digit stands a number fits, with its dot if a digit follows the dot. -/
theorem beginsLexeme_digit (strict : Bool) {c : Char} {more : List Char} (hc : isDigit c = true) :
    BeginsLexeme strict (c :: more) := by
  have hwhole := isDigits_takeWhile more hc
  have hstop := stopsBefore_dropWhile isDigit (c :: more)
  have hsplit := List.takeWhile_append_dropWhile (p := isDigit) (l := c :: more)
  generalize (c :: more).takeWhile isDigit = whole at *
  generalize (c :: more).dropWhile isDigit = after at *
  by_cases hdot : ∃ d rest, after = '.' :: d :: rest ∧ isDigit d = true
  · obtain ⟨d, rest, rfl, hd⟩ := hdot
    refine ⟨⟨.number, some (String.ofList (whole ++ '.' :: (d :: rest).takeWhile isDigit))⟩,
      (d :: rest).dropWhile isDigit, ?_, Lexeme.fits_number
        (Or.inr ⟨whole, _, hwhole, isDigits_takeWhile rest hd, rfl⟩) (stopsBefore_dropWhile _ _)
        fun h => absurd (List.mem_append_right whole (List.mem_cons_self ..)) h⟩
    rw [Lexeme.spelling_number, List.append_assoc, List.cons_append,
      List.takeWhile_append_dropWhile, hsplit]
  · refine ⟨⟨.number, some (String.ofList whole)⟩, after, ?_,
      Lexeme.fits_number (Or.inl hwhole) hstop fun _ d rest hafter => ?_⟩
    · rw [Lexeme.spelling_number, hsplit]
    · exact Bool.eq_false_iff.mpr fun hd => hdot ⟨d, rest, hafter, hd⟩

/-- A reserved word is at the beginning of a text, as a whole word if it has to be. In the plain setting
the characters behind it do not matter. -/
def SpellsWord (strict : Bool) (word text : List Char) : Prop :=
  ∃ after, text = word ++ after ∧ (strict = true → StopsBefore isAlphaNumeric after)

/-- Where a letter stands a name fits, unless a reserved word is spelled there. The name is the longest
run of alphanumeric characters. -/
theorem beginsLexeme_alpha {strict : Bool} {c : Char} {more : List Char} (hc : isAlpha c = true)
    (hword : ∀ entry ∈ keywords, ¬ SpellsWord strict entry.1.toList (c :: more)) :
    BeginsLexeme strict (c :: more) := by
  have hstop := stopsBefore_dropWhile isAlphaNumeric more
  have hsplit := List.takeWhile_append_dropWhile (p := isAlphaNumeric) (l := more)
  have hname : IsName (c :: more.takeWhile isAlphaNumeric) :=
    ⟨c, _, rfl, hc, fun d hd => List.mem_takeWhile_imp hd⟩
  refine ⟨⟨.identifier, some (String.ofList (c :: more.takeWhile isAlphaNumeric))⟩,
    more.dropWhile isAlphaNumeric, ?_, Lexeme.fits_name hname hstop fun entry he => ?_⟩
  · rw [Lexeme.spelling_name, List.cons_append, hsplit]
  · have hfree := hword entry he
    cases strict with
    | true =>
      rw [if_pos rfl]
      intro heq
      exact hfree ⟨_, by rw [← heq, List.cons_append, hsplit], fun _ => hstop⟩
    | false =>
      rw [if_neg Bool.false_ne_true]
      rintro ⟨tail, htail⟩
      exact hfree ⟨tail ++ more.dropWhile isAlphaNumeric,
        by rw [← List.append_assoc, htail, List.cons_append, hsplit], nofun⟩

/-- An operator takes the equals sign behind it if there is one, and else it fits alone. -/
theorem beginsLexeme_equatable (strict : Bool) {c : Char} (more : List Char)
    {alone withEqual : TokenKind} (hc : equatable? c = some (alone, withEqual)) :
    BeginsLexeme strict (c :: more) := by
  by_cases hequals : StopsBefore (· == '=') more
  · obtain ⟨hspelling, hfits⟩ := Lexeme.fits_alone strict hc hequals
    exact ⟨_, more, by rw [hspelling]; rfl, hfits⟩
  · obtain ⟨rest, rfl⟩ : ∃ rest, more = '=' :: rest := by
      cases more with
      | nil => exact absurd (stopsBefore_nil _) hequals
      | cons d rest => exact ⟨rest, by simpa [stopsBefore_cons] using hequals⟩
    obtain ⟨hspelling, hfits⟩ := Lexeme.fits_withEqual strict rest hc
    exact ⟨_, rest, by rw [hspelling]; rfl, hfits⟩

/-- A mark that no equals sign belongs to fits alone, unless it begins a comment. -/
theorem beginsLexeme_punctuation (strict : Bool) {c : Char} {more : List Char} {kind : TokenKind}
    (hc : punctuation? c = some kind) (hslashes : ¬ ['/', '/'] <+: c :: more) :
    BeginsLexeme strict (c :: more) := by
  -- a second slash would make it a comment
  have hafter : c = '/' → StopsBefore (· == '/') more := by
    rintro rfl d hd
    refine Bool.eq_false_iff.mpr fun hslash => hslashes ?_
    obtain ⟨rest, rfl⟩ := List.head?_eq_some_iff.mp hd
    rw [eq_of_beq hslash]
    exact ⟨rest, rfl⟩
  obtain ⟨hspelling, hfits⟩ := Lexeme.fits_punctuation strict hc hafter
  exact ⟨_, more, by rw [hspelling]; rfl, hfits⟩

/-- A string is closed by the next quote; if there is none, it is at fault. -/
theorem beginsLexeme_or_unclosed (strict : Bool) (more : List Char) :
    BeginsLexeme strict ('"' :: more) ∨ Stuck .unterminatedString ('"' :: more) := by
  by_cases hclosed : '"' ∈ more
  · obtain ⟨text, after, rfl, htext⟩ := List.eq_append_cons_of_mem hclosed
    refine Or.inl ⟨_, after, ?_, Lexeme.fits_string htext⟩
    rw [Lexeme.spelling_string, List.cons_append, List.append_assoc]
    rfl
  · exact Or.inr (.unclosed hclosed)

/-- Any other character begins a number or a word, or is foreign. -/
theorem beginsLexeme_or_foreign (strict : Bool) {c : Char} (more : List Char)
    (hblank : isBlank c = false) (hquote : c ≠ '"') (hchars : c ∉ operatorChars) :
    BeginsLexeme strict (c :: more) ∨ Stuck (.unexpectedCharacter c) (c :: more) := by
  by_cases hdigit : isDigit c = true
  · exact Or.inl (beginsLexeme_digit strict hdigit)
  by_cases hword : ∃ entry ∈ keywords, SpellsWord strict entry.1.toList (c :: more)
  · obtain ⟨entry, he, after, htext, hafter⟩ := hword
    obtain ⟨hspelling, hfits⟩ := Lexeme.fits_keyword he hafter
    exact Or.inl ⟨_, after, by rw [hspelling, htext], hfits⟩
  by_cases halpha : isAlpha c = true
  · exact Or.inl (beginsLexeme_alpha halpha fun entry he h => hword ⟨entry, he, h⟩)
  · refine Or.inr (.foreign ?_)
    simp [isForeign, isAlphaNumeric, hblank, halpha, hdigit, hquote, hchars]

/-- **Completeness**: where no gap goes on, a lexeme fits or the text is at fault. The first character
decides which of the lemmas before this one applies, in the order in which the rules look at it. -/
theorem beginsLexeme_or_stuck (strict : Bool) {text : List Char} (hne : text ≠ [])
    (hblank : StopsBefore isBlank text) (hslashes : ¬ ['/', '/'] <+: text) :
    BeginsLexeme strict text ∨ ∃ fault, Stuck fault text := by
  obtain ⟨c, more, rfl⟩ := List.exists_cons_of_ne_nil hne
  rw [stopsBefore_cons] at hblank
  rcases hop : equatable? c with _ | ⟨alone, withEqual⟩
  · rcases hmark : punctuation? c with _ | kind
    · have hchars : c ∉ operatorChars := by simp [mem_operatorChars, hop, hmark]
      by_cases hquote : c = '"'
      · subst hquote
        exact (beginsLexeme_or_unclosed strict more).imp_right fun h => ⟨_, h⟩
      · exact (beginsLexeme_or_foreign strict more hblank hquote hchars).imp_right fun h => ⟨_, h⟩
    · exact Or.inl (beginsLexeme_punctuation strict hmark hslashes)
  · exact Or.inl (beginsLexeme_equatable strict more hop)

end LoxTools
