import LoxTools.Proofs.Reading

/-!
# What stands behind a lexeme

Whether a lexeme ends where it must depends on the two characters behind it at most, and many
characters end every lexeme. So the text behind may be exchanged for another one:

* `Inert` — a text that goes on with a character which no lexeme could take;
* `Lexeme.Valid` — what a lexeme has to be by itself, so that it fits before every such text;
* `Lexeme.Fits.replace`, `Gap.replace` and `Piece.Fit.replace` — what fits before some text still fits
  when an inert text takes the place of its end;
* `DivergesInert` — a text that is another one up to where it is inert, so that what fits before the
  other one fits before it (`Lexeme.Fits.diverge`);
* `Lexeme.Fits.of_take_two` — what fits before some text fits before every text that begins with the
  same two characters.
-/

namespace LoxTools

/-- Whether some lexeme could go on with a character, which then does not end it. -/
def isContinuing (c : Char) : Bool :=
  isAlphaNumeric c || c == '=' || c == '/' || c == '.'

/-- **A text that ends every lexeme**: it is at its end, or goes on with a character that no lexeme
could take. -/
def Inert (text : List Char) : Prop :=
  StopsBefore isContinuing text

/-- No lexeme goes on with a blank. -/
theorem isContinuing_eq_false_of_isBlank {c : Char} (h : isBlank c = true) :
    isContinuing c = false := by
  simp only [isBlank, Bool.or_eq_true, beq_iff_eq] at h
  rcases h with ((rfl | rfl) | rfl) | rfl <;> rfl

theorem inert_nil : Inert [] :=
  stopsBefore_nil _

theorem inert_cons_of_isBlank {c : Char} {more : List Char} (h : isBlank c = true) :
    Inert (c :: more) :=
  stopsBefore_cons.mpr (isContinuing_eq_false_of_isBlank h)

/-- A text that stops before a class stops before every smaller one. -/
theorem StopsBefore.mono {p q : Char → Bool} {text : List Char} (h : StopsBefore q text)
    (hpq : ∀ c, p c = true → q c = true) : StopsBefore p text := by
  intro c hc
  refine Bool.eq_false_iff.mpr fun hp => ?_
  have hq := hpq c hp
  rw [h c hc] at hq
  cases hq

namespace Lexeme

variable {strict : Bool} {text after other : List Char}

/-- **A lexeme that can stand by itself**: it is spelled as its kind wants it, and no name is a
reserved word or, without strict keywords, begins with one. -/
structure Valid (strict : Bool) (lexeme : Lexeme) : Prop where
  /-- it is spelled as its kind wants it -/
  wellFormed : lexeme.WellFormed
  /-- reserved words go before names -/
  name_free : lexeme.kind = .identifier → ∀ entry ∈ keywords,
    if strict then lexeme.spelling ≠ entry.1.toList else ¬ entry.1.toList <+: lexeme.spelling

/-- A lexeme that fits before some text is valid by itself. -/
theorem Fits.valid {lexeme : Lexeme} (fits : lexeme.Fits strict after) : lexeme.Valid strict :=
  ⟨fits.wellFormed, fits.name_free⟩

/-- **A valid lexeme fits before every inert text.** -/
theorem Valid.fits {lexeme : Lexeme} (h : lexeme.Valid strict) (hafter : Inert after) :
    lexeme.Fits strict after where
  wellFormed := h.wellFormed
  name_ends _ := hafter.mono fun c hc => by simp [isContinuing, hc]
  number_ends _ := hafter.mono fun c hc => by
    simp [isContinuing, isAlphaNumeric_of_isDigit hc]
  no_fraction := by
    rintro - - d more rfl
    exact absurd (stopsBefore_cons.mp hafter) (by decide)
  no_equals _ := hafter.mono fun c hc => by simp [isContinuing, eq_of_beq hc]
  no_slash _ := hafter.mono fun c hc => by simp [isContinuing, eq_of_beq hc]
  word_ends _ _ := hafter.mono fun c hc => by simp [isContinuing, hc]
  name_free := h.name_free

/-- **The end of the text behind a lexeme may be exchanged** for an inert one. -/
theorem Fits.replace {lexeme : Lexeme} (fits : lexeme.Fits strict (text ++ after))
    (hother : Inert other) : lexeme.Fits strict (text ++ other) := by
  cases text with
  | nil => exact fits.valid.fits hother
  | cons c text =>
    -- only a number looks further than at the first character
    have hhead : ∀ p : Char → Bool,
        StopsBefore p (c :: text ++ after) → StopsBefore p (c :: text ++ other) :=
      fun p h => stopsBefore_cons.mpr (stopsBefore_cons.mp h)
    refine { fits with
      name_ends := fun hkind => hhead _ (fits.name_ends hkind)
      number_ends := fun hkind => hhead _ (fits.number_ends hkind)
      no_fraction := fun hkind hdot d more hd => ?_
      no_equals := fun hkind => hhead _ (fits.no_equals hkind)
      no_slash := fun hkind => hhead _ (fits.no_slash hkind)
      word_ends := fun hstrict hkind => hhead _ (fits.word_ends hstrict hkind) }
    obtain ⟨rfl, hmore⟩ := List.cons.inj hd
    cases text with
    | nil =>
      obtain rfl : other = d :: more := hmore
      refine Bool.eq_false_iff.mpr fun hdigit => ?_
      have hinert := stopsBefore_cons.mp hother
      rw [isContinuing, isAlphaNumeric_of_isDigit hdigit] at hinert
      cases hinert
    | cons e text =>
      obtain ⟨rfl, -⟩ := List.cons.inj hmore
      exact fits.no_fraction hkind hdot e (text ++ after) rfl

end Lexeme

/-! ## Texts that go different ways -/

/-- **A text that is another one up to a place where it ends every lexeme.** The other one may go on
there in any way. -/
def DivergesInert (text other : List Char) : Prop :=
  ∃ common old new, text = common ++ old ∧ other = common ++ new ∧ Inert new

namespace DivergesInert

variable {text other : List Char}

theorem refl (text : List Char) : DivergesInert text text :=
  ⟨text, [], [], by simp, by simp, inert_nil⟩

theorem of_inert (text : List Char) (h : Inert other) : DivergesInert text other :=
  ⟨[], text, other, rfl, rfl, h⟩

theorem append (front : List Char) (h : DivergesInert text other) :
    DivergesInert (front ++ text) (front ++ other) := by
  obtain ⟨common, old, new, rfl, rfl, hnew⟩ := h
  exact ⟨front ++ common, old, new, by simp, by simp, hnew⟩

theorem cons (c : Char) (h : DivergesInert text other) :
    DivergesInert (c :: text) (c :: other) :=
  h.append [c]

end DivergesInert

/-- **A lexeme does not see where texts go different ways**: if it fits before the one and the other one
ends every lexeme there, it fits before the other one. -/
theorem Lexeme.Fits.diverge {strict : Bool} {lexeme : Lexeme} {text other : List Char}
    (fits : lexeme.Fits strict text) (h : DivergesInert text other) :
    lexeme.Fits strict other := by
  obtain ⟨common, old, new, rfl, rfl, hnew⟩ := h
  exact fits.replace hnew

/-- Whether a text stops before a class is told by its first two characters, and even by the first one.
-/
theorem StopsBefore.of_take_two {p : Char → Bool} {text other : List Char}
    (h : StopsBefore p text) (hsame : text.take 2 = other.take 2) : StopsBefore p other := by
  have hhead : text.head? = other.head? := by
    simpa [List.head?_take] using congrArg List.head? hsame
  rw [StopsBefore, hhead] at h
  exact h

/-- **A lexeme looks at two characters**, so it fits before every text that begins with the same two. -/
theorem Lexeme.Fits.of_take_two {strict : Bool} {lexeme : Lexeme} {text other : List Char}
    (fits : lexeme.Fits strict text) (h : text.take 2 = other.take 2) :
    lexeme.Fits strict other where
  wellFormed := fits.wellFormed
  name_ends hkind := (fits.name_ends hkind).of_take_two h
  number_ends hkind := (fits.number_ends hkind).of_take_two h
  no_fraction := by
    rintro hkind hdot d more rfl
    -- a dot and a digit are the first two characters, so they stand before the other text too
    obtain ⟨back, rfl⟩ : ∃ back, text = '.' :: d :: back :=
      ⟨text.drop 2, by rw [← List.take_append_drop 2 text, h]; simp⟩
    exact fits.no_fraction hkind hdot d back rfl
  no_equals hkind := (fits.no_equals hkind).of_take_two h
  no_slash hkind := (fits.no_slash hkind).of_take_two h
  word_ends hstrict hkind := (fits.word_ends hstrict hkind).of_take_two h
  name_free := fits.name_free

/-! ## Gaps and pieces -/

/-- The end of the text behind a gap may be exchanged, as long as a comment that is open there still
ends. -/
theorem Gap.replace {gap text after other : List Char} (h : Gap gap (text ++ after))
    (hline : EndsLine after → EndsLine other) : Gap gap (text ++ other) := by
  generalize hbehind : text ++ after = behind at h
  induction h with
  | nil => exact .nil
  | blank hc hgap ih => exact .blank hc (ih hbehind)
  | @comment body gap behind hbody hends hgap ih =>
    subst hbehind
    refine .comment hbody ?_ (ih rfl)
    rw [← List.append_assoc] at hends ⊢
    cases hfront : gap ++ text with
    | nil =>
      rw [hfront] at hends
      exact hline hends
    | cons c front =>
      rw [hfront, List.cons_append, endsLine_cons] at hends
      exact endsLine_cons.mpr hends

/-- A gap and another one behind it make up one gap. -/
theorem Gap.append {gap more after : List Char} (h : Gap gap (more ++ after))
    (hmore : Gap more after) : Gap (gap ++ more) after := by
  generalize hbehind : more ++ after = behind at h
  induction h with
  | nil => exact hmore
  | blank hc hgap ih => exact .blank hc (ih hbehind)
  | @comment body gap behind hbody hends hgap ih =>
    subst hbehind
    have hcomment : '/' :: '/' :: (body ++ gap) ++ more = '/' :: '/' :: (body ++ (gap ++ more)) := by
      simp only [List.cons_append, List.append_assoc]
    rw [hcomment]
    refine .comment hbody ?_ (ih rfl)
    rwa [List.append_assoc]

/-- **The end of the text behind some pieces may be exchanged** for an inert one. -/
theorem Piece.Fit.replace {strict : Bool} {pieces : List Piece} {text after other : List Char}
    (fit : Piece.Fit strict pieces (text ++ after)) (hother : Inert other)
    (hline : EndsLine after → EndsLine other) : Piece.Fit strict pieces (text ++ other) := by
  induction pieces with
  | nil => trivial
  | cons piece pieces ih =>
    obtain ⟨hgap, fits, fit⟩ := fit
    rw [← List.append_assoc] at fits
    rw [← List.append_assoc, ← List.append_assoc] at hgap
    refine ⟨?_, ?_, ih fit⟩
    · rw [← List.append_assoc, ← List.append_assoc]
      exact hgap.replace hline
    · rw [← List.append_assoc]
      exact fits.replace hother

end LoxTools
