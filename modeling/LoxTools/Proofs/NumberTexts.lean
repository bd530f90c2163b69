import LoxTools.Proofs.CursorMotion
import LoxTools.Proofs.ShortestDecimals

/-!
# The texts of numbers

The text of a number is a word of its own. It is read back in three steps: a sign, or none, an
infinity or a decimal, and the number that the decimal stands for.

* `IsWord` and `TellsApart` — a rendering that gives each number a word of its own, which is no
  constant of the language;
* `Denotes` — what a text without a sign stands for, one number at most (`Denotes.unique`), and
  `Decimal.denotes_positional`: a decimal is written as the number that it is;
* `Binary64.tellsApart_render` — shortest decimals tell numbers apart.
-/

namespace LoxTools

/-! ## Words -/

/-- Whether a character is one that a word cannot contain: a space or a parenthesis. -/
def isMark (c : Char) : Bool :=
  c == ' ' || c == '(' || c == ')'

/-- **A word**: not empty, and without spaces and parentheses. -/
def IsWord (text : List Char) : Prop :=
  text ≠ [] ∧ ∀ c ∈ text, isMark c = false

instance (text : List Char) : Decidable (IsWord text) :=
  decidable_of_iff (text ≠ [] ∧ text.all (!isMark ·) = true) (by simp [IsWord])

/-- The words of the two truth values and of the absent value. -/
def constantWords : List String := ["true", "false", "nil"]

/-- **A rendering that tells numbers apart**: each number has a word of its own, which is no constant. -/
structure TellsApart (number : Binary64 → String) : Prop where
  /-- the text of a number is a word -/
  word : ∀ x, x.isNaN = false → IsWord (number x).toList
  /-- the text of a number is not the word of a constant -/
  constant : ∀ x, x.isNaN = false → number x ∉ constantWords
  /-- no two numbers have the same text; the two zeros are two numbers here -/
  injective : ∀ x y, x.isNaN = false → y.isNaN = false → number x = number y → x = y

/-! ## Decimals and their texts -/

/-- **What a text without a sign stands for**: digits, or digits with a point between them. -/
inductive Denotes : List Char → ℚ → Prop
  /-- digits stand for a whole number -/
  | whole {digits : List Char} (hne : digits ≠ []) (hdigits : ∀ c ∈ digits, c.isDigit = true) :
    Denotes digits (Nat.ofDigitChars 10 digits 0)
  /-- digits with a point between them stand for a number of which those behind the point are parts -/
  | pointed {front back : List Char} (hne : front ≠ [])
    (hfront : ∀ c ∈ front, c.isDigit = true) (hback : ∀ c ∈ back, c.isDigit = true) :
    Denotes (front ++ '.' :: back) (Nat.ofDigitChars 10 (front ++ back) 0 * 10 ^ (-back.length : ℤ))

namespace Denotes

variable {text : List Char} {v w : ℚ}

/-- A text that stands for a number has only digits and points. -/
theorem digit_or_point (h : Denotes text v) : ∀ c ∈ text, c.isDigit = true ∨ c = '.' := by
  cases h with
  | whole hne hdigits => exact fun c hc => .inl (hdigits c hc)
  | pointed hne hfront hback =>
    intro c hc
    rcases List.mem_append.mp hc with hc | hc
    · exact .inl (hfront c hc)
    · rcases List.mem_cons.mp hc with rfl | hc
      · exact .inr rfl
      · exact .inl (hback c hc)

/-- A text that stands for a number begins with a digit. -/
theorem exists_digit (h : Denotes text v) : ∃ c more, text = c :: more ∧ c.isDigit = true := by
  cases h with
  | whole hne hdigits =>
    obtain ⟨c, more, rfl⟩ := List.exists_cons_of_ne_nil hne
    exact ⟨c, more, rfl, hdigits c (List.mem_cons_self ..)⟩
  | pointed hne hfront hback =>
    obtain ⟨c, more, rfl⟩ := List.exists_cons_of_ne_nil hne
    exact ⟨c, _, rfl, hfront c (List.mem_cons_self ..)⟩

theorem point_not_mem {digits : List Char} (h : ∀ c ∈ digits, c.isDigit = true) : '.' ∉ digits :=
  fun hmem => absurd (h '.' hmem) (by decide)

/-- **A text stands for one number.** The point is where it is, so the digits before and behind it are
the same. -/
theorem unique (hv : Denotes text v) (hw : Denotes text w) : v = w := by
  cases hv with
  | whole hne hdigits =>
    generalize htext : text = other at hw
    cases hw with
    | whole => rfl
    | pointed =>
      refine absurd ?_ (point_not_mem hdigits)
      rw [htext]
      exact List.mem_append_right _ (List.mem_cons_self ..)
  | @pointed front back hne hfront hback =>
    generalize htext : front ++ '.' :: back = other at hw
    cases hw with
    | whole hne' hdigits =>
      refine absurd ?_ (point_not_mem hdigits)
      rw [← htext]
      exact List.mem_append_right _ (List.mem_cons_self ..)
    | pointed hne' hfront' hback' =>
      have hstop (more : List Char) : StopsBefore Char.isDigit ('.' :: more) :=
        stopsBefore_cons.mpr rfl
      obtain ⟨rfl, hmore⟩ := StopsBefore.append_cancel (hstop _) (hstop _) hfront hfront' htext
      obtain rfl := (List.cons.inj hmore).2
      rfl

end Denotes

namespace Decimal

/-- A point before the last digits makes parts of them; zeros are put in front if there are too few
digits. -/
theorem denotes_pointed {digits : List Char} (places : Nat) (hdigits : ∀ c ∈ digits, c.isDigit = true) :
    Denotes (pointed digits places) (Nat.ofDigitChars 10 digits 0 * 10 ^ (-places : ℤ)) := by
  let padded := List.replicate (places + 1 - digits.length) '0' ++ digits
  let front := padded.take (padded.length - places)
  let back := padded.drop (padded.length - places)
  have hpadded : ∀ c ∈ padded, c.isDigit = true := by
    intro c hc
    rcases List.mem_append.mp hc with hc | hc
    · rw [List.eq_of_mem_replicate hc]
      rfl
    · exact hdigits c hc
  have hvalue : Nat.ofDigitChars 10 padded 0 = Nat.ofDigitChars 10 digits 0 := by
    rw [Nat.ofDigitChars_append, Nat.ofDigitChars_replicate_zero, Nat.mul_zero]
  have hlength : places + 1 ≤ padded.length := by
    rw [List.length_append, List.length_replicate]
    omega
  have hfront : front ≠ [] := by
    intro hnil
    have hzero := congrArg List.length hnil
    rw [List.length_take, List.length_nil] at hzero
    omega
  have hback : back.length = places := by
    rw [List.length_drop]
    omega
  have h : Denotes (front ++ '.' :: back) _ :=
    .pointed hfront (fun c hc => hpadded c (List.mem_of_mem_take hc))
      fun c hc => hpadded c (List.mem_of_mem_drop hc)
  rw [List.take_append_drop, hvalue, hback] at h
  exact h

/-- **A decimal is written as the number that it is**, with zeros where its exponent asks for them. -/
theorem denotes_positional (d : Decimal) : Denotes d.positional d.value := by
  have hdigits : ∀ c ∈ Nat.toDigits 10 d.units, c.isDigit = true :=
    fun _ hc => Nat.isDigit_of_mem_toDigits (by decide) (by decide) hc
  have hunits : Nat.ofDigitChars 10 (Nat.toDigits 10 d.units) 0 = d.units :=
    Nat.ofDigitChars_toDigits (by decide) (by decide)
  rw [positional]
  split
  · next hexponent =>
    have hzeros : ∀ c ∈ List.replicate d.exponent.toNat '0', c.isDigit = true := by
      intro c hc
      rw [List.eq_of_mem_replicate hc]
      rfl
    have h := Denotes.whole (List.append_ne_nil_of_left_ne_nil Nat.toDigits_ne_nil _)
      (List.forall_mem_append.mpr ⟨hdigits, hzeros⟩)
    have hpower : (10 : ℚ) ^ d.exponent = 10 ^ d.exponent.toNat := by
      rw [← zpow_natCast, Int.toNat_of_nonneg hexponent]
    rw [Nat.ofDigitChars_append, hunits, Nat.ofDigitChars_replicate_zero, Nat.cast_mul, Nat.cast_pow,
      Nat.cast_ofNat, mul_comm, ← hpower] at h
    exact h
  · next hexponent =>
    have h := denotes_pointed (-d.exponent).toNat hdigits
    rw [hunits, Int.toNat_of_nonneg (by omega), neg_neg] at h
    exact h

end Decimal

/-! ## Numbers and their texts -/

namespace Binary64

variable {x y : Binary64}

/-- The text of a number without its sign. -/
def magnitude (x : Binary64) : List Char :=
  if x.isInfinite then ['i', 'n', 'f'] else x.shortest.positional

/-- The text of a number is its sign, if it has one, and the text without the sign. -/
theorem render_toList (hx : x.isNaN = false) :
    x.render.toList = (if x.isNegative then ['-'] else []) ++ x.magnitude := by
  have htext : (if x.isInfinite then "inf" else String.ofList x.shortest.positional).toList =
      x.magnitude := by
    rw [magnitude]
    split
    · rfl
    · rw [String.toList_ofList]
  rw [render, hx, if_neg Bool.false_ne_true]
  dsimp only
  split
  · rw [String.toList_append, htext]
    rfl
  · exact htext

/-- **The texts of the numbers**: an infinity is named, and a finite number has its shortest decimal. -/
theorem magnitude_cases (hx : x.isNaN = false) :
    x.isInfinite = true ∧ x.magnitude = ['i', 'n', 'f'] ∨
      ∃ v, Denotes x.magnitude v ∧ x.Reads v := by
  rw [magnitude]
  split
  · next hinfinite => exact .inl ⟨hinfinite, rfl⟩
  · next hfinite =>
    have hlt : x.biasedExponent < 2048 := Nat.mod_lt _ (by decide)
    have hne : x.biasedExponent ≠ 2047 := by
      intro hexponent
      rw [isNaN, hexponent] at hx
      rw [isInfinite, hexponent] at hfinite
      simp only [beq_self_eq_true, Bool.true_and, bne_eq_false_iff_eq] at hx
      exact hfinite (by rw [hx]; rfl)
    exact .inr ⟨_, x.shortest.denotes_positional, reads_shortest (by omega)⟩

/-- The text of a number begins, behind its sign, with a digit or with the name of an infinity. -/
theorem exists_magnitude_cons (hx : x.isNaN = false) :
    ∃ c more, x.magnitude = c :: more ∧ (c = 'i' ∨ c.isDigit = true) := by
  rcases magnitude_cases hx with ⟨-, htext⟩ | ⟨v, hdenotes, -⟩
  · exact ⟨'i', _, htext, .inl rfl⟩
  · obtain ⟨c, more, htext, hdigit⟩ := hdenotes.exists_digit
    exact ⟨c, more, htext, .inr hdigit⟩

theorem isMark_of_isDigit {c : Char} (h : c.isDigit = true) : isMark c = false := by
  refine Bool.eq_false_iff.mpr fun hmark => ?_
  simp only [isMark, Bool.or_eq_true, beq_iff_eq] at hmark
  rcases hmark with (rfl | rfl) | rfl <;> exact absurd h (by decide)

/-- The text of a number without its sign is a word. -/
theorem isWord_magnitude (hx : x.isNaN = false) : IsWord x.magnitude := by
  obtain ⟨c, more, htext, -⟩ := exists_magnitude_cons hx
  refine ⟨htext ▸ List.cons_ne_nil c more, fun c hc => ?_⟩
  rcases magnitude_cases hx with ⟨-, htext⟩ | ⟨v, hdenotes, -⟩
  · have hword : IsWord ['i', 'n', 'f'] := by decide
    exact hword.2 c (htext ▸ hc)
  · rcases hdenotes.digit_or_point c hc with hdigit | rfl
    · exact isMark_of_isDigit hdigit
    · rfl

/-- The name of an infinity stands for no number. -/
theorem not_denotes_infinity {v : ℚ} : ¬ Denotes ['i', 'n', 'f'] v := by
  intro h
  obtain ⟨c, more, htext, hdigit⟩ := h.exists_digit
  obtain rfl := (List.cons.inj htext).1
  cases hdigit

/-- **Numbers of one sign have different texts.** Finite ones are read back from their texts, and a
finite one has another text than an infinity. -/
theorem eq_of_magnitude (hx : x.isNaN = false) (hy : y.isNaN = false)
    (hsign : x.isNegative = y.isNegative) (h : x.magnitude = y.magnitude) : x = y := by
  rcases magnitude_cases hx with ⟨hxinf, hxtext⟩ | ⟨v, hxdenotes, hxreads⟩
  · rcases magnitude_cases hy with ⟨hyinf, -⟩ | ⟨w, hydenotes, -⟩
    · simp only [isInfinite, Bool.and_eq_true, beq_iff_eq] at hxinf hyinf
      exact ext_bits hsign (hxinf.1.trans hyinf.1.symm) (hxinf.2.trans hyinf.2.symm)
    · rw [← h, hxtext] at hydenotes
      exact absurd hydenotes not_denotes_infinity
  · rcases magnitude_cases hy with ⟨-, hytext⟩ | ⟨w, hydenotes, hyreads⟩
    · rw [h, hytext] at hxdenotes
      exact absurd hxdenotes not_denotes_infinity
    · rw [h] at hxdenotes
      obtain rfl := hxdenotes.unique hydenotes
      exact hxreads.eq hyreads hsign

/-- The text of a number without its sign does not begin with a sign. -/
theorem magnitude_ne_sign (hx : x.isNaN = false) (more : List Char) : x.magnitude ≠ '-' :: more := by
  intro h
  obtain ⟨c, rest, htext, hc⟩ := exists_magnitude_cons hx
  obtain rfl : c = '-' := (List.cons.inj (htext.symm.trans h)).1
  rcases hc with hc | hc <;> exact absurd hc (by decide)

/-- The text of a number is a word. -/
theorem isWord_render (hx : x.isNaN = false) : IsWord x.render.toList := by
  have hmagnitude := isWord_magnitude hx
  rw [render_toList hx]
  split
  · exact ⟨List.cons_ne_nil _ _, List.forall_mem_cons.mpr ⟨rfl, hmagnitude.2⟩⟩
  · exact hmagnitude

/-- Whether the text of a number may begin with a character. -/
def isFirst (c : Char) : Bool :=
  c == '-' || c == 'i' || c.isDigit

theorem isFirst_render (hx : x.isNaN = false) : x.render.toList.head?.any isFirst = true := by
  obtain ⟨c, more, htext, hc⟩ := exists_magnitude_cons hx
  rw [render_toList hx, htext]
  split
  · rfl
  · rcases hc with rfl | hdigit
    · rfl
    · exact Bool.or_eq_true_iff.mpr (.inr hdigit)

/-- A text that begins in another way than numbers do is not that of a number. -/
theorem ne_render {text : String} (htext : text.toList.head?.any isFirst = false)
    (hx : x.isNaN = false) : text ≠ x.render := by
  rintro rfl
  rw [isFirst_render hx] at htext
  cases htext

/-- The text of a number is no word of a constant. -/
theorem render_not_mem (hx : x.isNaN = false) : x.render ∉ constantWords := by
  have hconstants : constantWords.all (fun word => !word.toList.head?.any isFirst) = true := by decide
  intro hmem
  have hfirst := List.all_eq_true.mp hconstants x.render hmem
  rw [Bool.not_eq_true'] at hfirst
  exact ne_render hfirst hx rfl

/-- **Shortest decimals tell numbers apart**, infinities and both zeros included. -/
theorem tellsApart_render : TellsApart render where
  word _ := isWord_render
  constant _ := render_not_mem
  injective x y hx hy h := by
    have htexts := congrArg String.toList h
    rw [render_toList hx, render_toList hy] at htexts
    cases hxsign : x.isNegative with
    | true =>
      cases hysign : y.isNegative with
      | true =>
        rw [hxsign, hysign] at htexts
        exact eq_of_magnitude hx hy (hxsign.trans hysign.symm) (List.cons.inj htexts).2
      | false =>
        rw [hxsign, hysign] at htexts
        exact absurd htexts.symm (magnitude_ne_sign hy _)
    | false =>
      cases hysign : y.isNegative with
      | true =>
        rw [hxsign, hysign] at htexts
        exact absurd htexts (magnitude_ne_sign hx _)
      | false =>
        rw [hxsign, hysign] at htexts
        exact eq_of_magnitude hx hy (hxsign.trans hysign.symm) htexts

end Binary64

end LoxTools
