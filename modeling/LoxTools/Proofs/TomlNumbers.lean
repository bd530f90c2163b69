import LoxTools.Proofs.TomlReaders

/-!
# TOML numbers and dates in front of a line end

What is read as a number or a date at the end of a text is read as the same one with more lines
behind: no line end continues it (`local_numberOrDate`). A text that does not start with a date
is tried as a number, so about dates more is said: the reader fails on the one text if it fails
on the other (`datetime?_newLine`).
-/

namespace LoxTools.Toml

/-! ## Dates and times -/

/-- The reader of a date takes a line end for the end of the text. -/
theorem passes_date : Passes date? := by
  have h := Passes.fixedDigits 0 9999 0 4 fun year =>
    .expect (by decide : '-' ≠ '\n') (.fixedDigits 1 12 0 2 fun month =>
      .expect (by decide : '-' ≠ '\n') (.fixedDigits 1 (daysIn year month) 0 2 fun _ => .some))
  exact h

theorem secondFraction?_of_ne {c : Char} {cs : List Char} (h : c ≠ '.') :
    secondFraction? (c :: cs) = some (c :: cs) := by
  rw [secondFraction?]
  · exact fun d rest heq => h (List.cons.inj heq).1
  · exact fun heq => h (List.cons.inj heq).1

theorem passes_secondFraction : Passes secondFraction? where
  suffix h := by
    unfold secondFraction? at h
    split at h
    · split at h
      · obtain rfl := Option.some.inj h
        exact (List.dropWhile_suffix _).trans ⟨['.', _], rfl⟩
      · cases h
    · cases h
    · obtain rfl := Option.some.inj h
      exact List.suffix_rfl
  newLine cs more := by
    cases cs with
    | nil => exact secondFraction?_of_ne (by decide)
    | cons c cs =>
      by_cases hc : c = '.'
      · subst hc
        cases cs with
        | nil => rfl
        | cons d cs =>
          by_cases hd : isDecimalDigit d = true
          · have hdrop := dropWhile_newLine (show isDecimalDigit '\n' = false from rfl) cs more
            simp [secondFraction?, hd, hdrop]
          · simp [secondFraction?, hd]
      · rw [List.cons_append, secondFraction?_of_ne hc, secondFraction?_of_ne hc]
        rfl

/-- The reader of a time, with or without parts of a second, takes a line end for the end of the text.
-/
theorem passes_time : Passes time? := by
  have h := Passes.fixedDigits 0 23 0 2 fun _ =>
    .expect (by decide : ':' ≠ '\n') (.fixedDigits 0 59 0 2 fun _ =>
      .expect (by decide : ':' ≠ '\n') (.fixedDigits 0 60 0 2 fun _ => passes_secondFraction))
  exact h

/-- The distance from universal time, behind its sign. -/
def distance? (cs : List Char) : Option (List Char) := do
  let (_, rest) ← fixedDigits? 0 23 0 2 cs
  let rest ← expect? ':' rest
  let (_, rest) ← fixedDigits? 0 59 0 2 rest
  some rest

theorem offset?_cons (c : Char) (cs : List Char) :
    offset? (c :: cs) = if c = 'Z' ∨ c = 'z' then some cs
      else if c = '+' ∨ c = '-' then distance? cs else some (c :: cs) := by
  unfold offset?
  split
  · next heq => simp [(List.cons.inj heq).1, (List.cons.inj heq).2]
  · next heq => simp [(List.cons.inj heq).1, (List.cons.inj heq).2]
  · next hZ hz heq =>
    obtain ⟨rfl, rfl⟩ := List.cons.inj heq
    have hneither : ¬ (c = 'Z' ∨ c = 'z') := not_or.mpr ⟨hZ, hz⟩
    rw [if_neg hneither]
    rfl
  · next heq => cases heq

theorem passes_distance : Passes distance? := by
  have h := Passes.fixedDigits 0 23 0 2 fun _ =>
    .expect (by decide : ':' ≠ '\n') (.fixedDigits 0 59 0 2 fun _ => .some)
  exact h

/-- The reader of the distance from universal time, which may be missing, takes a line end for the end
of the text. -/
theorem passes_offset : Passes offset? where
  suffix {cs rest} h := by
    cases cs with
    | nil =>
      obtain rfl := Option.some.inj h
      exact List.suffix_rfl
    | cons c cs =>
      rw [offset?_cons] at h
      split at h
      · obtain rfl := Option.some.inj h
        exact List.suffix_cons ..
      · split at h
        · exact (passes_distance.suffix h).trans (List.suffix_cons ..)
        · obtain rfl := Option.some.inj h
          exact List.suffix_rfl
  newLine cs more := by
    cases cs with
    | nil => rfl
    | cons c cs =>
      rw [List.cons_append, offset?_cons, offset?_cons]
      split
      · rfl
      · split
        · exact passes_distance.newLine cs more
        · rfl

theorem passes_timeOfDate : Passes timeOfDate? where
  suffix {cs rest} h := by
    cases cs with
    | nil =>
      obtain rfl := Option.some.inj h
      exact List.suffix_rfl
    | cons c cs =>
      rw [timeOfDate?] at h
      split at h
      · split at h
        · next htime =>
          exact (passes_offset.suffix h).trans ((passes_time.suffix htime).trans (List.suffix_cons ..))
        · obtain rfl := Option.some.inj h
          exact List.suffix_rfl
      · obtain rfl := Option.some.inj h
        exact List.suffix_rfl
  newLine cs more := by
    cases cs with
    | nil => rfl
    | cons c cs =>
      rw [List.cons_append, timeOfDate?, timeOfDate?, passes_time.newLine]
      split
      · cases time? cs with
        | none => rfl
        | some rest => exact passes_offset.newLine rest more
      · rfl

/-- The text that a reader has passed is the same with more lines behind. -/
theorem take_newLine (cs rest more : List Char) :
    (cs ++ '\n' :: more).take ((cs ++ '\n' :: more).length - (rest ++ '\n' :: more).length) =
      cs.take (cs.length - rest.length) := by
  rw [List.length_append, List.length_append, Nat.add_sub_add_right]
  exact List.take_append_of_le_length (Nat.sub_le ..)

/-- Past a date, with or without a time, or past a time. -/
def passDate? (cs : List Char) : Option (List Char) :=
  match date? cs with
  | some rest => timeOfDate? rest
  | none => time? cs

theorem datetime?_eq (cs : List Char) :
    datetime? cs = (passDate? cs).map fun rest =>
      (.datetime (String.ofList (cs.take (cs.length - rest.length))), rest) := by
  rw [datetime?, passDate?]
  cases date? cs with
  | none =>
    simp only
    cases time? cs <;> rfl
  | some rest =>
    simp only
    cases timeOfDate? rest <;> rfl

theorem passes_passDate : Passes passDate? where
  suffix h := by
    rw [passDate?] at h
    split at h
    · next hdate => exact (passes_timeOfDate.suffix h).trans (passes_date.suffix hdate)
    · exact passes_time.suffix h
  newLine cs more := by
    rw [passDate?, passDate?, passes_date.newLine]
    cases date? cs with
    | none => exact passes_time.newLine cs more
    | some rest => exact passes_timeOfDate.newLine rest more

/-- A date or a time is read in front of a line end exactly where it is read without one, and as the
same. -/
theorem datetime?_newLine (cs more : List Char) :
    datetime? (cs ++ '\n' :: more) =
      (datetime? cs).map fun (value, rest) => (value, rest ++ '\n' :: more) := by
  simp only [datetime?_eq, passes_passDate.newLine, Option.map_map, Function.comp_def, take_newLine]

/-! ## Numbers -/

/-- Digits go on in front of a line end as far as without one, if neither a line feed nor an underscore
is a digit. -/
theorem moreDigits_newLine {isDigit : Char → Bool} (hfeed : isDigit '\n' = false)
    (hunder : isDigit '_' = false) (cs more : List Char) :
    moreDigits isDigit (cs ++ '\n' :: more) =
      ((moreDigits isDigit cs).1, (moreDigits isDigit cs).2 ++ '\n' :: more) := by
  fun_induction moreDigits isDigit cs with
  | case1 => simp [moreDigits, hfeed]
  | case2 d rest hdigit digits rest' heq ih =>
    rw [heq] at ih
    simp [moreDigits, hdigit, ih]
  | case3 d rest hdigit => simp [moreDigits, hdigit]
  | case4 d rest hone hdigit digits rest' heq ih =>
    rw [heq] at ih
    have hne : d ≠ '_' := by
      rintro rfl
      rw [hunder] at hdigit
      cases hdigit
    simp [moreDigits, hdigit, hne, ih]
  | case5 d rest hone hdigit =>
    by_cases hne : d = '_'
    · subst hne
      cases rest with
      | nil => simp [moreDigits, hfeed]
      | cons d' rest => exact (hone d' rest rfl rfl).elim
    · simp [moreDigits, hdigit, hne]

theorem moreDigits_suffix (isDigit : Char → Bool) (cs : List Char) :
    (moreDigits isDigit cs).2 <:+ cs := by
  fun_induction moreDigits isDigit cs with
  | case1 => exact List.suffix_rfl
  | case2 d rest hdigit digits rest' heq ih =>
    rw [heq] at ih
    exact ih.trans ⟨['_', d], rfl⟩
  | case3 => exact List.suffix_rfl
  | case4 d rest hone hdigit digits rest' heq ih =>
    rw [heq] at ih
    exact ih.trans (List.suffix_cons ..)
  | case5 => exact List.suffix_rfl

theorem digits?_cons (isDigit : Char → Bool) (d : Char) (cs : List Char) :
    digits? isDigit (d :: cs) =
      if isDigit d then some (d :: (moreDigits isDigit cs).1, (moreDigits isDigit cs).2) else none := rfl

/-- Digits with underscores between them do not look behind a line end. -/
theorem local_digits {isDigit : Char → Bool} (hfeed : isDigit '\n' = false)
    (hunder : isDigit '_' = false) : Local (digits? isDigit) := by
  intro cs digits rest h
  cases cs with
  | nil => cases h
  | cons d cs =>
    rw [digits?_cons] at h
    split at h
    · next hdigit =>
      obtain ⟨rfl, rfl⟩ := Prod.mk.inj (Option.some.inj h)
      refine ⟨(moreDigits_suffix ..).trans (List.suffix_cons ..), fun more => ?_⟩
      rw [List.cons_append, digits?_cons, if_pos hdigit, moreDigits_newLine hfeed hunder]
    · cases h

theorem wholePart?_of_ne {cs : List Char} (h : ∀ rest, cs = '0' :: rest → False) :
    wholePart? cs = digits? isDecimalDigit cs := by
  rw [wholePart?]
  exact h

/-- The digits before a point do not look behind a line end. -/
theorem local_wholePart : Local wholePart? :=
  .front '0' (by decide) (.done ['0']) (local_digits rfl rfl) wholePart?_of_ne wholePart?_of_ne

/-- The digits behind a point, if there is one. -/
def fraction? : Reader (List Char)
  | '.' :: behind => digits? isDecimalDigit behind
  | cs => some ([], cs)

theorem fraction?_of_ne {cs : List Char} (h : ∀ rest, cs = '.' :: rest → False) :
    fraction? cs = some ([], cs) := by
  rw [fraction?]
  exact h

/-- The digits behind a point do not look behind a line end. -/
theorem local_fraction : Local fraction? :=
  .front '.' (by decide) (local_digits rfl rfl) (.done []) fraction?_of_ne fraction?_of_ne

theorem sign_newLine (cs more : List Char) :
    sign (cs ++ '\n' :: more) = ((sign cs).1, (sign cs).2 ++ '\n' :: more) := by
  cases cs with
  | nil => rfl
  | cons c cs =>
    by_cases hminus : c = '-'
    · subst hminus
      rfl
    · by_cases hplus : c = '+'
      · subst hplus
        rfl
      · simp [sign, hminus, hplus]

theorem sign_suffix (cs : List Char) : (sign cs).2 <:+ cs := by
  unfold sign
  split
  · exact List.suffix_cons ..
  · exact List.suffix_cons ..
  · exact List.suffix_rfl

theorem exponent?_cons (c : Char) (cs : List Char) :
    exponent? (c :: cs) =
      if c = 'e' ∨ c = 'E' then
        (digits? isDecimalDigit (sign cs).2).map fun (digits, rest) =>
          (if (sign cs).1 then -(digitsValue 10 digits : Int) else digitsValue 10 digits, rest)
      else some (0, c :: cs) := by
  rw [exponent?]
  split
  · obtain ⟨negative, behind⟩ := sign cs
    simp only
    cases digits? isDecimalDigit behind <;> rfl
  · rfl

/-- An exponent does not look behind a line end. -/
theorem local_exponent : Local exponent? := by
  intro cs exponent rest h
  cases cs with
  | nil =>
    obtain ⟨rfl, rfl⟩ := Prod.mk.inj (Option.some.inj h)
    exact ⟨List.suffix_rfl, fun more => rfl⟩
  | cons c cs =>
    rw [exponent?_cons] at h
    split at h
    · next hmark =>
      obtain ⟨hsuffix, hmore⟩ := (local_digits rfl rfl).map
        (fun digits => if (sign cs).1 then -(digitsValue 10 digits : Int) else digitsValue 10 digits) _ _ _ h
      refine ⟨hsuffix.trans ((sign_suffix cs).trans (List.suffix_cons ..)), fun more => ?_⟩
      rw [List.cons_append, exponent?_cons, if_pos hmark, sign_newLine]
      exact hmore more
    · next hmark =>
      obtain ⟨rfl, rfl⟩ := Prod.mk.inj (Option.some.inj h)
      refine ⟨List.suffix_rfl, fun more => ?_⟩
      rw [List.cons_append, exponent?_cons, if_neg hmark]

/-- A decimal number is read by the readers of its parts: it is whole if neither a point nor an exponent
takes anything. -/
theorem decimal?_eq (negative : Bool) (cs : List Char) :
    decimal? negative cs = (do
      let (whole, rest) ← wholePart? cs
      let (fraction, behindFraction) ← fraction? rest
      let (exponent, behind) ← exponent? behindFraction
      if behind.length = rest.length then
        let n : Int := digitsValue 10 whole
        let value ← bounded? (if negative then -n else n)
        some (value, rest)
      else if !negative && overflows (digitsValue 10 (whole ++ fraction)) (exponent - fraction.length) then
        none
      else
        some (.float (String.ofList (cs.take (cs.length - behind.length))), behind)) := by
  refine congrArg ((wholePart? cs).bind ·) (funext fun (whole, rest) => ?_)
  simp only
  split
  · rfl
  · next hpoint =>
    rw [fraction?_of_ne hpoint]

/-- A decimal number does not look behind a line end. Whether it is whole is told by lengths, which more
lines behind change alike. -/
theorem local_decimal (negative : Bool) : Local (decimal? negative) := by
  intro cs value rest h
  rw [decimal?_eq] at h
  obtain ⟨⟨whole, behindWhole⟩, hwhole, h⟩ := Option.bind_eq_some_iff.mp h
  obtain ⟨⟨fraction, behindFraction⟩, hfraction, h⟩ := Option.bind_eq_some_iff.mp h
  obtain ⟨⟨exponent, behind⟩, hexponent, hvalue⟩ := Option.bind_eq_some_iff.mp h
  obtain ⟨hsuffixWhole, hmoreWhole⟩ := local_wholePart _ _ _ hwhole
  obtain ⟨hsuffixFraction, hmoreFraction⟩ := local_fraction _ _ _ hfraction
  obtain ⟨hsuffixExponent, hmoreExponent⟩ := local_exponent _ _ _ hexponent
  -- the texts left are compared by their lengths, which all grow by the same
  have hlength (more : List Char) :
      (behind ++ '\n' :: more).length = (behindWhole ++ '\n' :: more).length ↔
        behind.length = behindWhole.length := by
    rw [List.length_append, List.length_append, Nat.add_right_cancel_iff]
  simp only at hvalue
  split at hvalue
  · next hwholeOnly =>
    obtain ⟨number, hnumber, heq⟩ := Option.bind_eq_some_iff.mp hvalue
    obtain ⟨rfl, rfl⟩ := Prod.mk.inj (Option.some.inj heq)
    refine ⟨hsuffixWhole, fun more => ?_⟩
    rw [decimal?_eq, hmoreWhole]
    simp [hmoreFraction, hmoreExponent, hwholeOnly, hnumber]
  · next hparts =>
    split at hvalue
    · cases hvalue
    · next hfinite =>
      obtain ⟨rfl, rfl⟩ := Prod.mk.inj (Option.some.inj hvalue)
      refine ⟨hsuffixExponent.trans (hsuffixFraction.trans hsuffixWhole), fun more => ?_⟩
      rw [decimal?_eq, hmoreWhole]
      simp only [Option.bind_eq_bind, Option.bind_some, hmoreFraction, hmoreExponent, hlength,
        if_neg hparts, if_neg hfinite, take_newLine]

/-- Whether a character is a digit in a base. -/
def isRadixDigit (base : Nat) (c : Char) : Bool :=
  match hexValue? c with
  | some value => decide (value < base)
  | none => false

/-- A number in another base does not look behind a line end. -/
theorem local_radix (base : Nat) : Local (radix? base) := by
  have hdigits : Local (digits? (isRadixDigit base)) := local_digits rfl rfl
  have h := hdigits.bind fun digits =>
    Follows.decided (bounded? (digitsValue base digits)) fun number => .done number
  exact h

/-- A number behind its sign: an infinity, the value that is no number, or a decimal. -/
def unsigned? (negative : Bool) (cs : List Char) : Option (Value × List Char) :=
  match cs with
  | 'i' :: 'n' :: 'f' :: rest => some (.float "inf", rest)
  | 'n' :: 'a' :: 'n' :: rest => some (.float "nan", rest)
  | _ => decimal? negative cs

theorem exists_digit {negative : Bool} {cs : List Char} {result : Value × List Char}
    (h : decimal? negative cs = some result) : ∃ d ds, cs = d :: ds ∧ isDecimalDigit d = true := by
  rw [decimal?_eq] at h
  obtain ⟨⟨whole, behind⟩, hwhole, -⟩ := Option.bind_eq_some_iff.mp h
  cases cs with
  | nil => cases hwhole
  | cons c cs =>
    by_cases hc : c = '0'
    · exact ⟨c, cs, rfl, by rw [hc]; rfl⟩
    · rw [wholePart?_of_ne fun rest heq => hc (List.cons.inj heq).1, digits?_cons] at hwhole
      split at hwhole
      · next hdigit => exact ⟨c, cs, rfl, hdigit⟩
      · cases hwhole

theorem unsigned?_of_digit {d : Char} (h : isDecimalDigit d = true) (negative : Bool) (cs : List Char) :
    unsigned? negative (d :: cs) = decimal? negative (d :: cs) := by
  rw [unsigned?]
  · intro rest heq
    rw [(List.cons.inj heq).1] at h
    cases h
  · intro rest heq
    rw [(List.cons.inj heq).1] at h
    cases h

theorem local_unsigned (negative : Bool) : Local (unsigned? negative) := by
  intro cs value rest h
  unfold unsigned? at h
  split at h
  · obtain ⟨rfl, rfl⟩ := Prod.mk.inj (Option.some.inj h)
    exact ⟨⟨['i', 'n', 'f'], rfl⟩, fun more => rfl⟩
  · obtain ⟨rfl, rfl⟩ := Prod.mk.inj (Option.some.inj h)
    exact ⟨⟨['n', 'a', 'n'], rfl⟩, fun more => rfl⟩
  · obtain ⟨d, ds, rfl, hdigit⟩ := exists_digit h
    obtain ⟨hsuffix, hmore⟩ := local_decimal negative _ _ _ h
    refine ⟨hsuffix, fun more => ?_⟩
    rw [List.cons_append, unsigned?_of_digit hdigit]
    exact hmore more

theorem number?_eq {cs : List Char} (hx : ∀ rest, cs = '0' :: 'x' :: rest → False)
    (ho : ∀ rest, cs = '0' :: 'o' :: rest → False) (hb : ∀ rest, cs = '0' :: 'b' :: rest → False) :
    number? cs = unsigned? (sign cs).1 (sign cs).2 := by
  rw [number?]
  · rfl
  · exact hx
  · exact ho
  · exact hb

/-- A number in any form does not look behind a line end. -/
theorem local_number : Local number? := by
  intro cs value rest h
  unfold number? at h
  split at h
  · obtain ⟨hsuffix, hmore⟩ := local_radix 16 _ _ _ h
    exact ⟨hsuffix.trans ⟨['0', 'x'], rfl⟩, hmore⟩
  · obtain ⟨hsuffix, hmore⟩ := local_radix 8 _ _ _ h
    exact ⟨hsuffix.trans ⟨['0', 'o'], rfl⟩, hmore⟩
  · obtain ⟨hsuffix, hmore⟩ := local_radix 2 _ _ _ h
    exact ⟨hsuffix.trans ⟨['0', 'b'], rfl⟩, hmore⟩
  · next hx ho hb =>
    obtain ⟨hsuffix, hmore⟩ := local_unsigned (sign cs).1 _ _ _ h
    refine ⟨hsuffix.trans (sign_suffix cs), fun more => ?_⟩
    rw [number?_eq (ne_cons_cons_newLine (by decide) hx (by decide))
      (ne_cons_cons_newLine (by decide) ho (by decide))
      (ne_cons_cons_newLine (by decide) hb (by decide)), sign_newLine]
    exact hmore more

/-- **A number or a date does not look behind a line end.** A number is tried only where no date is
read, and there none is read in front of a line end either. -/
theorem local_numberOrDate : Local numberOrDate? := by
  intro cs value rest h
  rw [numberOrDate?] at h
  split at h
  · next result hdate =>
    obtain rfl := Option.some.inj h
    have hpass := hdate
    rw [datetime?_eq] at hpass
    obtain ⟨rest', hrest, heq⟩ := Option.map_eq_some_iff.mp hpass
    obtain ⟨rfl, rfl⟩ := Prod.mk.inj heq
    refine ⟨passes_passDate.suffix hrest, fun more => ?_⟩
    rw [numberOrDate?, datetime?_newLine, hdate]
    rfl
  · next hdate =>
    obtain ⟨hsuffix, hmore⟩ := local_number _ _ _ h
    refine ⟨hsuffix, fun more => ?_⟩
    rw [numberOrDate?, datetime?_newLine, hdate]
    exact hmore more

end LoxTools.Toml
