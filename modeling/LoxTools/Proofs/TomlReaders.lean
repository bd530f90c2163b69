import LoxTools.Toml.Number

/-!
# TOML readers in front of a line end

A reader that has come to its end in front of a line end has not looked behind it. So what it makes of
the end of a text, it makes of the same text with more lines behind.

* `Follows` says this of two readers, of which the second may have more fuel, and `Local` of one;
  readers that are put together of such readers are such readers;
* `Passes` says it of a reader that makes nothing of what it has passed, and also that it fails on both
  texts alike, for where the next reader depends on it.
-/

namespace LoxTools.Toml

variable {α β : Type}

/-! ## Line ends -/

/-- From the front of a text in front of a line end no more is dropped than without it, if the class has
no line feeds. -/
theorem dropWhile_newLine {p : Char → Bool} (h : p '\n' = false) (cs more : List Char) :
    (cs ++ '\n' :: more).dropWhile p = cs.dropWhile p ++ '\n' :: more := by
  induction cs with
  | nil => rw [List.nil_append, List.dropWhile_cons, h]; rfl
  | cons c cs ih =>
    rw [List.cons_append, List.dropWhile_cons, List.dropWhile_cons, ih]
    split <;> rfl

/-- From the front of a text in front of a line end the same is taken as without it, if the class has no
line feeds. -/
theorem takeWhile_newLine {p : Char → Bool} (h : p '\n' = false) (cs more : List Char) :
    (cs ++ '\n' :: more).takeWhile p = cs.takeWhile p := by
  induction cs with
  | nil => rw [List.nil_append, List.takeWhile_cons, h]; rfl
  | cons c cs ih => rw [List.cons_append, List.takeWhile_cons, List.takeWhile_cons, ih]

theorem skipSpaces_newLine (cs more : List Char) :
    skipSpaces (cs ++ '\n' :: more) = skipSpaces cs ++ '\n' :: more :=
  dropWhile_newLine rfl cs more

theorem skipSpaces_suffix (cs : List Char) : skipSpaces cs <:+ cs :=
  List.dropWhile_suffix _

/-- A line end that is found at the front of a text is found there whatever follows. -/
theorem newLine?_eq_some {cs rest : List Char} (h : newLine? cs = some rest) :
    rest <:+ cs ∧ ∀ more, newLine? (cs ++ more) = some (rest ++ more) := by
  unfold newLine? at h
  split at h
  · obtain rfl := Option.some.inj h
    exact ⟨⟨['\n'], rfl⟩, fun more => rfl⟩
  · obtain rfl := Option.some.inj h
    exact ⟨⟨['\r', '\n'], rfl⟩, fun more => rfl⟩
  · cases h

theorem newLine?_length {cs rest : List Char} (h : newLine? cs = some rest) :
    rest.length < cs.length := by
  unfold newLine? at h
  split at h
  · obtain rfl := Option.some.inj h
    exact Nat.lt_succ_self _
  · obtain rfl := Option.some.inj h
    exact Nat.lt_succ_of_lt (Nat.lt_succ_self _)
  · cases h

/-- Where a text does not begin with a line end, it does not with more behind it either, unless the text
is a carriage return alone. -/
theorem newLine?_eq_none {cs : List Char} (h : newLine? cs = none) (hne : cs ≠ []) (hreturn : cs ≠ ['\r'])
    (more : List Char) : newLine? (cs ++ more) = none := by
  match cs with
  | [] => exact absurd rfl hne
  | [c] =>
    rw [List.singleton_append, newLine?]
    · intro rest heq
      obtain ⟨rfl, -⟩ := List.cons.inj heq
      cases h
    · intro rest heq
      obtain ⟨rfl, -⟩ := List.cons.inj heq
      exact hreturn rfl
  | c :: d :: cs =>
    rw [List.cons_append, List.cons_append, newLine?]
    · intro rest heq
      obtain ⟨rfl, -⟩ := List.cons.inj heq
      cases h
    · intro rest heq
      obtain ⟨rfl, hbehind⟩ := List.cons.inj heq
      obtain ⟨rfl, -⟩ := List.cons.inj hbehind
      cases h

/-- A character that a text does not begin with is not the first one of the text in front of a line end
either. -/
theorem ne_cons_newLine {cs : List Char} {a : Char} (h : ∀ rest, cs = a :: rest → False)
    (ha : a ≠ '\n') (more : List Char) : ∀ rest, cs ++ '\n' :: more = a :: rest → False := by
  intro rest heq
  cases cs with
  | nil => exact ha (List.cons.inj heq).1.symm
  | cons c cs => exact h cs (by rw [(List.cons.inj heq).1])

/-- Two characters that a text does not begin with are not the first ones of it in front of a line end
either. -/
theorem ne_cons_cons_newLine {cs more : List Char} {a b : Char} (hb : b ≠ '\n')
    (h : ∀ rest, cs = a :: b :: rest → False) (ha : a ≠ '\n') :
    ∀ rest, cs ++ '\n' :: more = a :: b :: rest → False := by
  intro rest heq
  match cs with
  | [] => exact ha (List.cons.inj heq).1.symm
  | [c] => exact hb (List.cons.inj (List.cons.inj heq).2).1.symm
  | c :: d :: cs =>
    obtain ⟨hc, heq⟩ := List.cons.inj heq
    obtain ⟨hd, -⟩ := List.cons.inj heq
    exact h cs (by rw [hc, hd])

/-! ## Readers -/

/-- **A reader that another one follows**, with more lines behind: what the first one makes of a text
and leaves of it, the other one makes and leaves in front of a line end, which then stands behind what
is left. -/
def Follows (read read' : Reader α) : Prop :=
  ∀ cs value rest, read cs = some (value, rest) → rest <:+ cs ∧
    ∀ more, read' (cs ++ '\n' :: more) = some (value, rest ++ '\n' :: more)

/-- **A reader that does not look behind a line end**: it follows itself. -/
abbrev Local (read : Reader α) : Prop :=
  Follows read read

theorem expect?_eq_some {c : Char} {cs rest : List Char} :
    expect? c cs = some rest ↔ cs = c :: rest := by
  cases cs with
  | nil => simp [expect?]
  | cons d cs => by_cases h : d = c <;> simp [expect?, h]

theorem expect?_self (c : Char) (cs : List Char) : expect? c (c :: cs) = some cs :=
  expect?_eq_some.mpr rfl

namespace Follows

variable {read read' : Reader α}

/-- A reader that always fails is followed by every other one. -/
theorem of_none (h : ∀ cs, read cs = none) : Follows read read' := by
  intro cs value rest hsome
  rw [h] at hsome
  cases hsome

/-- A reader that has its value already, and reads nothing, does not look behind a line end. -/
theorem done (value : α) : Local fun cs => some (value, cs) := by
  intro cs value rest h
  obtain ⟨rfl, rfl⟩ := Prod.mk.inj (Option.some.inj h)
  exact ⟨List.suffix_rfl, fun more => rfl⟩

/-- If two readers are followed by two others, then one after another they are followed by the others,
one after another. -/
theorem bind {next next' : α → Reader β} (hread : Follows read read')
    (hnext : ∀ value, Follows (next value) (next' value)) :
    Follows (fun cs => (read cs).bind fun result => next result.1 result.2)
      fun cs => (read' cs).bind fun result => next' result.1 result.2 := by
  intro cs value rest h
  obtain ⟨⟨first, behind⟩, hfirst, h⟩ := Option.bind_eq_some_iff.mp h
  obtain ⟨hsuffix, hmore⟩ := hread _ _ _ hfirst
  obtain ⟨hsuffix', hmore'⟩ := hnext _ _ _ _ h
  refine ⟨hsuffix'.trans hsuffix, fun more => ?_⟩
  simp only [hmore, Option.bind_some, hmore']

/-- A reader whose value is made into another one is followed as it was before. -/
theorem map (hread : Follows read read') (f : α → β) :
    Follows (fun cs => (read cs).map fun result => (f result.1, result.2))
      fun cs => (read' cs).map fun result => (f result.1, result.2) := by
  simp only [Option.map_eq_bind]
  exact hread.bind fun value => done (f value)

/-- A value that is found without looking at the text is the same for both readers. -/
theorem decided (found : Option α) {next next' : α → Reader β}
    (hnext : ∀ value, Follows (next value) (next' value)) :
    Follows (fun cs => found.bind fun value => next value cs)
      fun cs => found.bind fun value => next' value cs := by
  cases found with
  | none => exact of_none fun cs => rfl
  | some value => exact hnext value

/-- A reader behind blanks is followed as it is without them, since a line end is no blank. -/
theorem skipSpaces (hread : Follows read read') :
    Follows (fun cs => read (skipSpaces cs)) fun cs => read' (skipSpaces cs) := by
  intro cs value rest h
  obtain ⟨hsuffix, hmore⟩ := hread _ _ _ h
  refine ⟨hsuffix.trans (skipSpaces_suffix cs), fun more => ?_⟩
  simp only [skipSpaces_newLine, hmore]

/-- A reader behind a given character is followed as it is without it. -/
theorem expect (hread : Follows read read') (c : Char) :
    Follows (fun cs => (expect? c cs).bind read) fun cs => (expect? c cs).bind read' := by
  intro cs value rest h
  obtain ⟨behind, hc, hbehind⟩ := Option.bind_eq_some_iff.mp h
  obtain rfl := expect?_eq_some.mp hc
  obtain ⟨hsuffix, hmore⟩ := hread _ _ _ hbehind
  refine ⟨hsuffix.trans (List.suffix_cons ..), fun more => ?_⟩
  simp only [List.cons_append, expect?_self, Option.bind_some, hmore]

/-- A reader that fails at the end of a text is followed if it is followed behind each first character.
-/
theorem head (hnil : read [] = none)
    (hcons : ∀ c, Follows (fun cs => read (c :: cs)) fun cs => read' (c :: cs)) :
    Follows read read' := by
  intro cs value rest h
  cases cs with
  | nil =>
    rw [hnil] at h
    cases h
  | cons c cs =>
    obtain ⟨hsuffix, hmore⟩ := hcons c _ _ _ h
    exact ⟨hsuffix.trans (List.suffix_cons ..), hmore⟩

/-- A reader that does one thing behind a certain character and another one elsewhere is followed if it
is in both cases. The character must not be a line feed, so that a line end does not decide between the
two. -/
theorem front {other other' : Reader α} (c : Char) (hc : c ≠ '\n')
    (hfront : Follows (fun cs => read (c :: cs)) fun cs => read' (c :: cs))
    (hother : Follows other other')
    (hread : ∀ {cs}, (∀ rest, cs = c :: rest → False) → read cs = other cs)
    (hread' : ∀ {cs}, (∀ rest, cs = c :: rest → False) → read' cs = other' cs) :
    Follows read read' := by
  intro cs value rest h
  by_cases hcs : ∃ behind, cs = c :: behind
  · obtain ⟨behind, rfl⟩ := hcs
    obtain ⟨hsuffix, hmore⟩ := hfront _ _ _ h
    exact ⟨hsuffix.trans (List.suffix_cons ..), hmore⟩
  · have hne (behind : List Char) (heq : cs = c :: behind) : False := hcs ⟨behind, heq⟩
    rw [hread hne] at h
    obtain ⟨hsuffix, hmore⟩ := hother _ _ _ h
    refine ⟨hsuffix, fun more => ?_⟩
    rw [hread' (ne_cons_newLine hne hc more)]
    exact hmore more

end Follows

/-! ## Readers of nothing -/

/-- **A reader of no value that takes a line end for the end** of the text. -/
structure Passes (pass : List Char → Option (List Char)) : Prop where
  /-- what it leaves is the end of what it was given -/
  suffix : ∀ {cs rest}, pass cs = some rest → rest <:+ cs
  /-- more lines behind change nothing, whether it fails or not -/
  newLine : ∀ cs more, pass (cs ++ '\n' :: more) = (pass cs).map (· ++ '\n' :: more)

namespace Passes

variable {pass : List Char → Option (List Char)}

theorem some : Passes some where
  suffix h := by
    obtain rfl := Option.some.inj h
    exact List.suffix_rfl
  newLine _ _ := rfl

theorem expect {c : Char} (hc : c ≠ '\n') (hpass : Passes pass) :
    Passes fun cs => (expect? c cs).bind pass where
  suffix h := by
    obtain ⟨behind, hbehind, hrest⟩ := Option.bind_eq_some_iff.mp h
    obtain rfl := expect?_eq_some.mp hbehind
    exact (hpass.suffix hrest).trans (List.suffix_cons ..)
  newLine cs more := by
    cases cs with
    | nil => simp [expect?, hc.symm]
    | cons d cs => by_cases hd : d = c <;> simp [expect?, hd, hpass.newLine]

theorem fixedDigits {next : Nat → List Char → Option (List Char)} (least most soFar count : Nat)
    (hnext : ∀ n, Passes (next n)) :
    Passes fun cs => (fixedDigits? least most soFar count cs).bind fun result =>
      next result.1 result.2 := by
  induction count generalizing soFar with
  | zero =>
    by_cases h : least ≤ soFar ∧ soFar ≤ most
    · simpa [fixedDigits?, h] using hnext soFar
    · constructor <;> simp [fixedDigits?, h]
  | succ count ih =>
    constructor
    · intro cs rest h
      cases cs with
      | nil => cases h
      | cons d cs =>
        by_cases hd : isDecimalDigit d = true
        · simp only [fixedDigits?, hd, if_true] at h
          exact ((ih _).suffix h).trans (List.suffix_cons ..)
        · simp [fixedDigits?, hd] at h
    · intro cs more
      cases cs with
      | nil => rfl
      | cons d cs =>
        by_cases hd : isDecimalDigit d = true
        · simpa [fixedDigits?, hd] using (ih _).newLine cs more
        · simp [fixedDigits?, hd]

end Passes

end LoxTools.Toml
