import Mathlib.Tactic.SplitIfs
import LoxTools.Proofs.CursorMotion
import LoxTools.Text.Escape
import LoxTools.Toml.Text

/-!
# Reading back numbers and escaped text

The readers for what listings write: a number in decimal or hexadecimal digits, and escaped text, in
either of its forms. A reader takes what it needs from the front and gives back the rest.

* `readNumber?_toString` — a decimal number is read back before any text that does not go on with a digit;
* `hexNumber?_toDigits` — so are hexadecimal digits;
* `unescape_escapeChar` — a character is read back from what was written for it in any form;
* `isControl_escapeChar` — and nothing that is written for a character is a control character.
-/

namespace LoxTools

open Toml (hexValue? hexNumber? consChar)

/-! ## Up to the end of a class -/

section Split

variable {p : Char → Bool} {text after : List Char}

/-- Characters of a class are taken as a whole where the class does not go on behind them. -/
theorem takeWhile_append_of_stopsBefore (htext : ∀ c ∈ text, p c = true)
    (hafter : StopsBefore p after) : (text ++ after).takeWhile p = text := by
  rw [List.takeWhile_append_of_pos htext]
  cases after with
  | nil => simp
  | cons c after => simp [stopsBefore_cons.mp hafter]

/-- Characters of a class are dropped as a whole where the class does not go on behind them. -/
theorem dropWhile_append_of_stopsBefore (htext : ∀ c ∈ text, p c = true)
    (hafter : StopsBefore p after) : (text ++ after).dropWhile p = after := by
  rw [List.dropWhile_append_of_pos htext]
  cases after with
  | nil => rfl
  | cons c after => simp [stopsBefore_cons.mp hafter]

end Split

/-- What is left of a text behind one given character, if the text begins with it. -/
def behind? (c : Char) : List Char → Option (List Char)
  | [] => none
  | d :: rest => if d = c then some rest else none

@[simp] theorem behind?_cons (c : Char) (rest : List Char) : behind? c (c :: rest) = some rest :=
  if_pos rfl

/-! ## Numbers -/

/-- **A decimal number** at the front of a text, as far as the digits go, and what is left behind it. -/
def readNumber? (text : List Char) : Option (Nat × List Char) :=
  let digits := text.takeWhile Char.isDigit
  if digits.isEmpty then none
  else some (Nat.ofDigitChars 10 digits 0, text.dropWhile Char.isDigit)

theorem isDigit_toString (n : Nat) : ∀ c ∈ (toString n).toList, c.isDigit = true := by
  intro c hc
  rw [Nat.toString_eq_repr, Nat.toList_repr] at hc
  exact Nat.isDigit_of_mem_toDigits (by decide) (by decide) hc

/-- A number is read back from its decimal digits where no more digits follow. -/
theorem readNumber?_toString (n : Nat) {after : List Char} (hafter : StopsBefore Char.isDigit after) :
    readNumber? ((toString n).toList ++ after) = some (n, after) := by
  have hdigits := isDigit_toString n
  rw [readNumber?, takeWhile_append_of_stopsBefore hdigits hafter,
    dropWhile_append_of_stopsBefore hdigits hafter, Nat.toString_eq_repr, Nat.toList_repr]
  simp [Nat.ofDigitChars_toDigits]

theorem hexValue?_digitChar : ∀ n < 16, hexValue? n.digitChar = some n := by
  decide

/-- **A number is read back** from its hexadecimal digits. -/
theorem hexNumber?_toDigits (n : Nat) : hexNumber? (Nat.toDigits 16 n) = some n := by
  induction n using Nat.strongRecOn with
  | ind n ih =>
    rw [Nat.toDigits_eq_if (by decide)]
    split
    · rename_i hn
      simp [hexNumber?, hexValue?_digitChar n hn]
    · have hfront := ih (n / 16) (by omega)
      rw [hexNumber?] at hfront ⊢
      rw [List.foldlM_append, hfront]
      simp [hexValue?_digitChar (n % 16) (by omega)]
      omega

/-! ## Escaped text -/

/-- Where a reader of escaped text stands. -/
inductive EscapePart where
  /-- outside of escapes -/
  | plain
  /-- behind a backslash -/
  | backslash
  /-- behind a backslash and the letter of a number -/
  | letter
  /-- among the digits of a number, with the value so far -/
  | digits (value : Nat)

/-- The character that a backslash and a letter stand for. -/
def ofEscape? : Char → Option Char
  | '0' => some '\x00'
  | 't' => some '\t'
  | 'r' => some '\r'
  | 'n' => some '\n'
  | '\\' => some '\\'
  | '"' => some '"'
  | '\'' => some '\''
  | _ => none

/-- **Escaped text**, up to its end or to a double quote that is not escaped: the text that it stands
for, and what is left. In each part of an escape there is one character that may follow next, or a
digit. -/
def unescape : EscapePart → List Char → Option (List Char × List Char)
  | .plain, [] => some ([], [])
  | .plain, c :: rest =>
    if c = '"' then some ([], c :: rest)
    else if c = '\\' then unescape .backslash rest
    else consChar c (unescape .plain rest)
  | .backslash, c :: rest =>
    if c = 'u' then unescape .letter rest
    else match ofEscape? c with
      | some char => consChar char (unescape .plain rest)
      | none => none
  | .letter, c :: rest => if c = '\x7b' then unescape (.digits 0) rest else none
  | .digits value, c :: rest =>
    if c = '\x7d' then
      if value.isValidChar then consChar (Char.ofNat value) (unescape .plain rest) else none
    else match hexValue? c with
      | some digit => unescape (.digits (16 * value + digit)) rest
      | none => none
  | _, [] => none

section Unescape

variable {text digits rest : List Char}

/-- The digits of a number are read up to the closing brace, each of them shifting the value so far. -/
theorem unescape_digits {value n : Nat}
    (h : digits.foldlM (fun value c => (hexValue? c).map (16 * value + ·)) value = some n) :
    unescape (.digits value) (digits ++ '\x7d' :: rest) =
      unescape (.digits n) ('\x7d' :: rest) := by
  induction digits generalizing value with
  | nil =>
    obtain rfl := Option.some.inj h
    rfl
  | cons c digits ih =>
    rw [List.foldlM_cons] at h
    cases hc : hexValue? c with
    | none => simp [hc] at h
    | some digit =>
      have hne : c ≠ '\x7d' := by
        rintro rfl
        cases hc
      rw [hc] at h
      rw [List.cons_append, unescape, if_neg hne, hc]
      exact ih h

/-- A character is read back from the number that may be written for it. -/
theorem unescape_escapeNumber (c : Char) :
    unescape .plain (escapeNumber c ++ rest) = consChar c (unescape .plain rest) := by
  have hnumber : escapeNumber c ++ rest =
      '\\' :: 'u' :: '\x7b' :: (Nat.toDigits 16 c.toNat ++ '\x7d' :: rest) := by
    simp [escapeNumber]
  have hdigits := hexNumber?_toDigits c.toNat
  have hvalid : c.toNat.isValidChar := c.valid
  rw [hnumber]
  simp only [unescape, Char.reduceEq, if_false, if_true]
  rw [unescape_digits hdigits, unescape, if_pos rfl, if_pos hvalid, Char.ofNat_toNat]

/-- **What any form writes for a character** is a backslash and a letter, a number, or the character
itself, which is printable then. -/
theorem escapeChar_cases (form : EscapeForm) (c : Char) :
    (∃ letter, escapeChar form c = ['\\', letter] ∧ ofEscape? letter = some c) ∨
      escapeChar form c = escapeNumber c ∨
      (escapeChar form c = [c] ∧ c ≠ '"' ∧ c ≠ '\\' ∧ isPrintable c = true) := by
  rw [escapeChar]
  split_ifs with hnul htab hreturn hfeed hslash hquote hsingle hnumber
  · exact Or.inl ⟨_, rfl, congrArg some hnul.symm⟩
  · exact Or.inl ⟨_, rfl, congrArg some htab.symm⟩
  · exact Or.inl ⟨_, rfl, congrArg some hreturn.symm⟩
  · exact Or.inl ⟨_, rfl, congrArg some hfeed.symm⟩
  · exact Or.inl ⟨_, rfl, congrArg some hslash.symm⟩
  · exact Or.inl ⟨_, rfl, congrArg some hquote.symm⟩
  · simp only [Bool.and_eq_true, decide_eq_true_eq] at hsingle
    exact Or.inl ⟨_, rfl, congrArg some hsingle.1.symm⟩
  · exact Or.inr (Or.inl rfl)
  · simp only [Bool.or_eq_true, Bool.not_eq_true', not_or, Bool.not_eq_false] at hnumber
    exact Or.inr (Or.inr ⟨rfl, hquote, hslash, hnumber.2⟩)

/-- **A character is read back** from what any form writes for it, whatever comes behind. -/
theorem unescape_escapeChar (form : EscapeForm) (c : Char) :
    unescape .plain (escapeChar form c ++ rest) = consChar c (unescape .plain rest) := by
  rcases escapeChar_cases form c with ⟨letter, hescape, hletter⟩ | hnumber | ⟨hself, hquote, hslash, -⟩
  · have hne : letter ≠ 'u' := by
      rintro rfl
      cases hletter
    rw [hescape]
    simp [unescape, hne, hletter]
  · rw [hnumber, unescape_escapeNumber]
  · rw [hself, List.singleton_append, unescape, if_neg hquote, if_neg hslash]

/-- A text is read back from what any form writes for its characters, up to where escaped text ends. By
induction on its characters. -/
theorem unescape_flatMap (form : EscapeForm) (hrest : unescape .plain rest = some ([], rest)) :
    unescape .plain (text.flatMap (escapeChar form) ++ rest) = some (text, rest) := by
  induction text with
  | nil => exact hrest
  | cons c text ih =>
    rw [List.flatMap_cons, List.append_assoc, unescape_escapeChar, ih]
    rfl

/-- **Listed text is read back**, as nothing follows on its line. -/
theorem unescape_escapeListed (text : List Char) :
    unescape .plain (escapeListed text) = some (text, []) := by
  cases text with
  | nil => rfl
  | cons c text =>
    have htext : unescape .plain (text.flatMap (escapeChar .listedRest) ++ []) = some (text, []) :=
      unescape_flatMap .listedRest rfl
    rw [List.append_nil] at htext
    rw [escapeListed, unescape_escapeChar, htext]
    rfl

/-- **Quoted text is read back** up to its closing quote; the quotes in it are escaped. -/
theorem unescape_escapeQuoted (text rest : List Char) :
    unescape .plain (escapeQuoted text ++ '"' :: rest) = some (text, '"' :: rest) :=
  unescape_flatMap .quoted rfl

end Unescape

/-! ## No control characters -/

/-- Printable characters are no control characters. -/
theorem isControl_of_isPrintable {c : Char} (h : isPrintable c = true) : isControl c = false := by
  refine Bool.eq_false_iff.mpr fun hcontrol => ?_
  rw [isPrintable_of_isControl hcontrol] at h
  cases h

theorem isControl_toDigits {base : Nat} (hlow : 1 < base) (hhigh : base ≤ 16) (n : Nat) :
    ∀ c ∈ Nat.toDigits base n, isControl c = false := by
  have hdigit : ∀ n < 16, isControl n.digitChar = false := by decide
  induction n using Nat.strongRecOn with
  | ind n ih =>
    rw [Nat.toDigits_eq_if hlow]
    split
    · exact List.forall_mem_singleton.mpr (hdigit n (by omega))
    · have hlast : n % base < base := Nat.mod_lt n (by omega)
      exact List.forall_mem_append.mpr ⟨ih (n / base) (Nat.div_lt_self (by omega) hlow),
        List.forall_mem_singleton.mpr (hdigit (n % base) (by omega))⟩

theorem isControl_toString (n : Nat) : ∀ c ∈ (toString n).toList, isControl c = false := by
  rw [Nat.toString_eq_repr, Nat.toList_repr]
  exact isControl_toDigits (by decide) (by decide) n

/-- **Nothing that is written for a character is a control character.** -/
theorem isControl_escapeChar (form : EscapeForm) (c : Char) :
    ∀ d ∈ escapeChar form c, isControl d = false := by
  have hescape : ∀ letter d, ofEscape? letter = some d → isControl letter = false := by
    intro letter d h
    unfold ofEscape? at h
    split at h <;> first | rfl | cases h
  rcases escapeChar_cases form c with ⟨letter, hshort, hletter⟩ | hnumber | ⟨hself, -, -, hprintable⟩
  · rw [hshort]
    intro d hd
    rcases List.mem_cons.mp hd with rfl | hd
    · rfl
    · rw [List.mem_singleton.mp hd]
      exact hescape _ _ hletter
  · rw [hnumber, escapeNumber]
    intro d hd
    simp only [List.mem_cons, List.mem_append, List.cons_append, List.not_mem_nil, or_false] at hd
    rcases hd with rfl | rfl | rfl | hd | rfl
    · rfl
    · rfl
    · rfl
    · exact isControl_toDigits (by decide) (by decide) _ d hd
    · rfl
  · rw [hself]
    exact List.forall_mem_singleton.mpr (isControl_of_isPrintable hprintable)

theorem isControl_flatMap (form : EscapeForm) (text : List Char) :
    ∀ d ∈ text.flatMap (escapeChar form), isControl d = false := by
  intro d hd
  obtain ⟨c, -, hc⟩ := List.mem_flatMap.mp hd
  exact isControl_escapeChar form c d hc

theorem isControl_escapeListed (text : List Char) : ∀ d ∈ escapeListed text, isControl d = false := by
  cases text with
  | nil => nofun
  | cons c text =>
    rw [escapeListed]
    exact List.forall_mem_append.mpr ⟨isControl_escapeChar _ c, isControl_flatMap _ text⟩

end LoxTools
