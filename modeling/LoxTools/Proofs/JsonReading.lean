import LoxTools.Json
import LoxTools.Proofs.Unescaping
import LoxTools.Text.CharClass

/-!
# Reading back JSON

A reader of JSON texts, for the values that output is made of: blanks may stand around every value and
every mark, a string may have any of the escapes, and numbers are natural ones. It knows nothing of the
layout in which values are written.

* `Json.stringBody_flatMap` — a string is read back from its escapes, code point by code point;
* `Json.value?_pretty` — a value is read back from its layout at any level;
* `Json.readAll?_join` — so is a stream of values, each with a line feed behind it.
-/

namespace LoxTools.Json

open Toml (Reader hexNumber? codePoint? consChar)

/-! ## Blanks -/

/-- What is left of a text behind the blanks at its front. -/
def skipBlanks (text : List Char) : List Char :=
  text.dropWhile isBlank

theorem skipBlanks_append {blanks : List Char} (h : ∀ c ∈ blanks, isBlank c = true) (text : List Char) :
    skipBlanks (blanks ++ text) = skipBlanks text := by
  rw [skipBlanks, skipBlanks, List.dropWhile_append_of_pos h]

theorem skipBlanks_cons {c : Char} (h : isBlank c = false) (text : List Char) :
    skipBlanks (c :: text) = c :: text := by
  rw [skipBlanks, List.dropWhile_cons_of_neg (by simp [h])]

/-- The line feed and the indentation that start a line of a layout are blanks. -/
theorem isBlank_newLine (level : Nat) : ∀ c ∈ (newLine level).toList, isBlank c = true := by
  rw [newLine, String.toList_ofList]
  refine List.forall_mem_cons.mpr ⟨rfl, ?_⟩
  intro c hc
  rw [List.eq_of_mem_replicate hc]
  rfl

/-! ## Strings -/

/-- What the letter of an escape stands for. -/
def ofEscape? : Char → Option Char
  | '"' => some '"'
  | '\\' => some '\\'
  | '/' => some '/'
  | 'b' => some '\x08'
  | 'f' => some '\x0c'
  | 'n' => some '\n'
  | 'r' => some '\r'
  | 't' => some '\t'
  | _ => none

/-- The character that two surrogates stand for together, each of them given in hexadecimal digits. -/
def ofSurrogates? (high low : List Char) : Option Char := do
  let high ← hexNumber? high
  let low ← hexNumber? low
  if 0xd800 ≤ high && high < 0xdc00 && 0xdc00 ≤ low && low < 0xe000 then
    some (Char.ofNat (0x10000 + 0x400 * (high - 0xd800) + (low - 0xdc00)))
  else none

/-- **A string**, behind its opening quote: its characters and what is left behind its closing quote. An
escape with a number may stand for a half of a character, and then the other half must follow. -/
def stringBody : Reader (List Char)
  | [] => none
  | '"' :: rest => some ([], rest)
  | '\\' :: 'u' :: a :: b :: c :: d :: rest =>
    match codePoint? [a, b, c, d] with
    | some char => consChar char (stringBody rest)
    | none =>
      match rest with
      | '\\' :: 'u' :: e :: f :: g :: h :: rest =>
        match ofSurrogates? [a, b, c, d] [e, f, g, h] with
        | some char => consChar char (stringBody rest)
        | none => none
      | _ => none
  | '\\' :: letter :: rest =>
    match ofEscape? letter with
    | some char => consChar char (stringBody rest)
    | none => none
  | c :: rest => if c = '\\' || c.toNat < 0x20 then none else consChar c (stringBody rest)

/-- A control character is read back from the two digits that its escape ends with. -/
theorem codePoint?_control : ∀ n < 0x20,
    codePoint? ['0', '0', (n / 16).digitChar, (n % 16).digitChar] = some (Char.ofNat n) := by
  decide

/-- A character is read back from what is written for it in a string, whatever comes behind. -/
theorem stringBody_escapeChar (c : Char) (rest : List Char) :
    stringBody (escapeChar c ++ rest) = consChar c (stringBody rest) := by
  rw [escapeChar]
  split_ifs with hquote hslash hback hform hfeed hreturn htab hcontrol
  · rw [hquote]; rfl
  · rw [hslash]; rfl
  · rw [hback]; rfl
  · rw [hform]; rfl
  · rw [hfeed]; rfl
  · rw [hreturn]; rfl
  · rw [htab]; rfl
  · have hcode := codePoint?_control c.toNat hcontrol
    rw [Char.ofNat_toNat] at hcode
    rw [List.cons_append, stringBody.eq_def]
    simp only [List.cons_append, List.nil_append, hcode]
  · simp [stringBody, hslash, hcontrol]

/-- **A string is read back** from what is written for its characters and its closing quote. By
induction on its characters. -/
theorem stringBody_flatMap (text rest : List Char) :
    stringBody (text.flatMap escapeChar ++ '"' :: rest) = some (text, rest) := by
  induction text with
  | nil => rfl
  | cons c text ih =>
    rw [List.flatMap_cons, List.append_assoc, stringBody_escapeChar, ih]
    rfl

/-- Escapes that are never written are read as well, and a bare control character is not. -/
example : stringBody "\\uD83D\\uDE00\\/\"".toList = some (['😀', '/'], []) ∧
    stringBody "\n\"".toList = none := by
  decide +kernel

/-! ## Numbers -/

/-- What a number can go on with, in any of the forms that JSON has for numbers. -/
def isNumberPart (c : Char) : Bool :=
  c.isDigit || c == '.' || c == 'e' || c == 'E'

/-- **A natural number** at the front of a text: it has no zeros in front, no fraction and no exponent.
-/
def natural? (text : List Char) : Option (Nat × List Char) := do
  let (n, rest) ← readNumber? text
  if text.takeWhile Char.isDigit = (toString n).toList && !rest.head?.any isNumberPart then
    some (n, rest)
  else none

/-- A natural number is read back from its decimal digits where no part of a number follows. -/
theorem natural?_toString (n : Nat) {after : List Char} (hafter : StopsBefore isNumberPart after) :
    natural? ((toString n).toList ++ after) = some (n, after) := by
  have hdigits : StopsBefore Char.isDigit after := by
    intro c hc
    have hpart := hafter c hc
    simp only [isNumberPart, Bool.or_eq_false_iff] at hpart
    exact hpart.1.1.1
  have hend : after.head?.any isNumberPart = false := by
    cases after with
    | nil => rfl
    | cons c after => exact stopsBefore_cons.mp hafter
  rw [natural?, readNumber?_toString n hdigits,
    takeWhile_append_of_stopsBefore (isDigit_toString n) hdigits]
  simp [hend]

/-! ## Values -/

/-- At least one reading, with commas between them, up to a closing bracket. There are at most `fuel` of
them, which is no restriction if there are as many characters. -/
def separatedUpTo {α : Type} (read : Reader α) (close : Char) : Nat → Reader (List α)
  | 0, _ => none
  | fuel + 1, text => do
    let (a, rest) ← read text
    match skipBlanks rest with
    | [] => none
    | c :: rest =>
      if c = close then some ([a], rest)
      else if c = ',' then do
        let (more, rest) ← separatedUpTo read close fuel rest
        some (a :: more, rest)
      else none

/-- **Readings between brackets**, behind the opening one. There may be none of them. -/
def bracketed? {α : Type} (read : Reader α) (close : Char) (text : List Char) :
    Option (List α × List Char) :=
  match behind? close (skipBlanks text) with
  | some rest => some ([], rest)
  | none => separatedUpTo read close text.length text

/-- **A member** of an object: its name in quotes, a colon and a reading of its value. -/
def member? {α : Type} (read : Reader α) (text : List Char) : Option ((String × α) × List Char) := do
  let rest ← behind? '"' (skipBlanks text)
  let (name, rest) ← stringBody rest
  let rest ← behind? ':' (skipBlanks rest)
  let (value, rest) ← read rest
  some ((String.ofList name, value), rest)

/-- A value, where the values inside of it are read by a given reader. -/
def valueWith (inside : Reader Json) (text : List Char) : Option (Json × List Char) :=
  match skipBlanks text with
  | '"' :: rest => do
    let (text, rest) ← stringBody rest
    some (.string (String.ofList text), rest)
  | '[' :: rest => do
    let (items, rest) ← bracketed? inside ']' rest
    some (.array items, rest)
  | '\x7b' :: rest => do
    let (members, rest) ← bracketed? (member? inside) '\x7d' rest
    some (.object members, rest)
  | text => do
    let (n, rest) ← natural? text
    some (.number n, rest)

/-- **A value**, with brackets inside one another less than `depth` deep. -/
def value? : Nat → Reader Json
  | 0 => fun _ => none
  | depth + 1 => valueWith (value? depth)

/-! ## The layout -/

section Layout

variable {α : Type} {read : Reader α} {write : α → List Char} {close : Char} {level : Nat}

/-- Some texts, each on a line of its own with commas between them, up to a closing bracket on a line of
its own. -/
def layOut (write : α → List Char) (close : Char) (level : Nat) : α → List α → List Char
  | a, [] => (newLine (level + 1)).toList ++ (write a ++ ((newLine level).toList ++ [close]))
  | a, b :: more =>
    (newLine (level + 1)).toList ++ (write a ++ ',' :: layOut write close level b more)

/-- A layout has more characters than it has texts behind the first one, so its length is fuel enough.
-/
theorem length_lt_length_layOut (a : α) (more : List α) :
    more.length < (layOut write close level a more).length := by
  induction more generalizing a with
  | nil =>
    simp only [layOut, List.length_append, List.length_singleton, List.length_nil]
    omega
  | cons b more ih =>
    have hmore := ih b
    simp only [layOut, List.length_append, List.length_cons]
    omega

/-- Each of the texts that are laid out is shorter than the layout. -/
theorem length_write_lt_layOut (write : α → List Char) (close : Char) (level : Nat) (a : α)
    (more : List α) : ∀ b ∈ a :: more,
      (write b).length < (layOut write close level a more).length := by
  induction more generalizing a with
  | nil =>
    refine List.forall_mem_singleton.mpr ?_
    simp only [layOut, List.length_append, List.length_singleton]
    omega
  | cons b more ih =>
    refine List.forall_mem_cons.mpr ⟨?_, ?_⟩
    · simp only [layOut, List.length_append, List.length_cons]
      omega
    · intro c hc
      have hmore := ih b c hc
      simp only [layOut, List.length_append, List.length_cons]
      omega

/-- No number goes on with a new line, so one may stand before it. -/
theorem stopsBefore_newLine (level : Nat) (text : List Char) :
    StopsBefore isNumberPart ((newLine level).toList ++ text) := by
  rw [newLine, String.toList_ofList]
  exact stopsBefore_cons.mpr rfl

/-- **What is laid out is read back**, if each of the texts is read back where a number may end behind
it. By induction on the texts behind the first one. -/
theorem separatedUpTo_layOut {a : α} {more : List α} {fuel : Nat} (hfuel : more.length < fuel)
    (hclose : isBlank close = false) (hcomma : close ≠ ',')
    (hread : ∀ b ∈ a :: more, ∀ after, StopsBefore isNumberPart after →
      read ((newLine (level + 1)).toList ++ (write b ++ after)) = some (b, after)) (rest : List Char) :
    separatedUpTo read close fuel (layOut write close level a more ++ rest) =
      some (a :: more, rest) := by
  induction more generalizing a fuel with
  | nil =>
    obtain ⟨fuel, rfl⟩ := Nat.exists_eq_succ_of_ne_zero (Nat.ne_zero_of_lt hfuel)
    have hafter : StopsBefore isNumberPart ((newLine level).toList ++ close :: rest) :=
      stopsBefore_newLine level _
    have htext : layOut write close level a [] ++ rest =
        (newLine (level + 1)).toList ++ (write a ++ ((newLine level).toList ++ close :: rest)) := by
      simp [layOut]
    rw [htext, separatedUpTo, hread a (List.mem_cons_self ..) _ hafter]
    simp [skipBlanks_append (isBlank_newLine level), skipBlanks_cons hclose]
  | cons b more ih =>
    obtain ⟨fuel, rfl⟩ := Nat.exists_eq_succ_of_ne_zero (Nat.ne_zero_of_lt hfuel)
    have hmore : more.length < fuel := Nat.lt_of_succ_lt_succ hfuel
    have hafter : StopsBefore isNumberPart (',' :: (layOut write close level b more ++ rest)) :=
      stopsBefore_cons.mpr rfl
    have htext : layOut write close level a (b :: more) ++ rest =
        (newLine (level + 1)).toList ++ (write a ++ ',' :: (layOut write close level b more ++ rest)) := by
      simp [layOut]
    have htail := ih hmore fun c hc => hread c (List.mem_cons_of_mem _ hc)
    rw [htext, separatedUpTo, hread a (List.mem_cons_self ..) _ hafter]
    simp [skipBlanks_cons (c := ',') rfl, hcomma.symm, htail]

/-- **Brackets with something laid out in them** are read back. A reading never starts at the closing
bracket, so they are not taken for empty ones. -/
theorem bracketed?_layOut (read : Reader α) (write : α → List Char) (close : Char) (level : Nat)
    {a : α} {more : List α} (hclose : isBlank close = false)
    (hcomma : close ≠ ',')
    (hnever : ∀ text rest, skipBlanks text = close :: rest → read text = none)
    (hread : ∀ b ∈ a :: more, ∀ after, StopsBefore isNumberPart after →
      read ((newLine (level + 1)).toList ++ (write b ++ after)) = some (b, after)) (rest : List Char) :
    bracketed? read close (layOut write close level a more ++ rest) = some (a :: more, rest) := by
  have hfuel : more.length < (layOut write close level a more ++ rest).length := by
    have hlength : more.length < (layOut write close level a more).length :=
      length_lt_length_layOut a more
    rw [List.length_append]
    omega
  have hseparated := separatedUpTo_layOut hfuel hclose hcomma hread rest
  have hopen : behind? close (skipBlanks (layOut write close level a more ++ rest)) = none := by
    cases hskip : skipBlanks (layOut write close level a more ++ rest) with
    | nil => rfl
    | cons c text =>
      apply if_neg
      intro hc
      -- at a closing bracket there would be nothing to read, but there is
      obtain ⟨fuel, hfuel⟩ := Nat.exists_eq_add_of_lt hfuel
      rw [hfuel, separatedUpTo, hnever _ _ (hskip.trans (congrArg (· :: text) hc))] at hseparated
      cases hseparated
  rw [bracketed?, hopen]
  exact hseparated

end Layout

/-! ## Values in their layout -/

/-- What holds of numbers and strings, and of an array or an object if it holds of the values in it,
holds of every value. This is the principle for values within lists of values. -/
theorem induction {P : Json → Prop} (number : ∀ n, P (.number n)) (string : ∀ text, P (.string text))
    (array : ∀ items, (∀ item ∈ items, P item) → P (.array items))
    (object : ∀ members, (∀ member ∈ members, P member.2) → P (.object members)) (v : Json) : P v :=
  @Json.rec P (fun items => ∀ item ∈ items, P item) (fun members => ∀ member ∈ members, P member.2)
    (fun member => P member.2) number string array object
    (List.forall_mem_nil _) (fun _ _ hitem hitems => List.forall_mem_cons.mpr ⟨hitem, hitems⟩)
    (List.forall_mem_nil _) (fun _ _ hmember hmembers => List.forall_mem_cons.mpr ⟨hmember, hmembers⟩)
    (fun _ _ hvalue => hvalue) v

theorem toList_quote (text : String) :
    (quote text).toList = '"' :: (text.toList.flatMap escapeChar ++ ['"']) := by
  simp [quote]

theorem toList_pretty_array (level : Nat) (item : Json) (more : List Json) :
    (pretty level (.array (item :: more))).toList =
      '[' :: layOut (fun item => (pretty (level + 1) item).toList) ']' level item more := by
  have hitems : ∀ item, (newLine (level + 1) ++ pretty (level + 1) item ++
      prettyItems (level + 1) more ++ newLine level ++ "]").toList =
        layOut (fun item => (pretty (level + 1) item).toList) ']' level item more := by
    induction more with
    | nil =>
      intro item
      simp [prettyItems, layOut]
    | cons next more ih =>
      intro item
      rw [layOut, ← ih, prettyItems]
      simp
  rw [pretty, ← hitems]
  simp

theorem toList_pretty_object (level : Nat) (member : String × Json) (more : List (String × Json)) :
    (pretty level (.object (member :: more))).toList =
      '\x7b' :: layOut (fun member => (prettyMember (level + 1) member).toList) '\x7d' level
        member more := by
  have hmembers : ∀ member, (newLine (level + 1) ++ prettyMember (level + 1) member ++
      prettyMembers (level + 1) more ++ newLine level ++ "\x7d").toList =
        layOut (fun member => (prettyMember (level + 1) member).toList) '\x7d' level member more := by
    induction more with
    | nil =>
      intro member
      simp [prettyMembers, layOut]
    | cons next more ih =>
      intro member
      rw [layOut, ← ih, prettyMembers]
      simp
  rw [pretty, ← hmembers]
  simp

/-- The items of an array have shorter texts than the array. -/
theorem length_pretty_lt_array (level : Nat) (items : List Json) : ∀ item ∈ items,
    (pretty (level + 1) item).toList.length < (pretty level (.array items)).toList.length := by
  cases items with
  | nil => nofun
  | cons first more =>
    intro item hitem
    have hlength := length_write_lt_layOut
      (fun item => (pretty (level + 1) item).toList) ']' level first more item hitem
    rw [toList_pretty_array, List.length_cons]
    exact Nat.lt_succ_of_lt hlength

/-- The values of the members of an object have shorter texts than the object. -/
theorem length_pretty_lt_object (level : Nat) (members : List (String × Json)) : ∀ member ∈ members,
    (pretty (level + 1) member.2).toList.length < (pretty level (.object members)).toList.length := by
  cases members with
  | nil => nofun
  | cons first more =>
    intro member hmember
    have hlength := length_write_lt_layOut
      (fun member => (prettyMember (level + 1) member).toList) '\x7d' level first more member hmember
    have hvalue : (pretty (level + 1) member.2).toList.length ≤
        (prettyMember (level + 1) member).toList.length := by
      obtain ⟨name, value⟩ := member
      rw [prettyMember, String.toList_append, List.length_append]
      exact Nat.le_add_left ..
    rw [toList_pretty_object, List.length_cons]
    omega

/-- No value starts at a closing bracket of an array. -/
theorem value?_close {depth : Nat} {text rest : List Char} (h : skipBlanks text = ']' :: rest) :
    value? depth text = none := by
  cases depth with
  | zero => rfl
  | succ depth =>
    rw [value?, valueWith, h]
    rfl

/-- No member starts at a closing bracket of an object. -/
theorem member?_close {α : Type} {read : Reader α} {text rest : List Char}
    (h : skipBlanks text = '\x7d' :: rest) : member? read text = none := by
  rw [member?, h]
  rfl

/-- Blanks before a value are passed over and change nothing. -/
theorem value?_append {blanks : List Char} (h : ∀ c ∈ blanks, isBlank c = true) (depth : Nat)
    (text : List Char) : value? depth (blanks ++ text) = value? depth text := by
  cases depth with
  | zero => rfl
  | succ depth => rw [value?, valueWith, valueWith, skipBlanks_append h]

/-- A member is read back from its line if its value is read back from there. -/
theorem member?_prettyMember {read : Reader Json} {level : Nat} {member : String × Json}
    {after : List Char}
    (h : read (' ' :: ((pretty (level + 1) member.2).toList ++ after)) = some (member.2, after)) :
    member? read ((newLine (level + 1)).toList ++ ((prettyMember (level + 1) member).toList ++ after)) =
      some (member, after) := by
  obtain ⟨name, value⟩ := member
  have htext : (prettyMember (level + 1) (name, value)).toList ++ after =
      '"' :: (name.toList.flatMap escapeChar ++ '"' :: ':' :: ' ' ::
        ((pretty (level + 1) value).toList ++ after)) := by
    simp [prettyMember, toList_quote]
  rw [member?, skipBlanks_append (isBlank_newLine _), htext, skipBlanks_cons rfl]
  simp only [Option.bind_eq_bind, behind?_cons, Option.bind_some, stringBody_flatMap]
  rw [skipBlanks_cons rfl]
  simp [h]

section Inside

variable {inside : Reader Json} {level : Nat} {after : List Char}

/-- A number is read back from its digits where no part of a number follows. -/
theorem valueWith_number (n : Nat) (hafter : StopsBefore isNumberPart after) :
    valueWith inside ((toString n).toList ++ after) = some (.number n, after) := by
  obtain ⟨c, digits, hdigits⟩ : ∃ c digits, (toString n).toList = c :: digits := by
    rw [Nat.toString_eq_repr, Nat.toList_repr]
    exact List.exists_cons_of_ne_nil Nat.toDigits_ne_nil
  have hc : c.isDigit = true := isDigit_toString n c (hdigits ▸ List.mem_cons_self ..)
  have hne : ∀ mark, mark.isDigit = false → c ≠ mark := by
    rintro mark hmark rfl
    rw [hmark] at hc
    cases hc
  have hblank : isBlank c = false := by
    simp [isBlank, hne ' ' rfl, hne '\t' rfl, hne '\r' rfl, hne '\n' rfl]
  have hnumber := natural?_toString n hafter
  rw [hdigits, List.cons_append] at hnumber ⊢
  rw [valueWith, skipBlanks_cons hblank]
  simp [hne '"' rfl, hne '[' rfl, hne '\x7b' rfl, hnumber]

/-- A string is read back from its quoted form, whatever follows. -/
theorem valueWith_string (text : String) :
    valueWith inside ((quote text).toList ++ after) = some (.string text, after) := by
  rw [toList_quote, List.cons_append, valueWith, skipBlanks_cons rfl]
  simp [stringBody_flatMap]

/-- An array is read back from its layout if its items are read back from their lines. -/
theorem valueWith_array {items : List Json}
    (hclose : ∀ text rest, skipBlanks text = ']' :: rest → inside text = none)
    (h : ∀ item ∈ items, ∀ after, StopsBefore isNumberPart after →
      inside ((newLine (level + 1)).toList ++ ((pretty (level + 1) item).toList ++ after)) =
        some (item, after)) :
    valueWith inside ((pretty level (.array items)).toList ++ after) = some (.array items, after) := by
  cases items with
  | nil =>
    rw [pretty]
    rfl
  | cons item more =>
    have hitems := bracketed?_layOut inside (fun item => (pretty (level + 1) item).toList) ']' level
      rfl (by decide) hclose h after
    rw [toList_pretty_array, List.cons_append, valueWith, skipBlanks_cons rfl]
    simp only [hitems]
    rfl

/-- An object is read back from its layout if the values of its members are read back from their lines.
-/
theorem valueWith_object {members : List (String × Json)}
    (h : ∀ member ∈ members, ∀ after, StopsBefore isNumberPart after →
      inside (' ' :: ((pretty (level + 1) member.2).toList ++ after)) = some (member.2, after)) :
    valueWith inside ((pretty level (.object members)).toList ++ after) =
      some (.object members, after) := by
  cases members with
  | nil =>
    rw [pretty]
    rfl
  | cons member more =>
    have hmembers := bracketed?_layOut (member? inside)
      (fun member => (prettyMember (level + 1) member).toList) '\x7d' level rfl (by decide)
      (fun _ _ => member?_close)
      (fun member hmember after hafter => member?_prettyMember (h member hmember after hafter)) after
    rw [toList_pretty_object, List.cons_append, valueWith, skipBlanks_cons rfl]
    simp only [hmembers]
    rfl

end Inside

/-- **A value is read back** from its layout at any level, where a number may end behind it. By
induction on the value; the values inside have shorter texts, so the depth suffices for them. -/
theorem value?_pretty (v : Json) {level depth : Nat} {after : List Char}
    (hafter : StopsBefore isNumberPart after) (hdepth : (pretty level v).toList.length < depth) :
    value? depth ((pretty level v).toList ++ after) = some (v, after) := by
  -- what stands inside brackets has a shorter text, so that the depth goes down with the brackets
  induction v using induction generalizing level depth after with
  | number n =>
    obtain ⟨depth, rfl⟩ := Nat.exists_eq_succ_of_ne_zero (Nat.ne_zero_of_lt hdepth)
    exact valueWith_number n hafter
  | string text =>
    obtain ⟨depth, rfl⟩ := Nat.exists_eq_succ_of_ne_zero (Nat.ne_zero_of_lt hdepth)
    exact valueWith_string text
  | array items ih =>
    obtain ⟨depth, rfl⟩ := Nat.exists_eq_succ_of_ne_zero (Nat.ne_zero_of_lt hdepth)
    apply valueWith_array (fun _ _ => value?_close)
    intro item hitem after hafter
    rw [value?_append (isBlank_newLine _)]
    have hitemDepth := length_pretty_lt_array level items item hitem
    exact ih item hitem hafter (by omega)
  | object members ih =>
    obtain ⟨depth, rfl⟩ := Nat.exists_eq_succ_of_ne_zero (Nat.ne_zero_of_lt hdepth)
    apply valueWith_object
    intro member hmember after hafter
    have hspace : ∀ c ∈ [' '], isBlank c = true := List.forall_mem_singleton.mpr rfl
    rw [← List.singleton_append, value?_append hspace]
    have hmemberDepth := length_pretty_lt_object level members member hmember
    exact ih member hmember hafter (by omega)

/-! ## Streams -/

/-- Values with blanks around them up to the end of a text, at most `fuel` of them. -/
def valuesUpTo : Nat → List Char → Option (List Json)
  | 0, _ => none
  | fuel + 1, text =>
    match value? (text.length + 1) text with
    | some (v, rest) => (valuesUpTo fuel rest).map (v :: ·)
    | none => if (skipBlanks text).isEmpty then some [] else none

/-- **A stream of values**, up to the end of a text. No more brackets can be open in it than it has
characters, so that many are allowed. -/
def readAll? (text : String) : Option (List Json) :=
  valuesUpTo (text.toList.length + 1) text.toList

/-- Values that are laid out with a line feed behind each of them are read back one by one, with any
blanks before the first one. -/
theorem valuesUpTo_lines {values : List Json} {blanks : List Char} {fuel : Nat}
    (hfuel : values.length < fuel) (hblanks : ∀ c ∈ blanks, isBlank c = true) :
    valuesUpTo fuel (blanks ++ values.flatMap fun v => (pretty 0 v).toList ++ ['\n']) =
      some values := by
  induction values generalizing blanks fuel with
  | nil =>
    obtain ⟨fuel, rfl⟩ := Nat.exists_eq_succ_of_ne_zero (Nat.ne_zero_of_lt hfuel)
    have hnone : ∀ depth, value? depth [] = none := by
      intro depth
      cases depth <;> rfl
    rw [List.flatMap_nil, valuesUpTo, value?_append hblanks, hnone, skipBlanks_append hblanks]
    rfl
  | cons v values ih =>
    obtain ⟨fuel, rfl⟩ := Nat.exists_eq_succ_of_ne_zero (Nat.ne_zero_of_lt hfuel)
    -- the line feed behind a value is a blank before the next one
    have hnewLine : ∀ c ∈ ['\n'], isBlank c = true := List.forall_mem_singleton.mpr rfl
    have htail := ih (Nat.lt_of_succ_lt_succ hfuel) hnewLine
    have hafter : ∀ text, StopsBefore isNumberPart (['\n'] ++ text) := by
      intro text
      exact stopsBefore_cons.mpr rfl
    rw [List.flatMap_cons, List.append_assoc, valuesUpTo, value?_append hblanks,
      value?_pretty v (hafter _) (by simp only [List.length_append]; omega)]
    simp only [htail, Option.map_some]

/-- **A stream of values is read back** where each of them is laid out with a line feed behind it. -/
theorem readAll?_join (values : List Json) :
    readAll? (String.join (values.map fun v => pretty 0 v ++ "\n")) = some values := by
  have hlength : values.length ≤ (values.flatMap fun v => (pretty 0 v).toList ++ ['\n']).length := by
    induction values with
    | nil => exact Nat.le_refl _
    | cons v values ih =>
      simp only [List.flatMap_cons, List.length_append, List.length_cons]
      omega
  have htext : (String.join (values.map fun v => pretty 0 v ++ "\n")).toList =
      values.flatMap fun v => (pretty 0 v).toList ++ ['\n'] := by
    simp [String.toList_join, List.flatMap_map]
  rw [readAll?, htext]
  exact valuesUpTo_lines (Nat.lt_succ_of_le hlength) (List.forall_mem_nil _)

/-- A stream in another layout has values as well, and a comma needs something behind it. -/
example : (readAll? "[ 1,\"a\" ]\t\x7b\x7d").isSome = true ∧ (readAll? "[1,]").isNone = true := by
  decide +kernel

end LoxTools.Json
