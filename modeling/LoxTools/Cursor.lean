/-!
# Cursors

A cursor is a place in a text that only moves forward. It never passes the end, and
reading past the end gives U+0000, which no lexical rule accepts. U+0000 may also be a real
character of the text, so the operations that consume ask `atEnd` first and never take the
reading past the end for a character.

The view of a cursor is `Cursor.rest`, the characters from its position on: moving drops
characters from the front of it.
-/

namespace LoxTools

/-- A place in a text. -/
structure Cursor where
  /-- the whole text -/
  chars : Array Char
  /-- how many characters lie before the cursor -/
  position : Nat
  deriving DecidableEq, Repr

namespace Cursor

/-- The cursor at the start of a text. -/
def start (chars : Array Char) : Cursor :=
  ⟨chars, 0⟩

/-- The cursor at a position, or at the end if the text is shorter. -/
def ofPosition (chars : Array Char) (position : Nat) : Cursor :=
  ⟨chars, min position chars.size⟩

/-- **The view**: the characters from the cursor on. -/
def rest (c : Cursor) : List Char :=
  c.chars.toList.drop c.position

/-! ## Looking -/

/-- Whether no character is left. -/
def atEnd (c : Cursor) : Bool :=
  c.chars.size ≤ c.position

/-- The character `offset` places ahead, or U+0000 past the end. -/
def peek (c : Cursor) (offset : Nat) : Char :=
  c.chars.getD (c.position + offset) '\x00'

/-- The character under the cursor, or U+0000 at the end. -/
def current (c : Cursor) : Char :=
  c.peek 0

/-- Whether there is a character under the cursor and it is the given one. -/
def accepts (c : Cursor) (expected : Char) : Bool :=
  !c.atEnd && c.current == expected

/-! ## Moving -/

/-- One character on; at the end, nowhere. -/
def advance (c : Cursor) : Cursor :=
  if c.atEnd then c else { c with position := c.position + 1 }

/-- Up to `count` characters on. -/
def advanceBy (c : Cursor) (count : Nat) : Cursor :=
  { c with position := min (c.position + count) c.chars.size }

/-- At most `fuel` characters on, as long as they satisfy `p`. -/
def advanceUpTo (p : Char → Bool) : Nat → Cursor → Cursor
  | 0, c => c
  | fuel + 1, c =>
    if !c.atEnd && p c.current then advanceUpTo p fuel c.advance else c

/-- On past every character that satisfies `p`. The characters left bound the run. -/
def advanceWhile (c : Cursor) (p : Char → Bool) : Cursor :=
  advanceUpTo p (c.chars.size - c.position) c

/-- Past the given character if it is under the cursor. -/
def accept (c : Cursor) (expected : Char) : Cursor :=
  if c.accepts expected then c.advance else c

/-- Whether the given characters come next. -/
def startsWithChars (c : Cursor) : List Char → Bool
  | [] => true
  | expected :: more => c.accepts expected && c.advance.startsWithChars more

/-- Whether the given text comes next. -/
def startsWith (c : Cursor) (text : String) : Bool :=
  c.startsWithChars text.toList

/-! ## Cutting out -/

/-- The part of the whole text from `first` up to `stop`, both clamped to the text. -/
def slice (c : Cursor) (first stop : Nat) : String :=
  let stop := min stop c.chars.size
  let first := min first stop
  String.ofList (c.chars.extract first stop).toList

/-- The part of the whole text from `first` up to the cursor. -/
def sliceFrom (c : Cursor) (first : Nat) : String :=
  c.slice first c.position

/-! ## What each operation does to the view

No operation changes the text, and the position follows from the view: moving adds the
number of characters dropped. -/

variable (c : Cursor)

@[simp] theorem rest_start (chars : Array Char) : (start chars).rest = chars.toList := rfl

@[simp] theorem rest_ofPosition (chars : Array Char) (position : Nat) :
    (ofPosition chars position).rest = chars.toList.drop position := by
  unfold rest ofPosition
  rcases Nat.le_total position chars.size with h | h
  · rw [Nat.min_eq_left h]
  · rw [Nat.min_eq_right h, List.drop_of_length_le (by simp), List.drop_of_length_le (by simpa using h)]

@[simp] theorem chars_ofPosition (chars : Array Char) (position : Nat) :
    (ofPosition chars position).chars = chars := rfl

theorem position_ofPosition {chars : Array Char} {position : Nat} (h : position ≤ chars.size) :
    (ofPosition chars position).position = position :=
  Nat.min_eq_left h

theorem length_rest : c.rest.length = c.chars.size - c.position := by
  simp [rest]

theorem atEnd_eq : c.atEnd = c.rest.isEmpty := by
  rw [Bool.eq_iff_iff, List.isEmpty_iff_length_eq_zero, length_rest, atEnd, decide_eq_true_eq]
  omega

theorem peek_eq (offset : Nat) : c.peek offset = c.rest.getD offset '\x00' := by
  rw [peek, rest, Array.getD_eq_getD_getElem?, List.getD_eq_getElem?_getD, List.getElem?_drop,
    Array.getElem?_toList]

theorem current_eq : c.current = c.rest.headD '\x00' := by
  rw [current, peek_eq]
  cases c.rest <;> rfl

theorem accepts_eq (expected : Char) : c.accepts expected = (c.rest.head? == some expected) := by
  rw [accepts, atEnd_eq, current_eq]
  cases c.rest <;> simp

@[simp] theorem chars_advance : c.advance.chars = c.chars := by
  unfold advance
  split <;> rfl

@[simp] theorem rest_advance : c.advance.rest = c.rest.tail := by
  unfold advance
  split
  · rename_i h
    rw [atEnd_eq, List.isEmpty_iff] at h
    rw [h]
    rfl
  · rw [rest, rest, List.tail_drop]

@[simp] theorem chars_advanceBy (count : Nat) : (c.advanceBy count).chars = c.chars := rfl

@[simp] theorem rest_advanceBy (count : Nat) : (c.advanceBy count).rest = c.rest.drop count := by
  rw [rest, rest, List.drop_drop]
  unfold advanceBy
  rcases Nat.le_total (c.position + count) c.chars.size with h | h
  · rw [Nat.min_eq_left h]
  · rw [Nat.min_eq_right h, List.drop_of_length_le (by simp),
      List.drop_of_length_le (by simpa using h)]

@[simp] theorem chars_advanceUpTo (p : Char → Bool) (fuel : Nat) :
    (advanceUpTo p fuel c).chars = c.chars := by
  induction fuel generalizing c with
  | zero => rfl
  | succ fuel ih =>
    unfold advanceUpTo
    split
    · rw [ih, chars_advance]
    · rfl

theorem rest_advanceUpTo (p : Char → Bool) (fuel : Nat) (h : c.rest.length ≤ fuel) :
    (advanceUpTo p fuel c).rest = c.rest.dropWhile p := by
  induction fuel generalizing c with
  | zero =>
    have hnil : c.rest = [] := List.eq_nil_of_length_eq_zero (Nat.le_zero.mp h)
    rw [advanceUpTo, hnil]
    rfl
  | succ fuel ih =>
    rw [advanceUpTo, atEnd_eq, current_eq]
    cases hrest : c.rest with
    | nil => simp [hrest]
    | cons d more =>
      rw [hrest] at h
      have hmore : c.advance.rest = more := by rw [rest_advance, hrest]; rfl
      by_cases hd : p d = true
      · rw [if_pos (by simp [hd]), ih _ (by rw [hmore]; simpa using h), hmore,
          List.dropWhile_cons_of_pos hd]
      · rw [if_neg (by simp [hd]), hrest, List.dropWhile_cons_of_neg hd]

@[simp] theorem chars_advanceWhile (p : Char → Bool) : (c.advanceWhile p).chars = c.chars :=
  chars_advanceUpTo c p _

/-- **Maximality**: what is left does not start with a character that satisfies `p`. -/
@[simp] theorem rest_advanceWhile (p : Char → Bool) :
    (c.advanceWhile p).rest = c.rest.dropWhile p :=
  rest_advanceUpTo c p _ (Nat.le_of_eq c.length_rest)

@[simp] theorem chars_accept (expected : Char) : (c.accept expected).chars = c.chars := by
  unfold accept
  split
  · exact chars_advance c
  · rfl

theorem startsWithChars_eq (text : List Char) :
    c.startsWithChars text = text.isPrefixOf c.rest := by
  induction text generalizing c with
  | nil => simp [startsWithChars]
  | cons expected more ih =>
    rw [startsWithChars, accepts_eq, ih, rest_advance]
    cases c.rest with
    | nil => simp
    | cons d rest =>
      rw [List.isPrefixOf_cons_cons, List.head?_cons, List.tail_cons, Option.some_beq_some,
        Bool.beq_comm]

theorem startsWith_eq (text : String) : c.startsWith text = text.toList.isPrefixOf c.rest :=
  startsWithChars_eq c text.toList

end Cursor

end LoxTools
