import Mathlib.Data.List.TakeWhile
import LoxTools.Proofs.CursorMotion

/-!
# Cursors refine suffixes

To whoever uses it a cursor is what is left of a text: one asks what comes next, and drops some of
it. Here that is shown to be all there is to a cursor, whatever is done with it in turn:

* `Cursor.Move` — the operations that move a cursor; all others leave it where it is;
* `Cursor.past_apply` — a move passes what it drops from the characters that are left;
* `Cursor.past_follow` — so moves in turn pass what they drop one after another;
* `Cursor.Refines` — what every operation does, told by the characters that are left;
* `cursor_refines_suffix` — every cursor does so, wherever its moves have led.

The invariant that carries this over the moves is `Cursor.Inside`: no cursor passes the end of its
text. Reading there gives U+0000, but no operation that compares or drops takes it for a character.
-/

namespace LoxTools

/-- The longest beginning of a text all of whose characters lie within a class. -/
structure LongestWithin (p : Char → Bool) (passed text : List Char) : Prop where
  /-- the text begins with it -/
  isPrefix : passed <+: text
  /-- all of its characters lie within the class -/
  within : ∀ c ∈ passed, p c = true
  /-- no beginning of the text that lies within the class goes further -/
  longest : ∀ other, other <+: text → (∀ c ∈ other, p c = true) → other <+: passed

/-- The longest beginning within a class is what is taken from a text while the class lasts. -/
theorem longestWithin_takeWhile (p : Char → Bool) (text : List Char) :
    LongestWithin p (text.takeWhile p) text where
  isPrefix := List.takeWhile_prefix p
  within _ hc := List.mem_takeWhile_imp hc
  longest other hother hwithin := by
    obtain ⟨tail, htail⟩ := hother
    have hsplit : text.takeWhile p ++ text.dropWhile p = other ++ tail := by
      rw [List.takeWhile_append_dropWhile, htail]
    exact (stopsBefore_dropWhile p text).isPrefix hsplit hwithin

namespace Cursor

variable {chars : Array Char} {c d first : Cursor} {l : List Char}

/-- A cursor that has not passed the end of its text. -/
def Inside (c : Cursor) : Prop :=
  c.position ≤ c.chars.size

/-- **A move does not pass the end**: what it passes was left. -/
theorem Past.inside (h : c.Past l d) (hc : c.Inside) : d.Inside := by
  have hlength := congrArg List.length h.rest
  rw [length_rest, List.length_append] at hlength
  unfold Inside at *
  rw [h.position, h.chars]
  omega

/-- Passing characters does not lead back. -/
theorem Past.position_le (h : c.Past l d) : c.position ≤ d.position := by
  rw [h.position]
  exact Nat.le_add_right _ _

/-- What is left behind the characters passed is what was left before, without as many characters. -/
theorem Past.rest_eq_drop (h : c.Past l d) : d.rest = c.rest.drop l.length := by
  rw [h.rest, List.drop_left]

/-! ## Moves -/

/-- An operation that moves a cursor. -/
inductive Move where
  /-- one character on -/
  | advance
  /-- several characters on -/
  | advanceBy (count : Nat)
  /-- on past the characters of a class -/
  | advanceWhile (p : Char → Bool)
  /-- past one character, if it is the expected one -/
  | accept (expected : Char)

/-- What a move does to a cursor. -/
def Move.apply : Move → Cursor → Cursor
  | .advance, c => c.advance
  | .advanceBy count, c => c.advanceBy count
  | .advanceWhile p, c => c.advanceWhile p
  | .accept expected, c => c.accept expected

/-- What a move drops from the characters that are left. -/
def Move.drops : Move → List Char → List Char
  | .advance, rest => rest.take 1
  | .advanceBy count, rest => rest.take count
  | .advanceWhile p, rest => rest.takeWhile p
  | .accept expected, rest => if [expected] <+: rest then [expected] else []

/-- What moves in turn drop from the characters that are left. -/
def Move.dropInTurn : List Move → List Char → List Char
  | [], _ => []
  | move :: moves, rest =>
    move.drops rest ++ dropInTurn moves (rest.drop (move.drops rest).length)

/-- A cursor after several moves, made one after another. -/
def follow (c : Cursor) (moves : List Move) : Cursor :=
  moves.foldl (fun here move => move.apply here) c

/-- Moves and then more moves lead where all of them in turn lead. -/
theorem follow_append (c : Cursor) (moves more : List Move) :
    c.follow (moves ++ more) = (c.follow moves).follow more :=
  List.foldl_append

/-- A cursor that stays where it is passes nothing. -/
theorem past_nil (c : Cursor) : c.Past [] c :=
  past_of_position rfl rfl rfl

/-- Advancing passes the next character, and nothing at the end. -/
theorem past_take_one (c : Cursor) : c.Past (c.rest.take 1) c.advance := by
  cases hrest : c.rest with
  | nil =>
    have hstay : c.advance = c := by rw [advance, atEnd_eq, hrest]; rfl
    rw [hstay]
    exact c.past_nil
  | cons x more => exact past_advance hrest

/-- Advancing by a number of characters passes that many, or all that are left if they are fewer. The
cursor must be inside of its text, or else the position could be put back to the end. -/
theorem past_take (hc : c.Inside) (count : Nat) : c.Past (c.rest.take count) (c.advanceBy count) := by
  refine past_of_position rfl ?_ (List.take_append_drop count c.rest).symm
  -- clamping the position clamps the count, because the cursor is not behind the end
  have hcount : min (c.position + count) c.chars.size =
      c.position + min count (c.chars.size - c.position) := by
    rw [← Nat.add_min_add_left, Nat.add_sub_cancel' hc]
  rw [List.length_take, length_rest]
  exact hcount

/-- Advancing over a class passes what the text that is left begins with in this class. -/
theorem past_takeWhile (c : Cursor) (p : Char → Bool) :
    c.Past (c.rest.takeWhile p) (c.advanceWhile p) :=
  past_advanceWhile p List.takeWhile_append_dropWhile.symm (fun _ hx => List.mem_takeWhile_imp hx)
    (stopsBefore_dropWhile p c.rest)

/-- A character is accepted exactly if it comes next. The comparison asks for a character, so at the end
it fails whatever is expected. -/
theorem accepts_iff (c : Cursor) (x : Char) : c.accepts x = true ↔ [x] <+: c.rest := by
  rw [accepts_eq, beq_iff_eq, List.singleton_prefix_iff_head?_eq_some]

/-- Accepting passes the expected character if it comes next, and nothing otherwise. -/
theorem past_accepted (c : Cursor) (x : Char) :
    c.Past (if [x] <+: c.rest then [x] else []) (c.accept x) := by
  split
  · rename_i hx
    obtain ⟨more, hmore⟩ := hx
    exact past_accept hmore.symm
  · rename_i hx
    have hstay : c.accept x = c := if_neg fun haccepts => hx ((c.accepts_iff x).mp haccepts)
    rw [hstay]
    exact c.past_nil

/-- **A move passes what it drops** from the characters that are left, as long as the cursor is inside
of its text. -/
theorem past_apply (hc : c.Inside) (move : Move) : c.Past (move.drops c.rest) (move.apply c) := by
  cases move with
  | advance => exact c.past_take_one
  | advanceBy count => exact past_take hc count
  | advanceWhile p => exact c.past_takeWhile p
  | accept expected => exact c.past_accepted expected

/-- **Moves in turn pass what they drop in turn.** By induction on the moves: each of them leaves the
cursor inside of its text, which is all that the next one needs. -/
theorem past_follow (hc : c.Inside) (moves : List Move) :
    c.Past (Move.dropInTurn moves c.rest) (c.follow moves) := by
  induction moves generalizing c with
  | nil => exact c.past_nil
  | cons move moves ih =>
    have hmove := past_apply hc move
    -- the other moves drop from what the first one has left
    have hmoves := ih (hmove.inside hc)
    rw [hmove.rest_eq_drop] at hmoves
    exact hmove.trans hmoves

/-! ## Slices -/

/-- A slice is the part of the text between its ends. Clamping the ends to the text first and cutting
then comes to the same part. -/
theorem toList_slice (c : Cursor) (first stop : Nat) :
    (c.slice first stop).toList =
      (c.chars.toList.take (min stop c.chars.size)).drop (min first (min stop c.chars.size)) := by
  rw [slice, String.toList_ofList, Array.toList_extract, List.extract_eq_take_drop,
    List.drop_take]

/-- **Slices that meet make up the slice over both**, wherever in the text or behind it their ends are.
-/
theorem slice_append (c : Cursor) {a b e : Nat} (hab : a ≤ b) (hbe : b ≤ e) :
    c.slice a b ++ c.slice b e = c.slice a e := by
  have hlength : e - a = (b - a) + (e - b) := by omega
  have hdrop : c.chars.toList.drop b = (c.chars.toList.drop a).drop (b - a) := by
    rw [List.drop_drop, Nat.add_sub_cancel' hab]
  rw [slice_eq, slice_eq, slice_eq, ← String.ofList_append, hdrop, hlength, List.take_add]

/-! ## Refinement -/

/-- **A cursor that refines a suffix of a text**: the result of each operation is told by the characters
that are left, and each move drops some of them. -/
structure Refines (c : Cursor) (text : List Char) : Prop where
  /-- the text of the cursor is the given one -/
  text_eq : c.chars.toList = text
  /-- the cursor has not passed the end -/
  position_le : c.position ≤ text.length
  /-- the characters left are those from its position on -/
  rest_eq : c.rest = text.drop c.position
  /-- at the end none is left -/
  atEnd_iff : c.atEnd = true ↔ c.rest = []
  /-- looking ahead gives one of them, or U+0000 behind them -/
  peek_eq : ∀ offset, c.peek offset = (c.rest[offset]?).getD '\x00'
  /-- a word comes next if they begin with it -/
  startsWith_iff : ∀ word : String, c.startsWith word = true ↔ word.toList <+: c.rest
  /-- a character is accepted if they begin with it -/
  accepts_iff : ∀ x, c.accepts x = true ↔ [x] <+: c.rest
  /-- accepting a character drops it if it comes next, and drops nothing otherwise -/
  past_accept : ∀ x, c.Past (if [x] <+: c.rest then [x] else []) (c.accept x)
  /-- advancing drops one character, if there is one -/
  past_advance : c.Past (c.rest.take 1) c.advance
  /-- advancing by a number drops as many characters, or all if there are fewer -/
  past_advanceBy : ∀ count, c.Past (c.rest.take (min count c.rest.length)) (c.advanceBy count)
  /-- advancing over a class drops the longest beginning that lies within it -/
  past_advanceWhile : ∀ p, ∃ passed, LongestWithin p passed c.rest ∧ c.Past passed (c.advanceWhile p)
  /-- a slice is the part of the text between its clamped ends -/
  slice_eq : ∀ first stop, (c.slice first stop).toList =
    (text.take (min stop text.length)).drop (min first (min stop text.length))
  /-- slices that meet make up one slice -/
  slice_append : ∀ a b e, a ≤ b → b ≤ e → c.slice a b ++ c.slice b e = c.slice a e

/-- **Inside its text, a cursor refines a suffix** of it. -/
theorem Inside.refines (hc : c.Inside) : c.Refines c.chars.toList where
  text_eq := rfl
  position_le := by rwa [Array.length_toList]
  rest_eq := rfl
  atEnd_iff := by rw [Cursor.atEnd_eq, List.isEmpty_iff]
  peek_eq offset := by rw [Cursor.peek_eq, List.getD_eq_getElem?_getD]
  startsWith_iff word := by rw [Cursor.startsWith_eq, List.isPrefixOf_iff_prefix]
  accepts_iff := c.accepts_iff
  past_accept := c.past_accepted
  past_advance := c.past_take_one
  past_advanceBy count := by
    rw [← List.take_eq_take_min]
    exact past_take hc count
  past_advanceWhile p := ⟨_, longestWithin_takeWhile p c.rest, c.past_takeWhile p⟩
  slice_eq first stop := by rw [toList_slice, Array.length_toList]
  slice_append _ _ _ hab hbe := c.slice_append hab hbe

/-- A cursor as it is made on a text, before any moves. -/
inductive Placed (chars : Array Char) : Cursor → Prop
  /-- at the start -/
  | start : Placed chars (.start chars)
  /-- at a position, or at the end if the text is shorter -/
  | ofPosition (position : Nat) : Placed chars (.ofPosition chars position)

/-- A cursor that is made on a text reads this text. -/
theorem Placed.chars_eq (h : Placed chars first) : first.chars = chars := by
  cases h <;> rfl

/-- A cursor that is made on a text is inside of it: a position behind the end is put back to the end.
-/
theorem Placed.inside (h : Placed chars first) : first.Inside := by
  cases h with
  | start => exact Nat.zero_le _
  | ofPosition position => exact Nat.min_le_right _ _

end Cursor

/-- **A cursor refines a suffix of its text**, wherever it was made and whatever moves came before. From
there on no moves lead back, and what they have dropped since can be cut out behind them. -/
theorem cursor_refines_suffix {chars : Array Char} {first : Cursor}
    (h : Cursor.Placed chars first) (before since : List Cursor.Move) :
    (first.follow before).Refines chars.toList ∧
      (first.follow before).position ≤ (first.follow (before ++ since)).position ∧
      (first.follow before).Past (Cursor.Move.dropInTurn since (first.follow before).rest)
        (first.follow (before ++ since)) ∧
      (first.follow (before ++ since)).sliceFrom (first.follow before).position =
        String.ofList (Cursor.Move.dropInTurn since (first.follow before).rest) := by
  have hbefore := Cursor.past_follow h.inside before
  have hhere : (first.follow before).Inside := hbefore.inside h.inside
  have hsince := Cursor.past_follow hhere since
  rw [← h.chars_eq, ← hbefore.chars, Cursor.follow_append]
  exact ⟨hhere.refines, hsince.position_le, hsince, hsince.sliceFrom_eq⟩

/-- U+0000 in the text is accepted. The end is not taken for one: nothing is accepted there, and the run
that every character satisfies stops. -/
theorem cursor_refines_suffix_null :
    let first := Cursor.start #['a', '\x00', 'é', '\x00']
    let before : List Cursor.Move := [.advance, .accept '\x00']
    let since : List Cursor.Move := [.advanceWhile fun _ => true, .accept '\x00', .advanceBy 3]
    let here := first.follow before
    let there := first.follow (before ++ since)
    here.position = 2 ∧ there.position = 4 ∧ there.current = '\x00' ∧ there.accepts '\x00' = false ∧
      here.Refines ['a', '\x00', 'é', '\x00'] ∧ here.Past ['é', '\x00'] there ∧
      there.sliceFrom here.position = "é\x00" := by
  have hplaced : Cursor.Placed #['a', '\x00', 'é', '\x00'] (.start #['a', '\x00', 'é', '\x00']) :=
    .start
  obtain ⟨hhere, -, hpast, hslice⟩ := cursor_refines_suffix hplaced [.advance, .accept '\x00']
    [.advanceWhile fun _ => true, .accept '\x00', .advanceBy 3]
  exact ⟨by decide, by decide, by decide, by decide, hhere, hpast, hslice⟩

end LoxTools
