import LoxTools.Cursor

/-!
# How far a cursor moves

The lexical rules move a cursor and measure how far it came. Here every move is told by the
characters it passes: `Cursor.Past c l d` says that `d` is the cursor `c` moved on past the
characters `l`. Moves follow one another (`Past.trans`), the distance between two cursors is the
number of characters passed (`Past.distance`), and the text cut out between them is those
characters (`Past.sliceFrom_eq`).
-/

namespace LoxTools

/-- A text that does not go on with a character of the class: it is at its end, or its first character
lies outside. This is what ends a run over the class, so it stands as a hypothesis wherever a rule takes
as many characters as it can. -/
def StopsBefore (p : Char → Bool) (text : List Char) : Prop :=
  ∀ c ∈ text.head?, p c = false

theorem stopsBefore_nil (p : Char → Bool) : StopsBefore p [] := by
  intro c hc
  cases hc

theorem stopsBefore_cons {p : Char → Bool} {c : Char} {more : List Char} :
    StopsBefore p (c :: more) ↔ p c = false := by
  constructor
  · intro h
    exact h c rfl
  · intro h d hd
    obtain rfl := Option.some.inj hd
    exact h

/-- What a longest run leaves behind does not go on with its class. -/
theorem stopsBefore_dropWhile (p : Char → Bool) (text : List Char) :
    StopsBefore p (text.dropWhile p) := by
  induction text with
  | nil => exact stopsBefore_nil p
  | cons c more ih =>
    by_cases hc : p c = true
    · rw [List.dropWhile_cons_of_pos hc]
      exact ih
    · rw [List.dropWhile_cons_of_neg hc, stopsBefore_cons]
      exact Bool.eq_false_iff.mpr hc

/-- A text within the class that is at the beginning of another one goes no further than the class does:
where `text` is all of the class that stands there, no `word` of the class is longer. -/
theorem StopsBefore.isPrefix {p : Char → Bool} {word tail text after : List Char}
    (hafter : StopsBefore p after) (h : text ++ after = word ++ tail)
    (hword : ∀ c ∈ word, p c = true) : word <+: text := by
  rcases List.append_eq_append_iff.mp h with ⟨beyond, hbeyond, htail⟩ | ⟨back, hback, -⟩
  · cases beyond with
    | nil => exact ⟨[], by rw [hbeyond, List.append_nil, List.append_nil]⟩
    | cons c more =>
      -- the first character beyond lies in the class and outside
      have hin := hword c (by rw [hbeyond]; exact List.mem_append_right _ (List.mem_cons_self ..))
      have hout := stopsBefore_cons.mp (htail ▸ hafter)
      rw [hin] at hout
      cases hout
  · exact ⟨back, hback.symm⟩

/-- A text within the class, with another one behind that stops it, is the same text whenever it is
read. So the place where such a text ends need not be written down. -/
theorem StopsBefore.append_cancel {p : Char → Bool} {word other rest more : List Char}
    (hrest : StopsBefore p rest) (hmore : StopsBefore p more) (hword : ∀ c ∈ word, p c = true)
    (hother : ∀ c ∈ other, p c = true) (h : word ++ rest = other ++ more) :
    word = other ∧ rest = more := by
  have hback : word <+: other := hmore.isPrefix h.symm hword
  have hforth : other <+: word := hrest.isPrefix h hother
  obtain rfl := hback.eq_of_length_le hforth.length_le
  exact ⟨rfl, List.append_cancel_left h⟩

namespace Cursor

variable {c d e : Cursor} {x : Char} {l l' more after : List Char}

/-- `d` is `c` moved on past the characters `l`. Each operation of a cursor is told by such a list of
characters; positions and slices are then read off the list. -/
structure Past (c : Cursor) (l : List Char) (d : Cursor) : Prop where
  /-- the text is the same -/
  chars : d.chars = c.chars
  /-- the distance is the number of characters -/
  position : d.position = c.position + l.length
  /-- the characters are the ones that stood between -/
  rest : c.rest = l ++ d.rest

/-- Where a move ends, what stands there is what stood behind the characters passed. -/
theorem Past.rest_eq (h : c.Past l d) (hc : c.rest = l ++ after) : d.rest = after :=
  List.append_cancel_left (h.rest.symm.trans hc)

/-- Moves one behind the other are a move past the characters of both. -/
theorem Past.trans (h : c.Past l d) (h' : d.Past l' e) : c.Past (l ++ l') e := by
  refine ⟨h'.chars.trans h.chars, ?_, ?_⟩
  · rw [h'.position, h.position, List.length_append, Nat.add_assoc]
  · rw [h.rest, h'.rest, List.append_assoc]

/-- The distance between two cursors is the number of characters passed, which is how the rules measure
their tokens. -/
theorem Past.distance (h : c.Past l d) : d.position - c.position = l.length := by
  rw [h.position, Nat.add_sub_cancel_left]

/-- A cursor that is further on by the length of a text which stands there has passed it. This is how a
move is known that was not made step by step. -/
theorem past_of_position (hchars : d.chars = c.chars)
    (hpos : d.position = c.position + l.length) (hc : c.rest = l ++ after) : c.Past l d := by
  refine ⟨hchars, hpos, ?_⟩
  have hd : d.rest = c.rest.drop l.length := by
    rw [Cursor.rest, Cursor.rest, hchars, hpos, List.drop_drop]
  rw [hd, hc, List.drop_left]

/-! ## The moves -/

/-- One step passes the character that stands there. -/
theorem past_advance (h : c.rest = x :: more) : c.Past [x] c.advance := by
  have hend : c.atEnd = false := by
    rw [atEnd_eq, h]
    rfl
  refine past_of_position (chars_advance c) ?_ (l := [x]) h
  rw [advance, hend]
  rfl

/-- A bounded run stops where its class stops, if the bound is no smaller than the run. By induction on
the characters of the run; the bound shrinks with them. -/
theorem past_advanceUpTo (p : Char → Bool) (fuel : Nat) (hfuel : l.length ≤ fuel)
    (hc : c.rest = l ++ after) (hl : ∀ x ∈ l, p x = true) (hafter : StopsBefore p after) :
    c.Past l (advanceUpTo p fuel c) := by
  induction l generalizing c fuel with
  | nil =>
    -- the class stops at once: whatever the bound, the cursor stays
    have hstay : advanceUpTo p fuel c = c := by
      cases fuel with
      | zero => rfl
      | succ n =>
        rw [advanceUpTo, atEnd_eq, current_eq, hc]
        cases after with
        | nil => rfl
        | cons x more => simp [stopsBefore_cons.mp hafter]
    rw [hstay]
    exact past_of_position rfl rfl hc
  | cons x l ih =>
    obtain ⟨n, rfl⟩ : ∃ n, fuel = n + 1 := ⟨fuel - 1, by simp at hfuel; omega⟩
    have hgo : (!c.atEnd && p c.current) = true := by
      rw [atEnd_eq, current_eq, hc]
      simpa using hl x (List.mem_cons_self ..)
    have hstep : c.Past [x] c.advance := past_advance hc
    rw [advanceUpTo, if_pos hgo]
    exact hstep.trans (ih n (by simpa using hfuel) (hstep.rest_eq hc)
      fun y hy => hl y (List.mem_cons_of_mem _ hy))

/-- A run passes exactly the characters of its class that stand there, since the bound that it sets
itself is the length of all that is left. -/
theorem past_advanceWhile (p : Char → Bool) (hc : c.rest = l ++ after)
    (hl : ∀ x ∈ l, p x = true) (hafter : StopsBefore p after) :
    c.Past l (c.advanceWhile p) := by
  refine past_advanceUpTo p _ ?_ hc hl hafter
  have hlen := congrArg List.length hc
  rw [length_rest, List.length_append] at hlen
  omega

/-- A character that is there is passed when it is asked for. -/
theorem past_accept (h : c.rest = x :: more) : c.Past [x] (c.accept x) := by
  have hx : c.accepts x = true := by
    rw [accepts_eq, h, List.head?_cons, Option.some_beq_some, beq_self_eq_true]
  rw [accept, if_pos hx]
  exact past_advance h

/-- A character that is not there is not passed. -/
theorem accept_of_stopsBefore (h : StopsBefore (· == x) c.rest) : c.accept x = c := by
  have hx : ¬ c.accepts x = true := by
    rw [accepts_eq]
    cases hrest : c.rest with
    | nil => simp
    | cons y more =>
      rw [hrest, stopsBefore_cons] at h
      simpa using h
  rw [accept, if_neg hx]

/-! ## Cutting out -/

/-- A slice holds the characters between its ends; clamping changes nothing, since `drop` and `take`
clamp by themselves. -/
theorem slice_eq (c : Cursor) (first stop : Nat) :
    c.slice first stop = String.ofList ((c.chars.toList.drop first).take (stop - first)) := by
  rw [slice, Array.toList_extract, List.extract_eq_take_drop]
  congr 1
  rcases Nat.le_total first (min stop c.chars.size) with h | h
  · rw [Nat.min_eq_left h, List.take_eq_take_iff, List.length_drop, Array.length_toList]
    omega
  · -- the first end lies behind the other one or behind the text: nothing is cut out
    rw [Nat.min_eq_right h, Nat.sub_self, List.take_zero, eq_comm, List.take_eq_nil_iff,
      List.drop_eq_nil_iff, Array.length_toList]
    omega

/-- **The text cut out between two cursors** is what was passed on the way from the first to the second.
-/
theorem Past.sliceFrom_eq (h : c.Past l d) : d.sliceFrom c.position = String.ofList l := by
  rw [sliceFrom, slice_eq, h.distance, h.chars, ← Cursor.rest, h.rest, List.take_left]

end Cursor

end LoxTools
