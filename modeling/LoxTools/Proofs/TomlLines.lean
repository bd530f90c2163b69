import LoxTools.Toml.Document
import LoxTools.Proofs.TomlNumbers
import LoxTools.Proofs.TomlStrings

/-!
# TOML lines

Values can go over several lines, so where a line ends a statement need not. But where a statement
is over it is over whatever follows, and so the statements of two texts, one below the other, are
those of the first and those of the second (`lines?_join`).

* `ValuesFollow` is about values, arrays and inline tables, by induction on the fuel,
* `local_statement` is about definitions and headers,
* `lines?` reads the statements of some lines.
-/

namespace LoxTools.Toml

/-! ## Arrays and inline tables -/

theorem skipLinesUpTo_of_newLine {cs behind : List Char} (h : newLine? (skipSpaces cs) = some behind)
    (fuel : Nat) : skipLinesUpTo (fuel + 1) cs = skipLinesUpTo fuel behind := by
  rw [skipLinesUpTo]
  split
  · next hcomment =>
    rw [hcomment] at h
    cases h
  · rw [h]

theorem skipLinesUpTo_of_none {cs : List Char} (h : newLine? (skipSpaces cs) = none)
    (hcomment : ∀ rest, skipSpaces cs = '#' :: rest → False) (fuel : Nat) :
    skipLinesUpTo (fuel + 1) cs = some (skipSpaces cs) := by
  rw [skipLinesUpTo]
  split
  · next heq => exact (hcomment _ heq).elim
  · rw [h]

/-- What is left behind blanks and comments is the same with more lines behind, if it is not at the end
of the text. With fuel for each character no fuel is lacking. -/
theorem skipLinesUpTo_newLine {fuel : Nat} {c : Char} {cs rest : List Char}
    (h : skipLinesUpTo fuel cs = some (c :: rest)) (hreturn : c ≠ '\r') (hfuel : cs.length < fuel) :
    c :: rest <:+ cs ∧ ∀ more fuel', (cs ++ '\n' :: more).length < fuel' →
      skipLinesUpTo fuel' (cs ++ '\n' :: more) = some (c :: rest ++ '\n' :: more) := by
  induction fuel generalizing cs with
  | zero => exact absurd hfuel (Nat.not_lt_zero _)
  | succ fuel ih =>
    -- one line passed, the lines behind it are passed alike
    have hline {behind : List Char} (hbehind : skipLinesUpTo fuel behind = some (c :: rest))
        (hsuffix : behind <:+ cs) (hlength : behind.length < cs.length) :
        c :: rest <:+ cs ∧ ∀ more fuel', (cs ++ '\n' :: more).length < fuel' + 1 →
          skipLinesUpTo fuel' (behind ++ '\n' :: more) = some (c :: rest ++ '\n' :: more) := by
      obtain ⟨hrest, hmore⟩ := ih hbehind (by omega)
      refine ⟨hrest.trans hsuffix, fun more fuel' hfuel' => hmore more fuel' ?_⟩
      rw [List.length_append] at hfuel' ⊢
      omega
    rw [skipLinesUpTo] at h
    split at h
    · next comment hcomment =>
      obtain ⟨behind, hend, hbehind⟩ := Option.bind_eq_some_iff.mp h
      obtain ⟨hsuffix, happend⟩ := newLine?_eq_some hend
      have hdropped : behind <:+ comment := hsuffix.trans (List.dropWhile_suffix _)
      have hfront : '#' :: comment <:+ cs := hcomment ▸ skipSpaces_suffix cs
      obtain ⟨hrest, hmore⟩ := hline hbehind
        (hdropped.trans ((List.suffix_cons ..).trans hfront))
        (Nat.lt_of_le_of_lt hdropped.length_le hfront.length_le)
      refine ⟨hrest, fun more fuel' hfuel' => ?_⟩
      cases fuel' with
      | zero => exact absurd hfuel' (Nat.not_lt_zero _)
      | succ fuel' =>
        rw [skipLinesUpTo, skipSpaces_newLine, hcomment, List.cons_append]
        simp only [dropWhile_newLine (show isInLine '\n' = false from rfl), happend]
        exact hmore more fuel' hfuel'
    · next hcomment =>
      split at h
      · next behind hend =>
        obtain ⟨hsuffix, happend⟩ := newLine?_eq_some hend
        obtain ⟨hrest, hmore⟩ := hline h (hsuffix.trans (skipSpaces_suffix cs))
          (Nat.lt_of_lt_of_le (newLine?_length hend) (skipSpaces_suffix cs).length_le)
        refine ⟨hrest, fun more fuel' hfuel' => ?_⟩
        cases fuel' with
        | zero => exact absurd hfuel' (Nat.not_lt_zero _)
        | succ fuel' =>
          rw [skipLinesUpTo_of_newLine (by rw [skipSpaces_newLine]; exact happend _)]
          exact hmore more fuel' hfuel'
      · next hend =>
        have hfront : skipSpaces cs = c :: rest := Option.some.inj h
        refine ⟨hfront ▸ skipSpaces_suffix cs, fun more fuel' hfuel' => ?_⟩
        cases fuel' with
        | zero => exact absurd hfuel' (Nat.not_lt_zero _)
        | succ fuel' =>
          rw [hfront] at hend hcomment
          have hne : c :: rest ≠ ['\r'] := fun heq => hreturn (List.cons.inj heq).1
          rw [skipLinesUpTo_of_none, skipSpaces_newLine, hfront]
          · rw [skipSpaces_newLine, hfront]
            exact newLine?_eq_none hend (List.cons_ne_nil _ _) hne _
          · rw [skipSpaces_newLine, hfront]
            exact ne_cons_newLine hcomment (by decide) more

/-- Blank lines and comments are passed over in the same way with more lines behind, if something comes
behind them. -/
theorem skipLines?_newLine {c : Char} {cs rest : List Char} (h : skipLines? cs = some (c :: rest))
    (hreturn : c ≠ '\r') :
    c :: rest <:+ cs ∧ ∀ more, skipLines? (cs ++ '\n' :: more) = some (c :: rest ++ '\n' :: more) := by
  obtain ⟨hsuffix, hmore⟩ := skipLinesUpTo_newLine h hreturn (Nat.lt_succ_self _)
  exact ⟨hsuffix, fun more => hmore more _ (Nat.lt_succ_self _)⟩

/-- A word is read exactly where the text begins with it. -/
theorem word?_eq_some {word : List Char} {value result : Value} {cs rest : List Char} :
    word? word value cs = some (result, rest) ↔ cs = word ++ rest ∧ result = value := by
  rw [word?]
  constructor
  · intro h
    split at h
    · next hword =>
      obtain ⟨rfl, rfl⟩ := Prod.mk.inj (Option.some.inj h)
      obtain ⟨rest, rfl⟩ := List.isPrefixOf_iff_prefix.mp hword
      exact ⟨by rw [List.drop_left], rfl⟩
    · cases h
  · rintro ⟨rfl, rfl⟩
    rw [if_pos (List.isPrefixOf_iff_prefix.mpr (List.prefix_append ..)), List.drop_left]

theorem local_word (word : List Char) (value : Value) : Local (word? word value) := by
  intro cs result rest h
  obtain ⟨rfl, rfl⟩ := word?_eq_some.mp h
  refine ⟨List.suffix_append .., fun more => ?_⟩
  rw [List.append_assoc]
  exact word?_eq_some.mpr ⟨rfl, rfl⟩

/-- The first characters of the values that are told by them; all other values are numbers or dates. -/
def valueMarks : List Char := ['"', '\'', '[', '\x7b', 't', 'f']

/-- A value that does not begin with one of the marks is a number or a date. -/
theorem value?_of_not_mem {c : Char} (h : c ∉ valueMarks) (fuel depth : Nat) (cs : List Char) :
    value? (fuel + 1) depth (c :: cs) = numberOrDate? (c :: cs) := by
  have hne (mark : Char) (hmark : mark ∈ valueMarks) (rest : List Char) (heq : c :: cs = mark :: rest) :
      False := h ((List.cons.inj heq).1 ▸ hmark)
  rw [value?]
  · exact hne '"' (by decide)
  · exact hne '\'' (by decide)
  · exact hne '[' (by decide)
  · exact hne '\x7b' (by decide)
  · exact hne 't' (by decide)
  · exact hne 'f' (by decide)

/-- No value starts with a carriage return. -/
theorem value?_return (fuel depth : Nat) (cs : List Char) : value? fuel depth ('\r' :: cs) = none := by
  cases fuel with
  | zero => rfl
  | succ fuel => exact value?_of_not_mem (by decide) fuel depth cs

theorem value?_nil (fuel depth : Nat) : value? fuel depth [] = none := by
  cases fuel with
  | zero => rfl
  | succ fuel => rfl

/-- A reader behind blank lines is followed as it is without them, if it finds nothing at the end of the
text or in front of a carriage return. -/
theorem Follows.skipLines {α : Type} {read read' : Reader α} (hread : Follows read read')
    (hnil : read [] = none) (hreturn : ∀ cs, read ('\r' :: cs) = none) :
    Follows (fun cs => (skipLines? cs).bind read) fun cs => (skipLines? cs).bind read' := by
  intro cs value rest h
  obtain ⟨front, hfront, hvalue⟩ := Option.bind_eq_some_iff.mp h
  cases front with
  | nil =>
    rw [hnil] at hvalue
    cases hvalue
  | cons c front =>
    have hne : c ≠ '\r' := by
      rintro rfl
      rw [hreturn] at hvalue
      cases hvalue
    obtain ⟨hsuffix, hmore⟩ := skipLines?_newLine hfront hne
    obtain ⟨hsuffix', hmore'⟩ := hread _ _ _ hvalue
    refine ⟨hsuffix'.trans hsuffix, fun more => ?_⟩
    simp only [hmore, Option.bind_some, hmore']

/-- What may stand behind an item of an array: a comma and more items, or the closing bracket. -/
def itemsBehind? (fuel depth : Nat) (item : Value) : Reader (List Value)
  | ',' :: rest => (items? fuel depth rest).map fun (items, rest) => (item :: items, rest)
  | ']' :: rest => some ([item], rest)
  | _ => none

/-- The items of an array behind blank lines: none at the closing bracket, or a first one and those
behind it. -/
def itemsFrom? (fuel depth : Nat) : Reader (List Value)
  | ']' :: rest => some ([], rest)
  | cs => (value? fuel depth cs).bind fun (item, rest) =>
    (skipLines? rest).bind (itemsBehind? fuel depth item)

theorem itemsFrom?_of_ne {cs : List Char} (h : ∀ rest, cs = ']' :: rest → False) (fuel depth : Nat) :
    itemsFrom? fuel depth cs = (value? fuel depth cs).bind fun (item, rest) =>
      (skipLines? rest).bind (itemsBehind? fuel depth item) := by
  rw [itemsFrom?]
  exact h

theorem itemsFrom?_nil (fuel depth : Nat) : itemsFrom? fuel depth [] = none := by
  rw [itemsFrom?_of_ne (by simp), value?_nil]
  rfl

theorem itemsFrom?_return (fuel depth : Nat) (cs : List Char) :
    itemsFrom? fuel depth ('\r' :: cs) = none := by
  rw [itemsFrom?_of_ne (by simp), value?_return]
  rfl

/-- The items of an array are those that come behind blank lines. -/
theorem items?_succ (fuel depth : Nat) :
    items? (fuel + 1) depth = fun cs => (skipLines? cs).bind (itemsFrom? fuel depth) := by
  funext cs
  rw [items?]
  refine congrArg ((skipLines? cs).bind ·) (funext fun front => ?_)
  split
  · rfl
  · next hclose =>
    rw [itemsFrom?_of_ne hclose]
    refine congrArg ((value? fuel depth front).bind ·) (funext fun (item, behind) => ?_)
    refine congrArg ((skipLines? behind).bind ·) (funext fun next => ?_)
    simp only
    split
    · next rest =>
      rw [itemsBehind?]
      cases items? fuel depth rest <;> rfl
    · rfl
    · next hcomma hclose =>
      rw [itemsBehind?]
      · exact hcomma
      · exact hclose

/-- What may stand behind a member of an inline table: a comma and more members, or the closing brace.
-/
def membersBehind? (fuel depth : Nat) (entries : Entries) : Reader Entries
  | ',' :: rest => members? fuel depth entries rest
  | '\x7d' :: rest => some (entries, rest)
  | _ => none

/-- The members of an inline table are a first one, which is put into the table, and those behind it. -/
theorem members?_succ (fuel depth : Nat) (entries : Entries) :
    members? (fuel + 1) depth entries = fun cs => (key? cs).bind fun name =>
      (expect? '=' name.2).bind fun rest => (value? fuel depth (skipSpaces rest)).bind fun member =>
        (entries.insert name.1.1 name.1.2 member.1).bind fun entries =>
          membersBehind? fuel depth entries (skipSpaces member.2) := by
  funext cs
  rw [members?]
  refine congrArg ((key? cs).bind ·) (funext fun ((path, name), behindKey) => ?_)
  refine congrArg ((expect? '=' behindKey).bind ·) (funext fun behindSign => ?_)
  refine congrArg ((value? fuel depth (skipSpaces behindSign)).bind ·)
    (funext fun (member, behind) => ?_)
  refine congrArg ((entries.insert path name member).bind ·) (funext fun added => ?_)
  simp only
  split
  · next heq => rw [heq, membersBehind?]
  · next heq => rw [heq, membersBehind?]
  · next hcomma hclose =>
    rw [membersBehind?]
    · exact hcomma
    · exact hclose

/-- **The readers of values with some fuel** are followed by those with some other fuel. -/
structure ValuesFollow (fuel fuel' : Nat) : Prop where
  /-- this holds of values -/
  value : ∀ depth, Follows (value? fuel depth) (value? fuel' depth)
  /-- this holds of the items of arrays -/
  items : ∀ depth, Follows (items? fuel depth) (items? fuel' depth)
  /-- this holds of the members of inline tables -/
  members : ∀ depth entries, Follows (members? fuel depth entries) (members? fuel' depth entries)

namespace ValuesFollow

variable {fuel fuel' : Nat}

/-- Behind an item of an array readers with more fuel follow. -/
theorem itemsBehind (h : ValuesFollow fuel fuel') (depth : Nat) (item : Value) :
    Follows (itemsBehind? fuel depth item) (itemsBehind? fuel' depth item) := by
  refine .head rfl fun c => ?_
  by_cases hcomma : c = ','
  · subst hcomma
    exact (h.items depth).map (item :: ·)
  by_cases hclose : c = ']'
  · subst hclose
    exact .done [item]
  · exact .of_none fun cs => by simp [itemsBehind?, hcomma, hclose]

theorem itemsFrom (h : ValuesFollow fuel fuel') (depth : Nat) :
    Follows (itemsFrom? fuel depth) (itemsFrom? fuel' depth) := by
  have hclosed : Local fun cs => some (([] : List Value), cs) := .done []
  have hitem := (h.value depth).bind fun item => (h.itemsBehind depth item).skipLines rfl fun cs => rfl
  exact .front ']' (by decide) hclosed hitem (itemsFrom?_of_ne · fuel depth)
    (itemsFrom?_of_ne · fuel' depth)

theorem succ_items (h : ValuesFollow fuel fuel') (depth : Nat) :
    Follows (items? (fuel + 1) depth) (items? (fuel' + 1) depth) := by
  rw [items?_succ, items?_succ]
  exact (h.itemsFrom depth).skipLines (itemsFrom?_nil fuel depth) (itemsFrom?_return fuel depth)

theorem membersBehind (h : ValuesFollow fuel fuel') (depth : Nat) (entries : Entries) :
    Follows (membersBehind? fuel depth entries) (membersBehind? fuel' depth entries) := by
  refine .head rfl fun c => ?_
  by_cases hcomma : c = ','
  · subst hcomma
    exact h.members depth entries
  by_cases hclose : c = '\x7d'
  · subst hclose
    exact .done entries
  · exact .of_none fun cs => by simp [membersBehind?, hcomma, hclose]

theorem succ_members (h : ValuesFollow fuel fuel') (depth : Nat) (entries : Entries) :
    Follows (members? (fuel + 1) depth entries) (members? (fuel' + 1) depth entries) := by
  rw [members?_succ, members?_succ]
  exact local_key.bind fun name => .expect (.skipSpaces ((h.value depth).bind fun member =>
    .decided (entries.insert name.1 name.2 member) fun added =>
      (h.membersBehind depth added).skipSpaces)) '='

/-- Behind the opening brace of an inline table readers with more fuel follow. -/
theorem inline (h : ValuesFollow fuel fuel') (depth : Nat) :
    Follows
      (fun cs => match skipSpaces cs with
        | '\x7d' :: rest => some (Value.table .inline [], rest)
        | _ => (members? fuel depth [] cs).map fun (entries, rest) => (.table .inline entries, rest))
      fun cs => match skipSpaces cs with
        | '\x7d' :: rest => some (Value.table .inline [], rest)
        | _ => (members? fuel' depth [] cs).map fun (entries, rest) => (.table .inline entries, rest) := by
  intro cs value rest hvalue
  simp only at hvalue
  split at hvalue
  · next hclose =>
    obtain ⟨rfl, rfl⟩ := Prod.mk.inj (Option.some.inj hvalue)
    have hsuffix := skipSpaces_suffix cs
    rw [hclose] at hsuffix
    refine ⟨(List.suffix_cons ..).trans hsuffix, fun more => ?_⟩
    simp only [skipSpaces_newLine, hclose, List.cons_append]
  · next hopen =>
    obtain ⟨hsuffix, hmore⟩ := (h.members depth []).map (Value.table .inline) _ _ _ hvalue
    refine ⟨hsuffix, fun more => ?_⟩
    simp only [skipSpaces_newLine]
    split
    · next heq => exact (ne_cons_newLine hopen (by decide) more _ heq).elim
    · exact hmore more

theorem succ_value (h : ValuesFollow fuel fuel') (depth : Nat) :
    Follows (value? (fuel + 1) depth) (value? (fuel' + 1) depth) := by
  intro cs value rest hvalue
  cases cs with
  | nil => cases hvalue
  | cons c cs =>
    by_cases hmark : c ∈ valueMarks
    · simp only [valueMarks, List.mem_cons, List.not_mem_nil, or_false] at hmark
      obtain rfl | rfl | rfl | rfl | rfl | rfl := hmark
      · exact local_string.map Value.string _ _ _ hvalue
      · exact local_string.map Value.string _ _ _ hvalue
      · rw [value?] at hvalue
        split at hvalue
        · cases hvalue
        · next hdepth =>
          obtain ⟨hsuffix, hmore⟩ := (h.items (depth - 1)).map Value.array _ _ _ hvalue
          refine ⟨hsuffix.trans (List.suffix_cons ..), fun more => ?_⟩
          rw [List.cons_append, value?, if_neg hdepth]
          exact hmore more
      · rw [value?] at hvalue
        split at hvalue
        · cases hvalue
        · next hdepth =>
          obtain ⟨hsuffix, hmore⟩ := h.inline (depth - 1) _ _ _ hvalue
          refine ⟨hsuffix.trans (List.suffix_cons ..), fun more => ?_⟩
          rw [List.cons_append, value?, if_neg hdepth]
          exact hmore more
      · exact local_word _ _ _ _ _ hvalue
      · exact local_word _ _ _ _ _ hvalue
    · rw [value?_of_not_mem hmark] at hvalue
      obtain ⟨hsuffix, hmore⟩ := local_numberOrDate _ _ _ hvalue
      refine ⟨hsuffix, fun more => ?_⟩
      rw [List.cons_append, value?_of_not_mem hmark]
      exact hmore more

end ValuesFollow

/-- **The readers of values are followed by those with more fuel.** By induction on the fuel: values,
items and members call one another with less of it. -/
theorem valuesFollow {fuel fuel' : Nat} (h : fuel ≤ fuel') : ValuesFollow fuel fuel' := by
  induction fuel generalizing fuel' with
  | zero => exact ⟨fun _ => .of_none fun _ => rfl, fun _ => .of_none fun _ => rfl,
      fun _ _ => .of_none fun _ => rfl⟩
  | succ fuel ih =>
    cases fuel' with
    | zero => exact absurd h (Nat.not_succ_le_zero fuel)
    | succ fuel' =>
      have hbelow := ih (Nat.le_of_succ_le_succ h)
      exact ⟨hbelow.succ_value, hbelow.succ_items, hbelow.succ_members⟩

theorem local_topValue : Local topValue? := by
  intro cs value rest h
  obtain ⟨hsuffix, -⟩ := (valuesFollow (Nat.le_refl _)).value _ _ _ _ h
  refine ⟨hsuffix, fun more => ?_⟩
  have hfuel : 2 * cs.length + 2 ≤ 2 * (cs ++ '\n' :: more).length + 2 := by
    rw [List.length_append]
    omega
  exact ((valuesFollow hfuel).value _ _ _ _ h).2 more

/-! ## Statements -/

theorem local_definition : Local definition? := by
  have h := local_key.bind fun name =>
    ((local_topValue.bind fun value =>
      .done (Statement.define name.1 name.2 value)).skipSpaces).expect '='
  exact h

/-- A header that is not repeated, behind its opening bracket. -/
def single? (cs : List Char) : Option (Statement × List Char) := do
  let ((path, name), rest) ← key? cs
  let rest ← expect? ']' rest
  some (.header path name, rest)

theorem header?_of_ne {cs : List Char} (h : ∀ rest, cs = '[' :: rest → False) :
    header? cs = single? cs := by
  rw [header?, single?]
  exact h

/-- A header does not look behind a line end. -/
theorem local_header : Local header? := by
  have hsingle := local_key.bind fun name => .expect (.done (Statement.header name.1 name.2)) ']'
  have hrepeated := local_key.bind fun name =>
    .expect (.expect (.done (Statement.element name.1 name.2)) ']') ']'
  exact .front '[' (by decide) hrepeated hsingle header?_of_ne header?_of_ne

theorem statement?_of_ne {cs : List Char} (h : ∀ rest, cs = '[' :: rest → False) :
    statement? cs = definition? cs := by
  rw [statement?]
  exact h

/-- **A statement does not look behind a line end.** -/
theorem local_statement : Local statement? :=
  .front '[' (by decide) local_header local_definition statement?_of_ne statement?_of_ne

/-- **A statement takes a character at least.** -/
theorem statement?_length {cs rest : List Char} {statement : Statement}
    (h : statement? cs = some (statement, rest)) : rest.length < cs.length := by
  by_cases hheader : ∃ behind, cs = '[' :: behind
  · obtain ⟨cs, rfl⟩ := hheader
    exact Nat.lt_succ_of_le (local_header _ _ _ h).1.length_le
  · rw [statement?_of_ne fun rest heq => hheader ⟨rest, heq⟩] at h
    obtain ⟨⟨⟨path, name⟩, behindKey⟩, hkey, h⟩ := Option.bind_eq_some_iff.mp h
    obtain ⟨behindSign, hsign, h⟩ := Option.bind_eq_some_iff.mp h
    obtain ⟨⟨value, behind⟩, hvalue, heq⟩ := Option.bind_eq_some_iff.mp h
    obtain ⟨rfl, rfl⟩ := Prod.mk.inj (Option.some.inj heq)
    obtain rfl := expect?_eq_some.mp hsign
    have hsuffix : behind <:+ behindSign := (local_topValue _ _ _ hvalue).1.trans (skipSpaces_suffix _)
    exact Nat.lt_of_le_of_lt hsuffix.length_le (local_key _ _ _ hkey).1.length_le

/-! ## Lines -/

theorem skipComment_newLine (cs more : List Char) :
    skipComment (cs ++ '\n' :: more) = skipComment cs ++ '\n' :: more := by
  cases cs with
  | nil => rfl
  | cons c cs =>
    by_cases hc : c = '#'
    · subst hc
      exact dropWhile_newLine rfl cs more
    · simp [skipComment, hc]

theorem skipComment_suffix (cs : List Char) : skipComment cs <:+ cs := by
  unfold skipComment
  split
  · exact (List.dropWhile_suffix _).trans (List.suffix_cons ..)
  · exact List.suffix_rfl

theorem lineEnd?_cons (c : Char) (cs : List Char) : lineEnd? (c :: cs) = newLine? (c :: cs) := by
  rw [lineEnd?]
  exact List.cons_ne_nil c cs

/-- **What is left of a text with more lines behind**, where `rest` is left of the text alone: the same
with these lines behind, or these lines, if the line end between was needed to end the text. -/
def Leaves (rest : List Char) (left : List Char → List Char) : Prop :=
  left = (rest ++ '\n' :: ·) ∨ rest = [] ∧ left = id

/-- A line ends at its own line end, or at the one that is put behind it. -/
theorem lineEnd?_newLine {cs rest : List Char} (h : lineEnd? cs = some rest) :
    rest <:+ cs ∧ ∃ left, Leaves rest left ∧ ∀ more, lineEnd? (cs ++ '\n' :: more) = some (left more) := by
  cases cs with
  | nil =>
    obtain rfl := Option.some.inj h
    exact ⟨List.suffix_rfl, id, .inr ⟨rfl, rfl⟩, fun more => rfl⟩
  | cons c cs =>
    rw [lineEnd?_cons] at h
    obtain ⟨hsuffix, happend⟩ := newLine?_eq_some h
    refine ⟨hsuffix, _, .inl rfl, fun more => ?_⟩
    rw [List.cons_append, lineEnd?_cons]
    exact happend _

/-- A line is finished in the same way with more lines behind: behind blanks and a comment comes its
line end, or the one that is put there. -/
theorem finishLine?_newLine {cs rest : List Char} (h : finishLine? cs = some rest) :
    rest <:+ cs ∧
      ∃ left, Leaves rest left ∧ ∀ more, finishLine? (cs ++ '\n' :: more) = some (left more) := by
  obtain ⟨hsuffix, hmore⟩ := lineEnd?_newLine h
  refine ⟨hsuffix.trans ((skipComment_suffix _).trans (skipSpaces_suffix cs)), ?_⟩
  simpa only [finishLine?, skipSpaces_newLine, skipComment_newLine] using hmore

/-- The statements of the first line behind its blanks. There is at most one of them, and none if there
is only a comment or nothing. -/
def line? : Reader (List Statement)
  | '#' :: rest => (lineEnd? (rest.dropWhile isInLine)).map fun rest => ([], rest)
  | cs =>
    match newLine? cs with
    | some rest => some ([], rest)
    | none => do
      let (statement, rest) ← statement? cs
      let rest ← finishLine? rest
      some ([statement], rest)

theorem line?_of_newLine {cs rest : List Char} (h : newLine? cs = some rest) :
    line? cs = some ([], rest) := by
  unfold line?
  split
  · cases h
  · rw [h]

theorem line?_of_none {cs : List Char} (h : newLine? cs = none)
    (hcomment : ∀ rest, cs = '#' :: rest → False) :
    line? cs = (do
      let (statement, rest) ← statement? cs
      let rest ← finishLine? rest
      some ([statement], rest)) := by
  rw [line?]
  · rw [h]
  · exact hcomment

theorem statementsUpTo_succ (fuel : Nat) (cs : List Char) :
    statementsUpTo (fuel + 1) cs =
      if skipSpaces cs = [] then some []
      else (line? (skipSpaces cs)).bind fun (statements, rest) =>
        (statementsUpTo fuel rest).map (statements ++ ·) := by
  rw [statementsUpTo]
  split
  · next hnil => rw [if_pos hnil]
  · next rest hcomment =>
    rw [if_neg (by rw [hcomment]; exact List.cons_ne_nil _ _), hcomment, line?]
    cases lineEnd? (rest.dropWhile isInLine) with
    | none => rfl
    | some behind => simp
  · next hnil hcomment =>
    rw [if_neg fun heq => hnil heq]
    cases hline : newLine? (skipSpaces cs) with
    | some rest =>
      rw [line?_of_newLine hline]
      simp
    | none =>
      rw [line?_of_none hline hcomment]
      cases statement? (skipSpaces cs) with
      | none => rfl
      | some pair =>
        simp only [Option.bind_eq_bind, Option.bind_some]
        cases finishLine? pair.2 with
        | none => rfl
        | some behind => cases hmore : statementsUpTo fuel behind <;> simp [hmore]

/-- **A line that is not blank to its end** has the same statements with more lines behind. -/
theorem line?_append {cs rest : List Char} {statements : List Statement} (hne : cs ≠ [])
    (h : line? cs = some (statements, rest)) :
    rest.length < cs.length ∧ ∃ left, Leaves rest left ∧
      ∀ more, line? (cs ++ '\n' :: more) = some (statements, left more) := by
  by_cases hcomment : ∃ comment, cs = '#' :: comment
  · obtain ⟨comment, rfl⟩ := hcomment
    obtain ⟨rest', hrest, heq⟩ := Option.map_eq_some_iff.mp h
    obtain ⟨rfl, rfl⟩ := Prod.mk.inj heq
    obtain ⟨hsuffix, left, hleft, hmore⟩ := lineEnd?_newLine hrest
    have hlength : rest'.length ≤ comment.length := (hsuffix.trans (List.dropWhile_suffix _)).length_le
    refine ⟨Nat.lt_succ_of_le hlength, left, hleft, fun more => ?_⟩
    rw [List.cons_append, line?, dropWhile_newLine rfl, hmore]
    rfl
  have hcomment (rest : List Char) (heq : cs = '#' :: rest) : False := hcomment ⟨rest, heq⟩
  cases hline : newLine? cs with
  | some behind =>
    rw [line?_of_newLine hline] at h
    obtain ⟨rfl, rfl⟩ := Prod.mk.inj (Option.some.inj h)
    exact ⟨newLine?_length hline, _, .inl rfl,
      fun more => line?_of_newLine ((newLine?_eq_some hline).2 _)⟩
  | none =>
    rw [line?_of_none hline hcomment] at h
    obtain ⟨⟨statement, behind⟩, hstatement, h⟩ := Option.bind_eq_some_iff.mp h
    obtain ⟨rest', hrest, heq⟩ := Option.bind_eq_some_iff.mp h
    obtain ⟨rfl, rfl⟩ := Prod.mk.inj (Option.some.inj heq)
    have hreturn : cs ≠ ['\r'] := by
      rintro rfl
      cases hstatement
    obtain ⟨hsuffix, left, hleft, hmore⟩ := finishLine?_newLine hrest
    refine ⟨Nat.lt_of_le_of_lt hsuffix.length_le (statement?_length hstatement), left, hleft,
      fun more => ?_⟩
    rw [line?_of_none (newLine?_eq_none hline hne hreturn _)
      (ne_cons_newLine hcomment (by decide) more), (local_statement _ _ _ hstatement).2]
    simp only [Option.bind_eq_bind, Option.bind_some, hmore]

/-- A line takes a character at least, so what is left behind it is shorter. -/
theorem line?_length {cs rest : List Char} {statements : List Statement} (hne : skipSpaces cs ≠ [])
    (h : line? (skipSpaces cs) = some (statements, rest)) : rest.length < cs.length :=
  Nat.lt_of_lt_of_le (line?_append hne h).1 (skipSpaces_suffix cs).length_le

/-- **The statements of some lines**, if all of these can be read. -/
def lines? (cs : List Char) : Option (List Statement) :=
  statementsUpTo (cs.length + 1) cs

/-- Fuel for each character is enough, so more of it makes no difference. -/
theorem statementsUpTo_congr {fuel fuel' : Nat} {cs : List Char} (h : cs.length < fuel)
    (h' : cs.length < fuel') : statementsUpTo fuel cs = statementsUpTo fuel' cs := by
  induction fuel generalizing cs fuel' with
  | zero => exact absurd h (Nat.not_lt_zero _)
  | succ fuel ih =>
    cases fuel' with
    | zero => exact absurd h' (Nat.not_lt_zero _)
    | succ fuel' =>
      rw [statementsUpTo_succ, statementsUpTo_succ]
      split
      · rfl
      · next hne =>
        cases hline : line? (skipSpaces cs) with
        | none => rfl
        | some pair =>
          have hlength : pair.2.length < cs.length := line?_length hne hline
          simp only [Option.bind_some]
          rw [ih (Nat.lt_of_lt_of_le hlength (Nat.le_of_lt_succ h))
            (Nat.lt_of_lt_of_le hlength (Nat.le_of_lt_succ h'))]

/-- **Lines are read one after the other**: the statements of the first one come before those of what is
left. -/
theorem lines?_eq (cs : List Char) :
    lines? cs =
      if skipSpaces cs = [] then some []
      else (line? (skipSpaces cs)).bind fun (statements, rest) =>
        (lines? rest).map (statements ++ ·) := by
  rw [lines?, statementsUpTo_succ]
  split
  · rfl
  · next hne =>
    cases hline : line? (skipSpaces cs) with
    | none => rfl
    | some pair =>
      have hlength : pair.2.length < cs.length := line?_length hne hline
      simp only [Option.bind_some]
      rw [statementsUpTo_congr hlength (Nat.lt_succ_self _), lines?]

/-- **The statements of two texts, one below the other**, are those of the first and those of the
second. By induction on the length of the first, line by line. -/
theorem lines?_join {cs more : List Char} {statements others : List Statement}
    (h : lines? cs = some statements) (hmore : lines? more = some others) :
    lines? (cs ++ '\n' :: more) = some (statements ++ others) := by
  induction hn : cs.length using Nat.strongRecOn generalizing cs statements with
  | ind n ih =>
    have hbelow : skipSpaces cs ++ '\n' :: more ≠ [] :=
      List.append_ne_nil_of_right_ne_nil _ (List.cons_ne_nil _ _)
    rw [lines?_eq, skipSpaces_newLine, if_neg hbelow]
    rw [lines?_eq] at h
    split at h
    · next hblank =>
      obtain rfl := Option.some.inj h
      rw [hblank, List.nil_append, line?_of_newLine rfl]
      simp [hmore]
    · next hne =>
      obtain ⟨⟨first, rest⟩, hline, h⟩ := Option.bind_eq_some_iff.mp h
      obtain ⟨behind, hbehind, rfl⟩ := Option.map_eq_some_iff.mp h
      obtain ⟨left, hleft, hline'⟩ := (line?_append hne hline).2
      rw [hline']
      obtain rfl | ⟨rfl, rfl⟩ := hleft
      · have hrest := ih rest.length (hn ▸ line?_length hne hline) hbehind rfl
        simp [hrest]
      · obtain rfl : behind = [] := (Option.some.inj hbehind).symm
        simp [hmore]

theorem lines?_nil : lines? [] = some [] := rfl

/-- **The statements of many texts, one below the other**, are those of each in turn. -/
theorem lines?_intercalate {α : Type} {text : α → List Char} {statements : α → List Statement}
    {parts : List α} (h : ∀ part ∈ parts, lines? (text part) = some (statements part)) :
    lines? (['\n'].intercalate (parts.map text)) = some (parts.flatMap statements) := by
  induction parts with
  | nil => exact lines?_nil
  | cons part parts ih =>
    rw [List.forall_mem_cons] at h
    cases parts with
    | nil =>
      rw [List.map_singleton, List.intercalate_singleton, h.1, List.flatMap_singleton]
    | cons next parts =>
      rw [List.map_cons, List.map_cons, List.intercalate_cons_cons, List.append_assoc]
      exact lines?_join h.1 (ih h.2)

/-- Lines that can be read make a text that can be read, which does not start with the mark for its
encoding. -/
theorem statements?_of_lines? {cs : List Char} {statements : List Statement}
    (h : lines? cs = some statements) : statements? cs = some statements := by
  have hmark : skipMark cs = cs := by
    unfold skipMark
    split
    · next rest =>
      have hskip : skipSpaces ('\uFEFF' :: rest) = '\uFEFF' :: rest := rfl
      rw [lines?_eq, hskip, if_neg (List.cons_ne_nil _ _)] at h
      obtain ⟨_, hline, -⟩ := Option.bind_eq_some_iff.mp h
      cases hline
    · rfl
  rw [statements?, hmark]
  exact h

/-! ## Definitions on one line -/

/-- A bare key: a name that can be written without quotes. -/
structure IsBareKey (name : List Char) : Prop where
  /-- it has a character at least -/
  ne_nil : name ≠ []
  /-- none of its characters needs quotes -/
  bare : ∀ c ∈ name, isBareKeyChar c = true

theorem ne_of_isBareKeyChar {c other : Char} (h : isBareKeyChar c = true)
    (hother : isBareKeyChar other = false) : c ≠ other := by
  rintro rfl
  rw [hother] at h
  cases h

theorem skipSpaces_of_isBareKeyChar {c : Char} (h : isBareKeyChar c = true) (cs : List Char) :
    skipSpaces (c :: cs) = c :: cs := by
  have hspace : isSpace c = false := Bool.eq_false_iff.mpr fun hspace => by
    rcases isSpace_cases hspace with rfl | rfl
    · cases h
    · cases h
  rw [skipSpaces, List.dropWhile_cons, hspace]
  rfl

/-- A bare key ends at the first blank. -/
theorem key?_bare {name : List Char} (h : IsBareKey name) (cs : List Char) :
    key? (name ++ ' ' :: '=' :: cs) = some (([], String.ofList name), '=' :: cs) := by
  cases name with
  | nil => exact absurd rfl h.ne_nil
  | cons c name =>
    have hc : isBareKeyChar c = true := h.bare c (List.mem_cons_self ..)
    have htake : (c :: name ++ ' ' :: '=' :: cs).takeWhile isBareKeyChar = c :: name := by
      rw [List.takeWhile_append_of_pos h.bare]
      exact List.append_nil _
    have hdrop : (c :: name ++ ' ' :: '=' :: cs).dropWhile isBareKeyChar = ' ' :: '=' :: cs := by
      rw [List.dropWhile_append_of_pos h.bare]
      rfl
    have hpart : keyPart? (c :: name ++ ' ' :: '=' :: cs) =
        some (String.ofList (c :: name), ' ' :: '=' :: cs) := by
      rw [List.cons_append, keyPart?_of_bare (ne_of_isBareKeyChar hc rfl) (ne_of_isBareKeyChar hc rfl),
        ← List.cons_append, htake, hdrop]
      rfl
    have hspaces : skipSpaces (c :: name ++ ' ' :: '=' :: cs) = c :: name ++ ' ' :: '=' :: cs :=
      skipSpaces_of_isBareKeyChar hc _
    rw [key?, maxKeyParts, keyPartsUpTo, hspaces, hpart]
    rfl

/-- A text is read from any of its spellings between double quotes. -/
theorem topValue?_of_spells {body text : List Char} (h : Spells body text) :
    topValue? ('"' :: (body ++ ['"'])) = some (.string (String.ofList text), []) := by
  have hstring : string? ('"' :: (body ++ ['"'])) = some (String.ofList text, []) := by
    rw [string?]
    · rw [h.basicBody]
      rfl
    -- a string between double quotes does not start with a quote
    · intro rest heq
      cases h with
      | nil => cases heq
      | plain _ hquote _ _ => exact hquote (List.cons.inj heq).1
      | short _ _ | four _ _ | eight _ _ => cases (List.cons.inj heq).1
  rw [topValue?, value?, hstring]
  rfl

/-- A truth value is read from its word. -/
theorem topValue?_boolean (value : Bool) :
    topValue? (if value then "true" else "false").toList = some (.boolean value, []) := by
  cases value with
  | true => rfl
  | false => rfl

/-- **The line of a definition**, with a value that fills the rest of it. -/
theorem lines?_definition {name literal : List Char} {value : Value} (hname : IsBareKey name)
    (hblank : skipSpaces literal = literal) (hvalue : topValue? literal = some (value, [])) :
    lines? (name ++ ' ' :: '=' :: ' ' :: literal) = some [.define [] (String.ofList name) value] := by
  cases name with
  | nil => exact absurd rfl hname.ne_nil
  | cons c name =>
    have hc : isBareKeyChar c = true := hname.bare c (List.mem_cons_self ..)
    have hne {other : Char} (hother : isBareKeyChar other = false) (rest : List Char)
        (heq : c :: name ++ ' ' :: '=' :: ' ' :: literal = other :: rest) : False :=
      ne_of_isBareKeyChar hc hother (List.cons.inj heq).1
    have hstatement : statement? (c :: name ++ ' ' :: '=' :: ' ' :: literal) =
        some (.define [] (String.ofList (c :: name)) value, []) := by
      have hspaces : skipSpaces (' ' :: literal) = literal := hblank
      rw [statement?_of_ne (hne rfl), definition?, key?_bare hname]
      simp [expect?_self, hspaces, hvalue]
    have hline : newLine? (c :: name ++ ' ' :: '=' :: ' ' :: literal) = none := by
      rw [newLine?]
      · exact hne rfl
      · exact fun rest => hne rfl ('\n' :: rest)
    have hspaces : skipSpaces (c :: name ++ ' ' :: '=' :: ' ' :: literal) =
        c :: name ++ ' ' :: '=' :: ' ' :: literal := skipSpaces_of_isBareKeyChar hc _
    have hsome : c :: name ++ ' ' :: '=' :: ' ' :: literal ≠ [] := List.cons_ne_nil _ _
    rw [lines?_eq, hspaces, if_neg hsome, line?_of_none hline (hne rfl), hstatement]
    rfl

end LoxTools.Toml
