import LoxTools.Proofs.Scanning

/-!
# Jumping from token to token

A scan decides at every position, and passes over what it has already read by looking at the token
emitted last. A lexer that goes on directly behind each blank, comment and token never stands at
such a position:

* `Lexer.jump` — that lexer, which ends because each part that it jumps over has a length;
* `Between.result_onward` — from between two tokens on, scanning comes to the same result;
* `scan_eq_jump` — so a whole scan does.
-/

namespace LoxTools

namespace Lexer

variable {lexer : Lexer} {line : Line} {index : Nat} {c : Char} {text more after : List Char}

/-! ## The jumps -/

/-- The end of the line that a position is on: its line feed, or the end of the source. -/
def lineEnd (lexer : Lexer) (index : Nat) : Nat :=
  ((lexer.cursorAt index).advanceWhile (· != '\n')).position

/-- The end of a line is behind the text up to the next line feed, or up to the end of everything. -/
theorem lineEnd_eq (h : lexer.rest index = c :: more)
    (htext : lexer.rest index = text ++ after) (hfeed : '\n' ∉ text) (hafter : EndsLine after) :
    lexer.lineEnd index = index + text.length := by
  have hinside : ∀ x ∈ text, (x != '\n') = true := by
    intro x hx
    exact bne_iff_ne.mpr fun heq => hfeed (heq ▸ hx)
  have hpast := Cursor.past_advanceWhile _ (rest_cursorAt htext) hinside hafter
  rw [lineEnd, hpast.position, position_cursorAt h]

/-- What a comment takes: its two slashes and a body up to the end of the line. -/
theorem exists_comment (h : lexer.commentStarts index = true) :
    ∃ body after, lexer.rest index = '/' :: '/' :: (body ++ after) ∧ '\n' ∉ body ∧
      EndsLine after ∧ lexer.lineEnd index = index + (body.length + 2) := by
  obtain ⟨more, hmore⟩ := commentStarts_eq.mp h
  obtain ⟨body, after, rfl, hbody, hends⟩ := exists_line more
  have hrest : lexer.rest index = '/' :: '/' :: (body ++ after) := hmore.symm
  have hwhole : lexer.rest index = ('/' :: '/' :: body) ++ after := hrest
  have hslashes : '\n' ∉ '/' :: '/' :: body := by simp [hbody]
  exact ⟨body, after, hrest, hbody, hends, lineEnd_eq hrest hwhole hslashes hends⟩

/-- A comment takes its slashes at least, and nothing beyond the source. This is what makes the jumping
lexer end. -/
theorem lineEnd_bounds (h : lexer.commentStarts index = true) :
    index < lexer.lineEnd index ∧ lexer.lineEnd index ≤ lexer.chars.size := by
  obtain ⟨body, after, hrest, -, -, hend⟩ := exists_comment h
  have hlength := congrArg List.length hrest
  rw [length_rest, List.length_cons, List.length_cons, List.length_append] at hlength
  omega

/-- **Progress**: what is recognised behind the blanks and comments has a length. It stands with the
jumping lexer, whose recursion goes to the end of the token. -/
theorem lt_stop_of_tokenAt {token : Token} (hc : lexer.chars[index]? = some c)
    (hblank : ¬ isBlank c = true) (hstarts : ¬ lexer.commentStarts index = true)
    (htoken : lexer.tokenAt line index = .ok token) : index < token.stop := by
  obtain ⟨more, hrest⟩ := exists_rest hc
  obtain ⟨lexeme, after, rfl, -, fits⟩ := lexeme_of_tokenAt hrest hblank hstarts htoken
  have hpos := List.length_pos_iff.mpr fits.wellFormed.spelling_ne_nil
  simpa [Token.stop, Lexeme.token] using hpos

/-- **The jumping lexer**, from a position on its line: it ends with the source, goes one position on
behind a blank, where a line feed begins a new line, and to the end of the line at a comment. Anywhere
else a token is recognised, which is an error or leads to the token's end. -/
def jump (lexer : Lexer) (line : Line) (index : Nat) : Except LexError (List Token) :=
  match hc : lexer.chars[index]? with
  | none => .ok []
  | some c =>
    have := (Array.getElem?_eq_some_iff.mp hc).1
    if c = '\n' then jump lexer (line.next index) (index + 1)
    else if hblank : isBlank c then jump lexer line (index + 1)
    else if hstarts : lexer.commentStarts index then
      have := (lineEnd_bounds hstarts).1
      jump lexer line (lexer.lineEnd index)
    else match htoken : lexer.tokenAt line index with
      | .error error => .error error
      | .ok token =>
        have := lt_stop_of_tokenAt hc hblank hstarts htoken
        (token :: ·) <$> jump lexer line token.stop
termination_by lexer.chars.size - index

/-- At the end of the source the jumping lexer has no more tokens. -/
theorem jump_of_none (hc : lexer.chars[index]? = none) : lexer.jump line index = .ok [] := by
  rw [jump]
  split
  · rfl
  · simp_all

/-- What the jumping lexer does before the end of the source. Its definition also passes on the reasons
why it ends; here they are left out. -/
theorem jump_of_some (hc : lexer.chars[index]? = some c) :
    lexer.jump line index =
      if c = '\n' then lexer.jump (line.next index) (index + 1)
      else if isBlank c then lexer.jump line (index + 1)
      else if lexer.commentStarts index then lexer.jump line (lexer.lineEnd index)
      else match lexer.tokenAt line index with
        | .error error => .error error
        | .ok token => (token :: ·) <$> lexer.jump line token.stop := by
  rw [jump]
  split
  · simp_all
  · rename_i d hd
    obtain rfl : d = c := Option.some.inj (hd.symm.trans hc)
    simp only [dite_eq_ite]
    congr 3
    split <;> simp_all

end Lexer

/-! ## The same result -/

namespace ScanState

variable {lexer : Lexer} {state : ScanState} {line : Line} {index : Nat} {c : Char}
  {more : List Char}

/-- The state that all positions from one on lead to. Its result is what is compared with the jumps,
which do not carry a state. -/
def onward (lexer : Lexer) (state : ScanState) (index : Nat) : ScanState :=
  state.along lexer index (lexer.chars.size - index)

/-- At the end of the source no position is left. -/
theorem onward_of_le (h : lexer.chars.size ≤ index) : state.onward lexer index = state := by
  rw [onward, Nat.sub_eq_zero_of_le h]
  rfl

/-- The positions that are left may be cut anywhere. -/
theorem onward_add {count : Nat} (h : index + count ≤ lexer.chars.size) :
    state.onward lexer index = (state.along lexer index count).onward lexer (index + count) := by
  have hcount : lexer.chars.size - index = count + (lexer.chars.size - (index + count)) := by
    omega
  rw [onward, hcount, along_add]
  rfl

theorem onward_succ (h : index < lexer.chars.size) :
    state.onward lexer index = (step lexer state index).onward lexer (index + 1) := by
  have hone : index + 1 ≤ lexer.chars.size := h
  exact onward_add hone

/-- An open comment has come to the end of its line, so nothing else stands behind it. -/
theorem closed_of_ne_lineFeed (hcomment : state.inComment = true → EndsLine (lexer.rest index))
    (hrest : lexer.rest index = c :: more) (hc : c ≠ '\n') : state.inComment = false := by
  refine Bool.eq_false_iff.mpr fun hopen => hc ?_
  have hends := hcomment hopen
  rw [hrest] at hends
  exact endsLine_cons.mp hends

/-- Up to the end of the line nothing happens but that the comment is open there. Scanning stands at
each of these positions, while jumping goes past them at once. -/
theorem Between.over_line (h : state.Between index) (hclosed : state.inComment = false)
    (hstarts : lexer.commentStarts index = true) :
    state.along lexer index (lexer.lineEnd index - index) = { state with inComment := true } ∧
      EndsLine (lexer.rest (lexer.lineEnd index)) := by
  obtain ⟨body, after, hrest, hbody, hends, hend⟩ := Lexer.exists_comment hstarts
  obtain ⟨-, hover⟩ := h.over_slashes hclosed hrest hbody
  have hafter : lexer.rest (index + (body.length + 2)) = after :=
    @Lexer.rest_add lexer index ('/' :: '/' :: body) after hrest
  rw [hend, Nat.add_sub_cancel_left, hafter]
  exact ⟨hover, hends⟩

/-- **From between two tokens on** scanning comes to what jumping comes to. By the recursion of the
jumps, with a case for each of them: each time scanning is cut where the jump lands, and is between two
tokens again. -/
theorem Between.result_onward (h : state.Between index)
    (hcomment : state.inComment = true → EndsLine (lexer.rest index))
    (hline : state.line = line) :
    (state.onward lexer index).result =
      (state.tokens.toList ++ ·) <$> lexer.jump line index := by
  induction line, index using Lexer.jump.induct lexer generalizing state with
  | case1 line index hend =>
    rw [Array.getElem?_eq_none_iff] at hend
    rw [onward_of_le hend, Lexer.jump_of_none (Array.getElem?_eq_none hend)]
    simp [result, h.error]
  | case2 line index hc hsize ih =>
    obtain ⟨more, hrest⟩ := Lexer.exists_rest hc
    have hbetween : (state.endLine index).Between (index + 1) :=
      h.moved (Nat.le_succ index) _ _
    rw [onward_succ hsize, h.step_lineFeed hrest, Lexer.jump_of_some hc, if_pos rfl]
    refine ih hbetween (fun hopen => ?_) (by rw [← hline]; rfl)
    cases hopen
  | case3 line index c hc hsize hfeed hblank ih =>
    obtain ⟨more, hrest⟩ := Lexer.exists_rest hc
    have hclosed := closed_of_ne_lineFeed hcomment hrest hfeed
    rw [onward_succ hsize, h.step_blank hrest hblank hfeed, Lexer.jump_of_some hc, if_neg hfeed,
      if_pos hblank]
    refine ih (h.mono (Nat.le_succ index)) (fun hopen => ?_) hline
    rw [hclosed] at hopen
    cases hopen
  | case4 line index c hc hsize hfeed hblank hstarts hend ih =>
    obtain ⟨more, hrest⟩ := Lexer.exists_rest hc
    have hclosed := closed_of_ne_lineFeed hcomment hrest hfeed
    obtain ⟨hover, hends⟩ := h.over_line hclosed hstarts
    have hopened : ScanState.Between { state with inComment := true } (lexer.lineEnd index) :=
      h.moved (Nat.le_of_lt hend) _ _
    have hstop : index + (lexer.lineEnd index - index) = lexer.lineEnd index :=
      Nat.add_sub_of_le (Nat.le_of_lt hend)
    have hle : index + (lexer.lineEnd index - index) ≤ lexer.chars.size := by
      rw [hstop]
      exact (Lexer.lineEnd_bounds hstarts).2
    rw [onward_add hle, hover, hstop, Lexer.jump_of_some hc, if_neg hfeed, if_neg hblank,
      if_pos hstarts]
    exact ih hopened (fun _ => hends) hline
  | case5 line index c hc hsize hfeed hblank hstarts error herror =>
    obtain ⟨more, hrest⟩ := Lexer.exists_rest hc
    have hclosed := closed_of_ne_lineFeed hcomment hrest hfeed
    obtain ⟨fault, rfl, hstuck⟩ := Lexer.stuck_of_tokenAt hrest hblank hstarts herror
    rw [onward_succ hsize, h.step_stuck hclosed hstuck, onward, along_of_error rfl,
      Lexer.jump_of_some hc, if_neg hfeed, if_neg hblank, if_neg hstarts, herror, hline]
    rfl
  | case6 line index c hc hsize hfeed hblank hstarts token htoken hstop ih =>
    obtain ⟨more, hrest⟩ := Lexer.exists_rest hc
    have hclosed := closed_of_ne_lineFeed hcomment hrest hfeed
    obtain ⟨lexeme, after, rfl, htext, fits⟩ := Lexer.lexeme_of_tokenAt hrest hblank hstarts htoken
    have hle : index + lexeme.spelling.length ≤ lexer.chars.size := by
      have hlength := congrArg List.length htext
      rw [Lexer.length_rest, List.length_append] at hlength
      omega
    have hshut : (state.emit (lexeme.token index)).inComment = false := hclosed
    have htail := ih (h.emit lexeme) (fun hopen => absurd (hshut.symm.trans hopen)
      Bool.false_ne_true) hline
    rw [toList_emit] at htail
    rw [onward_add hle, h.over_lexeme hclosed htext fits, Lexer.jump_of_some hc, if_neg hfeed,
      if_neg hblank, if_neg hstarts, htoken]
    refine htail.trans ?_
    simp only [Functor.map_map, List.append_assoc, List.singleton_append]

end ScanState

/-- **Scanning is jumping**: deciding at every position gives the same tokens, or the same error, as
going on directly behind every blank, comment and token. A state that looks at the token emitted last is
a way to do without jumps. -/
theorem scan_eq_jump (source : String) (strict : Bool) :
    (Lexer.ofString source strict).scan = (Lexer.ofString source strict).jump Line.first 0 := by
  generalize Lexer.ofString source strict = lexer
  have hready : lexer.ready.Between 0 := ScanState.between_initial _ rfl rfl 0
  have hresult := @ScanState.Between.result_onward lexer lexer.ready Line.first 0 hready nofun rfl
  rw [ScanState.onward, Nat.sub_zero, ← ScanState.after_eq_along, ← Lexer.scan_eq] at hresult
  have htokens : lexer.ready.tokens.toList = [] := rfl
  simpa only [htokens, List.nil_append, id_map'] using hresult

end LoxTools
