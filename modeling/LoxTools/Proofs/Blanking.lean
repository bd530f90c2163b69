import LoxTools.Proofs.Boundaries
import LoxTools.Proofs.Diagnostics

/-!
# Comments are blanks

To a scan a comment is as good as blanks in its place:

* `Lexer.EntersComment` and `Lexer.Commented` — where a scan enters a comment, and which positions then
  lie in it;
* `Lexer.commented_iff` — they are those behind which the comment is open;
* `Lexer.blanked` — the source with blanks for its comments;
* `Lexer.step_blanked` and `Lexer.stateAt_blanked` — scanning it comes to the same decision at every
  position, and so to the same state, but that no comment is ever open;
* `scan_blankComments` — so the tokens, the error and the reports are the same.
-/

namespace LoxTools

namespace Lexer

variable {lexer : Lexer} {index count : Nat} {c : Char} {text more after : List Char}

/-! ## Where comments are -/

/-- **A scan enters a comment** at a position: nothing was at fault before, the position lies in no token
and in no comment, and two slashes stand there. -/
def EntersComment (lexer : Lexer) (index : Nat) : Prop :=
  (lexer.stateAt index).error = none ∧ (lexer.stateAt index).covers index = false ∧
    (lexer.stateAt index).inComment = false ∧ lexer.commentStarts index = true

instance : DecidablePred lexer.EntersComment :=
  fun _ => inferInstanceAs (Decidable (_ ∧ _ ∧ _ ∧ _))

/-- **A position lies in a comment** if the scan entered the comment there or before, and no line feed
stands in between: a comment goes from its slashes up to the end of the line. -/
def Commented (lexer : Lexer) (index : Nat) : Prop :=
  ∃ first ≤ index, lexer.EntersComment first ∧
    ∀ i ≤ index, first ≤ i → lexer.chars[i]? ≠ some '\n'

instance : DecidablePred lexer.Commented :=
  fun index => inferInstanceAs (Decidable (∃ first ≤ index, lexer.EntersComment first ∧
    ∀ i ≤ index, first ≤ i → lexer.chars[i]? ≠ some '\n'))

/-- **What happens at a position**: it is passed over, or a decision is made there. -/
theorem stateAt_cases (hindex : index < lexer.chars.size) :
    (lexer.stateAt (index + 1) = lexer.stateAt index ∧
      ((lexer.stateAt index).error ≠ none ∨ (lexer.stateAt index).covers index = true)) ∨
    ((lexer.stateAt index).error = none ∧ (lexer.stateAt index).covers index = false ∧
      (lexer.stateAt index).Decision lexer index (lexer.stateAt (index + 1))) := by
  rw [stateAt_succ]
  by_cases herror : (lexer.stateAt index).error = none
  · by_cases hcovers : (lexer.stateAt index).covers index = true
    · exact Or.inl ⟨ScanState.step_of_covers hcovers, Or.inr hcovers⟩
    · have hfree := Bool.eq_false_iff.mpr hcovers
      exact Or.inr ⟨herror, hfree, ScanState.step_decision herror hfree hindex⟩
  · exact Or.inl ⟨ScanState.step_of_error (Option.isSome_iff_ne_none.mpr herror), Or.inl herror⟩

/-- An error is reported outside of comments, and from then on nothing changes any more. -/
theorem closed_of_error (hindex : index ≤ lexer.chars.size)
    (h : (lexer.stateAt index).error ≠ none) : (lexer.stateAt index).inComment = false := by
  induction index with
  | zero => rfl
  | succ index ih =>
    rcases stateAt_cases hindex with ⟨hsame, -⟩ | ⟨herror, -, hdecision⟩
    · rw [hsame] at h ⊢
      exact ih (Nat.le_of_succ_le hindex) h
    · generalize lexer.stateAt (index + 1) = next at *
      cases hdecision with
      | fault hclosed => exact hclosed
      | _ => exact absurd herror h

/-- While a comment is open, nothing has been at fault, and no token reaches over the position. -/
theorem free_of_inComment (hindex : index ≤ lexer.chars.size)
    (h : (lexer.stateAt index).inComment = true) :
    (lexer.stateAt index).error = none ∧ (lexer.stateAt index).covers index = false := by
  have herror : (lexer.stateAt index).error = none := by
    by_contra hne
    rw [closed_of_error hindex hne] at h
    cases h
  refine ⟨herror, Bool.eq_false_iff.mpr fun hcovers => ?_⟩
  exact ScanState.not_loose_of_covers hcovers
    (loose_of_stop_le ((sound_after hindex herror).opened h).1)

/-- Without an error and outside of all tokens a position lies between tokens, so all of them have
ended. -/
theorem between_stateAt (hindex : index ≤ lexer.chars.size)
    (herror : (lexer.stateAt index).error = none)
    (hcovers : (lexer.stateAt index).covers index = false) :
    (lexer.stateAt index).Between index := by
  refine ⟨herror, fun token htoken => (sound_after hindex herror).stop_le hcovers token ?_⟩
  rw [← Array.getLast?_toList] at htoken
  exact List.mem_of_getLast? htoken

/-- **A comment is open behind a position** if it was open before or is entered there, and the position
does not end the line. -/
theorem inComment_succ (hindex : index < lexer.chars.size) :
    (lexer.stateAt (index + 1)).inComment = true ↔
      ((lexer.stateAt index).inComment = true ∨ lexer.EntersComment index) ∧
        lexer.chars[index]? ≠ some '\n' := by
  by_cases henters : lexer.EntersComment index
  · obtain ⟨herror, hcovers, hclosed, hstarts⟩ := id henters
    have hslash := getElem?_of_slashes (commentStarts_eq.mp hstarts)
    obtain ⟨more, hmore⟩ := commentStarts_eq.mp hstarts
    have hbetween := between_stateAt (Nat.le_of_lt hindex) herror hcovers
    rw [stateAt_succ, hbetween.step_slashes hmore.symm hclosed]
    simp [henters, hslash]
  · rcases stateAt_cases hindex with ⟨hsame, hpassed⟩ | ⟨herror, hcovers, hdecision⟩
    · have hclosed : (lexer.stateAt index).inComment = false := by
        refine Bool.eq_false_iff.mpr fun hopen => ?_
        obtain ⟨herror, hcovers⟩ := free_of_inComment (Nat.le_of_lt hindex) hopen
        simp [herror, hcovers] at hpassed
      simp [hsame, hclosed, henters]
    · generalize lexer.stateAt (index + 1) = next at *
      cases hdecision with
      | lineFeed hc => simp [ScanState.endLine, hc]
      | commented hc hfeed hopen => simp [hopen, hc, hfeed]
      | blank _ _ hclosed => simp [hclosed, henters]
      | slashes hclosed hslashes =>
        exact absurd ⟨herror, hcovers, hclosed, commentStarts_eq.mpr hslashes⟩ henters
      | lexeme hclosed => simp [ScanState.emit, hclosed, henters]
      | fault hclosed => simp [hclosed, henters]

/-- A position lies in a comment if the one before does or the comment is entered there, and no line
feed stands there. -/
theorem commented_succ : lexer.Commented (index + 1) ↔
    (lexer.Commented index ∨ lexer.EntersComment (index + 1)) ∧
      lexer.chars[index + 1]? ≠ some '\n' := by
  constructor
  · rintro ⟨first, hfirst, henters, hfeeds⟩
    refine ⟨?_, hfeeds (index + 1) (Nat.le_refl _) hfirst⟩
    rcases Nat.le_succ_iff.mp hfirst with hle | rfl
    · exact Or.inl ⟨first, hle, henters, fun i hi => hfeeds i (Nat.le_succ_of_le hi)⟩
    · exact Or.inr henters
  · rintro ⟨⟨first, hfirst, henters, hfeeds⟩ | henters, hfeed⟩
    · refine ⟨first, Nat.le_succ_of_le hfirst, henters, fun i hi hle => ?_⟩
      rcases Nat.le_succ_iff.mp hi with hi | rfl
      · exact hfeeds i hi hle
      · exact hfeed
    · refine ⟨index + 1, Nat.le_refl _, henters, fun i hi hle => ?_⟩
      rwa [Nat.le_antisymm hi hle]

/-- **The positions in comments** are those behind which a comment is open. -/
theorem commented_iff (hindex : index < lexer.chars.size) :
    lexer.Commented index ↔ (lexer.stateAt (index + 1)).inComment = true := by
  rw [inComment_succ hindex]
  induction index with
  | zero =>
    have hclosed : (lexer.stateAt 0).inComment = false := rfl
    simp [Commented, hclosed]
  | succ index ih =>
    have hbefore := Nat.lt_of_succ_lt hindex
    rw [commented_succ, ih hbefore, inComment_succ hbefore]

/-- Where no comment is open, nothing of the line so far lies in one. -/
theorem not_commented_of_line (hcount : count ≤ lexer.chars.size)
    (hclosed : (lexer.stateAt count).inComment = false)
    (hstart : (lexer.stateAt count).line.start ≤ index) (hindex : index < count) :
    ¬ lexer.Commented index := by
  induction count with
  | zero => cases hindex
  | succ count ih =>
    rcases Nat.lt_succ_iff_lt_or_eq.mp hindex with hlt | rfl
    · have hbefore := ih (Nat.le_of_succ_le hcount)
      rcases stateAt_cases hcount with ⟨hsame, -⟩ | ⟨-, -, hdecision⟩
      · rw [hsame] at hclosed hstart
        exact hbefore hclosed hstart hlt
      · generalize lexer.stateAt (count + 1) = next at *
        cases hdecision with
        | lineFeed => exact absurd (Nat.lt_trans hlt (Nat.lt_succ_self _)) (Nat.not_lt.mpr hstart)
        | slashes => cases hclosed
        | _ => exact hbefore hclosed hstart hlt
    · rw [commented_iff hcount, hclosed]
      exact Bool.false_ne_true

/-! ## Blanks for comments -/

/-- **The source with blanks for its comments.** -/
def blanked (lexer : Lexer) : Lexer :=
  { lexer with chars := lexer.chars.mapIdx fun index c => if lexer.Commented index then ' ' else c }

theorem size_blanked (lexer : Lexer) : lexer.blanked.chars.size = lexer.chars.size :=
  Array.size_mapIdx

theorem getElem?_blanked (lexer : Lexer) (index : Nat) : lexer.blanked.chars[index]? =
    lexer.chars[index]?.map fun c => if lexer.Commented index then ' ' else c :=
  Array.getElem?_mapIdx

theorem rest_blanked_nil (h : lexer.rest index = []) : lexer.blanked.rest index = [] := by
  rw [List.eq_nil_iff_length_eq_zero, length_rest] at h ⊢
  rwa [size_blanked]

/-- The blanked source goes on with a blank for a character of a comment, and with the character itself
elsewhere. -/
theorem rest_blanked_cons (h : lexer.rest index = c :: more) :
    lexer.blanked.rest index =
      (if lexer.Commented index then ' ' else c) :: lexer.blanked.rest (index + 1) := by
  have hc : lexer.blanked.chars[index]? = some (if lexer.Commented index then ' ' else c) := by
    rw [getElem?_blanked, getElem?_of_rest h, Option.map_some]
  obtain ⟨others, hothers⟩ := exists_rest hc
  rw [hothers, rest_succ hothers]

/-- A character outside of comments stays in the blanked source. -/
theorem exists_rest_blanked (hc : lexer.chars[index]? = some c) (hfree : ¬ lexer.Commented index) :
    ∃ more, lexer.blanked.rest index = c :: more := by
  obtain ⟨more, hrest⟩ := exists_rest hc
  exact ⟨_, (rest_blanked_cons hrest).trans (by rw [if_neg hfree])⟩

/-- A character of a comment is a space in the blanked source. -/
theorem exists_rest_blanked_space (hc : lexer.chars[index]? = some c)
    (hcomment : lexer.Commented index) : ∃ more, lexer.blanked.rest index = ' ' :: more := by
  obtain ⟨more, hrest⟩ := exists_rest hc
  exact ⟨_, (rest_blanked_cons hrest).trans (by rw [if_pos hcomment])⟩

/-- A text outside of comments stays in the blanked source. -/
theorem rest_blanked_append (h : lexer.rest index = text ++ after)
    (hfree : ∀ i, index ≤ i → i < index + text.length → ¬ lexer.Commented i) :
    lexer.blanked.rest index = text ++ lexer.blanked.rest (index + text.length) := by
  induction text generalizing index with
  | nil => rfl
  | cons c text ih =>
    rw [List.length_cons] at hfree
    have htail := ih (rest_succ h) fun i hi hn => hfree i (by omega) (by omega)
    rw [rest_blanked_cons h, if_neg (hfree index (Nat.le_refl _) (by omega)), htail,
      List.length_cons, Nat.add_right_comm, List.cons_append, Nat.add_assoc]

/-- Without a comment from a position on, the blanked source goes on there as the source does. -/
theorem rest_blanked_of_free
    (hfree : ∀ i, index ≤ i → i < lexer.chars.size → ¬ lexer.Commented i) :
    lexer.blanked.rest index = lexer.rest index := by
  have hall := rest_blanked_append (List.append_nil (lexer.rest index)).symm fun i hi hn =>
    hfree i hi (by rw [length_rest] at hn; omega)
  rwa [rest_blanked_nil (rest_add (List.append_nil _).symm), List.append_nil] at hall

/-- **Where the next comment is, there is a blank now**, which ends every lexeme; up to there both
sources are the same. -/
theorem diverges_blanked (lexer : Lexer) (index : Nat) :
    DivergesInert (lexer.rest index) (lexer.blanked.rest index) := by
  generalize htext : lexer.rest index = text
  induction text generalizing index with
  | nil =>
    rw [rest_blanked_nil htext]
    exact .refl []
  | cons c text ih =>
    rw [rest_blanked_cons htext]
    by_cases hcomment : lexer.Commented index
    · rw [if_pos hcomment]
      exact .of_inert _ (inert_cons_of_isBlank rfl)
    · rw [if_neg hcomment]
      exact (ih (index + 1) (rest_succ htext)).cons c

/-- An error on a line that has had no comments says the same about both sources. -/
theorem errorAt_blanked {line : Line}
    (hfree : ∀ i, line.start ≤ i → i ≤ index → ¬ lexer.Commented i) (fault : LexFault) :
    lexer.blanked.errorAt fault line index = lexer.errorAt fault line index := by
  have hcontext : lexer.blanked.context line index = lexer.context line index := by
    rw [← String.toList_inj, toList_context, toList_context, cut, cut]
    apply List.ext_getElem?
    intro i
    simp only [List.getElem?_take, List.getElem?_drop, Array.getElem?_toList, getElem?_blanked]
    split
    · have hno := hfree (line.start + i) (Nat.le_add_right _ _) (by omega)
      simp [hno]
    · rfl
  rw [errorAt, errorAt, hcontext]

/-! ## The same decisions -/

/-- Whether a position further on lies in a comment is told by the states from here on. -/
theorem commented_add (hcount : index + count < lexer.chars.size) :
    lexer.Commented (index + count) ↔
      ((lexer.stateAt (index + 1)).along lexer (index + 1) count).inComment = true := by
  rw [commented_iff hcount, Nat.add_right_comm, stateAt_add]

/-- No character of a lexeme that is emitted lies in a comment. -/
theorem not_commented_of_lexeme {lexeme : Lexeme}
    (hnext : lexer.stateAt (index + 1) = (lexer.stateAt index).emit (lexeme.token index))
    (hclosed : (lexer.stateAt index).inComment = false)
    (hrest : lexer.rest index = lexeme.spelling ++ after) :
    ∀ i, index ≤ i → i < index + lexeme.spelling.length → ¬ lexer.Commented i := by
  intro i hi hn
  have hlength := congrArg List.length hrest
  rw [length_rest, List.length_append] at hlength
  obtain ⟨further, rfl⟩ := Nat.exists_eq_add_of_le hi
  rw [commented_add (by omega), hnext, ScanState.along_emit (by omega)]
  simp [ScanState.emit, hclosed]

/-- No position behind an error lies in a comment, since none is entered any more. -/
theorem not_commented_of_error (hindex : index < lexer.chars.size)
    (herror : (lexer.stateAt (index + 1)).error ≠ none) :
    ∀ i, index ≤ i → i < lexer.chars.size → ¬ lexer.Commented i := by
  intro i hi hn
  obtain ⟨further, rfl⟩ := Nat.exists_eq_add_of_le hi
  rw [commented_add hn, ScanState.along_of_error (Option.isSome_iff_ne_none.mpr herror)]
  simp [closed_of_error hindex herror]

/-- No position of the line of an error lies in a comment, up to the character at fault. -/
theorem not_commented_of_fault (hindex : index < lexer.chars.size)
    (hclosed : (lexer.stateAt index).inComment = false) (hfree : ¬ lexer.Commented index) :
    ∀ i, (lexer.stateAt index).line.start ≤ i → i ≤ index → ¬ lexer.Commented i := by
  intro i hstart hi
  rcases Nat.lt_or_eq_of_le hi with hlt | rfl
  · exact not_commented_of_line (Nat.le_of_lt hindex) hclosed hstart hlt
  · exact hfree

/-- **Both sources lead to the same decision** at a position, but that only one has comments. -/
theorem step_blanked (hindex : index < lexer.chars.size) :
    ScanState.step lexer.blanked { lexer.stateAt index with inComment := false } index =
      { lexer.stateAt (index + 1) with inComment := false } := by
  rcases stateAt_cases hindex with ⟨hsame, hpassed⟩ | ⟨herror, hcovers, hdecision⟩
  · rw [hsame]
    rcases hpassed with herror | hcovers
    · exact ScanState.step_of_error (Option.isSome_iff_ne_none.mpr herror)
    · exact ScanState.step_of_covers hcovers
  · have hbetween : ScanState.Between { lexer.stateAt index with inComment := false } index :=
      (between_stateAt (Nat.le_of_lt hindex) herror hcovers).moved (Nat.le_refl index) _ _
    have hcommented := commented_iff hindex
    generalize hnext : lexer.stateAt (index + 1) = next at *
    cases hdecision with
    | lineFeed hc =>
      obtain ⟨more, hrest⟩ := exists_rest_blanked hc (by simp [hcommented, ScanState.endLine])
      rw [hbetween.step_lineFeed hrest]
      rfl
    | commented hc hfeed hopen =>
      obtain ⟨more, hrest⟩ := exists_rest_blanked_space hc (hcommented.mpr hopen)
      exact hbetween.step_blank hrest rfl (by decide)
    | blank hc hfeed hclosed hblank =>
      obtain ⟨more, hrest⟩ := exists_rest_blanked hc (by simp [hcommented, hclosed])
      exact hbetween.step_blank hrest hblank hfeed
    | slashes hclosed hslashes =>
      obtain ⟨more, hrest⟩ :=
        exists_rest_blanked_space (getElem?_of_slashes hslashes) (hcommented.mpr rfl)
      exact hbetween.step_blank hrest rfl (by decide)
    | @lexeme lexeme after hclosed hrest fits =>
      have hfree := not_commented_of_lexeme hnext hclosed hrest
      have hdiverges := lexer.diverges_blanked (index + lexeme.spelling.length)
      rw [rest_add hrest] at hdiverges
      rw [hbetween.step_lexeme rfl (rest_blanked_append hrest hfree) (fits.diverge hdiverges)]
      rfl
    | @fault fault hclosed hstuck =>
      have hfree := not_commented_of_error hindex (by simp [hnext])
      have hline := not_commented_of_fault hindex hclosed (hfree index (Nat.le_refl _) hindex)
      rw [hbetween.step_stuck rfl (rest_blanked_of_free hfree ▸ hstuck), errorAt_blanked hline]

/-- **Both sources lead to the same state** at every position, but that only one has comments. By
induction on the position. -/
theorem stateAt_blanked (hindex : index ≤ lexer.chars.size) :
    lexer.blanked.stateAt index = { lexer.stateAt index with inComment := false } := by
  induction index with
  | zero =>
    have hstart : lexer.blanked.startEvent = lexer.startEvent := by
      simp only [startEvent, size_blanked]
      rfl
    show lexer.blanked.ready = { lexer.ready with inComment := false }
    rw [ready, hstart]
    rfl
  | succ index ih =>
    rw [stateAt_succ lexer.blanked, ih (Nat.le_of_succ_le hindex), step_blanked hindex]

/-- **A run over the source without comments** ends in the same state, with the same reports. -/
theorem run_blanked (lexer : Lexer) :
    lexer.blanked.run = { lexer.run with inComment := false } := by
  have hstate := stateAt_blanked (Nat.le_refl lexer.chars.size)
  have hrun : lexer.blanked.run = (lexer.blanked.stateAt lexer.blanked.chars.size).report
      (finishEvent (lexer.blanked.stateAt lexer.blanked.chars.size)) := rfl
  rw [hrun, size_blanked, hstate]
  rfl

/-- What is not a blank in the blanked source stands outside of comments, as it does in the source. -/
theorem getElem?_of_blanked (hc : c ≠ ' ') (h : lexer.blanked.chars[index]? = some c) :
    lexer.chars[index]? = some c ∧ ¬ lexer.Commented index := by
  rw [getElem?_blanked, Option.map_eq_some_iff] at h
  obtain ⟨found, hfound, hif⟩ := h
  split at hif
  · exact absurd hif.symm hc
  · exact ⟨hif ▸ hfound, by assumption⟩

/-- **Nothing in the blanked source is a comment** any more: two slashes outside of tokens would have
been blanked. -/
theorem not_entersComment_blanked (lexer : Lexer) (index : Nat) :
    ¬ lexer.blanked.EntersComment index := by
  rintro ⟨herror, hcovers, -, hstarts⟩
  obtain ⟨more, hmore⟩ := commentStarts_eq.mp hstarts
  obtain ⟨hfirst, hfree⟩ := getElem?_of_blanked (by decide) (getElem?_of_rest hmore.symm)
  obtain ⟨hsecond, -⟩ :=
    getElem?_of_blanked (by decide) (getElem?_of_rest (rest_succ hmore.symm))
  obtain ⟨hindex, -⟩ := Array.getElem?_eq_some_iff.mp hfirst
  rw [stateAt_blanked (Nat.le_of_lt hindex)] at herror hcovers
  refine hfree ((commented_iff hindex).mpr ((inComment_succ hindex).mpr ⟨?_, by simp [hfirst]⟩))
  by_cases hopen : (lexer.stateAt index).inComment = true
  · exact Or.inl hopen
  · obtain ⟨tail, htail⟩ := exists_rest hfirst
    obtain ⟨others, hothers⟩ := exists_rest hsecond
    rw [rest_succ htail] at hothers
    refine Or.inr ⟨herror, hcovers, Bool.eq_false_iff.mpr hopen, commentStarts_eq.mpr ⟨others, ?_⟩⟩
    rw [htail, hothers]
    rfl

end Lexer

/-- **A source with its comments blanked**: a space for every character of every comment. -/
def blankComments (source : String) (strict : Bool) : String :=
  String.ofList (source.toList.mapIdx fun index c =>
    if (Lexer.ofString source strict).Commented index then ' ' else c)

/-- The lexer of a source with its comments blanked is the blanked lexer of the source. -/
theorem ofString_blankComments (source : String) (strict : Bool) :
    Lexer.ofString (blankComments source strict) strict =
      (Lexer.ofString source strict).blanked := by
  rw [Lexer.ofString, blankComments, String.toList_ofList, ← List.mapIdx_toArray]
  rfl

/-- **Comments are exactly blanks.** With a space for every character of its comments, from their
slashes up to the end of their lines, a source scans to the same tokens or to the same error, with the
same reports, and no comment is left to be entered. -/
theorem scan_blankComments (source : String) (strict : Bool) :
    (Lexer.ofString (blankComments source strict) strict).scan =
        (Lexer.ofString source strict).scan ∧
      (Lexer.ofString (blankComments source strict) strict).log =
        (Lexer.ofString source strict).log ∧
      ∀ index, ¬ (Lexer.ofString (blankComments source strict) strict).EntersComment index := by
  rw [ofString_blankComments]
  refine ⟨?_, ?_, Lexer.not_entersComment_blanked _⟩
  · rw [Lexer.scan, Lexer.scan, Lexer.run_blanked]
    rfl
  · rw [Lexer.log, Lexer.log, Lexer.run_blanked]

/-- Slashes in a string or in a comment begin no comment, and the line of an error has none. -/
theorem scan_blankComments_slashes :
    blankComments "\"//\" // a // b\n/ #//" false = "\"//\"          \n/ #//" ∧
    (Lexer.ofString "\"//\"          \n/ #//" false).scan =
      .error ⟨.unexpectedCharacter '#', 2, "/ #", 17⟩ :=
  ⟨rfl, (scan_blankComments "\"//\" // a // b\n/ #//" false).1⟩

end LoxTools
