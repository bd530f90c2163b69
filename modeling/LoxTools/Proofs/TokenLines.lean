import LoxTools.Proofs.InputRuns
import LoxTools.Proofs.Unescaping

/-!
# Reading back lines of tokens

A text listing has a line for each token, and the lines keep the tokens: escapes leave no line feed in
them, the fields are told apart by characters that none of them has, and a missing text differs from an
empty one by the space before it.

* `Token.ofLine?_lineChars` — a line is read back as its token;
* `Token.ofListing?_listing` — a listing is cut into its lines and read back as all of its tokens;
* `Token.ofDisplay?_display` — the form that diagnostics quote is read back as well;
* `text_listing_lossless` — what this says of the program.
-/

namespace LoxTools

/-! ## Fields -/

/-- If everything can be read back from what is written for it, then so can a list of things from what
is written for each. -/
theorem mapM_map_eq_some {α β : Type} {write : α → β} {read? : β → Option α}
    (h : ∀ a, read? (write a) = some a) (list : List α) :
    (list.map write).mapM read? = some list := by
  induction list with
  | nil => rfl
  | cons a list ih => simp [h, ih]

namespace TokenKind

/-- A kind is found by its name, so no two kinds have the same one. -/
theorem ofName?_name (kind : TokenKind) : ofName? kind.name = some kind := by
  cases kind <;> rfl

/-- The names of kinds have no control characters. -/
theorem isControl_name (kind : TokenKind) : ∀ c ∈ kind.name.toList, isControl c = false := by
  have hall : kind.name.toList.all (!isControl ·) = true := by
    cases kind <;> rfl
  simpa using hall

/-- **The name of a kind** at the front of a text, up to a space or to the end. -/
def read? (text : List Char) : Option (TokenKind × List Char) :=
  match ofName? (String.ofList (text.takeWhile (· != ' '))) with
  | some kind => some (kind, text.dropWhile (· != ' '))
  | none => none

theorem read?_name (kind : TokenKind) {after : List Char}
    (hafter : StopsBefore (· != ' ') after) : read? (kind.name.toList ++ after) = some (kind, after) := by
  have hname : ∀ c ∈ kind.name.toList, (c != ' ') = true := by
    have hall : kind.name.toList.all (· != ' ') = true := by
      cases kind <;> rfl
    exact List.all_eq_true.mp hall
  rw [read?, takeWhile_append_of_stopsBefore hname hafter,
    dropWhile_append_of_stopsBefore hname hafter, String.ofList_toList, ofName?_name]

end TokenKind

namespace Token

/-! ## A line of a listing -/

/-- The text at the end of a line, escaped and with a space before it; nothing if the token has no text.
-/
def listedTail : Option String → List Char
  | none => []
  | some text => ' ' :: escapeListed text.toList

/-- The characters of the line of a token, without the line feed at its end. -/
def lineChars (token : Token) : List Char :=
  (toString token.start).toList ++ ':' :: ((toString token.length).toList ++
    ' ' :: (token.kind.name.toList ++ listedTail token.text))

/-- The line of a token is made of its fields and a line feed. -/
theorem toList_line (token : Token) : token.line.toList = token.lineChars ++ ['\n'] := by
  obtain ⟨kind, text, start, length⟩ := token
  cases text <;> simp [line, lineChars, listedTail, listedText]

theorem isControl_listedTail (text : Option String) :
    ∀ c ∈ listedTail text, isControl c = false := by
  cases text with
  | none => nofun
  | some text => exact List.forall_mem_cons.mpr ⟨rfl, isControl_escapeListed text.toList⟩

/-- **A line has no control character** before its line feed. -/
theorem isControl_lineChars (token : Token) : ∀ c ∈ token.lineChars, isControl c = false := by
  refine List.forall_mem_append.mpr ⟨isControl_toString _, List.forall_mem_cons.mpr ⟨rfl, ?_⟩⟩
  refine List.forall_mem_append.mpr ⟨isControl_toString _, List.forall_mem_cons.mpr ⟨rfl, ?_⟩⟩
  exact List.forall_mem_append.mpr ⟨token.kind.isControl_name, isControl_listedTail _⟩

theorem newline_not_mem_lineChars (token : Token) : '\n' ∉ token.lineChars := by
  intro hmem
  have hcontrol := token.isControl_lineChars '\n' hmem
  cases hcontrol

/-- The text at the end of a line. There is none if there is no space, and an empty one if there is
nothing behind it. -/
def readListed? : List Char → Option (Option String)
  | [] => some none
  | c :: rest =>
    if c = ' ' then
      match unescape .plain rest with
      | some (text, []) => some (some (String.ofList text))
      | _ => none
    else none

/-- The text at the end of a line is read back, and a missing one is told from an empty one. -/
theorem readListed?_listedTail (text : Option String) : readListed? (listedTail text) = some text := by
  cases text with
  | none => rfl
  | some text => simp [listedTail, readListed?, unescape_escapeListed]

/-- **The token of a line** without its line feed: position, length and kind, and a text if one follows.
-/
def ofLine? (line : List Char) : Option Token := do
  let (start, rest) ← readNumber? line
  let rest ← behind? ':' rest
  let (length, rest) ← readNumber? rest
  let rest ← behind? ' ' rest
  let (kind, rest) ← TokenKind.read? rest
  let text ← readListed? rest
  return ⟨kind, text, start, length⟩

/-- **A line is read back** as the token that it was written for. Each field is read up to the character
behind it, which no field of its kind has. -/
theorem ofLine?_lineChars (token : Token) : ofLine? token.lineChars = some token := by
  have htail : StopsBefore (· != ' ') (listedTail token.text) := by
    cases token.text with
    | none => exact stopsBefore_nil _
    | some text => exact stopsBefore_cons.mpr rfl
  rw [ofLine?, lineChars, readNumber?_toString _ (stopsBefore_cons.mpr rfl)]
  simp only [Option.bind_eq_bind, Option.bind_some, behind?_cons]
  rw [readNumber?_toString _ (stopsBefore_cons.mpr rfl)]
  simp only [Option.bind_some, behind?_cons]
  rw [TokenKind.read?_name _ htail]
  simp only [Option.bind_some, readListed?_listedTail]
  rfl

/-- A missing text and an empty one differ by a space. -/
example : ofLine? "6:2 STRING ".toList = some ⟨.string, some "", 6, 2⟩ ∧
    ofLine? "6:2 STRING".toList = some ⟨.string, none, 6, 2⟩ := ⟨rfl, rfl⟩

/-! ## A whole listing -/

/-- The lines of a text of which every line ends with a line feed, without these line feeds. -/
def lines (text : List Char) : List (List Char) :=
  (text.splitOn '\n').dropLast

/-- Texts without line feeds are the lines of the text that has a line feed behind each of them. -/
theorem lines_flatMap {texts : List (List Char)} (h : ∀ text ∈ texts, '\n' ∉ text) :
    lines (texts.flatMap (· ++ ['\n'])) = texts := by
  induction texts with
  | nil => rfl
  | cons text texts ih =>
    have hrest := ih (List.forall_mem_cons.mp h).2
    rw [lines] at hrest ⊢
    rw [List.flatMap_cons, List.append_assoc, List.singleton_append,
      List.splitOn_append_cons_self_of_not_mem (h text (List.mem_cons_self ..)),
      List.dropLast_cons_of_ne_nil (List.splitOn_ne_nil _ _), hrest]

/-- The tokens of a text listing, line by line. -/
def ofListing? (listing : String) : Option (List Token) :=
  (lines listing.toList).mapM ofLine?

theorem toList_listing (tokens : List Token) :
    (ListingFormat.text.listing tokens).toList =
      (tokens.map lineChars).flatMap (· ++ ['\n']) := by
  have hlines : (fun token : Token => token.line.toList) = fun token => token.lineChars ++ ['\n'] :=
    funext toList_line
  rw [ListingFormat.listing, String.toList_join, List.flatMap_map, List.flatMap_map, hlines]

/-- **A listing has a line for each token**, as no line has a line feed but the one at its end. -/
theorem lines_listing (tokens : List Token) :
    lines (ListingFormat.text.listing tokens).toList = tokens.map lineChars := by
  rw [toList_listing, lines_flatMap]
  intro text htext
  obtain ⟨token, -, rfl⟩ := List.mem_map.mp htext
  exact token.newline_not_mem_lineChars

/-- **A listing is read back** as the tokens that it was written for, in the same order. -/
theorem ofListing?_listing (tokens : List Token) :
    ofListing? (ListingFormat.text.listing tokens) = some tokens := by
  rw [ofListing?, lines_listing, mapM_map_eq_some ofLine?_lineChars]

/-- **A listing has as many line feeds** as it has tokens. -/
theorem count_newline_listing (tokens : List Token) :
    (ListingFormat.text.listing tokens).toList.count '\n' = tokens.length := by
  rw [toList_listing]
  induction tokens with
  | nil => rfl
  | cons token tokens ih =>
    have hline : token.lineChars.count '\n' = 0 :=
      List.count_eq_zero.mpr token.newline_not_mem_lineChars
    rw [List.map_cons, List.flatMap_cons, List.count_append, List.count_append, ih, hline]
    simp [Nat.add_comm]

/-! ## As diagnostics quote it -/

/-- The text of a token as diagnostics quote it, escaped and in quotes with a space before them; nothing
if the token has no text. -/
def quotedTail : Option String → List Char
  | none => []
  | some text => ' ' :: '"' :: (escapeQuoted text.toList ++ ['"'])

theorem toList_display (token : Token) : token.display.toList =
    token.kind.name.toList ++ (quotedTail token.text ++
      ' ' :: '@' :: ((toString token.start).toList ++ '+' :: (toString token.length).toList)) := by
  obtain ⟨kind, text, start, length⟩ := token
  cases text <;> simp [display, quotedTail, quotedText]

/-- **What diagnostics quote has no control character**, and thus stands on one line. -/
theorem isControl_display (token : Token) : ∀ c ∈ token.display.toList, isControl c = false := by
  have htail : ∀ c ∈ quotedTail token.text, isControl c = false := by
    cases token.text with
    | none => nofun
    | some text =>
      refine List.forall_mem_cons.mpr ⟨rfl, List.forall_mem_cons.mpr ⟨rfl, ?_⟩⟩
      exact List.forall_mem_append.mpr
        ⟨isControl_flatMap _ text.toList, List.forall_mem_singleton.mpr rfl⟩
  rw [toList_display]
  refine List.forall_mem_append.mpr ⟨token.kind.isControl_name, List.forall_mem_append.mpr ⟨htail, ?_⟩⟩
  refine List.forall_mem_cons.mpr ⟨rfl, List.forall_mem_cons.mpr ⟨rfl, ?_⟩⟩
  exact List.forall_mem_append.mpr
    ⟨isControl_toString _, List.forall_mem_cons.mpr ⟨rfl, isControl_toString _⟩⟩

/-- The quoted text behind the name of a kind, if there is one, and what is left behind it. -/
def readQuoted? : List Char → Option (Option String × List Char)
  | ' ' :: '"' :: rest =>
    match unescape .plain rest with
    | some (text, '"' :: rest) => some (some (String.ofList text), rest)
    | _ => none
  | rest => some (none, rest)

theorem readQuoted?_quotedTail (text : Option String) (after : List Char) :
    readQuoted? (quotedTail text ++ ' ' :: '@' :: after) = some (text, ' ' :: '@' :: after) := by
  cases text with
  | none => rfl
  | some text => simp [quotedTail, readQuoted?, unescape_escapeQuoted]

/-- **The token that diagnostics quote**, with its kind, its text if there is one, its position and its
length. -/
def ofDisplay? (text : List Char) : Option Token := do
  let (kind, rest) ← TokenKind.read? text
  let (text, rest) ← readQuoted? rest
  let rest ← behind? ' ' rest
  let rest ← behind? '@' rest
  let (start, rest) ← readNumber? rest
  let rest ← behind? '+' rest
  let (length, _) ← readNumber? rest
  return ⟨kind, text, start, length⟩

/-- **What diagnostics quote is read back** as the token that it was written for. -/
theorem ofDisplay?_display (token : Token) : ofDisplay? token.display.toList = some token := by
  have htail : ∀ after, StopsBefore (· != ' ') (quotedTail token.text ++ ' ' :: after) := by
    intro after
    cases token.text <;> exact stopsBefore_cons.mpr rfl
  have hlength := readNumber?_toString token.length (stopsBefore_nil Char.isDigit)
  rw [List.append_nil] at hlength
  rw [ofDisplay?, toList_display, TokenKind.read?_name _ (htail _)]
  simp only [Option.bind_eq_bind, Option.bind_some, readQuoted?_quotedTail, behind?_cons]
  rw [readNumber?_toString _ (stopsBefore_cons.mpr rfl)]
  simp only [Option.bind_some, behind?_cons]
  rw [hlength]
  rfl

/-- No two tokens are quoted in the same way. -/
theorem display_injective : Function.Injective Token.display := by
  intro a b h
  have hread := a.ofDisplay?_display
  rw [h, ofDisplay?_display] at hread
  exact (Option.some.inj hread).symm

end Token

/-! ## What listings keep -/

/-- **A text keeps tokens** if they can be read from it and it has a line for each of them. -/
structure KeepsTokens (listing : String) (tokens : List Token) : Prop where
  /-- the tokens are read back from it, in their order -/
  decoded : Token.ofListing? listing = some tokens
  /-- it has one line feed for each token and no other one -/
  count_lines : listing.toList.count '\n' = tokens.length

/-- The text listing of some tokens keeps them, whatever texts they have. -/
theorem Token.keepsTokens_listing (tokens : List Token) :
    KeepsTokens (ListingFormat.text.listing tokens) tokens :=
  ⟨ofListing?_listing tokens, count_newline_listing tokens⟩

/-- If a listing of a single file succeeds, then its output and its count are those of the tokens of
this file. -/
theorem ScanOptions.exists_tokens_of_ok {options : ScanOptions} {inputs : Inputs} {path : String}
    {total : Nat} (h : (options.scanFiles inputs [path]).result = .ok total) :
    ∃ tokens, inputs.tokens options.strictKeywords path = .ok tokens ∧ total = tokens.length ∧
      (options.scanFiles inputs [path]).transcript.out = options.format.listing tokens := by
  rw [scanFiles_singleton] at h ⊢
  cases houtcome : inputs.tokens options.strictKeywords path with
  | ok tokens =>
    obtain ⟨hresult, hout⟩ := scanFile_of_ok houtcome
    rw [hresult] at h
    exact ⟨tokens, rfl, (Except.ok.inj h).symm, hout⟩
  | error error =>
    obtain ⟨hresult, -⟩ := scanFile_of_error houtcome
    rw [hresult] at h
    cases h

/-- **Text listings lose nothing**: the line of a token is a single one and is read back, so is a listing
of any tokens, and the output for a file keeps what the file has. What diagnostics quote stands on one
line as well and tells all tokens apart. -/
theorem text_listing_lossless :
    (∀ token : Token, ∃ front, token.line.toList = front ++ ['\n'] ∧
      (∀ c ∈ front, isControl c = false) ∧ Token.ofLine? front = some token) ∧
    (∀ tokens : List Token, KeepsTokens (ListingFormat.text.listing tokens) tokens) ∧
    (∀ (inputs : Inputs) (path : String) (verbose strict : Bool) (total : Nat),
      ((ScanOptions.mk verbose .text strict).scanFiles inputs [path]).result = .ok total →
      ∃ tokens, inputs.tokens strict path = .ok tokens ∧ total = tokens.length ∧
        KeepsTokens ((ScanOptions.mk verbose .text strict).scanFiles inputs [path]).transcript.out
          tokens) ∧
    (∀ token : Token, '\n' ∉ token.display.toList) ∧ Function.Injective Token.display := by
  refine ⟨?_, Token.keepsTokens_listing, ?_, ?_, Token.display_injective⟩
  · intro token
    exact ⟨token.lineChars, token.toList_line, token.isControl_lineChars, token.ofLine?_lineChars⟩
  · intro inputs path verbose strict total h
    obtain ⟨tokens, htokens, htotal, hout⟩ := ScanOptions.exists_tokens_of_ok h
    refine ⟨tokens, htokens, htotal, ?_⟩
    rw [hout]
    exact Token.keepsTokens_listing tokens
  · intro token hmem
    have hcontrol := token.isControl_display '\n' hmem
    cases hcontrol

/-- A file with a string over two lines and an empty one is listed on two lines. -/
theorem text_listing_lossless_strings :
    let inputs := Inputs.ofTexts [("strings.lox", "\"a\nb\" \"\"")]
    let run := (ScanOptions.mk false .text false).scanFiles inputs ["strings.lox"]
    run.result = .ok 2 ∧ KeepsTokens run.transcript.out
      [⟨.string, some "a\nb", 0, 5⟩, ⟨.string, some "", 6, 2⟩] := by
  intro inputs run
  have htokens : inputs.tokens (ScanOptions.mk false .text false).strictKeywords "strings.lox" =
      .ok [⟨.string, some "a\nb", 0, 5⟩, ⟨.string, some "", 6, 2⟩] :=
    (Inputs.tokens_ofTexts false (by decide) rfl).trans (Source.tokens_eq_ok.mpr rfl)
  have hrun : run.result = .ok 2 := by
    have hfile := (ScanOptions.scanFile_of_ok htokens).1
    rwa [← ScanOptions.scanFiles_singleton] at hfile
  obtain ⟨tokens, hfound, -, hkeeps⟩ :=
    text_listing_lossless.2.2.1 inputs "strings.lox" false false 2 hrun
  obtain rfl := Except.ok.inj (htokens.symm.trans hfound)
  exact ⟨hrun, hkeeps⟩

end LoxTools
