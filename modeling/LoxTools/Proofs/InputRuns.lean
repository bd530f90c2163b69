import Mathlib.Algebra.GroupWithZero.Nat
import Mathlib.Data.List.Basic
import LoxTools.Tool.Check
import LoxTools.Tool.Scan

/-!
# Runs over several inputs

Both commands go through their inputs in turn. Reading standard input empties it, and reading a file
changes nothing, so what each input gives is known before the run (`Inputs.inTurn`), and a run over inputs
is the runs over what they give, one behind the other:

* `scanFiles_eq_mapM` and `checkEach_eq_mapM` — each loop is the library's own;
* `Run.mapM_of_ok` — if all go well, everything that they write and report is joined;
* `Run.mapM_of_error` — at the first one that fails the rest is left out;
* `exists_ok_or_error` — and one of the two is the case;
* `Listed` — the two as the outcomes of a listing, which do not depend on its format.
-/

namespace LoxTools

/-! ## One behind the other -/

namespace Transcript

theorem append_assoc (first second third : Transcript) :
    first ++ second ++ third = first ++ (second ++ third) :=
  congrArg₂ Transcript.mk (String.append_assoc ..) (List.append_assoc ..)

theorem empty_append (transcript : Transcript) : empty ++ transcript = transcript :=
  congrArg₂ Transcript.mk (String.empty_append) (List.nil_append _)

theorem append_empty (transcript : Transcript) : transcript ++ empty = transcript :=
  congrArg₂ Transcript.mk (String.append_empty) (List.append_nil _)

@[simp] theorem out_append (first second : Transcript) :
    (first ++ second).out = first.out ++ second.out := rfl

/-- Several transcripts as one: what they write and what they report stands in their order. -/
def join (transcripts : List Transcript) : Transcript :=
  transcripts.foldr (· ++ ·) empty

@[simp] theorem join_cons (transcript : Transcript) (transcripts : List Transcript) :
    join (transcript :: transcripts) = transcript ++ join transcripts := rfl

/-- What is written in the course of several transcripts is what each of them writes, in their order. -/
theorem out_join_map {α : Type} (transcript : α → Transcript) (list : List α) :
    (join (list.map transcript)).out = String.join (list.map fun a => (transcript a).out) := by
  induction list with
  | nil => rfl
  | cons a list ih =>
    rw [List.map_cons, join_cons, out_append, ih, List.map_cons, String.join_cons]

end Transcript

namespace Run

variable {α β γ : Type}

theorem pure_eq (a : α) : (Pure.pure a : Run α) = ⟨Transcript.empty, .ok a⟩ := rfl

@[simp] theorem bind_ok (transcript : Transcript) (a : α) (next : α → Run β) :
    (⟨transcript, .ok a⟩ : Run α) >>= next =
      ⟨transcript ++ (next a).transcript, (next a).result⟩ := rfl

@[simp] theorem bind_error (transcript : Transcript) (error : ToolError) (next : α → Run β) :
    (⟨transcript, .error error⟩ : Run α) >>= next = ⟨transcript, .error error⟩ := rfl

theorem bind_of_ok {run : Run α} {a : α} (h : run.result = .ok a) (next : α → Run β) :
    run >>= next = ⟨run.transcript ++ (next a).transcript, (next a).result⟩ := by
  obtain ⟨transcript, result⟩ := run
  obtain rfl : result = .ok a := h
  exact bind_ok transcript a next

theorem bind_of_error {run : Run α} {error : ToolError} (h : run.result = .error error)
    (next : α → Run β) : run >>= next = ⟨run.transcript, .error error⟩ := by
  obtain ⟨transcript, result⟩ := run
  obtain rfl : result = .error error := h
  exact bind_error transcript error next

instance : LawfulMonad Run := LawfulMonad.mk' Run
  (by
    intro α run
    obtain ⟨transcript, error | a⟩ := run
    · rfl
    · exact congrArg (Run.mk · (.ok a)) transcript.append_empty)
  (by
    intro α β a next
    rw [pure_eq, bind_ok, Transcript.empty_append])
  (by
    intro α β γ run next further
    obtain ⟨transcript, error | a⟩ := run
    · rfl
    rw [bind_ok, bind_ok]
    rcases hnext : next a with ⟨second, error | b⟩
    · rfl
    · rw [bind_ok, bind_ok, Transcript.append_assoc])

theorem ofExcept_ok (a : α) : ofExcept (.ok a) = (Pure.pure a : Run α) := rfl

/-- A report comes before what is reported later, and changes nothing else about a run. -/
theorem report_bind (events : List Log.Event) (next : Unit → Run β) : report events >>= next =
    ⟨⟨(next ()).transcript.out, events ++ (next ()).transcript.log⟩, (next ()).result⟩ :=
  congrArg (fun out => Run.mk ⟨out, _⟩ _) String.empty_append

/-- A verdict on the value of a run decides how the run ends; what it has written and reported stays. -/
theorem bind_ofExcept (run : Run α) (verdict : α → Except ToolError β) :
    (run >>= fun a => ofExcept (verdict a)) = ⟨run.transcript, run.result.bind verdict⟩ := by
  obtain ⟨transcript, error | a⟩ := run
  · rfl
  · rw [bind_ok, Except.bind]
    cases verdict a with
    | error error => exact congrArg (Run.mk · (.error error)) transcript.append_empty
    | ok b => exact congrArg (Run.mk · (.ok b)) transcript.append_empty

/-! ## Over a list -/

section Over

variable {run : α → Run β} {before after : List α} {a : α} {values : List β} {error : ToolError}

/-- **If all runs go well**, what they write and report is joined, and their values are collected in the
same order. -/
theorem mapM_of_ok (h : before.map (fun a => (run a).result) = values.map .ok) :
    before.mapM run =
      ⟨Transcript.join (before.map fun a => (run a).transcript), .ok values⟩ := by
  induction before generalizing values with
  | nil =>
    obtain rfl : values = [] := List.map_eq_nil_iff.mp h.symm
    rfl
  | cons a before ih =>
    obtain ⟨b, values, rfl⟩ : ∃ b more, values = b :: more := by
      cases values with
      | nil => cases h
      | cons b more => exact ⟨b, more, rfl⟩
    obtain ⟨hhead, htail⟩ := List.cons.inj h
    rw [List.mapM_cons, bind_of_ok hhead, ih htail, bind_ok, pure_eq,
      Transcript.append_empty]
    rfl

/-- **At the first run that fails** the runs behind it are left out. What it has written and reported
itself comes behind that of the runs before it. -/
theorem mapM_of_error (h : before.map (fun a => (run a).result) = values.map .ok)
    (herror : (run a).result = .error error) :
    (before ++ a :: after).mapM run =
      ⟨Transcript.join (before.map fun a => (run a).transcript) ++ (run a).transcript,
        .error error⟩ := by
  rw [List.mapM_append, mapM_of_ok h, bind_ok, List.mapM_cons,
    bind_of_error herror, bind_error]

end Over

end Run

/-- What follows from every single good outcome holds, in the same order, of all of them. -/
theorem map_eq_of_map_ok {α β γ ε : Type} {outcome : α → Except ε β} {list : List α}
    {values : List β} {f : α → γ} {g : β → γ} (h : list.map outcome = values.map .ok)
    (hf : ∀ a b, outcome a = .ok b → f a = g b) : list.map f = values.map g := by
  induction list generalizing values with
  | nil =>
    obtain rfl : values = [] := List.map_eq_nil_iff.mp h.symm
    rfl
  | cons a list ih =>
    cases values with
    | nil => cases h
    | cons b values =>
      obtain ⟨hhead, htail⟩ := List.cons.inj h
      rw [List.map_cons, List.map_cons, hf a b hhead, ih htail]

/-- If all outcomes are good, then each single one is. -/
theorem exists_of_map_ok {α β ε : Type} {outcome : α → Except ε β} {list : List α}
    {values : List β} (h : list.map outcome = values.map .ok) :
    ∀ a ∈ list, ∃ b, outcome a = .ok b := by
  intro a ha
  have hmem : outcome a ∈ values.map Except.ok := by
    rw [← h]
    exact List.mem_map_of_mem ha
  obtain ⟨b, -, hb⟩ := List.mem_map.mp hmem
  exact ⟨b, hb.symm⟩

/-- Where the outcomes of a list are good ones up to an error, some member of the list is the first to
fail. -/
theorem exists_of_first_error {α β ε : Type} {outcome : α → Except ε β} {list : List α}
    {values : List β} {error : ε} {after : List (Except ε β)}
    (h : list.map outcome = values.map .ok ++ .error error :: after) :
    ∃ before a rest, list = before ++ a :: rest ∧
      before.map outcome = values.map .ok ∧ outcome a = .error error := by
  obtain ⟨before, behind, rfl, hbefore, hbehind⟩ := List.map_eq_append_iff.mp h
  obtain ⟨a, rest, rfl, ha, -⟩ := List.map_eq_cons_iff.mp hbehind
  exact ⟨before, a, rest, rfl, hbefore, ha⟩

/-- If every good outcome makes a run succeed with a value of its own, then good outcomes all along make
all of these runs succeed. -/
theorem Run.map_result {α β γ : Type} {outcome : α → Except ToolError β} {list : List α}
    {values : List β} {run : α → Run γ} {value : β → γ} (h : list.map outcome = values.map .ok)
    (hrun : ∀ a b, outcome a = .ok b → (run a).result = .ok (value b)) :
    list.map (fun a => (run a).result) = (values.map value).map .ok := by
  rw [List.map_map]
  exact map_eq_of_map_ok h hrun

/-- **Everything goes well, or some member is the first to fail**, and then those before it go well. By
induction on the list, whose first member decides. -/
theorem exists_ok_or_error {α β ε : Type} (outcome : α → Except ε β) (list : List α) :
    (∃ values : List β, list.map outcome = values.map .ok) ∨
      ∃ (before : List α) (a : α) (after : List α) (values : List β) (error : ε),
        list = before ++ a :: after ∧
        before.map outcome = values.map .ok ∧ outcome a = .error error := by
  induction list with
  | nil => exact Or.inl ⟨[], rfl⟩
  | cons a list ih =>
    cases ha : outcome a with
    | error error => exact Or.inr ⟨[], a, list, [], error, rfl, rfl, ha⟩
    | ok b =>
      rcases ih with ⟨values, hvalues⟩ | ⟨before, c, after, values, error, rfl, hvalues, herror⟩
      · exact Or.inl ⟨b :: values, by rw [List.map_cons, ha, hvalues, List.map_cons]⟩
      · exact Or.inr ⟨a :: before, c, after, b :: values, error, rfl,
          by rw [List.map_cons, ha, hvalues, List.map_cons], herror⟩

/-! ## In turn -/

namespace Inputs

/-- Reading a file leaves all inputs as they are; only reading standard input empties it. -/
theorem after_of_ne (inputs : Inputs) {path : String} (h : path ≠ stdinPath) :
    inputs.after path = inputs :=
  if_neg h

/-- **What each input gives when its turn comes**, which is a source or the error of reading it. -/
def inTurn : Inputs → List String → List (Except ToolError Source)
  | _, [] => []
  | inputs, path :: paths => inputs.read path :: (inputs.after path).inTurn paths

/-- Files give in turn what they give at first, as standard input is not among them. -/
theorem inTurn_of_files (inputs : Inputs) {paths : List String} (h : stdinPath ∉ paths) :
    inputs.inTurn paths = paths.map inputs.read := by
  induction paths with
  | nil => rfl
  | cons path paths ih =>
    rw [List.mem_cons, not_or] at h
    rw [inTurn, inputs.after_of_ne (Ne.symm h.1), ih h.2, List.map_cons]

/-- After an input is read, any input gives what it gave before, except for standard input after
standard input, which is then empty. -/
theorem read_after (inputs : Inputs) (path other : String) : (inputs.after path).read other =
    if other = stdinPath ∧ path = stdinPath then .ok ⟨stdinName, ""⟩ else inputs.read other := by
  by_cases hpath : path = stdinPath
  · by_cases hother : other = stdinPath
    · rw [if_pos ⟨hother, hpath⟩, after, if_pos hpath, read, if_pos hother]
      rfl
    · rw [if_neg fun h => hother h.1, after, if_pos hpath, read, read, if_neg hother, if_neg hother]
  · rw [inputs.after_of_ne hpath, if_neg fun h => hpath h.2]

/-- **Standard input gives all that it holds once, and then nothing**; a file gives the same every time
that its turn comes. -/
theorem getElem?_inTurn (inputs : Inputs) (paths : List String) (i : Nat) :
    (inputs.inTurn paths)[i]? = paths[i]?.map fun path =>
      if path = stdinPath ∧ stdinPath ∈ paths.take i then .ok ⟨stdinName, ""⟩
      else inputs.read path := by
  induction paths generalizing inputs i with
  | nil => rfl
  | cons path paths ih =>
    cases i with
    | zero => simp [inTurn]
    | succ i =>
      simp only [inTurn, List.getElem?_cons_succ, ih, List.take_succ_cons, List.mem_cons, read_after]
      congr 1
      funext other
      -- standard input was read before if it is this path or one of those between
      grind

end Inputs

/-- Listing what an input gave: its tokens if it gave a source that scans, and otherwise the run fails.
-/
def ScanOptions.scanGiven (options : ScanOptions) (given : Except ToolError Source) : Run Nat :=
  Run.ofExcept given >>= options.scanSource

/-- Checking what an input gave: its entry and its count if it gave a source, and otherwise the run
fails. -/
def CheckOptions.checkGiven (options : CheckOptions) (given : Except ToolError Source) : Run Tally :=
  Run.ofExcept given >>= options.checkSource

theorem ScanOptions.scanGiven_ok (options : ScanOptions) (source : Source) :
    options.scanGiven (.ok source) = options.scanSource source := by
  rw [scanGiven, Run.ofExcept_ok, pure_bind]

theorem CheckOptions.checkGiven_ok (options : CheckOptions) (source : Source) :
    options.checkGiven (.ok source) = options.checkSource source := by
  rw [checkGiven, Run.ofExcept_ok, pure_bind]

/-- **Listing inputs** goes through what they give in turn and adds up the numbers of tokens. The loop
of the command reads each input when it comes to it; here all of them are read before the first one is
listed. -/
theorem ScanOptions.scanFiles_eq_mapM (options : ScanOptions) (inputs : Inputs) (paths : List String) :
    options.scanFiles inputs paths = (do
      let counts ← (inputs.inTurn paths).mapM options.scanGiven
      return counts.sum) := by
  induction paths generalizing inputs with
  | nil => rfl
  | cons path paths ih =>
    have hfile : options.scanFile inputs path = options.scanGiven (inputs.read path) := rfl
    rw [scanFiles, ih, Inputs.inTurn, List.mapM_cons, hfile]
    simp only [bind_assoc, pure_bind, List.sum_cons]

/-- **Checking inputs** goes through what they give in turn and adds up the counts of passed and failed
ones. -/
theorem CheckOptions.checkEach_eq_mapM (options : CheckOptions) (inputs : Inputs) (paths : List String) :
    options.checkEach inputs paths = (do
      let tallies ← (inputs.inTurn paths).mapM options.checkGiven
      return tallies.foldr Tally.add Tally.empty) := by
  induction paths generalizing inputs with
  | nil => rfl
  | cons path paths ih =>
    have hfile : options.checkFile inputs path = options.checkGiven (inputs.read path) := rfl
    rw [checkEach, ih, Inputs.inTurn, List.mapM_cons, hfile]
    simp only [bind_assoc, pure_bind, List.foldr_cons]

/-- A listing depends on its inputs only by what they give in turn. -/
theorem ScanOptions.scanFiles_congr (options : ScanOptions) {inputs other : Inputs}
    {paths : List String} (h : inputs.inTurn paths = other.inTurn paths) :
    options.scanFiles inputs paths = options.scanFiles other paths := by
  rw [scanFiles_eq_mapM, scanFiles_eq_mapM, h]

/-- A check depends on its inputs only by what they give in turn. -/
theorem CheckOptions.checkFiles_congr (options : CheckOptions) {inputs other : Inputs}
    {paths : List String} (h : inputs.inTurn paths = other.inTurn paths) :
    options.checkFiles inputs paths = options.checkFiles other paths := by
  rw [checkFiles, checkFiles, checkEach_eq_mapM, checkEach_eq_mapM, h]

/-! ## Files -/

theorem Inputs.read_file {inputs : Inputs} {path text : String} (hpath : path ≠ stdinPath)
    (h : inputs.files.entry path = .file text.toByteArray) : inputs.read path = .ok ⟨path, text⟩ := by
  simp only [read, if_neg hpath, h, decodeText_toByteArray]

theorem Inputs.read_stdin {inputs : Inputs} {text : String} (h : inputs.stdin = text.toByteArray) :
    inputs.read stdinPath = .ok ⟨stdinName, text⟩ := by
  rw [read, if_pos rfl, h, decodeText_toByteArray]

/-- **Inputs that are files with known texts**, and nothing else: standard input is empty, and no other
path leads anywhere. -/
def Inputs.ofTexts (texts : List (String × String)) : Inputs where
  files := ⟨fun path =>
    match texts.lookup path with
    | some text => .file text.toByteArray
    | none => .missing⟩
  stdin := ByteArray.empty

theorem Inputs.read_ofTexts {texts : List (String × String)} {path text : String}
    (hpath : path ≠ stdinPath) (h : texts.lookup path = some text) :
    (ofTexts texts).read path = .ok ⟨path, text⟩ := by
  apply read_file hpath
  simp only [ofTexts, h]

/-! ## Single files -/

section Single

variable {source : Source} {tokens : List Token} {error : LexError}

/-- A source that scans is listed with all of its tokens, which are counted. With verbosity on, their
number is reported behind what the scan itself reports. -/
theorem ScanOptions.scanSource_of_ok (options : ScanOptions)
    (h : (Lexer.ofString source.text options.strictKeywords).scan = .ok tokens) :
    options.scanSource source = ⟨⟨options.format.listing tokens, scanningEvent source ::
      ((Lexer.ofString source.text options.strictKeywords).log ++
        if options.verbose then [scannedEvent source tokens] else [])⟩, .ok tokens.length⟩ := by
  have hrun : options.scanSource source =
      ⟨⟨"" ++ (options.format.listing tokens ++ ("" ++ "")), scanningEvent source ::
        (Lexer.ofString source.text options.strictKeywords).log ++ ([] ++
          ((if options.verbose then [scannedEvent source tokens] else []) ++ []))⟩,
        .ok tokens.length⟩ := by
    rw [Lexer.scan] at h
    simp only [scanSource, h]
    rfl
  simpa using hrun

/-- Of a source that does not scan nothing is listed; the run fails with its lexical error under its
name, behind the reports of the scan. -/
theorem ScanOptions.scanSource_of_error (options : ScanOptions)
    (h : (Lexer.ofString source.text options.strictKeywords).scan = .error error) :
    options.scanSource source = ⟨⟨"", scanningEvent source ::
      (Lexer.ofString source.text options.strictKeywords).log⟩,
        .error (.lexical source.name error)⟩ := by
  have hrun : options.scanSource source = ⟨⟨"" ++ "", scanningEvent source ::
      (Lexer.ofString source.text options.strictKeywords).log ++ []⟩,
        .error (.lexical source.name error)⟩ := by
    rw [Lexer.scan] at h
    simp only [scanSource, h]
    rfl
  simpa using hrun

/-- A source that scans has an entry with the number of its tokens and is counted as passed. -/
theorem CheckOptions.checkSource_of_ok (options : CheckOptions)
    (h : (Lexer.ofString source.text options.strictKeywords).scan = .ok tokens) :
    options.checkSource source = ⟨⟨passedEntry source.name tokens,
      (Lexer.ofString source.text options.strictKeywords).log⟩, .ok ⟨1, 0⟩⟩ := by
  have hrun : options.checkSource source = ⟨⟨"" ++ (passedEntry source.name tokens ++ ""),
      (Lexer.ofString source.text options.strictKeywords).log ++ ([] ++ [])⟩, .ok ⟨1, 0⟩⟩ := by
    rw [Lexer.scan] at h
    simp only [checkSource, h]
    rfl
  simpa using hrun

/-- A source that does not scan has an entry with its diagnostic and is counted as failed, and there is
a warning. -/
theorem CheckOptions.checkSource_of_error (options : CheckOptions)
    (h : (Lexer.ofString source.text options.strictKeywords).scan = .error error) :
    options.checkSource source = ⟨⟨failedEntry source.name error,
      (Lexer.ofString source.text options.strictKeywords).log ++
        [lexicalErrorEvent source error]⟩, .ok ⟨0, 1⟩⟩ := by
  have hrun : options.checkSource source = ⟨⟨"" ++ ("" ++ (failedEntry source.name error ++ "")),
      (Lexer.ofString source.text options.strictKeywords).log ++
        ([lexicalErrorEvent source error] ++ ([] ++ []))⟩, .ok ⟨0, 1⟩⟩ := by
    rw [Lexer.scan] at h
    simp only [checkSource, h]
    rfl
  simpa using hrun

end Single

/-! ## What a listing comes to -/

/-- The tokens of a source, or its lexical error together with its name. -/
def Source.tokens (strict : Bool) (source : Source) : Except ToolError (List Token) :=
  match (Lexer.ofString source.text strict).scan with
  | .ok tokens => .ok tokens
  | .error error => .error (.lexical source.name error)

/-- The tokens of the text at a path, or why there are none: the path cannot be read, or the text does
not scan. -/
def Inputs.tokens (strict : Bool) (inputs : Inputs) (path : String) :
    Except ToolError (List Token) :=
  match inputs.read path with
  | .ok source => source.tokens strict
  | .error error => .error error

theorem Source.tokens_eq_ok {strict : Bool} {source : Source} {tokens : List Token} :
    source.tokens strict = .ok tokens ↔
      (Lexer.ofString source.text strict).scan = .ok tokens := by
  rw [Source.tokens]
  cases (Lexer.ofString source.text strict).scan <;> simp

theorem Source.tokens_eq_error {strict : Bool} {source : Source} {error : ToolError} :
    source.tokens strict = .error error ↔ ∃ lexical, error = .lexical source.name lexical ∧
      (Lexer.ofString source.text strict).scan = .error lexical := by
  rw [Source.tokens]
  cases (Lexer.ofString source.text strict).scan with
  | error lexical => simp [eq_comm]
  | ok tokens => simp

/-- The tokens of what an input gave when its turn came, or why there are none. -/
def Source.tokensGiven (strict : Bool) (given : Except ToolError Source) :
    Except ToolError (List Token) :=
  given.bind (Source.tokens strict)

theorem Inputs.tokens_eq (strict : Bool) (inputs : Inputs) (path : String) :
    inputs.tokens strict path = Source.tokensGiven strict (inputs.read path) := by
  rw [tokens]
  cases inputs.read path <;> rfl

theorem Inputs.tokens_ofTexts {texts : List (String × String)} {path text : String} (strict : Bool)
    (hpath : path ≠ stdinPath) (h : texts.lookup path = some text) :
    (ofTexts texts).tokens strict path = Source.tokens strict ⟨path, text⟩ := by
  rw [tokens, read_ofTexts hpath h]

namespace ScanOptions

variable {options : ScanOptions} {inputs : Inputs} {path : String} {tokens : List Token}
  {error : ToolError} {given : Except ToolError Source}

/-- What has tokens is listed with all of them, and they are counted. -/
theorem scanGiven_of_ok (h : Source.tokensGiven options.strictKeywords given = .ok tokens) :
    (options.scanGiven given).result = .ok tokens.length ∧
      (options.scanGiven given).transcript.out = options.format.listing tokens := by
  cases given with
  | error error => cases h
  | ok source =>
    have hscan := Source.tokens_eq_ok.mp h
    rw [scanGiven_ok, options.scanSource_of_ok hscan]
    exact ⟨rfl, rfl⟩

/-- For what has no tokens nothing is written, and the run fails with the reason. -/
theorem scanGiven_of_error (h : Source.tokensGiven options.strictKeywords given = .error error) :
    (options.scanGiven given).result = .error error ∧
      (options.scanGiven given).transcript.out = "" := by
  cases given with
  | error fault =>
    cases h
    exact ⟨rfl, rfl⟩
  | ok source =>
    obtain ⟨lexical, rfl, hscan⟩ := Source.tokens_eq_error.mp h
    rw [scanGiven_ok, options.scanSource_of_error hscan]
    exact ⟨rfl, rfl⟩

theorem scanFile_of_ok (h : inputs.tokens options.strictKeywords path = .ok tokens) :
    (options.scanFile inputs path).result = .ok tokens.length ∧
      (options.scanFile inputs path).transcript.out = options.format.listing tokens := by
  rw [Inputs.tokens_eq] at h
  exact scanGiven_of_ok h

theorem scanFile_of_error (h : inputs.tokens options.strictKeywords path = .error error) :
    (options.scanFile inputs path).result = .error error ∧
      (options.scanFile inputs path).transcript.out = "" := by
  rw [Inputs.tokens_eq] at h
  exact scanGiven_of_error h

/-- A listing of a single input is the run for this input, as there is nothing to be added. -/
theorem scanFiles_singleton (options : ScanOptions) (inputs : Inputs) (path : String) :
    options.scanFiles inputs [path] = options.scanFile inputs path := by
  have hrun : options.scanFiles inputs [path] =
      (options.scanFile inputs path >>= fun count => pure 0 >>= fun counts => pure (count + counts)) :=
    rfl
  simpa using hrun

/-- **Inputs that all have tokens** when their turn comes are listed one behind the other, and all of
their tokens are counted. -/
theorem scanFiles_of_tokens {paths : List String} {lists : List (List Token)}
    (h : (inputs.inTurn paths).map (Source.tokensGiven options.strictKeywords) = lists.map .ok) :
    (options.scanFiles inputs paths).result = .ok (lists.map List.length).sum ∧
      (options.scanFiles inputs paths).transcript.out =
        String.join (lists.map options.format.listing) := by
  have hresults := Run.map_result h fun _ _ htokens => (scanGiven_of_ok htokens).1
  have houts := map_eq_of_map_ok h fun _ _ htokens => (scanGiven_of_ok htokens).2
  rw [options.scanFiles_eq_mapM, Run.mapM_of_ok hresults, Run.bind_ok, Run.pure_eq,
    Transcript.append_empty, ← houts]
  exact ⟨rfl, Transcript.out_join_map ..⟩

/-- **The first input without tokens** ends the listing with its error, behind the listings of the
inputs before it. -/
theorem scanFiles_of_failure {paths : List String} {lists : List (List Token)}
    {after : List (Except ToolError (List Token))}
    (h : (inputs.inTurn paths).map (Source.tokensGiven options.strictKeywords) =
      lists.map .ok ++ .error error :: after) :
    (options.scanFiles inputs paths).result = .error error ∧
      (options.scanFiles inputs paths).transcript.out =
        String.join (lists.map options.format.listing) := by
  obtain ⟨before, given, rest, hturns, hbefore, herror⟩ := exists_of_first_error h
  have hresults := Run.map_result hbefore fun _ _ htokens => (scanGiven_of_ok htokens).1
  have houts := map_eq_of_map_ok hbefore fun _ _ htokens => (scanGiven_of_ok htokens).2
  obtain ⟨hfails, hnothing⟩ := scanGiven_of_error herror
  rw [options.scanFiles_eq_mapM, hturns, Run.mapM_of_error hresults hfails, Run.bind_error, ← houts]
  refine ⟨rfl, ?_⟩
  rw [Transcript.out_append, Transcript.out_join_map, hnothing, String.append_empty]

/-- Files have the tokens of what they hold when their turn comes. -/
theorem map_tokensGiven_inTurn {paths : List String} (strict : Bool)
    (hfiles : Inputs.stdinPath ∉ paths) :
    (inputs.inTurn paths).map (Source.tokensGiven strict) = paths.map (inputs.tokens strict) := by
  rw [inputs.inTurn_of_files hfiles, List.map_map]
  exact List.map_congr_left fun path _ => (inputs.tokens_eq strict path).symm

/-- **Files that all have tokens** are listed one behind the other, and all of their tokens are counted.
-/
theorem scanFiles_of_ok {paths : List String} {lists : List (List Token)}
    (hfiles : Inputs.stdinPath ∉ paths)
    (h : paths.map (inputs.tokens options.strictKeywords) = lists.map .ok) :
    (options.scanFiles inputs paths).result = .ok (lists.map List.length).sum ∧
      (options.scanFiles inputs paths).transcript.out =
        String.join (lists.map options.format.listing) := by
  apply scanFiles_of_tokens
  rw [map_tokensGiven_inTurn _ hfiles, h]

/-- **The first file without tokens** ends the listing with its error, behind the listings of the files
before it. -/
theorem scanFiles_of_error {before after : List String} {lists : List (List Token)}
    (hfiles : Inputs.stdinPath ∉ before ++ path :: after)
    (h : before.map (inputs.tokens options.strictKeywords) = lists.map .ok)
    (herror : inputs.tokens options.strictKeywords path = .error error) :
    (options.scanFiles inputs (before ++ path :: after)).result = .error error ∧
      (options.scanFiles inputs (before ++ path :: after)).transcript.out =
        String.join (lists.map options.format.listing) := by
  apply scanFiles_of_failure
  rw [map_tokensGiven_inTurn _ hfiles, List.map_append, List.map_cons, h, herror]

end ScanOptions

/-- **What a listing of files comes to**: the tokens of all of them, or of those before the first one
that has none. -/
inductive Listed (strict : Bool) (inputs : Inputs) :
    List String → Except ToolError Nat → List (List Token) → Prop
  /-- every file has tokens, and all of them are counted -/
  | all {paths : List String} {lists : List (List Token)}
      (tokens : paths.map (inputs.tokens strict) = lists.map .ok) :
      Listed strict inputs paths (.ok (lists.map List.length).sum) lists
  /-- a file has none, and those before it are listed -/
  | upTo {before after : List String} {path : String} {lists : List (List Token)} {error : ToolError}
      (tokens : before.map (inputs.tokens strict) = lists.map .ok)
      (failure : inputs.tokens strict path = .error error) :
      Listed strict inputs (before ++ path :: after) (.error error) lists

/-- Every listing of files comes to something: all of them have tokens, or one is the first that has
none. -/
theorem exists_listed (strict : Bool) (inputs : Inputs) (paths : List String) :
    ∃ result lists, Listed strict inputs paths result lists := by
  rcases exists_ok_or_error (inputs.tokens strict) paths with
    ⟨lists, htokens⟩ | ⟨before, path, after, lists, error, rfl, htokens, herror⟩
  · exact ⟨_, lists, .all htokens⟩
  · exact ⟨_, lists, .upTo htokens herror⟩

/-- **A run over files** ends as the listing does in any format, and writes it in its own format. -/
theorem ScanOptions.scanFiles_of_listed (options : ScanOptions) {inputs : Inputs} {paths : List String}
    {result : Except ToolError Nat} {lists : List (List Token)}
    (h : Listed options.strictKeywords inputs paths result lists)
    (hfiles : Inputs.stdinPath ∉ paths) : (options.scanFiles inputs paths).result = result ∧
      (options.scanFiles inputs paths).transcript.out =
        String.join (lists.map options.format.listing) := by
  cases h with
  | all htokens => exact scanFiles_of_ok hfiles htokens
  | upTo htokens herror => exact scanFiles_of_error hfiles htokens herror

end LoxTools
