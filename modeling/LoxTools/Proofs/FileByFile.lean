import LoxTools.Proofs.CheckAgreement

/-!
# File by file

A file gives the same whenever it is read, so a run over files is made of runs over single ones:

* `Run.each` — runs for the members of a list, one behind the other, and what they come to if all go well
  (`Run.each_of_ok`), if one fails (`Run.each_of_error`), and over two lists (`Run.goesOn_each`);
* `Inputs.Holds` and `Inputs.Unreadable` — what a path leads to if it can be read, and if it cannot;
* `Inputs.Scans` and `Inputs.Refuses` — the same of what can be listed;
* `ListsFileByFile` — a listing as the listings of the single files up to the first one that fails, and
  `scan_listing_file_by_file` that every listing of files is that.
-/

namespace LoxTools

/-! ## One run for each -/

namespace Transcript

/-- The reports of two transcripts in a row are the reports of both. -/
@[simp] theorem log_append (first second : Transcript) :
    (first ++ second).log = first.log ++ second.log := rfl

/-- The reports of many transcripts in a row are the reports of all of them in the same order. -/
theorem log_join_map {α : Type} (transcript : α → Transcript) (list : List α) :
    (join (list.map transcript)).log = (list.map fun a => (transcript a).log).flatten := by
  induction list with
  | nil => rfl
  | cons a list ih =>
    rw [List.map_cons, join_cons, log_append, ih, List.map_cons, List.flatten_cons]

/-- Choosing among the reports of many transcripts in a row is choosing among those of each. -/
theorem filter_join_map {α : Type} (shown : Log.Event → Bool) (transcript : α → Transcript)
    (list : List α) : (join (list.map transcript)).log.filter shown =
      (list.map fun a => (transcript a).log.filter shown).flatten := by
  rw [log_join_map, List.filter_flatten, List.map_map]
  rfl

end Transcript

namespace Run

variable {α β : Type} {combine : β → β → β} {unit : β} {run : α → Run β}

/-- **A run that goes on with another one** if it succeeds, and then puts both values together. -/
structure GoesOn (combine : β → β → β) (first second whole : Run β) : Prop where
  /-- if the first run fails, it is the whole, and nothing of the second run is seen -/
  fails : ∀ error, first.result = .error error → whole = first
  /-- if the first run succeeds, the whole ends as the second one does, with both values put together -/
  result : ∀ b, first.result = .ok b → whole.result = second.result.map (combine b)
  /-- if the first run succeeds, what the second one writes comes behind what the first one has written
  -/
  out : ∀ b, first.result = .ok b →
    whole.transcript.out = first.transcript.out ++ second.transcript.out
  /-- if the first run succeeds, what the second one reports comes behind what the first one has
  reported -/
  log : ∀ b, first.result = .ok b →
    whole.transcript.log = first.transcript.log ++ second.transcript.log

/-- Two runs in sequence, whose values are then put together, are a run that goes on with another one.
-/
theorem goesOn_bind (combine : β → β → β) (first second : Run β) :
    GoesOn combine first second (first >>= fun a => second >>= fun b => Pure.pure (combine a b)) := by
  obtain ⟨transcript, error | a⟩ := first
  · exact ⟨fun _ _ => rfl, nofun, nofun, nofun⟩
  obtain ⟨more, error | b⟩ := second
  · exact ⟨nofun, fun _ h => by cases h; rfl, fun _ _ => rfl, fun _ _ => rfl⟩
  · refine ⟨nofun, fun _ h => by cases h; rfl, fun _ _ => ?_, fun _ _ => ?_⟩
    · exact congrArg (transcript.out ++ ·) String.append_empty
    · exact congrArg (transcript.log ++ ·) (List.append_nil more.log)

/-- **A run for each member of a list**, one behind the other; their values are then put together. -/
def each (combine : β → β → β) (unit : β) (run : α → Run β) (list : List α) : Run β := do
  let values ← list.mapM run
  return values.foldr combine unit

/-- If the runs for all members go well, what they write and report is joined, and all of their values
are put together. -/
theorem each_of_ok {list : List α} {values : List β}
    (h : list.map (fun a => (run a).result) = values.map .ok) :
    each combine unit run list =
      ⟨Transcript.join (list.map fun a => (run a).transcript), .ok (values.foldr combine unit)⟩ := by
  rw [each, mapM_of_ok h, bind_ok, pure_eq, Transcript.append_empty]

/-- If the run for some member is the first to fail, its error is the result. Behind what it has written
and reported itself there is nothing of the members behind it. -/
theorem each_of_error {before after : List α} {a : α} {values : List β} {error : ToolError}
    (h : before.map (fun a => (run a).result) = values.map .ok)
    (herror : (run a).result = .error error) :
    each combine unit run (before ++ a :: after) =
      ⟨Transcript.join (before.map fun a => (run a).transcript) ++ (run a).transcript,
        .error error⟩ := by
  rw [each, mapM_of_error h herror, bind_error]

/-- **Over two lists** the runs for the members of the first one go on with those for the members of the
second one, if values are put together by an associative operation. -/
theorem goesOn_each [Std.Associative combine] [Std.LawfulLeftIdentity combine unit]
    (list more : List α) :
    GoesOn combine (each combine unit run list) (each combine unit run more)
      (each combine unit run (list ++ more)) := by
  have hfold : ∀ values others : List β, (values ++ others).foldr combine unit =
      combine (values.foldr combine unit) (others.foldr combine unit) := by
    intro values others
    -- the second fold starts from the unit, so it may be taken out of the first one
    have hunit : combine unit (others.foldr combine unit) = others.foldr combine unit :=
      Std.LawfulLeftIdentity.left_id _
    calc (values ++ others).foldr combine unit
        = values.foldr combine (combine unit (others.foldr combine unit)) := by
          rw [List.foldr_append, hunit]
      _ = combine (values.foldr combine unit) (others.foldr combine unit) := List.foldr_assoc
  have hwhole : each combine unit run (list ++ more) = (each combine unit run list >>= fun a =>
      each combine unit run more >>= fun b => Pure.pure (combine a b)) := by
    simp only [each, List.mapM_append, bind_assoc, pure_bind, hfold]
  rw [hwhole]
  exact goesOn_bind combine _ _

end Run

/-! ## What files hold -/

/-- Bytes that encode no text are not read as one. -/
theorem decodeText_of_invalid {bytes : ByteArray} (h : ¬ bytes.IsValidUTF8) :
    decodeText bytes = .error .invalidText := by
  simp [decodeText, String.fromUTF8?, h]

/-- A content is read as a certain text exactly if it consists of the bytes that encode this text. -/
theorem decodeText_eq_ok {content : Content} {text : String} :
    decodeText content = .ok text ↔ content = .bytes text.toByteArray := by
  constructor
  · intro h
    cases content with
    | refused reason => cases h
    | bytes bytes =>
      by_cases hvalid : bytes.IsValidUTF8
      · simp only [decodeText, String.fromUTF8?, hvalid, ↓reduceDIte, Except.ok.injEq] at h
        rw [← h]
        rfl
      · rw [decodeText_of_invalid hvalid] at h
        cases h
  · rintro rfl
    exact decodeText_toByteArray text

/-- **Reading a text fails in two ways**: the bytes are there and encode none, or the operating system
refuses to read them. -/
theorem decodeText_eq_error {content : Content} {fault : ReadFault}
    (h : decodeText content = .error fault) :
    (∃ bytes, content = .bytes bytes ∧ ¬ bytes.IsValidUTF8 ∧ fault = .invalidText) ∨
      ∃ reason, content = .refused reason ∧ fault = .refused reason := by
  cases content with
  | refused reason => exact Or.inr ⟨reason, rfl, (Except.error.inj h).symm⟩
  | bytes bytes =>
    have hinvalid : ¬ bytes.IsValidUTF8 := by
      intro hvalid
      have htext := decodeText_toByteArray ⟨bytes, hvalid⟩
      rw [h] at htext
      cases htext
    rw [decodeText_of_invalid hinvalid] at h
    exact Or.inl ⟨bytes, rfl, hinvalid, (Except.error.inj h).symm⟩

namespace Inputs

/-- A path that leads to a regular file with the encoding of a certain text in it. -/
def Holds (inputs : Inputs) (path text : String) : Prop :=
  inputs.files.entry path = .file text.toByteArray

/-- **A path that cannot be read**, with the error that says why. -/
inductive Unreadable (inputs : Inputs) (path : String) : ToolError → Prop
  /-- the path does not lead to a regular file -/
  | notRegular : (∀ content, inputs.files.entry path ≠ .file content) →
    Unreadable inputs path (.inputNotFound path)
  /-- the file holds bytes that encode no text -/
  | notText {bytes : ByteArray} : inputs.files.entry path = .file bytes →
    ¬ bytes.IsValidUTF8 → Unreadable inputs path (.unreadable .invalidText)
  /-- the operating system refuses to read the file -/
  | refused {reason : String} : inputs.files.entry path = .file (.refused reason) →
    Unreadable inputs path (.unreadable (.refused reason))

/-- **A file that scans** to some tokens: it holds a text, and these are the tokens of this text. -/
def Scans (inputs : Inputs) (strict : Bool) (path : String) (tokens : List Token) : Prop :=
  ∃ text, inputs.Holds path text ∧ (Lexer.ofString text strict).scan = .ok tokens

/-- **A path that cannot be listed**, with the error that says why. -/
inductive Refuses (inputs : Inputs) (strict : Bool) (path : String) : ToolError → Prop
  /-- the path cannot be read -/
  | unreadable {error : ToolError} : inputs.Unreadable path error → Refuses inputs strict path error
  /-- the file holds a text with a lexical error, which is told together with the path -/
  | lexical {text : String} {error : LexError} : inputs.Holds path text →
    (Lexer.ofString text strict).scan = .error error →
    Refuses inputs strict path (.lexical path error)

/-- **What reading a file gives**: the text that it holds, under its path. -/
def Gives (inputs : Inputs) (path : String) (source : Source) : Prop :=
  source.name = path ∧ inputs.Holds path source.text

variable {inputs : Inputs} {strict : Bool} {path : String}

/-- If standard input is not among the paths of a list, it is not among those before some path, not the
path itself, and not among those behind it. -/
theorem files_cut {before after : List String} (h : stdinPath ∉ before ++ path :: after) :
    stdinPath ∉ before ∧ path ≠ stdinPath ∧ stdinPath ∉ after := by
  rw [List.mem_append, List.mem_cons, not_or, not_or] at h
  obtain ⟨hbefore, hpath, hafter⟩ := h
  exact ⟨hbefore, Ne.symm hpath, hafter⟩

/-- Reading a path other than standard input gives a source exactly if a file holds the text of this
source there. -/
theorem read_eq_ok (hpath : path ≠ stdinPath) {source : Source} :
    inputs.read path = .ok source ↔ inputs.Gives path source := by
  constructor
  · intro h
    rw [read, if_neg hpath] at h
    split at h
    case h_1 content hentry =>
      split at h
      case h_1 text htext =>
        obtain rfl := decodeText_eq_ok.mp htext
        obtain rfl := Except.ok.inj h
        exact ⟨rfl, hentry⟩
      case h_2 => cases h
    case h_2 => cases h
  · rintro ⟨rfl, hholds⟩
    exact read_file hpath hholds

/-- Reading a path other than standard input fails with an error exactly if the path cannot be read for
this reason. -/
theorem read_eq_error (hpath : path ≠ stdinPath) {error : ToolError} :
    inputs.read path = .error error ↔ inputs.Unreadable path error := by
  constructor
  · intro h
    rw [read, if_neg hpath] at h
    split at h
    case h_1 content hentry =>
      split at h
      case h_1 => cases h
      case h_2 fault hfault =>
        obtain rfl := Except.error.inj h
        rcases decodeText_eq_error hfault with ⟨bytes, rfl, hinvalid, rfl⟩ | ⟨reason, rfl, rfl⟩
        · exact .notText hentry hinvalid
        · exact .refused hentry
    case h_2 hentry =>
      obtain rfl := Except.error.inj h
      exact .notRegular hentry
  · intro h
    rw [read, if_neg hpath]
    cases h with
    | notRegular hentry =>
      split
      case h_1 content hfile => exact absurd hfile (hentry content)
      case h_2 => rfl
    | notText hentry hinvalid => simp only [hentry, decodeText_of_invalid hinvalid]
    | refused hentry => simp only [hentry, decodeText]

/-- A path other than standard input has certain tokens exactly if the file there scans to them. -/
theorem tokens_eq_ok (hpath : path ≠ stdinPath) {tokens : List Token} :
    inputs.tokens strict path = .ok tokens ↔ inputs.Scans strict path tokens := by
  rw [Inputs.tokens]
  constructor
  · intro h
    split at h
    case h_1 source hread =>
      obtain ⟨-, hholds⟩ := (read_eq_ok hpath).mp hread
      have hscan := Source.tokens_eq_ok.mp h
      exact ⟨source.text, hholds, hscan⟩
    case h_2 => cases h
  · rintro ⟨text, hholds, hscan⟩
    have hread : inputs.read path = .ok ⟨path, text⟩ := (read_eq_ok hpath).mpr ⟨rfl, hholds⟩
    simp only [hread]
    exact Source.tokens_eq_ok.mpr hscan

/-- A path other than standard input has an error instead of tokens exactly if it cannot be listed for
this reason. -/
theorem tokens_eq_error (hpath : path ≠ stdinPath) {error : ToolError} :
    inputs.tokens strict path = .error error ↔ inputs.Refuses strict path error := by
  rw [Inputs.tokens]
  constructor
  · intro h
    split at h
    case h_1 source hread =>
      obtain ⟨rfl, hholds⟩ := (read_eq_ok hpath).mp hread
      obtain ⟨lexical, rfl, hscan⟩ := Source.tokens_eq_error.mp h
      exact .lexical hholds hscan
    case h_2 fault hread =>
      obtain rfl := Except.error.inj h
      exact .unreadable ((read_eq_error hpath).mp hread)
  · intro h
    cases h with
    | unreadable hunreadable =>
      have hread := (read_eq_error hpath).mpr hunreadable
      simp only [hread]
    | @lexical text error hholds hscan =>
      have hread : inputs.read path = .ok ⟨path, text⟩ := (read_eq_ok hpath).mpr ⟨rfl, hholds⟩
      simp only [hread]
      exact Source.tokens_eq_error.mpr ⟨_, rfl, hscan⟩

end Inputs

/-! ## Listings -/

/-- **A listing goes file by file**: it is what the listings of the single files come to, up to the first
of them that fails. -/
structure ListsFileByFile (options : ScanOptions) (inputs : Inputs) (paths : List String) : Prop where
  /-- the listing succeeds if and only if every file scans -/
  succeeds_iff : (∃ total, (options.scanFiles inputs paths).result = .ok total) ↔
    ∀ path ∈ paths, ∃ tokens, inputs.Scans options.strictKeywords path tokens
  /-- a file that scans is listed alone with all of its tokens -/
  single : ∀ path ∈ paths, ∀ tokens, inputs.Scans options.strictKeywords path tokens →
    (options.scanFiles inputs [path]).result = .ok tokens.length ∧
      (options.scanFiles inputs [path]).transcript.out = options.format.listing tokens
  /-- if every file scans, the listing counts the tokens of all files, and writes and reports for each
  file what it does for that file alone -/
  all : ∀ total, (options.scanFiles inputs paths).result = .ok total → ∃ lists : List (List Token),
    List.Forall₂ (inputs.Scans options.strictKeywords) paths lists ∧
    total = (lists.map List.length).sum ∧
    (options.scanFiles inputs paths).transcript.out =
      String.join (paths.map fun path => (options.scanFiles inputs [path]).transcript.out) ∧
    (options.scanFiles inputs paths).transcript.log =
      (paths.map fun path => (options.scanFiles inputs [path]).transcript.log).flatten
  /-- if the listing fails, some file is the first that does not scan, and the listing fails as it does
  for this file alone; for the files before it has written and reported what it does for each of them
  alone, of this one it has written nothing, and the files behind do not matter -/
  first : ∀ error, (options.scanFiles inputs paths).result = .error error →
    ∃ before path after, paths = before ++ path :: after ∧
      (∀ earlier ∈ before, ∃ tokens, inputs.Scans options.strictKeywords earlier tokens) ∧
      inputs.Refuses options.strictKeywords path error ∧
      (options.scanFiles inputs [path]).result = .error error ∧
      (options.scanFiles inputs paths).transcript.out =
        String.join (before.map fun path => (options.scanFiles inputs [path]).transcript.out) ∧
      (options.scanFiles inputs paths).transcript.log =
        (before.map fun path => (options.scanFiles inputs [path]).transcript.log).flatten ++
          (options.scanFiles inputs [path]).transcript.log ∧
      ∀ others, Inputs.stdinPath ∉ others →
        options.scanFiles inputs (before ++ path :: others) = options.scanFiles inputs paths
  /-- over two lists of files the listing of the first one goes on with that of the second one, and the
  tokens of both are added up -/
  append : ∀ front back, paths = front ++ back → Run.GoesOn (· + ·)
    (options.scanFiles inputs front) (options.scanFiles inputs back) (options.scanFiles inputs paths)

section Listings

variable {options : ScanOptions} {inputs : Inputs} {paths before after : List String} {path : String}
  {tokens : List Token} {lists : List (List Token)} {error : ToolError}

/-- **Over files a listing is one listing for each of them**, with the numbers of tokens added up. No
file changes what the next one gives, which only standard input does. -/
theorem ScanOptions.scanFiles_eq_each (options : ScanOptions) (hfiles : Inputs.stdinPath ∉ paths) :
    options.scanFiles inputs paths =
      Run.each (· + ·) 0 (fun path => options.scanFiles inputs [path]) paths := by
  have halone : (fun path => options.scanFiles inputs [path]) =
      options.scanGiven ∘ inputs.read := by
    funext path
    rw [options.scanFiles_singleton]
    rfl
  rw [options.scanFiles_eq_mapM, inputs.inTurn_of_files hfiles, List.mapM_map, halone]
  rfl

/-- A file with tokens is listed alone with all of them, and they are counted. -/
theorem ScanOptions.alone_of_ok (h : inputs.tokens options.strictKeywords path = .ok tokens) :
    (options.scanFiles inputs [path]).result = .ok tokens.length ∧
      (options.scanFiles inputs [path]).transcript.out = options.format.listing tokens := by
  rw [options.scanFiles_singleton]
  exact scanFile_of_ok h

/-- A file without tokens makes a listing of it alone fail with its error, and nothing is written. -/
theorem ScanOptions.alone_of_error (h : inputs.tokens options.strictKeywords path = .error error) :
    (options.scanFiles inputs [path]).result = .error error ∧
      (options.scanFiles inputs [path]).transcript.out = "" := by
  rw [options.scanFiles_singleton]
  exact scanFile_of_error h

/-- If all files have tokens, a listing writes and reports what those of the single files do, and counts
the tokens of all of them. -/
theorem ScanOptions.scanFiles_of_all (options : ScanOptions) (hfiles : Inputs.stdinPath ∉ paths)
    (h : paths.map (inputs.tokens options.strictKeywords) = lists.map .ok) :
    options.scanFiles inputs paths =
      ⟨Transcript.join (paths.map fun path => (options.scanFiles inputs [path]).transcript),
        .ok (lists.map List.length).sum⟩ := by
  have hresults := Run.map_result h fun _ _ htokens => (options.alone_of_ok htokens).1
  rw [options.scanFiles_eq_each hfiles, Run.each_of_ok hresults]
  rfl

/-- If a file is the first that has no tokens, a listing ends with its error, behind what the listings
of the files before it and of this file write and report. -/
theorem ScanOptions.scanFiles_of_first (options : ScanOptions)
    (hfiles : Inputs.stdinPath ∉ before ++ path :: after)
    (h : before.map (inputs.tokens options.strictKeywords) = lists.map .ok)
    (herror : inputs.tokens options.strictKeywords path = .error error) :
    options.scanFiles inputs (before ++ path :: after) =
      ⟨Transcript.join (before.map fun path => (options.scanFiles inputs [path]).transcript) ++
        (options.scanFiles inputs [path]).transcript, .error error⟩ := by
  have hresults := Run.map_result h fun _ _ htokens => (options.alone_of_ok htokens).1
  rw [options.scanFiles_eq_each hfiles, Run.each_of_error hresults (alone_of_error herror).1]

/-- **Over two lists of files** a listing of the first one goes on with that of the second one. -/
theorem ScanOptions.goesOn_scanFiles (options : ScanOptions) (inputs : Inputs) {front back : List String}
    (hfiles : Inputs.stdinPath ∉ front ++ back) :
    Run.GoesOn (· + ·) (options.scanFiles inputs front) (options.scanFiles inputs back)
      (options.scanFiles inputs (front ++ back)) := by
  have hfront : Inputs.stdinPath ∉ front := fun hmem => hfiles (List.mem_append_left _ hmem)
  have hback : Inputs.stdinPath ∉ back := fun hmem => hfiles (List.mem_append_right _ hmem)
  rw [options.scanFiles_eq_each hfiles, options.scanFiles_eq_each hfront,
    options.scanFiles_eq_each hback]
  exact Run.goesOn_each front back

theorem ScanOptions.alone_of_scans (hfiles : Inputs.stdinPath ∉ paths) :
    ∀ path ∈ paths, ∀ tokens, inputs.Scans options.strictKeywords path tokens →
      (options.scanFiles inputs [path]).result = .ok tokens.length ∧
        (options.scanFiles inputs [path]).transcript.out = options.format.listing tokens := by
  intro path hpath tokens hscans
  have hne : path ≠ Inputs.stdinPath := fun hstdin => hfiles (hstdin ▸ hpath)
  exact alone_of_ok ((Inputs.tokens_eq_ok hne).mpr hscans)

theorem Inputs.scans_of_map_tokens {strict : Bool} (hfiles : stdinPath ∉ paths)
    (h : paths.map (inputs.tokens strict) = lists.map .ok) :
    ∀ path ∈ paths, ∃ tokens, inputs.Scans strict path tokens := by
  intro path hpath
  obtain ⟨tokens, htokens⟩ := exists_of_map_ok h path hpath
  have hne : path ≠ stdinPath := fun hstdin => hfiles (hstdin ▸ hpath)
  exact ⟨tokens, (tokens_eq_ok hne).mp htokens⟩

/-- If all files have tokens, a listing of them goes file by file through to the end. -/
theorem ListsFileByFile.of_all (hfiles : Inputs.stdinPath ∉ paths)
    (h : paths.map (inputs.tokens options.strictKeywords) = lists.map .ok) :
    ListsFileByFile options inputs paths := by
  have hrun := options.scanFiles_of_all hfiles h
  constructor
  case succeeds_iff =>
    exact iff_of_true ⟨_, congrArg Run.result hrun⟩ (Inputs.scans_of_map_tokens hfiles h)
  case single => exact ScanOptions.alone_of_scans hfiles
  case all =>
    intro total htotal
    rw [hrun] at htotal ⊢
    obtain rfl := Except.ok.inj htotal
    have hscans := forall₂_of_files hfiles h fun _ _ hpath => (Inputs.tokens_eq_ok hpath).mp
    exact ⟨lists, hscans, rfl, Transcript.out_join_map .., Transcript.log_join_map ..⟩
  case first =>
    intro error herror
    rw [hrun] at herror
    cases herror
  case append =>
    rintro front back rfl
    exact options.goesOn_scanFiles inputs hfiles

/-- If some file is the first that has no tokens, a listing goes file by file up to this one and stops
there. -/
theorem ListsFileByFile.of_first (hfiles : Inputs.stdinPath ∉ before ++ path :: after)
    (h : before.map (inputs.tokens options.strictKeywords) = lists.map .ok)
    (herror : inputs.tokens options.strictKeywords path = .error error) :
    ListsFileByFile options inputs (before ++ path :: after) := by
  obtain ⟨hbefore, hne, -⟩ := Inputs.files_cut hfiles
  have hrun := options.scanFiles_of_first hfiles h herror
  obtain ⟨halone, hnothing⟩ := ScanOptions.alone_of_error herror
  constructor
  case succeeds_iff =>
    refine iff_of_false ?_ ?_
    · rintro ⟨total, htotal⟩
      rw [hrun] at htotal
      cases htotal
    · intro hall
      obtain ⟨tokens, hscans⟩ := hall path (by simp)
      have htokens := (Inputs.tokens_eq_ok hne).mpr hscans
      rw [herror] at htokens
      cases htokens
  case single => exact ScanOptions.alone_of_scans hfiles
  case all =>
    intro total htotal
    rw [hrun] at htotal
    cases htotal
  case first =>
    intro fault hfault
    rw [hrun] at hfault
    obtain rfl := Except.error.inj hfault
    refine ⟨before, path, after, rfl, Inputs.scans_of_map_tokens hbefore h,
      (Inputs.tokens_eq_error hne).mp herror, halone, ?_, ?_, ?_⟩
    · rw [hrun, Transcript.out_append, Transcript.out_join_map, hnothing, String.append_empty]
    · rw [hrun, Transcript.log_append, Transcript.log_join_map]
    · -- the run is told by the files up to the first failure, whatever stands behind it
      intro others hothers
      have hother : Inputs.stdinPath ∉ before ++ path :: others := by
        simp [hbefore, Ne.symm hne, hothers]
      rw [options.scanFiles_of_first hother h herror, hrun]
  case append =>
    intro front back hsplit
    rw [hsplit] at hfiles ⊢
    exact options.goesOn_scanFiles inputs hfiles

end Listings

/-- **Every listing of files goes file by file**, whatever the files hold and whether or not they can be
read. -/
theorem scan_listing_file_by_file (options : ScanOptions) (inputs : Inputs) (paths : List String)
    (hfiles : Inputs.stdinPath ∉ paths) : ListsFileByFile options inputs paths := by
  rcases exists_ok_or_error (inputs.tokens options.strictKeywords) paths with
    ⟨lists, hlists⟩ | ⟨before, path, after, lists, error, rfl, hlists, herror⟩
  · exact .of_all hfiles hlists
  · exact .of_first hfiles hlists herror

/-- A listing stops at a file with a lexical error, of which two tokens would have been listed, and
another one at bytes that are no text. A file that may not be read is refused with the system's words.
-/
theorem scan_listing_file_by_file_mixed :
    let inputs : Inputs := ⟨⟨fun path =>
      match path with
      | "good.lox" => .file "or1".toByteArray
      | "bad.lox" => .file "a; @".toByteArray
      | "raw.lox" => .file (.bytes ⟨#[0xff]⟩)
      | "locked.lox" => .file (.refused "Permission denied (os error 13)")
      | _ => .missing⟩, ByteArray.empty⟩
    let options : ScanOptions := ⟨true, .text, false⟩
    let paths := ["good.lox", "bad.lox", "good.lox"]
    Inputs.stdinPath ∉ paths ∧ ListsFileByFile options inputs paths ∧
      ListsFileByFile options inputs ["good.lox", "raw.lox"] ∧
      inputs.Refuses false "raw.lox" (.unreadable .invalidText) ∧
      inputs.Refuses false "locked.lox"
        (.unreadable (.refused "Permission denied (os error 13)")) ∧
      (options.scanFiles inputs paths).result =
        .error (.lexical "bad.lox" ⟨.unexpectedCharacter '@', 1, "a; @", 3⟩) ∧
      (options.scanFiles inputs paths).transcript.out = "0:2 OR\n2:1 NUMBER 1\n" := by
  intro inputs options paths
  have hfiles : Inputs.stdinPath ∉ paths := by decide
  have hgood : inputs.Scans false "good.lox" [⟨.orWord, none, 0, 2⟩, ⟨.number, some "1", 2, 1⟩] :=
    ⟨"or1", rfl, rfl⟩
  have hbad : inputs.Refuses false "bad.lox"
      (.lexical "bad.lox" ⟨.unexpectedCharacter '@', 1, "a; @", 3⟩) :=
    @Inputs.Refuses.lexical inputs false "bad.lox" "a; @" _ rfl rfl
  have hraw : inputs.Refuses false "raw.lox" (.unreadable .invalidText) :=
    .unreadable (@Inputs.Unreadable.notText inputs "raw.lox" ⟨#[0xff]⟩ rfl (by decide))
  have hlocked : inputs.Refuses false "locked.lox"
      (.unreadable (.refused "Permission denied (os error 13)")) := .unreadable (.refused rfl)
  have hfront : ["good.lox"].map (inputs.tokens false) =
      [[⟨.orWord, none, 0, 2⟩, ⟨.number, some "1", 2, 1⟩]].map .ok := by
    simp [(Inputs.tokens_eq_ok (by decide)).mpr hgood]
  have hrefused := (Inputs.tokens_eq_error (by decide)).mpr hbad
  have hlisting : String.join ([[⟨.orWord, none, 0, 2⟩, ⟨.number, some "1", 2, 1⟩]].map
      ListingFormat.text.listing) = "0:2 OR\n2:1 NUMBER 1\n" := by rfl
  have hlisted : Listed false inputs paths _ _ := .upTo hfront hrefused
  obtain ⟨hresult, hout⟩ := options.scanFiles_of_listed hlisted hfiles
  exact ⟨hfiles, scan_listing_file_by_file options inputs paths hfiles,
    scan_listing_file_by_file options inputs _ (by decide), hraw, hlocked, hresult,
    hout.trans hlisting⟩

end LoxTools
