import LoxTools.Proofs.FileByFile
import LoxTools.Proofs.StrictKeywords

/-!
# Checks count every file once

A check goes on behind a lexical error and ends at an input that cannot be read. So what it says of files
that can be read is what it says of every single one:

* `CheckOptions.warning?` — the warning about a file, next to its entry in the output;
* `CheckOptions.warnings_of_given` and `CheckOptions.warnings_of_unreadable` — a check warns of these files
  and of nothing else;
* `CountsEach` — the counts, the output and the warnings of a check, and `check_counts_each` that every
  check of files has them.
-/

namespace LoxTools

namespace CheckOptions

/-- **The warning about a source**: a source that scans gives none, any other one gives one with its
name and the line of its error. -/
def warning? (strict : Bool) (source : Source) : Option Log.Event :=
  match (Lexer.ofString source.text strict).scan with
  | .ok _ => none
  | .error error =>
    some ⟨.warn, "lexical error", [("file", .shown source.name), ("line", .nat error.line)]⟩

variable {options : CheckOptions} {inputs : Inputs} {paths : List String} {sources : List Source}

/-! ## Warnings -/

/-- Checking a source warns of it if it does not scan, and of nothing else. -/
theorem warnings_checkSource (options : CheckOptions) (source : Source) :
    (options.checkSource source).warnings = (warning? options.strictKeywords source).toList := by
  rw [warning?]
  cases h : (Lexer.ofString source.text options.strictKeywords).scan with
  | ok tokens =>
    rw [options.checkSource_of_ok h]
    exact Lexer.warnings_log _
  | error error =>
    rw [options.checkSource_of_error h, Run.warnings, List.filter_append, Lexer.warnings_log]
    rfl

/-- Checking what inputs that can be read gave warns of their sources one by one, in order. -/
theorem flatten_warnings_checkGiven (options : CheckOptions) (sources : List Source) :
    ((sources.map .ok).map fun given => (options.checkGiven given).warnings).flatten =
      sources.filterMap (warning? options.strictKeywords) := by
  rw [List.filterMap_eq_flatMap_toList, List.map_map, List.flatMap_def]
  congr 1
  apply List.map_congr_left
  intro source _
  exact (congrArg Run.warnings (options.checkGiven_ok source)).trans
    (options.warnings_checkSource source)

/-- The report of the counts at the end of a check is no warning, so the warnings are those of the
inputs. -/
theorem warnings_checkFiles_eq (options : CheckOptions) (inputs : Inputs) (paths : List String) :
    (options.checkFiles inputs paths).warnings = (options.checkEach inputs paths).warnings := by
  rw [checkFiles]
  obtain ⟨transcript, error | tally⟩ := options.checkEach inputs paths
  · rfl
  · -- a verbose check has one more event, at its end
    have hreport : (if options.verbose then [finishedEvent tally] else []).filter
        (fun event => event.level = .warn) = [] := by
      cases options.verbose <;> rfl
    rw [Run.warnings_bind_ok, Run.report_bind]
    simp [Run.warnings, Run.pure_eq, Transcript.empty, hreport]

/-- A check is one run for each of the things that its inputs give in turn, with the counts of all of
them added up. -/
theorem checkEach_eq_each (options : CheckOptions) (inputs : Inputs) (paths : List String) :
    options.checkEach inputs paths =
      Run.each Tally.add Tally.empty options.checkGiven (inputs.inTurn paths) :=
  options.checkEach_eq_mapM inputs paths

/-- **A check of inputs that can be read** warns of those that do not scan, in order, and of nothing
else. -/
theorem warnings_of_given (h : inputs.inTurn paths = sources.map .ok) :
    (options.checkFiles inputs paths).warnings =
      sources.filterMap (warning? options.strictKeywords) := by
  rw [warnings_checkFiles_eq, checkEach_eq_each, h,
    Run.each_of_ok (options.map_result_checkGiven sources), ← flatten_warnings_checkGiven]
  exact Transcript.filter_join_map ..

/-- **A check that ends at an input that cannot be read** warns of those inputs before it that do not
scan, and of nothing else; the input that cannot be read is not warned of. -/
theorem warnings_of_unreadable {error : ToolError} {after : List (Except ToolError Source)}
    (h : inputs.inTurn paths = sources.map .ok ++ .error error :: after) :
    (options.checkFiles inputs paths).warnings =
      sources.filterMap (warning? options.strictKeywords) := by
  have hfails : (options.checkGiven (.error error)).result = .error error := rfl
  rw [warnings_checkFiles_eq, checkEach_eq_each, h,
    Run.each_of_error (options.map_result_checkGiven sources) hfails, ← flatten_warnings_checkGiven,
    Run.warnings, Transcript.log_append, List.filter_append, Transcript.filter_join_map]
  exact List.append_nil _

end CheckOptions

/-! ## Counts -/

/-- **A check counts every file once**: it passes those that scan and fails those that do not, with an
entry for each of them in its output and a warning for each that it fails. -/
structure CountsEach (options : CheckOptions) (inputs : Inputs) (paths : List String) : Prop where
  /-- either every input can be read, or one of them is the first that cannot -/
  either : (∃ sources, List.Forall₂ inputs.Gives paths sources) ∨
    ∃ before path after error, paths = before ++ path :: after ∧
      (∃ sources, List.Forall₂ inputs.Gives before sources) ∧ inputs.Unreadable path error
  /-- if every input can be read, each of them is counted, has its entry, which says that it scans and
  how many tokens it has or else why it does not scan, and is warned of if it does not -/
  readable : ∀ sources, List.Forall₂ inputs.Gives paths sources → ∃ tally,
    (options.checkFiles inputs paths).result = .ok tally ∧
    tally.passed + tally.failed = paths.length ∧
    tally.failed = sources.countP (!·.scans options.strictKeywords) ∧
    (options.checkFiles inputs paths).transcript.out = String.join (sources.map fun source =>
      match (Lexer.ofString source.text options.strictKeywords).scan with
      | .ok tokens => "ok " ++ source.name ++ " (" ++ toString tokens.length ++ " tokens)\n"
      | .error error => source.name ++ ": " ++ error.message ++ "\n") ∧
    (options.checkFiles inputs paths).warnings = sources.filterMap fun source =>
      match (Lexer.ofString source.text options.strictKeywords).scan with
      | .ok _ => none
      | .error error =>
        some ⟨.warn, "lexical error", [("file", .shown source.name), ("line", .nat error.line)]⟩
  /-- the first input that cannot be read ends the check with its error, behind what is written and warned
  of those before it -/
  unreadable : ∀ before path after error, paths = before ++ path :: after →
    (∃ sources, List.Forall₂ inputs.Gives before sources) → inputs.Unreadable path error →
    (options.checkFiles inputs paths).result = .error error ∧
    (options.checkFiles inputs paths).transcript.out =
      (options.checkFiles inputs before).transcript.out ∧
    (options.checkFiles inputs paths).warnings = (options.checkFiles inputs before).warnings
  /-- over two lists of files that can be read the counts are added, and the entries and the warnings
  are joined -/
  append : ∀ front back, paths = front ++ back →
    (∃ sources, List.Forall₂ inputs.Gives front sources) →
    (∃ sources, List.Forall₂ inputs.Gives back sources) →
    ∃ tally more, (options.checkFiles inputs front).result = .ok tally ∧
      (options.checkFiles inputs back).result = .ok more ∧
      (options.checkFiles inputs paths).result =
        .ok ⟨tally.passed + more.passed, tally.failed + more.failed⟩ ∧
      (options.checkFiles inputs paths).transcript.out =
        (options.checkFiles inputs front).transcript.out ++
          (options.checkFiles inputs back).transcript.out ∧
      (options.checkFiles inputs paths).warnings =
        (options.checkFiles inputs front).warnings ++ (options.checkFiles inputs back).warnings

section Counts

variable {options : CheckOptions} {inputs : Inputs} {paths before after : List String} {path : String}
  {sources : List Source} {error : ToolError}

/-- Files give certain sources when their turn comes exactly if these are their sources one by one. -/
theorem Inputs.inTurn_eq_iff (hfiles : stdinPath ∉ paths) :
    inputs.inTurn paths = sources.map .ok ↔ List.Forall₂ inputs.Gives paths sources := by
  rw [inputs.inTurn_of_files hfiles]
  constructor
  · intro h
    exact forall₂_of_read hfiles h fun _ _ hpath => (read_eq_ok hpath).mp
  · intro h
    induction h with
    | nil => rfl
    | @cons path source paths sources hgives hrest ih =>
      rw [List.mem_cons, not_or] at hfiles
      rw [List.map_cons, List.map_cons, ih hfiles.2, (read_eq_ok (Ne.symm hfiles.1)).mpr hgives]

/-- Where a path cannot be read, its error comes behind the sources of the files before it. -/
theorem Inputs.inTurn_of_unreadable (hfiles : stdinPath ∉ before ++ path :: after)
    (hbefore : List.Forall₂ inputs.Gives before sources) (hpath : inputs.Unreadable path error) :
    inputs.inTurn (before ++ path :: after) =
      sources.map .ok ++ .error error :: after.map inputs.read := by
  obtain ⟨hfront, hne, -⟩ := files_cut hfiles
  have hsources := (inTurn_eq_iff hfront).mpr hbefore
  rw [inputs.inTurn_of_files hfront] at hsources
  rw [inputs.inTurn_of_files hfiles, List.map_append, List.map_cons, hsources,
    (read_eq_error hne).mpr hpath]

/-- **What a check says of files that can be read**: their counts, their entries and their warnings are
those of the sources, one by one. -/
theorem CheckOptions.checkFiles_of_gives (options : CheckOptions) (hfiles : Inputs.stdinPath ∉ paths)
    (h : List.Forall₂ inputs.Gives paths sources) :
    (options.checkFiles inputs paths).result =
        .ok ⟨sources.countP (·.scans options.strictKeywords),
          sources.countP (!·.scans options.strictKeywords)⟩ ∧
      (options.checkFiles inputs paths).transcript.out =
        String.join (sources.map (entry options.strictKeywords)) ∧
      (options.checkFiles inputs paths).warnings =
        sources.filterMap (warning? options.strictKeywords) := by
  have hturns := (Inputs.inTurn_eq_iff hfiles).mpr h
  obtain ⟨hresult, hout⟩ := checkFiles_of_given hturns
  exact ⟨hresult, hout, warnings_of_given hturns⟩

/-- The sources that scan and those that do not are together all of them. -/
theorem Source.countP_scans_add (strict : Bool) (sources : List Source) :
    sources.countP (·.scans strict) + sources.countP (!·.scans strict) = sources.length := by
  rw [List.length_eq_countP_add_countP (·.scans strict)]
  simp

/-- A check of two lists of files that can be read comes to what the checks of both lists come to: the
counts are added, and entries and warnings of the second list stand behind those of the first. -/
theorem CheckOptions.checkFiles_append (options : CheckOptions) {front back : List String}
    {more : List Source} (hfiles : Inputs.stdinPath ∉ front ++ back)
    (hfront : List.Forall₂ inputs.Gives front sources) (hback : List.Forall₂ inputs.Gives back more) :
    ∃ tally counted, (options.checkFiles inputs front).result = .ok tally ∧
      (options.checkFiles inputs back).result = .ok counted ∧
      (options.checkFiles inputs (front ++ back)).result =
        .ok ⟨tally.passed + counted.passed, tally.failed + counted.failed⟩ ∧
      (options.checkFiles inputs (front ++ back)).transcript.out =
        (options.checkFiles inputs front).transcript.out ++
          (options.checkFiles inputs back).transcript.out ∧
      (options.checkFiles inputs (front ++ back)).warnings =
        (options.checkFiles inputs front).warnings ++ (options.checkFiles inputs back).warnings := by
  have hfrontFiles : Inputs.stdinPath ∉ front := fun hmem => hfiles (List.mem_append_left _ hmem)
  have hbackFiles : Inputs.stdinPath ∉ back := fun hmem => hfiles (List.mem_append_right _ hmem)
  obtain ⟨hresult, hout, hwarnings⟩ := options.checkFiles_of_gives hfrontFiles hfront
  obtain ⟨hresult', hout', hwarnings'⟩ := options.checkFiles_of_gives hbackFiles hback
  obtain ⟨hwhole, hwholeOut, hwholeWarnings⟩ :=
    options.checkFiles_of_gives hfiles (List.rel_append hfront hback)
  refine ⟨_, _, hresult, hresult', ?_, ?_, ?_⟩
  · rw [hwhole, List.countP_append, List.countP_append]
  · rw [hwholeOut, hout, hout', List.map_append, String.join_append]
  · rw [hwholeWarnings, hwarnings, hwarnings', List.filterMap_append]

end Counts

/-- **Every check of files counts each of them once**, whatever files are named and whether or not they
can be read. -/
theorem check_counts_each (options : CheckOptions) (inputs : Inputs) (paths : List String)
    (hfiles : Inputs.stdinPath ∉ paths) : CountsEach options inputs paths := by
  constructor
  case either =>
    rcases exists_ok_or_error inputs.read paths with
      ⟨sources, hsources⟩ | ⟨before, path, after, sources, error, rfl, hsources, herror⟩
    · rw [← inputs.inTurn_of_files hfiles, Inputs.inTurn_eq_iff hfiles] at hsources
      exact Or.inl ⟨sources, hsources⟩
    · obtain ⟨hbefore, hne, -⟩ := Inputs.files_cut hfiles
      rw [← inputs.inTurn_of_files hbefore, Inputs.inTurn_eq_iff hbefore] at hsources
      exact Or.inr ⟨before, path, after, error, rfl, ⟨sources, hsources⟩,
        (Inputs.read_eq_error hne).mp herror⟩
  case readable =>
    intro sources hsources
    obtain ⟨hresult, hout, hwarnings⟩ := options.checkFiles_of_gives hfiles hsources
    refine ⟨_, hresult, ?_, rfl, hout, hwarnings⟩
    rw [Source.countP_scans_add, hsources.length_eq]
  case unreadable =>
    rintro before path after error rfl ⟨sources, hsources⟩ herror
    obtain ⟨hbefore, -, -⟩ := Inputs.files_cut hfiles
    have hturns := Inputs.inTurn_of_unreadable hfiles hsources herror
    obtain ⟨hresult, hout⟩ := @CheckOptions.checkFiles_of_unreadable options inputs _ _ _ _ hturns
    obtain ⟨-, hfront, hwarnings⟩ := options.checkFiles_of_gives hbefore hsources
    exact ⟨hresult, hout.trans hfront.symm,
      (CheckOptions.warnings_of_unreadable hturns).trans hwarnings.symm⟩
  case append =>
    rintro front back rfl ⟨sources, hsources⟩ ⟨more, hmore⟩
    exact options.checkFiles_append hfiles hsources hmore

/-- A file that is named twice is counted twice, with an entry each time, and a directory ends a check
behind the entry and the warning of the file before it. -/
theorem check_counts_each_repeated :
    let inputs : Inputs := ⟨⟨fun path =>
      match path with
      | "good.lox" => .file "print 1;".toByteArray
      | "bad.lox" => .file "a\n@".toByteArray
      | _ => .directory⟩, ByteArray.empty⟩
    let options : CheckOptions := ⟨true, false⟩
    let paths := ["good.lox", "bad.lox", "good.lox"]
    Inputs.stdinPath ∉ paths ∧ CountsEach options inputs paths ∧
      CountsEach options inputs ["bad.lox", "lib", "good.lox"] ∧
      (options.checkFiles inputs paths).result = .ok ⟨2, 1⟩ ∧
      (options.checkFiles inputs paths).transcript.out = "ok good.lox (3 tokens)\n" ++
        "bad.lox: Unexpected character @ at line 2:\n\n   @\n" ++ "ok good.lox (3 tokens)\n" ∧
      (options.checkFiles inputs paths).warnings =
        [⟨.warn, "lexical error", [("file", .shown "bad.lox"), ("line", .nat 2)]⟩] ∧
      (options.checkFiles inputs ["bad.lox", "lib", "good.lox"]).result =
        .error (.inputNotFound "lib") ∧
      (options.checkFiles inputs ["bad.lox", "lib", "good.lox"]).transcript.out =
        "bad.lox: Unexpected character @ at line 2:\n\n   @\n" ∧
      (options.checkFiles inputs ["bad.lox", "lib", "good.lox"]).warnings =
        [⟨.warn, "lexical error", [("file", .shown "bad.lox"), ("line", .nat 2)]⟩] := by
  intro inputs options paths
  have hfiles : Inputs.stdinPath ∉ paths := by decide
  have hcounts := check_counts_each options inputs paths hfiles
  have hends := check_counts_each options inputs ["bad.lox", "lib", "good.lox"] (by decide)
  have hgood : inputs.Gives "good.lox" ⟨"good.lox", "print 1;"⟩ := ⟨rfl, rfl⟩
  have hbad : inputs.Gives "bad.lox" ⟨"bad.lox", "a\n@"⟩ := ⟨rfl, rfl⟩
  have hlib : inputs.Unreadable "lib" (.inputNotFound "lib") := .notRegular nofun
  let sources : List Source := [⟨"good.lox", "print 1;"⟩, ⟨"bad.lox", "a\n@"⟩, ⟨"good.lox", "print 1;"⟩]
  have hsources : List.Forall₂ inputs.Gives paths sources :=
    .cons hgood (.cons hbad (.cons hgood .nil))
  have htally : (Except.ok ⟨sources.countP (·.scans false), sources.countP (!·.scans false)⟩ :
      Except ToolError Tally) = .ok ⟨2, 1⟩ := by rfl
  have hentries : String.join (sources.map (CheckOptions.entry false)) = "ok good.lox (3 tokens)\n" ++
      "bad.lox: Unexpected character @ at line 2:\n\n   @\n" ++ "ok good.lox (3 tokens)\n" := by rfl
  have hwarned : sources.filterMap (CheckOptions.warning? false) =
      [⟨.warn, "lexical error", [("file", .shown "bad.lox"), ("line", .nat 2)]⟩] := by rfl
  obtain ⟨hresult, hout, hwarnings⟩ := options.checkFiles_of_gives hfiles hsources
  -- the second check says of its first file what a check of that file alone says
  let front : List Source := [⟨"bad.lox", "a\n@"⟩]
  have hfront : List.Forall₂ inputs.Gives ["bad.lox"] front := .cons hbad .nil
  have hfrontEntry : String.join (front.map (CheckOptions.entry false)) =
      "bad.lox: Unexpected character @ at line 2:\n\n   @\n" := by rfl
  have hfrontWarned : front.filterMap (CheckOptions.warning? false) =
      [⟨.warn, "lexical error", [("file", .shown "bad.lox"), ("line", .nat 2)]⟩] := by rfl
  obtain ⟨-, hfrontOut, hfrontWarnings⟩ := options.checkFiles_of_gives (by decide) hfront
  obtain ⟨hfails, hfailsOut, hfailsWarnings⟩ :=
    hends.unreadable ["bad.lox"] "lib" ["good.lox"] _ rfl ⟨_, hfront⟩ hlib
  rw [hfrontOut, hfrontEntry] at hfailsOut
  rw [hfrontWarnings, hfrontWarned] at hfailsWarnings
  exact ⟨hfiles, hcounts, hends, hresult.trans htally, hout.trans hentries, hwarnings.trans hwarned,
    hfails, hfailsOut, hfailsWarnings⟩

end LoxTools
