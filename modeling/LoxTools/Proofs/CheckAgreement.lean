import Mathlib.Data.List.Forall2
import LoxTools.Proofs.InputRuns

/-!
# Checking and listing agree

The `check` command goes on behind a lexical error and the `scan` command stops there, but both say the
same about every file. On files that can be read,

* `CheckOptions.checkFiles_of_read` — a check says of each file in turn whether it scans;
* `CheckAgrees` — what this has to do with a listing of the same files, in any format, and
  `check_agrees_with_scan` that it does.
-/

namespace LoxTools

/-! ## What a check says -/

/-- Whether a source scans, under the given rule for reserved words. -/
def Source.scans (strict : Bool) (source : Source) : Bool :=
  match (Lexer.ofString source.text strict).scan with
  | .ok _ => true
  | .error _ => false

/-- A source scans exactly if it has tokens; there is nothing else that scanning can come to but an
error. -/
theorem Source.scans_iff {strict : Bool} {source : Source} :
    source.scans strict = true ↔ ∃ tokens, source.tokens strict = .ok tokens := by
  rw [scans, tokens]
  cases (Lexer.ofString source.text strict).scan <;> simp

namespace CheckOptions

variable {options : CheckOptions} {inputs : Inputs}

/-- **The entry of a source** in the output of a check: that it scans, with the number of its tokens, or
else its diagnostic. -/
def entry (strict : Bool) (source : Source) : String :=
  match (Lexer.ofString source.text strict).scan with
  | .ok tokens => "ok " ++ source.name ++ " (" ++ toString tokens.length ++ " tokens)\n"
  | .error error => source.name ++ ": " ++ error.message ++ "\n"

/-- How a source is counted: as one that passes if it scans, and otherwise as one that fails. -/
def count (strict : Bool) (source : Source) : Tally :=
  if source.scans strict then ⟨1, 0⟩ else ⟨0, 1⟩

/-- Checking a source always succeeds. It counts the source by whether it scans, and writes the entry of
the source and nothing else. -/
theorem checkSource_result (options : CheckOptions) (source : Source) :
    (options.checkSource source).result = .ok (count options.strictKeywords source) ∧
      (options.checkSource source).transcript.out = entry options.strictKeywords source := by
  rw [count, Source.scans, entry]
  cases h : (Lexer.ofString source.text options.strictKeywords).scan with
  | ok tokens =>
    rw [options.checkSource_of_ok h]
    exact ⟨rfl, rfl⟩
  | error error =>
    rw [options.checkSource_of_error h]
    exact ⟨rfl, rfl⟩

/-- Checking what inputs that can be read gave comes, input by input, to how their sources are counted.
-/
theorem map_result_checkGiven (options : CheckOptions) (sources : List Source) :
    (sources.map .ok).map (fun given => (options.checkGiven given).result) =
      (sources.map (count options.strictKeywords)).map .ok := by
  rw [List.map_map, List.map_map]
  apply List.map_congr_left
  intro source _
  exact (congrArg Run.result (options.checkGiven_ok source)).trans (options.checkSource_result source).1

/-- Checking what inputs that can be read gave writes, input by input, the entries of their sources. -/
theorem map_out_checkGiven (options : CheckOptions) (sources : List Source) :
    (sources.map .ok).map (fun given => (options.checkGiven given).transcript.out) =
      sources.map (entry options.strictKeywords) := by
  rw [List.map_map]
  apply List.map_congr_left
  intro source _
  exact (congrArg (·.transcript.out) (options.checkGiven_ok source)).trans
    (options.checkSource_result source).2

/-- The counts of single sources add up to the number of those that scan, as passed, and of those that
do not, as failed. -/
theorem foldr_count (strict : Bool) (sources : List Source) :
    (sources.map (count strict)).foldr Tally.add Tally.empty =
      ⟨sources.countP (·.scans strict), sources.countP (!·.scans strict)⟩ := by
  induction sources with
  | nil => rfl
  | cons source sources ih =>
    rw [List.map_cons, List.foldr_cons, ih, count, List.countP_cons, List.countP_cons]
    cases source.scans strict <;> simp [Tally.add, Nat.add_comm]

/-- **A check of inputs that can be read** when their turn comes has an entry for each of them, in
order, and counts every one of them as passed or as failed. -/
theorem checkFiles_of_given {paths : List String} {sources : List Source}
    (h : inputs.inTurn paths = sources.map .ok) :
    (options.checkFiles inputs paths).result =
        .ok ⟨sources.countP (·.scans options.strictKeywords),
          sources.countP (!·.scans options.strictKeywords)⟩ ∧
      (options.checkFiles inputs paths).transcript.out =
        String.join (sources.map (entry options.strictKeywords)) := by
  rw [checkFiles, options.checkEach_eq_mapM, h, Run.mapM_of_ok (options.map_result_checkGiven sources),
    ← options.map_out_checkGiven, ← foldr_count]
  refine ⟨rfl, ?_⟩
  show (Transcript.join _ ++ Transcript.empty).out ++ ("" ++ "") = _
  rw [Transcript.append_empty, Transcript.out_join_map, String.append_empty, String.append_empty]

/-- **The first input that cannot be read** ends the check with its error. What has been written by then
are the entries of the inputs before it, and nothing is written behind them. -/
theorem checkFiles_of_unreadable {paths : List String} {sources : List Source} {error : ToolError}
    {after : List (Except ToolError Source)}
    (h : inputs.inTurn paths = sources.map .ok ++ .error error :: after) :
    (options.checkFiles inputs paths).result = .error error ∧
      (options.checkFiles inputs paths).transcript.out =
        String.join (sources.map (entry options.strictKeywords)) := by
  have hfails : (options.checkGiven (.error error)).result = .error error := rfl
  rw [checkFiles, options.checkEach_eq_mapM, h,
    Run.mapM_of_error (options.map_result_checkGiven sources) hfails, ← options.map_out_checkGiven]
  refine ⟨rfl, ?_⟩
  show (Transcript.join _ ++ Transcript.empty).out = _
  rw [Transcript.append_empty, Transcript.out_join_map]

/-- **A check of files that can be read** has an entry for each of them, in order, and counts them all.
Standard input is not among them, so that a file named twice gives the same text twice. -/
theorem checkFiles_of_read {paths : List String} {sources : List Source}
    (hfiles : Inputs.stdinPath ∉ paths) (h : paths.map inputs.read = sources.map .ok) :
    (options.checkFiles inputs paths).result =
        .ok ⟨sources.countP (·.scans options.strictKeywords),
          sources.countP (!·.scans options.strictKeywords)⟩ ∧
      (options.checkFiles inputs paths).transcript.out =
        String.join (sources.map (entry options.strictKeywords)) :=
  checkFiles_of_given ((inputs.inTurn_of_files hfiles).trans h)

end CheckOptions

/-! ## Readable files -/

/-- If every path can be read, then there are sources for them, one for each and in the same order. -/
theorem exists_sources {inputs : Inputs} {paths : List String}
    (h : ∀ path ∈ paths, ∃ source, inputs.read path = .ok source) :
    ∃ sources : List Source, paths.map inputs.read = sources.map .ok := by
  rcases exists_ok_or_error inputs.read paths with
    ⟨sources, hsources⟩ | ⟨before, path, after, -, error, rfl, -, herror⟩
  · exact ⟨sources, hsources⟩
  · obtain ⟨source, hread⟩ := h path (by simp)
    rw [herror] at hread
    cases hread

/-- Files that can be read have the tokens of their sources, or the errors where these do not scan. -/
theorem Inputs.map_tokens {inputs : Inputs} {paths : List String} {sources : List Source}
    (strict : Bool) (h : paths.map inputs.read = sources.map .ok) :
    paths.map (inputs.tokens strict) = sources.map (Source.tokens strict) := by
  apply map_eq_of_map_ok h
  intro path source hread
  rw [tokens, hread]

/-- **What a check of files has to do with a listing of them**: `check` and `scan` are the two commands,
as runs over any of the files. -/
structure CheckAgrees (strict : Bool) (paths : List String) (sources : List Source)
    (check : List String → Run Tally) (scan : List String → Run Nat) : Prop where
  /-- the check has an entry for each file, in order: that it scans, with the number of its tokens, or
  else its diagnostic -/
  entries : (check paths).transcript.out = String.join (sources.map fun source =>
    match (Lexer.ofString source.text strict).scan with
    | .ok tokens => "ok " ++ source.name ++ " (" ++ toString tokens.length ++ " tokens)\n"
    | .error error => source.name ++ ": " ++ error.message ++ "\n")
  /-- the check counts each file by whether it scans -/
  counts : (check paths).result =
    .ok ⟨sources.countP (·.scans strict), sources.countP (!·.scans strict)⟩
  /-- the check fails no file if and only if the listing succeeds -/
  clean_iff : (∃ tally, (check paths).result = .ok tally ∧ tally.failed = 0) ↔
    ∃ total, (scan paths).result = .ok total
  /-- if the listing succeeds, it counts all tokens that the entries of the check count, and these
  entries are the whole output of the check -/
  total : ∀ total, (scan paths).result = .ok total → ∃ lists : List (List Token),
    List.Forall₂ (fun source tokens => source.tokens strict = .ok tokens ∧
      CheckOptions.entry strict source =
        "ok " ++ source.name ++ " (" ++ toString tokens.length ++ " tokens)\n") sources lists ∧
    (check paths).transcript.out = String.join (List.zipWith (fun source tokens =>
      "ok " ++ source.name ++ " (" ++ toString tokens.length ++ " tokens)\n") sources lists) ∧
    total = (lists.map List.length).sum
  /-- if the listing fails, it stops at the first file that the check fails, with what the check says of
  it; the files before that one are listed, and the check passes them -/
  failure : ∀ error, (scan paths).result = .error error →
    ∃ before source after lexical, sources = before ++ source :: after ∧
      (∀ passed ∈ before, ∃ tokens, passed.tokens strict = .ok tokens ∧
        CheckOptions.entry strict passed =
          "ok " ++ passed.name ++ " (" ++ toString tokens.length ++ " tokens)\n") ∧
      (∀ passed ∈ before, passed.scans strict = true) ∧ source.scans strict = false ∧
      error = .lexical source.name lexical ∧
      (check paths).transcript.out = String.join (before.map (CheckOptions.entry strict)) ++
        (error.message ++ "\n") ++ String.join (after.map (CheckOptions.entry strict)) ∧
      CheckOptions.entry strict source = error.message ++ "\n" ∧
      (∃ total, (scan (paths.take before.length)).result = .ok total) ∧
      (scan paths).transcript.out = (scan (paths.take before.length)).transcript.out
  /-- taken alone, a file is passed by the check if and only if it is listed without an error -/
  alone : List.Forall₂ (fun path source => (source.scans strict = true ↔
    ∃ total, (scan [path]).result = .ok total) ∧ (source.scans strict = true ↔
      (check [path]).result = .ok ⟨1, 0⟩)) paths sources

/-! ## Both commands over the same files -/

section Both

variable {inputs : Inputs} {paths : List String} {sources : List Source} {strict : Bool}

/-- If the outcomes of a list are all good, then each member is related to the value of its own outcome.
-/
theorem forall₂_of_map_ok {α β ε : Type} {outcome : α → Except ε β} {list : List α} {values : List β}
    (h : list.map outcome = values.map .ok) :
    List.Forall₂ (fun a b => outcome a = .ok b) list values := by
  have hequal : List.Forall₂ Eq (list.map outcome) (values.map Except.ok) := by
    rw [h]
    exact List.forall₂_refl _
  rwa [List.forall₂_map_left_iff, List.forall₂_map_right_iff] at hequal

/-- A source that has an error for its tokens does not scan. -/
theorem Source.scans_eq_false {source : Source} {error : ToolError}
    (h : source.tokens strict = .error error) : source.scans strict = false := by
  refine Bool.eq_false_iff.mpr fun hscans => ?_
  obtain ⟨tokens, htokens⟩ := scans_iff.mp hscans
  rw [h] at htokens
  cases htokens

/-- If the sources of a list all have tokens, then each of them scans. -/
theorem Source.scans_of_map_tokens {lists : List (List Token)}
    (h : sources.map (tokens strict) = lists.map .ok) :
    ∀ source ∈ sources, source.scans strict = true := by
  intro source hsource
  exact scans_iff.mpr (exists_of_map_ok h source hsource)

/-- The entry of a source that scans says so, with its name and the number of its tokens. -/
theorem CheckOptions.entry_of_ok {source : Source} {tokens : List Token}
    (h : source.tokens strict = .ok tokens) :
    entry strict source = "ok " ++ source.name ++ " (" ++ toString tokens.length ++ " tokens)\n" := by
  rw [Source.tokens_eq_ok] at h
  rw [entry, h]

/-- What a check says of a source that does not scan is the message that a listing of it fails with, on
a line of its own. -/
theorem CheckOptions.entry_of_error {source : Source} {error : ToolError}
    (h : source.tokens strict = .error error) : entry strict source = error.message ++ "\n" := by
  rw [Source.tokens_eq_error] at h
  obtain ⟨lexical, rfl, hscan⟩ := h
  rw [entry, hscan]
  rfl

/-- **A listing of files that can be read and scan** goes through to the end and counts all of their
tokens. -/
theorem ScanOptions.scanFiles_of_read (options : ScanOptions) (hfiles : Inputs.stdinPath ∉ paths)
    (h : paths.map inputs.read = sources.map .ok) {lists : List (List Token)}
    (hlists : sources.map (Source.tokens options.strictKeywords) = lists.map .ok) :
    (options.scanFiles inputs paths).result = .ok (lists.map List.length).sum :=
  (scanFiles_of_ok hfiles ((Inputs.map_tokens options.strictKeywords h).trans hlists)).1

/-- **A listing of files that can be read** ends at the first one that does not scan, with the error of
that file. A listing of the files before it goes through to the end and writes the same. -/
theorem ScanOptions.scanFiles_up_to (options : ScanOptions) {before after : List Source}
    {source : Source} {error : ToolError} {lists : List (List Token)}
    (hfiles : Inputs.stdinPath ∉ paths)
    (h : paths.map inputs.read = (before ++ source :: after).map .ok)
    (hlists : before.map (Source.tokens options.strictKeywords) = lists.map .ok)
    (herror : source.tokens options.strictKeywords = .error error) :
    (options.scanFiles inputs paths).result = .error error ∧
      (∃ total, (options.scanFiles inputs (paths.take before.length)).result = .ok total) ∧
      (options.scanFiles inputs paths).transcript.out =
        (options.scanFiles inputs (paths.take before.length)).transcript.out := by
  -- the paths are cut where the sources are
  rw [List.map_append, List.map_cons] at h
  obtain ⟨front, back, rfl, hfront, hback⟩ := List.map_eq_append_iff.mp h
  obtain ⟨path, rest, rfl, hpath, -⟩ := List.map_eq_cons_iff.mp hback
  have hlength : front.length = before.length := by
    have hlengths := congrArg List.length hfront
    rwa [List.length_map, List.length_map] at hlengths
  have htake : (front ++ path :: rest).take before.length = front := by
    rw [← hlength, List.take_left]
  have hfrontFiles : Inputs.stdinPath ∉ front := fun hmem =>
    hfiles (List.mem_append_left _ hmem)
  have htokens := (Inputs.map_tokens options.strictKeywords hfront).trans hlists
  have hpathError : inputs.tokens options.strictKeywords path = .error error := by
    rw [Inputs.tokens, hpath]
    exact herror
  obtain ⟨hresult, hout⟩ := scanFiles_of_error hfiles htokens hpathError
  obtain ⟨htotal, hfrontOut⟩ := scanFiles_of_ok hfrontFiles htokens
  rw [htake]
  exact ⟨hresult, ⟨_, htotal⟩, hout.trans hfrontOut.symm⟩

/-- A file that can be read scans exactly if a listing of it alone succeeds. -/
theorem ScanOptions.scanFiles_alone_iff (options : ScanOptions) {path : String} {source : Source}
    (h : inputs.read path = .ok source) : source.scans options.strictKeywords = true ↔
      ∃ total, (options.scanFiles inputs [path]).result = .ok total := by
  have htokens : inputs.tokens options.strictKeywords path =
      source.tokens options.strictKeywords := by
    rw [Inputs.tokens, h]
  rw [Source.scans_iff, options.scanFiles_singleton, ← htokens]
  cases houtcome : inputs.tokens options.strictKeywords path with
  | ok tokens => simp [(scanFile_of_ok houtcome).1]
  | error error => simp [(scanFile_of_error houtcome).1]

/-- A file that can be read scans exactly if a check of it alone passes one file and fails none. -/
theorem CheckOptions.checkFiles_alone_iff (options : CheckOptions) {path : String} {source : Source}
    (hpath : path ≠ Inputs.stdinPath) (h : inputs.read path = .ok source) :
    source.scans options.strictKeywords = true ↔
      (options.checkFiles inputs [path]).result = .ok ⟨1, 0⟩ := by
  have hfile : Inputs.stdinPath ∉ [path] := by simpa using Ne.symm hpath
  have hread : [path].map inputs.read = [source].map .ok := by simp [h]
  rw [(checkFiles_of_read hfile hread).1]
  cases hscans : source.scans options.strictKeywords <;> simp [hscans]

/-- None of some sources is counted as failed exactly if every one of them scans. -/
theorem Source.countP_not_scans_eq_zero :
    sources.countP (!·.scans strict) = 0 ↔ ∀ source ∈ sources, source.scans strict = true := by
  simp [List.countP_eq_zero]

/-- Sources that scan have, one by one, entries with the numbers of their own tokens. -/
theorem CheckOptions.forall₂_entry {lists : List (List Token)}
    (h : sources.map (Source.tokens strict) = lists.map .ok) :
    List.Forall₂ (fun source tokens => source.tokens strict = .ok tokens ∧ entry strict source =
      "ok " ++ source.name ++ " (" ++ toString tokens.length ++ " tokens)\n") sources lists :=
  (forall₂_of_map_ok h).imp fun _ _ htokens => ⟨htokens, entry_of_ok htokens⟩

/-- The entries of sources that scan can be told from the names of these sources and the numbers of
their tokens alone. -/
theorem CheckOptions.map_entry {lists : List (List Token)}
    (h : List.Forall₂ (fun source tokens => source.tokens strict = .ok tokens) sources lists) :
    sources.map (entry strict) = List.zipWith (fun source tokens =>
      "ok " ++ source.name ++ " (" ++ toString tokens.length ++ " tokens)\n") sources lists := by
  induction h with
  | nil => rfl
  | cons htokens _ ih => rw [List.map_cons, List.zipWith_cons_cons, entry_of_ok htokens, ih]

/-- What holds of every path but standard input and of what is there holds of all paths of a list and of
what is at each of them, if standard input is not among them. -/
theorem forall₂_of_files {ε β : Type} {outcome : String → Except ε β} {values : List β}
    {R : String → β → Prop} (hfiles : Inputs.stdinPath ∉ paths)
    (h : paths.map outcome = values.map .ok)
    (hR : ∀ path value, path ≠ Inputs.stdinPath → outcome path = .ok value → R path value) :
    List.Forall₂ R paths values := by
  obtain ⟨hlength, hpairs⟩ := List.forall₂_iff_zip.mp (forall₂_of_map_ok h)
  refine List.forall₂_iff_zip.mpr ⟨hlength, ?_⟩
  intro path value hmem
  have hpath : path ∈ paths := (List.of_mem_zip hmem).1
  exact hR path value (fun hstdin => hfiles (hstdin ▸ hpath)) (hpairs hmem)

/-- What holds of every path but standard input and of the source that is read there holds of all paths
of a list and of their sources, if standard input is not among them. -/
theorem forall₂_of_read {R : String → Source → Prop} (hfiles : Inputs.stdinPath ∉ paths)
    (h : paths.map inputs.read = sources.map .ok)
    (hR : ∀ path source, path ≠ Inputs.stdinPath → inputs.read path = .ok source →
      R path source) : List.Forall₂ R paths sources :=
  forall₂_of_files hfiles h hR

end Both

/-! ## Agreement -/

namespace CheckAgrees

variable {inputs : Inputs} {paths : List String} {sources before after : List Source}
  {source : Source} {lists : List (List Token)} (options : CheckOptions) (listing : ScanOptions)

/-- A check of files that can be read fails none of them exactly if all of their sources scan. -/
theorem check_clean_iff (hfiles : Inputs.stdinPath ∉ paths)
    (h : paths.map inputs.read = sources.map .ok) :
    (∃ tally, (options.checkFiles inputs paths).result = .ok tally ∧ tally.failed = 0) ↔
      ∀ source ∈ sources, source.scans options.strictKeywords = true := by
  rw [(options.checkFiles_of_read hfiles h).1, ← Source.countP_not_scans_eq_zero]
  simp

/-- Alone, a file that can be read is accepted by both commands if its source scans, and by none of them
if it does not. -/
theorem forall₂_alone (hstrict : listing.strictKeywords = options.strictKeywords)
    (hfiles : Inputs.stdinPath ∉ paths) (h : paths.map inputs.read = sources.map .ok) :
    List.Forall₂ (fun path source => (source.scans options.strictKeywords = true ↔
      ∃ total, (listing.scanFiles inputs [path]).result = .ok total) ∧
      (source.scans options.strictKeywords = true ↔
        (options.checkFiles inputs [path]).result = .ok ⟨1, 0⟩)) paths sources := by
  apply forall₂_of_read hfiles h
  intro path source hpath hsource
  constructor
  · rw [← hstrict]
    exact listing.scanFiles_alone_iff hsource
  · exact options.checkFiles_alone_iff hpath hsource

/-- If all of the sources scan, the listing goes through to the end, and the check passes all of them. -/
theorem of_all (hstrict : listing.strictKeywords = options.strictKeywords)
    (hfiles : Inputs.stdinPath ∉ paths) (h : paths.map inputs.read = sources.map .ok)
    (hlists : sources.map (Source.tokens options.strictKeywords) = lists.map .ok) :
    CheckAgrees options.strictKeywords paths sources (options.checkFiles inputs)
      (listing.scanFiles inputs) := by
  obtain ⟨hcounts, hentries⟩ := options.checkFiles_of_read hfiles h
  have hclean := check_clean_iff options hfiles h
  have htotal := listing.scanFiles_of_read hfiles h (hstrict ▸ hlists)
  refine ⟨hentries, hcounts, ?_, ?_, ?_, forall₂_alone options listing hstrict hfiles h⟩
  · exact iff_of_true (hclean.mpr (Source.scans_of_map_tokens hlists)) ⟨_, htotal⟩
  · intro total hok
    rw [htotal] at hok
    cases hok
    refine ⟨lists, CheckOptions.forall₂_entry hlists, ?_, rfl⟩
    rw [hentries, CheckOptions.map_entry (forall₂_of_map_ok hlists)]
  · intro error hfails
    rw [htotal] at hfails
    cases hfails

/-- If some source is the first that does not scan, the listing ends there, and the check fails it with
what the listing says. -/
theorem of_first {error : ToolError} (hstrict : listing.strictKeywords = options.strictKeywords)
    (hfiles : Inputs.stdinPath ∉ paths)
    (h : paths.map inputs.read = (before ++ source :: after).map .ok)
    (hlists : before.map (Source.tokens options.strictKeywords) = lists.map .ok)
    (herror : source.tokens options.strictKeywords = .error error) :
    CheckAgrees options.strictKeywords paths (before ++ source :: after)
      (options.checkFiles inputs) (listing.scanFiles inputs) := by
  obtain ⟨hcounts, hentries⟩ := options.checkFiles_of_read hfiles h
  have hclean := check_clean_iff options hfiles h
  obtain ⟨hfails, hfront⟩ :=
    listing.scanFiles_up_to hfiles h (hstrict ▸ hlists) (hstrict ▸ herror)
  have hpassed := Source.scans_of_map_tokens hlists
  have hfailed := Source.scans_eq_false herror
  obtain ⟨lexical, rfl, -⟩ := Source.tokens_eq_error.mp herror
  refine ⟨hentries, hcounts, ?_, ?_, ?_, forall₂_alone options listing hstrict hfiles h⟩
  · apply iff_of_false
    · intro hall
      have hscans := hclean.mp hall source (by simp)
      rw [hfailed] at hscans
      cases hscans
    · rintro ⟨total, hok⟩
      rw [hfails] at hok
      cases hok
  · intro total hok
    rw [hfails] at hok
    cases hok
  · intro fault hfault
    rw [hfails] at hfault
    cases hfault
    have hentry := CheckOptions.entry_of_error herror
    refine ⟨before, source, after, lexical, rfl, ?_, hpassed, hfailed, rfl, ?_, hentry, hfront⟩
    · intro passed hmem
      obtain ⟨tokens, htokens⟩ := Source.scans_iff.mp (hpassed passed hmem)
      exact ⟨tokens, htokens, CheckOptions.entry_of_ok htokens⟩
    · rw [hentries, ← hentry, List.map_append, List.map_cons, String.join_append, String.join_cons,
        String.append_assoc]

end CheckAgrees

/-- **Checking and listing agree** on all files that can be read, whatever the format of the listing and
whatever the two commands report along the way. -/
theorem check_agrees_with_scan (inputs : Inputs) (paths : List String) (strict : Bool)
    (loud verbose : Bool) (format : ListingFormat) (hfiles : Inputs.stdinPath ∉ paths)
    (hread : ∀ path ∈ paths, ∃ source, inputs.read path = .ok source) :
    ∃ sources : List Source, paths.map inputs.read = sources.map .ok ∧
      CheckAgrees strict paths sources ((CheckOptions.mk loud strict).checkFiles inputs)
        ((ScanOptions.mk verbose format strict).scanFiles inputs) := by
  obtain ⟨sources, h⟩ := exists_sources hread
  refine ⟨sources, h, ?_⟩
  rcases exists_ok_or_error (Source.tokens strict) sources with
    ⟨lists, hlists⟩ | ⟨before, source, after, lists, error, rfl, hlists, herror⟩
  · exact CheckAgrees.of_all ⟨loud, strict⟩ ⟨verbose, format, strict⟩ rfl hfiles h hlists
  · exact CheckAgrees.of_first ⟨loud, strict⟩ ⟨verbose, format, strict⟩ rfl hfiles h hlists herror

/-- The commands agree on a file that scans, one that does not and the first one again: the check has an
entry for each, and the listing stops at the second with what its entry says. Alone, the file that scans
has three tokens in both, each time that it is named. -/
theorem check_agrees_with_scan_repeated :
    let inputs := Inputs.ofTexts [("good.lox", "print 1;"), ("bad.lox", "a @ b")]
    let paths := ["good.lox", "bad.lox", "good.lox"]
    let check := (CheckOptions.mk true true).checkFiles inputs
    let scan := (ScanOptions.mk true .text true).scanFiles inputs
    Inputs.stdinPath ∉ paths ∧ (∀ path ∈ paths, ∃ source, inputs.read path = .ok source) ∧
      (∃ sources : List Source, paths.map inputs.read = sources.map .ok ∧
        CheckAgrees true paths sources check scan) ∧
      (check paths).transcript.out = "ok good.lox (3 tokens)\n" ++
        "bad.lox: Unexpected character @ at line 1:\n\n   a @\n" ++ "ok good.lox (3 tokens)\n" ∧
      (check paths).result = .ok ⟨2, 1⟩ ∧
      (scan paths).result = .error (.lexical "bad.lox" ⟨.unexpectedCharacter '@', 1, "a @", 2⟩) ∧
      (ToolError.lexical "bad.lox" ⟨.unexpectedCharacter '@', 1, "a @", 2⟩).message =
        "bad.lox: Unexpected character @ at line 1:\n\n   a @" ∧
      (scan paths).transcript.out = "0:5 PRINT\n6:1 NUMBER 1\n7:1 SEMICOLON\n" ∧
      (check ["good.lox", "good.lox"]).transcript.out =
        "ok good.lox (3 tokens)\n" ++ "ok good.lox (3 tokens)\n" ∧
      (scan ["good.lox", "good.lox"]).result = .ok 6 := by
  intro inputs paths check scan
  have hfiles : Inputs.stdinPath ∉ paths := by decide
  have hread : ∀ path ∈ paths, ∃ source, inputs.read path = .ok source := by
    intro path hpath
    simp only [paths, List.mem_cons, List.not_mem_nil, or_false] at hpath
    obtain rfl | rfl | rfl := hpath
    · exact ⟨_, Inputs.read_ofTexts (by decide) rfl⟩
    · exact ⟨_, Inputs.read_ofTexts (by decide) rfl⟩
    · exact ⟨_, Inputs.read_ofTexts (by decide) rfl⟩
  exact ⟨hfiles, hread, check_agrees_with_scan inputs paths true true true .text hfiles hread,
    by decide +kernel, by rfl, by rfl, by decide +kernel, by decide +kernel, by decide +kernel, by rfl⟩

end LoxTools
