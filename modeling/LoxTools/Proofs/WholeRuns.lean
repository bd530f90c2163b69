import LoxTools.CommandLine.Execute
import LoxTools.Proofs.CheckAgreement

/-!
# What a whole run comes to

A command line that is understood leads to a run in stages: the settings are loaded, a listing looks its
format up, and the inputs are gone through in turn. A stage that fails ends the run, and nothing that comes
later has a say in the outcome.

* `Listing`, `Checking` — what the last stage comes to, for each command;
* `Stages` — what a run comes to, stage by stage, and what it does not depend on;
* `run_outcome` — this is what every run comes to.
-/

namespace LoxTools

/-! ## Outcomes -/

namespace Outcome

/-- **A run that fails**: with the message of an error, behind what was written before. -/
structure Fails (outcome : Outcome) (error : ToolError) (out : String) : Prop where
  /-- the exit status is one -/
  status : outcome.status = 1
  /-- the message of the error is what the run complains with -/
  complaint : outcome.complaint = some error.message
  /-- nothing is written but this -/
  out : outcome.out = out

/-- **A run that succeeds**, with what was written. -/
structure Succeeds (outcome : Outcome) (out : String) : Prop where
  /-- the exit status is zero -/
  status : outcome.status = 0
  /-- there is no complaint -/
  complaint : outcome.complaint = none
  /-- nothing is written but this -/
  out : outcome.out = out

/-- **Two runs that end alike**: they may differ in their logs only. -/
structure EndsAs (outcome other : Outcome) : Prop where
  /-- their exit statuses are the same -/
  status : outcome.status = other.status
  /-- they complain with the same message, or not at all -/
  complaint : outcome.complaint = other.complaint
  /-- they write the same -/
  out : outcome.out = other.out

variable {run other : Run Unit} {error : ToolError}

/-- A run that ends with an error fails, whether or not it is verbose. -/
theorem fails_ofRun (verbose : Bool) (h : run.result = .error error) :
    (ofRun verbose run).Fails error run.transcript.out := by
  rw [ofRun, h]
  exact ⟨rfl, rfl, rfl⟩

/-- A run that ends well succeeds, whether or not it is verbose. -/
theorem succeeds_ofRun (verbose : Bool) (h : run.result = .ok ()) :
    (ofRun verbose run).Succeeds run.transcript.out := by
  rw [ofRun, h]
  exact ⟨rfl, rfl, rfl⟩

/-- The exit status of a run is zero or one. -/
theorem status_ofRun (verbose : Bool) (run : Run Unit) :
    (ofRun verbose run).status = 0 ∨ (ofRun verbose run).status = 1 := by
  cases h : run.result with
  | ok _ => exact Or.inl (succeeds_ofRun verbose h).status
  | error error => exact Or.inr (fails_ofRun verbose h).status

/-- Runs with the same result and the same output end alike, however verbose they are. -/
theorem endsAs_ofRun (verbose loud : Bool) (hresult : run.result = other.result)
    (hout : run.transcript.out = other.transcript.out) :
    (ofRun verbose run).EndsAs (ofRun loud other) := by
  rw [ofRun, ofRun, hresult, hout]
  cases other.result with
  | ok _ => exact ⟨rfl, rfl, rfl⟩
  | error _ => exact ⟨rfl, rfl, rfl⟩

end Outcome

/-! ## The inputs in turn -/

/-- **All of it is good, or there is a first error** behind some good ones. -/
theorem exists_ok_or_first_error {β ε : Type} (list : List (Except ε β)) :
    (∃ values : List β, list = values.map .ok) ∨
      ∃ (values : List β) (error : ε) (after : List (Except ε β)),
        list = values.map .ok ++ .error error :: after := by
  rcases exists_ok_or_error id list with
    ⟨values, hvalues⟩ | ⟨before, _, after, values, error, rfl, hvalues, rfl⟩
  · rw [List.map_id] at hvalues
    exact Or.inl ⟨values, hvalues⟩
  · rw [List.map_id] at hvalues
    exact Or.inr ⟨values, error, after, by rw [hvalues]⟩

namespace Source

variable {strict : Bool}

/-- **What an input gave is clean** if it is a source that scans. -/
def Clean (strict : Bool) (given : Except ToolError Source) : Prop :=
  ∃ source tokens, given = .ok source ∧ source.tokens strict = .ok tokens

/-- What an input gave is clean exactly if it has tokens. -/
theorem clean_iff {given : Except ToolError Source} :
    Clean strict given ↔ ∃ tokens, tokensGiven strict given = .ok tokens := by
  cases given with
  | error error =>
    simp [Clean, tokensGiven, Except.bind]
  | ok source =>
    simp [Clean, tokensGiven, Except.bind]

theorem clean_ok_iff {source : Source} : Clean strict (.ok source) ↔ source.scans strict = true := by
  rw [clean_iff, scans_iff]
  rfl

/-- Where all inputs have tokens, all of them are clean. -/
theorem clean_of_map_tokensGiven {given : List (Except ToolError Source)} {lists : List (List Token)}
    (h : given.map (tokensGiven strict) = lists.map .ok) : ∀ input ∈ given, Clean strict input := by
  intro input hinput
  exact clean_iff.mpr (exists_of_map_ok h input hinput)

/-- Where some input is the first without tokens, not all of them are clean. -/
theorem not_clean_of_map_tokensGiven {given : List (Except ToolError Source)}
    {lists : List (List Token)} {error : ToolError} {after : List (Except ToolError (List Token))}
    (h : given.map (tokensGiven strict) = lists.map .ok ++ .error error :: after) :
    ¬ ∀ input ∈ given, Clean strict input := by
  intro hclean
  obtain ⟨before, input, rest, rfl, -, herror⟩ := exists_of_first_error h
  obtain ⟨tokens, htokens⟩ := clean_iff.mp (hclean input (by simp))
  rw [herror] at htokens
  cases htokens

end Source

/-! ## The last stage -/

section LastStage

variable (format : ListingFormat) (strict : Bool) (given : List (Except ToolError Source))
  (outcome : Outcome)

/-- **What a listing comes to**, given what the inputs give in turn. -/
structure Listing : Prop where
  /-- if all inputs can be read and scan, they are listed -/
  all : ∀ lists : List (List Token), given.map (Source.tokensGiven strict) = lists.map .ok →
    outcome.Succeeds (String.join (lists.map format.listing))
  /-- otherwise the run fails with the error of the first input that cannot be read or does not scan,
  and those before it are listed -/
  upTo : ∀ (lists : List (List Token)) error after,
    given.map (Source.tokensGiven strict) = lists.map .ok ++ .error error :: after →
    outcome.Fails error (String.join (lists.map format.listing))

/-- **What a check comes to**, given what the inputs give in turn. -/
structure Checking : Prop where
  /-- if all inputs can be read and scan, the run succeeds with an entry for each of them -/
  all : ∀ sources : List Source, given = sources.map .ok →
    (∀ source ∈ sources, source.scans strict = true) →
    outcome.Succeeds (String.join (sources.map (CheckOptions.entry strict)))
  /-- if all inputs can be read and some do not scan, there is an entry for each input too, but the run
  fails with the number of those that do not scan -/
  failed : ∀ sources : List Source, given = sources.map .ok →
    (∃ source ∈ sources, source.scans strict = false) →
    outcome.Fails (.checkFailed (sources.countP (!·.scans strict)))
      (String.join (sources.map (CheckOptions.entry strict)))
  /-- otherwise the run fails with the error of the first input that cannot be read, and there are
  entries for those before it -/
  upTo : ∀ (sources : List Source) error after,
    given = sources.map .ok ++ .error error :: after →
    outcome.Fails error (String.join (sources.map (CheckOptions.entry strict)))

variable {format strict given outcome}

/-- **A listing succeeds** if and only if all inputs can be read and scan. -/
theorem Listing.clean_iff (h : Listing format strict given outcome) :
    outcome.status = 0 ↔ ∀ input ∈ given, Source.Clean strict input := by
  rcases exists_ok_or_first_error (given.map (Source.tokensGiven strict)) with
    ⟨lists, hlists⟩ | ⟨lists, error, after, hlists⟩
  · exact iff_of_true (h.all lists hlists).status (Source.clean_of_map_tokensGiven hlists)
  · rw [(h.upTo lists error after hlists).status]
    exact iff_of_false Nat.one_ne_zero (Source.not_clean_of_map_tokensGiven hlists)

/-- **A check succeeds** if and only if all inputs can be read and scan. -/
theorem Checking.clean_iff (h : Checking strict given outcome) :
    outcome.status = 0 ↔ ∀ input ∈ given, Source.Clean strict input := by
  rcases exists_ok_or_first_error given with ⟨sources, rfl⟩ | ⟨sources, error, after, rfl⟩
  · have hclean : (∀ input ∈ sources.map Except.ok, Source.Clean strict input) ↔
        ∀ source ∈ sources, source.scans strict = true := by
      simp [Source.clean_ok_iff]
    rw [hclean]
    by_cases hscans : ∀ source ∈ sources, source.scans strict = true
    · exact iff_of_true (h.all sources rfl hscans).status hscans
    · have hfails : ∃ source ∈ sources, source.scans strict = false := by simpa using hscans
      rw [(h.failed sources rfl hfails).status]
      exact iff_of_false Nat.one_ne_zero hscans
  · rw [(h.upTo sources error after rfl).status]
    refine iff_of_false Nat.one_ne_zero fun hclean => ?_
    obtain ⟨source, -, hread, -⟩ :=
      hclean (.error error) (List.mem_append_right _ (List.mem_cons_self ..))
    cases hread

end LastStage

/-- **A run behind a report**, with a verdict on its value that decides how it ends. -/
def Run.concluded {α β : Type} (run : Run α) (events : List Log.Event)
    (verdict : α → Except ToolError β) : Run β :=
  ⟨⟨run.transcript.out, events ++ run.transcript.log⟩, run.result.bind verdict⟩

/-- **A run that ends with a listing** comes to what a listing comes to. -/
theorem ScanOptions.listing_outcome (options : ScanOptions) (inputs : Inputs) (paths : List String)
    (verbose : Bool) (events : List Log.Event) :
    Listing options.format options.strictKeywords (inputs.inTurn paths)
      (Outcome.ofRun verbose ((options.scanFiles inputs paths).concluded events fun _ => .ok ())) := by
  constructor
  · intro lists h
    obtain ⟨hresult, hout⟩ := scanFiles_of_tokens h
    rw [← hout]
    apply Outcome.succeeds_ofRun
    rw [Run.concluded, hresult]
    rfl
  · intro lists error after h
    obtain ⟨hresult, hout⟩ := scanFiles_of_failure h
    rw [← hout]
    apply Outcome.fails_ofRun
    rw [Run.concluded, hresult]
    rfl

/-- How a check ends that has counted: it fails if it has counted failures. -/
def Tally.verdict (tally : Tally) : Except ToolError Unit :=
  if tally.isClean then .ok () else .error (.checkFailed tally.failed)

/-- **A run that ends with a check** comes to what a check comes to. -/
theorem CheckOptions.checking_outcome (options : CheckOptions) (inputs : Inputs) (paths : List String)
    (verbose : Bool) (events : List Log.Event) :
    Checking options.strictKeywords (inputs.inTurn paths)
      (Outcome.ofRun verbose ((options.checkFiles inputs paths).concluded events Tally.verdict)) := by
  constructor
  · intro sources h hscans
    obtain ⟨hresult, hout⟩ := checkFiles_of_given h
    rw [← hout]
    apply Outcome.succeeds_ofRun
    rw [Run.concluded, hresult, Source.countP_not_scans_eq_zero.mpr hscans]
    rfl
  · intro sources h ⟨source, hsource, hfails⟩
    obtain ⟨hresult, hout⟩ := checkFiles_of_given h
    have hcount : sources.countP (!·.scans options.strictKeywords) ≠ 0 := by
      intro hzero
      rw [Source.countP_not_scans_eq_zero.mp hzero source hsource] at hfails
      cases hfails
    rw [← hout]
    apply Outcome.fails_ofRun
    rw [Run.concluded, hresult]
    exact if_neg (by simpa [Tally.isClean] using hcount)
  · intro sources error after h
    obtain ⟨hresult, hout⟩ := checkFiles_of_unreadable h
    rw [← hout]
    apply Outcome.fails_ofRun
    rw [Run.concluded, hresult]
    rfl

/-! ## The run as a whole -/

namespace Surroundings

/-- The settings of an invocation, as they are loaded from what stands in the file system. -/
def settings [Wording] (surroundings : Surroundings) (invocation : Invocation) :
    Except ToolError Settings :=
  Settings.load surroundings.places invocation.settingsPath

/-- **What the inputs of an invocation give**, each in its turn. -/
def given (surroundings : Surroundings) (invocation : Invocation) : List (Except ToolError Source) :=
  surroundings.inputs.inTurn invocation.command.inputs

end Surroundings

namespace Invocation

variable {invocation : Invocation} {settings : Settings} {inputs : Inputs}

/-- The options of a listing, from the command line and the settings together. -/
def scanOptions (invocation : Invocation) (settings : Settings) (format : ListingFormat) : ScanOptions :=
  ⟨invocation.isVerbose settings, format, invocation.isStrict settings⟩

/-- The options of a check, from the command line and the settings together. -/
def checkOptions (invocation : Invocation) (settings : Settings) : CheckOptions :=
  ⟨invocation.isVerbose settings, invocation.isStrict settings⟩

/-- A listing in a format that does not exist does not start; only the settings are reported. -/
theorem executeWith_of_unformatted (hname : invocation.command.name = .scan)
    (hformat : ListingFormat.ofName? (invocation.formatName settings) = none) :
    invocation.executeWith settings inputs =
      ⟨⟨"", [settingsEvent settings]⟩, .error (.unsupportedFormat (invocation.formatName settings))⟩ := by
  rw [executeWith, Run.report_bind, hname, executeScan, ListingFormat.parse, hformat]
  rfl

/-- A listing in a format that exists goes through the inputs, behind the reports of the settings and
the command. -/
theorem executeWith_scan {format : ListingFormat} (hname : invocation.command.name = .scan)
    (hformat : ListingFormat.ofName? (invocation.formatName settings) = some format) :
    invocation.executeWith settings inputs =
      ((invocation.scanOptions settings format).scanFiles inputs invocation.command.inputs).concluded
        [settingsEvent settings, commandEvent .scan] fun _ => .ok () := by
  have hscan : invocation.executeScan settings inputs = (Run.report [commandEvent .scan] >>= fun _ =>
      (invocation.scanOptions settings format).scanFiles inputs invocation.command.inputs >>= fun _ =>
        Run.ofExcept (.ok ())) := by
    rw [executeScan, ListingFormat.parse, hformat, Run.ofExcept_ok, pure_bind]
    rfl
  rw [executeWith, hname]
  simp only [hscan, Run.report_bind, Run.bind_ofExcept]
  rfl

/-- A check goes through the inputs, behind the reports of the settings and the command, and its counts
decide how it ends. -/
theorem executeWith_check (hname : invocation.command.name = .check) :
    invocation.executeWith settings inputs =
      ((invocation.checkOptions settings).checkFiles inputs invocation.command.inputs).concluded
        [settingsEvent settings, commandEvent .check] Tally.verdict := by
  have hverdict : ∀ tally : Tally,
      (if tally.isClean then Pure.pure () else Run.fail (.checkFailed tally.failed) : Run Unit) =
        Run.ofExcept tally.verdict := by
    intro tally
    rw [Tally.verdict]
    split <;> rfl
  have hcheck : invocation.executeCheck settings inputs = (Run.report [commandEvent .check] >>= fun _ =>
      (invocation.checkOptions settings).checkFiles inputs invocation.command.inputs >>= fun tally =>
        Run.ofExcept tally.verdict) := by
    simp only [← hverdict]
    rfl
  rw [executeWith, hname]
  simp only [hcheck, Run.report_bind, Run.bind_ofExcept]
  rfl

end Invocation

section Stages

variable [Wording] (surroundings : Surroundings) (args : List String) (invocation : Invocation)

/-- **Nothing but the settings is read**: the outcome is the same whatever the inputs hold. -/
def Unread : Prop :=
  ∀ other : Surroundings, other.environment = surroundings.environment →
    other.settings invocation = surroundings.settings invocation →
    run other args = run surroundings args

/-- **What a run comes to**, stage by stage, and what it does not depend on. -/
structure Stages : Prop where
  /-- the run succeeds or fails, and its exit status says which -/
  status : (run surroundings args).status = 0 ∨ (run surroundings args).status = 1
  /-- inputs come in order, and standard input gives nothing when it comes again -/
  turns : ∀ i, (surroundings.given invocation)[i]? = invocation.command.inputs[i]?.map fun path =>
    if path = Inputs.stdinPath ∧ Inputs.stdinPath ∈ invocation.command.inputs.take i then
      .ok ⟨Inputs.stdinName, ""⟩
    else surroundings.inputs.read path
  /-- settings that cannot be loaded end the run before an input is read -/
  unsettled : ∀ error, surroundings.settings invocation = .error error →
    (run surroundings args).Fails error "" ∧ Unread surroundings args invocation
  /-- a format that does not exist ends a listing before an input is read -/
  unformatted : ∀ settings, surroundings.settings invocation = .ok settings →
    invocation.command.name = .scan →
    ListingFormat.ofName? (invocation.formatName settings) = none →
    (run surroundings args).Fails (.unsupportedFormat (invocation.formatName settings)) "" ∧
      Unread surroundings args invocation
  /-- with settings, and with a format where one is needed, the run succeeds if and only if all inputs
  can be read and scan -/
  clean_iff : ∀ settings, surroundings.settings invocation = .ok settings →
    (invocation.command.name = .scan →
      ∃ format, ListingFormat.ofName? (invocation.formatName settings) = some format) →
    ((run surroundings args).status = 0 ↔
      ∀ input ∈ surroundings.given invocation, Source.Clean (invocation.isStrict settings) input)
  /-- a run whose command is a listing in a format that exists ends as a listing does -/
  listing : ∀ settings format, surroundings.settings invocation = .ok settings →
    invocation.command.name = .scan →
    ListingFormat.ofName? (invocation.formatName settings) = some format →
    Listing format (invocation.isStrict settings) (surroundings.given invocation)
      (run surroundings args)
  /-- a run whose command is a check ends as a check does -/
  checking : ∀ settings, surroundings.settings invocation = .ok settings →
    invocation.command.name = .check →
    Checking (invocation.isStrict settings) (surroundings.given invocation) (run surroundings args)
  /-- the format in the settings has no say in a check -/
  formatless : ∀ (other : Surroundings) settings name, invocation.command.name = .check →
    surroundings.settings invocation = .ok settings →
    other.environment = surroundings.environment →
    other.settings invocation = .ok { settings with format := name } →
    other.given invocation = surroundings.given invocation →
    (run other args).EndsAs (run surroundings args)

variable {surroundings args invocation} {settings : Settings}

/-- A run whose settings cannot be loaded complains about this and does nothing else. -/
theorem run_of_unsettled {error : ToolError}
    (h : Invocation.parse surroundings.environment args = .ok invocation)
    (hsettings : surroundings.settings invocation = .error error) :
    run surroundings args = ⟨1, "", [], some error.message⟩ := by
  rw [Surroundings.settings] at hsettings
  rw [run, h]
  simp only [Outcome.ofInvocation, hsettings]

/-- A run whose settings can be loaded is what its command does with them. -/
theorem run_of_settings (h : Invocation.parse surroundings.environment args = .ok invocation)
    (hsettings : surroundings.settings invocation = .ok settings) :
    run surroundings args = Outcome.ofRun (invocation.isVerbose settings)
      (invocation.executeWith settings surroundings.inputs) := by
  rw [Surroundings.settings] at hsettings
  rw [run, h]
  simp only [Outcome.ofInvocation, hsettings]

/-- A run whose command is a listing in a format that exists comes to what a listing comes to. -/
theorem listing_run {format : ListingFormat}
    (h : Invocation.parse surroundings.environment args = .ok invocation)
    (hsettings : surroundings.settings invocation = .ok settings)
    (hname : invocation.command.name = .scan)
    (hformat : ListingFormat.ofName? (invocation.formatName settings) = some format) :
    Listing format (invocation.isStrict settings) (surroundings.given invocation)
      (run surroundings args) := by
  rw [run_of_settings h hsettings, Invocation.executeWith_scan hname hformat]
  exact (invocation.scanOptions settings format).listing_outcome _ _ _ _

/-- A run whose command is a check comes to what a check comes to. -/
theorem checking_run (h : Invocation.parse surroundings.environment args = .ok invocation)
    (hsettings : surroundings.settings invocation = .ok settings)
    (hname : invocation.command.name = .check) :
    Checking (invocation.isStrict settings) (surroundings.given invocation)
      (run surroundings args) := by
  rw [run_of_settings h hsettings, Invocation.executeWith_check hname]
  exact (invocation.checkOptions settings).checking_outcome _ _ _ _

end Stages

/-- **Every run goes through its stages** that the command line leads to, whatever its surroundings are.
-/
theorem run_outcome [Wording] (surroundings : Surroundings) (args : List String) (invocation : Invocation)
    (h : Invocation.parse surroundings.environment args = .ok invocation) :
    Stages surroundings args invocation := by
  have hparse : ∀ other : Surroundings, other.environment = surroundings.environment →
      Invocation.parse other.environment args = .ok invocation := by
    intro other hother
    rw [hother, h]
  constructor
  case status =>
    cases hsettings : surroundings.settings invocation with
    | error error =>
      rw [run_of_unsettled h hsettings]
      exact Or.inr rfl
    | ok settings =>
      rw [run_of_settings h hsettings]
      exact Outcome.status_ofRun _ _
  case turns => exact surroundings.inputs.getElem?_inTurn _
  case unsettled =>
    intro error hsettings
    rw [run_of_unsettled h hsettings]
    refine ⟨⟨rfl, rfl, rfl⟩, fun other hother hsame => ?_⟩
    rw [run_of_unsettled h hsettings, run_of_unsettled (hparse other hother) (hsame.trans hsettings)]
  case unformatted =>
    intro settings hsettings hname hformat
    constructor
    · rw [run_of_settings h hsettings, Invocation.executeWith_of_unformatted hname hformat]
      exact Outcome.fails_ofRun _ rfl
    · intro other hother hsame
      rw [run_of_settings h hsettings, run_of_settings (hparse other hother) (hsame.trans hsettings),
        Invocation.executeWith_of_unformatted hname hformat,
        Invocation.executeWith_of_unformatted hname hformat]
  case clean_iff =>
    intro settings hsettings hformat
    cases hname : invocation.command.name with
    | scan =>
      obtain ⟨format, hformat⟩ := hformat hname
      exact (listing_run h hsettings hname hformat).clean_iff
    | check => exact (checking_run h hsettings hname).clean_iff
  case listing => exact fun _ _ => listing_run h
  case checking => exact fun _ => checking_run h
  case formatless =>
    intro other settings name hname hsettings hother hloaded hgiven
    rw [run_of_settings h hsettings, run_of_settings (hparse other hother) hloaded,
      Invocation.executeWith_check hname, Invocation.executeWith_check hname,
      CheckOptions.checkFiles_congr _ hgiven]
    exact Outcome.endsAs_ofRun _ _ rfl rfl

/-- A check of a good file, of standard input, of a bad file, of standard input again and of a file that
does not exist has an entry for all but the last, and fails because of that one. A listing of the first
three fails because of the bad file, behind the tokens of the other two. -/
theorem run_outcome_mixed :
    let files := (Inputs.ofTexts [("good.lox", "print 1;"), ("bad.lox", "a @ b")]).files
    let surroundings : Surroundings := ⟨⟨files, files, none⟩, "or1".toByteArray, ⟨none, none, none⟩⟩
    let checkArgs := ["check", "good.lox", "-", "bad.lox", "-", "lost.lox"]
    let check : Invocation := ⟨false, none, .check, checkArgs.tail, none, false⟩
    let scanArgs := ["scan", "good.lox", "-", "bad.lox"]
    let scan : Invocation := ⟨false, none, .scan, scanArgs.tail, none, false⟩
    Invocation.parse surroundings.environment checkArgs = .ok check ∧
      Stages surroundings checkArgs check ∧
      (run surroundings checkArgs).Fails (.inputNotFound "lost.lox") (String.join
        ["ok good.lox (3 tokens)\n", "ok <stdin> (2 tokens)\n",
          "bad.lox: Unexpected character @ at line 1:\n\n   a @\n", "ok <stdin> (0 tokens)\n"]) ∧
      Invocation.parse surroundings.environment scanArgs = .ok scan ∧
      Stages surroundings scanArgs scan ∧
      (run surroundings scanArgs).Fails (.lexical "bad.lox" ⟨.unexpectedCharacter '@', 1, "a @", 2⟩)
        (String.join ["0:5 PRINT\n6:1 NUMBER 1\n7:1 SEMICOLON\n", "0:2 OR\n2:1 NUMBER 1\n"]) := by
  intro files surroundings checkArgs check scanArgs scan
  have hcheck : Invocation.parse surroundings.environment checkArgs = .ok check := by rfl
  have hscan : Invocation.parse surroundings.environment scanArgs = .ok scan := by rfl
  have checkStages := run_outcome surroundings checkArgs check hcheck
  have scanStages := run_outcome surroundings scanArgs scan hscan
  have hsettings : ∀ invocation : Invocation, invocation.settingsPath = none →
      surroundings.settings invocation = .ok .default := by
    intro invocation hpath
    rw [Surroundings.settings, hpath]
    rfl
  have hgood : surroundings.inputs.read "good.lox" = .ok ⟨"good.lox", "print 1;"⟩ :=
    Inputs.read_file (by decide) rfl
  have hbad : surroundings.inputs.read "bad.lox" = .ok ⟨"bad.lox", "a @ b"⟩ :=
    Inputs.read_file (by decide) rfl
  have hstdin : surroundings.inputs.read "-" = .ok ⟨"<stdin>", "or1"⟩ := Inputs.read_stdin rfl
  have hlost : surroundings.inputs.read "lost.lox" = .error (.inputNotFound "lost.lox") := by rfl
  refine ⟨hcheck, checkStages, ?_, hscan, scanStages, ?_⟩
  · let sources : List Source :=
      [⟨"good.lox", "print 1;"⟩, ⟨"<stdin>", "or1"⟩, ⟨"bad.lox", "a @ b"⟩, ⟨"<stdin>", ""⟩]
    have hgiven : surroundings.given check =
        sources.map .ok ++ [.error (.inputNotFound "lost.lox")] := by
      simp [Surroundings.given, check, checkArgs, sources, Inputs.inTurn, Inputs.read_after,
        Inputs.stdinPath, Inputs.stdinName, hgood, hbad, hstdin, hlost]
    have hentries : sources.map (CheckOptions.entry false) =
        ["ok good.lox (3 tokens)\n", "ok <stdin> (2 tokens)\n",
          "bad.lox: Unexpected character @ at line 1:\n\n   a @\n", "ok <stdin> (0 tokens)\n"] := by rfl
    rw [← hentries]
    exact (checkStages.checking .default (hsettings check rfl) rfl).upTo sources _ _ hgiven
  · let lists : List (List Token) :=
      [[⟨.printWord, none, 0, 5⟩, ⟨.number, some "1", 6, 1⟩, ⟨.semicolon, none, 7, 1⟩],
        [⟨.orWord, none, 0, 2⟩, ⟨.number, some "1", 2, 1⟩]]
    let error : ToolError := .lexical "bad.lox" ⟨.unexpectedCharacter '@', 1, "a @", 2⟩
    have hgiven : surroundings.given scan = [.ok ⟨"good.lox", "print 1;"⟩, .ok ⟨"<stdin>", "or1"⟩,
        .ok ⟨"bad.lox", "a @ b"⟩] := by
      simp [Surroundings.given, scan, scanArgs, Inputs.inTurn, Inputs.read_after, Inputs.stdinPath,
        hgood, hbad, hstdin]
    have htokens : (surroundings.given scan).map (Source.tokensGiven false) =
        lists.map .ok ++ [.error error] := by
      rw [hgiven]
      rfl
    have hlisted : lists.map ListingFormat.text.listing =
        ["0:5 PRINT\n6:1 NUMBER 1\n7:1 SEMICOLON\n", "0:2 OR\n2:1 NUMBER 1\n"] := by rfl
    rw [← hlisted]
    exact (scanStages.listing .default .text (hsettings scan rfl) rfl (by decide +kernel)).upTo
      lists error _ htokens

end LoxTools
