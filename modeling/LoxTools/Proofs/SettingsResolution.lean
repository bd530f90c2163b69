import LoxTools.Proofs.FileByFile
import LoxTools.Proofs.WholeRuns

/-!
# Which settings a run has

Settings come from one file at most. Which one it is depends on what stands where, never on what a file
says; what it says is then joined with the options of the command line, each setting in its own way.

* `SettingsPlaces.Consults` — the entry that is consulted, and `SettingsPlaces.Bare` if there is none;
* `Settings.Says` — what settings have to do with the document that they are read from;
* `CarriedOut` — a command carried out with given switches, as a whole outcome;
* `Resolution` and `settings_resolved` — how every run comes to its settings, and what it owes to them.
-/

namespace LoxTools

/-! ## The entry that is consulted -/

namespace FileEntry

/-- The bytes that can be read at an entry, if it is no directory and the operating system lets it be
read. -/
def content? : FileEntry → Option ByteArray
  | .file (.bytes bytes) => some bytes
  | .device (.bytes bytes) => some bytes
  | _ => none

/-- Why the operating system refuses to read an entry, if it does. -/
def refusal? : FileEntry → Option String
  | .file (.refused reason) => some reason
  | .device (.refused reason) => some reason
  | _ => none

end FileEntry

namespace SettingsPlaces

/-- What stands in the working directory. -/
def inWorking (places : SettingsPlaces) : FileEntry :=
  places.working.entry "loxt.toml"

/-- What stands in the home directory. -/
def inHome (places : SettingsPlaces) : FileEntry :=
  places.home.entry ".config/loxt/loxt.toml"

/-- What stands in the directory for configuration, which is a directory below the home directory unless
it is given. -/
def inConfiguration (places : SettingsPlaces) : FileEntry :=
  match places.configuration with
  | some directory => directory.entry "loxt/loxt.toml"
  | none => places.inHome

/-- **The entry that is consulted**: the one at the path named, or the first one that is there. -/
inductive Consults (places : SettingsPlaces) : Option String → FileEntry → Prop
  /-- a path that is named is consulted, whether anything is there or not -/
  | named (path : String) : Consults places (some path) (places.working.entry path)
  /-- without a path the working directory comes first -/
  | working : places.inWorking ≠ .missing → Consults places none places.inWorking
  /-- where nothing is in the working directory, the home directory comes next -/
  | home : places.inWorking = .missing → places.inHome ≠ .missing →
    Consults places none places.inHome
  /-- where nothing is in these two, the directory for configuration is the last one -/
  | configuration : places.inWorking = .missing → places.inHome = .missing →
    places.inConfiguration ≠ .missing → Consults places none places.inConfiguration

/-- Nothing stands in any of the three places where settings are looked for. -/
def Bare (places : SettingsPlaces) : Prop :=
  places.inWorking = .missing ∧ places.inHome = .missing ∧ places.inConfiguration = .missing

variable {places other : SettingsPlaces} {path : Option String} {entry : FileEntry}

/-- No two entries are consulted. -/
theorem Consults.unique {another : FileEntry} (h : places.Consults path entry)
    (hanother : places.Consults path another) : entry = another := by
  cases h <;> cases hanother <;> first | rfl | contradiction

/-- **An entry is consulted, or no path is named and nothing is there.** -/
theorem consults_or_bare (places : SettingsPlaces) (path : Option String) :
    (∃ entry, places.Consults path entry) ∨ path = none ∧ places.Bare := by
  cases path with
  | some path => exact Or.inl ⟨_, .named path⟩
  | none =>
    by_cases hworking : places.inWorking = .missing
    · by_cases hhome : places.inHome = .missing
      · by_cases hconfiguration : places.inConfiguration = .missing
        · exact Or.inr ⟨rfl, hworking, hhome, hconfiguration⟩
        · exact Or.inl ⟨_, .configuration hworking hhome hconfiguration⟩
      · exact Or.inl ⟨_, .home hworking hhome⟩
    · exact Or.inl ⟨_, .working hworking⟩

/-- Where nothing stands, nothing is consulted without a path. -/
theorem Bare.not_consults (h : places.Bare) : ¬ places.Consults none entry := by
  obtain ⟨hworking, hhome, hconfiguration⟩ := h
  intro hconsults
  cases hconsults <;> contradiction

/-! ### Loading follows it -/

theorem isPresent_iff : Settings.isPresent entry = true ↔ entry ≠ .missing := by
  cases entry <;> simp [Settings.isPresent]

/-- Settings are looked for in the three places in their order. -/
theorem candidates_eq (places : SettingsPlaces) : Settings.candidates places =
    [places.inWorking, places.inHome, places.inConfiguration] :=
  rfl

/-- In a search only what is there is consulted. -/
theorem Consults.present (h : places.Consults none entry) : entry ≠ .missing := by
  cases h with
  | working hthere => exact hthere
  | home _ hthere => exact hthere
  | configuration _ _ hthere => exact hthere

section Loading

variable [Wording]

/-- What a missing file would mean does not matter where something stands. -/
theorem ofEntry_of_present (hentry : entry ≠ .missing) (absent instead : Except ToolError Settings) :
    Settings.ofEntry absent entry = Settings.ofEntry instead entry := by
  cases entry with
  | missing => exact absurd rfl hentry
  | directory | file | device => rfl

/-- A search for settings makes them of the entry consulted. -/
theorem Consults.search_eq (h : places.Consults none entry) :
    Settings.search places = Settings.ofEntry (.ok .default) entry := by
  have hpresent := isPresent_iff.mpr h.present
  have habsent : Settings.isPresent .missing = false := rfl
  rw [Settings.search, candidates_eq]
  cases h with
  | working => rw [List.find?_cons, hpresent]; rfl
  | home hworking => rw [hworking, List.find?_cons, habsent, List.find?_cons, hpresent]; rfl
  | configuration hworking hhome =>
    rw [hworking, hhome, List.find?_cons, habsent, List.find?_cons, habsent, List.find?_cons,
      hpresent]
    rfl

/-- **The entry that is consulted decides** about the settings, if anything is there. -/
theorem Consults.load_eq (h : places.Consults path entry) (hentry : entry ≠ .missing)
    (absent : Except ToolError Settings) :
    Settings.load places path = Settings.ofEntry absent entry := by
  cases path with
  | none => exact h.search_eq.trans (ofEntry_of_present hentry _ _)
  | some path =>
    cases h
    exact ofEntry_of_present hentry _ _

/-- Where nothing stands and no path is named, the settings are the defaults. -/
theorem Bare.load_eq (h : places.Bare) : Settings.load places none = .ok .default := by
  obtain ⟨hworking, hhome, hconfiguration⟩ := h
  rw [Settings.load, Settings.search, candidates_eq, hworking, hhome, hconfiguration]
  rfl

/-- **Settings depend on the entry consulted and on nothing else**: other places may hold whatever they
want. -/
theorem load_congr (h : ∀ entry, places.Consults path entry ↔ other.Consults path entry) :
    Settings.load places path = Settings.load other path := by
  cases path with
  | some path =>
    have heq := ((h _).mp (.named path)).unique (.named path)
    rw [Settings.load, Settings.loadFrom, heq]
    rfl
  | none =>
    rcases places.consults_or_bare none with ⟨entry, hconsults⟩ | ⟨-, hbare⟩
    · have hother := (h entry).mp hconsults
      rw [Settings.load, Settings.load, hconsults.search_eq, hother.search_eq]
    · rcases other.consults_or_bare none with ⟨entry, hconsults⟩ | ⟨-, hbare'⟩
      · exact absurd ((h entry).mpr hconsults) hbare.not_consults
      · rw [hbare.load_eq, hbare'.load_eq]

end Loading

end SettingsPlaces

/-! ## What a document says -/

namespace Settings

/-- A field of the section on scanning: it is found by its name, or by its place in an array. -/
def field? (root : Toml.Entries) (name : String) (place : Nat) : Option Toml.Value :=
  match root.lookup "scan" with
  | some (.table _ entries) => entries.lookup name
  | some (.array items) => items[place]?
  | _ => none

/-- The name of a format that a value is. -/
def formatName? : Option Toml.Value → Option String
  | some (.string name) => some name
  | _ => none

/-- **Settings as a document has them**: a switch is on if the document says so, and the format is the one
it names, or else `text`. -/
structure Says (root : Toml.Entries) (settings : Settings) : Prop where
  /-- runs are verbose exactly if the switch for it is there and on -/
  verbose : settings.verbose = true ↔ root.lookup "verbose" = some (.boolean true)
  /-- reserved words are whole words exactly if the switch for it is there and on -/
  strict : settings.strictKeywords = true ↔ field? root "strict_keywords" 1 = some (.boolean true)
  /-- the format is the one that is named, or else `text` -/
  format : settings.format = (formatName? (field? root "format" 0)).getD "text"

/-- A switch that can be read is on exactly if the value is there and is true. -/
theorem switch?_eq_some {value : Option Toml.Value} {on : Bool} (h : switch? value = some on) :
    on = true ↔ value = some (.boolean true) := by
  cases value with
  | none => cases h; exact iff_of_false Bool.false_ne_true nofun
  | some value =>
    cases value with
    | boolean value => cases h; simp
    | string | integer | float | datetime | array | table | tables => cases h

/-- A format that can be read has the name that the value is, or else the one that stands for a missing
value. -/
theorem format?_eq_some {value : Option Toml.Value} {name : String} (h : format? value = some name) :
    name = (formatName? value).getD "text" := by
  cases value with
  | none => cases h; rfl
  | some value =>
    cases value with
    | string text => cases h; rfl
    | boolean | integer | float | datetime | array | table | tables => cases h

/-- **The section on scanning is read by its fields**, whether it is a table or an array. -/
theorem section?_eq_some {root : Toml.Entries} {format : String} {strict : Bool}
    (h : section? (root.lookup "scan") = some (format, strict)) :
    format? (field? root "format" 0) = some format ∧
      switch? (field? root "strict_keywords" 1) = some strict := by
  rw [field?, field?]
  cases hpart : root.lookup "scan" with
  | none => rw [hpart] at h; cases h; exact ⟨rfl, rfl⟩
  | some value =>
    rw [hpart] at h
    cases value with
    | table origin entries =>
      obtain ⟨name, hname, on, hon, hsome⟩ : ∃ name, format? (entries.lookup "format") = some name ∧
          ∃ on, switch? (entries.lookup "strict_keywords") = some on ∧
            some (name, on) = some (format, strict) := by
        simpa [section?, Option.bind_eq_some_iff] using h
      cases hsome
      exact ⟨hname, hon⟩
    | array items =>
      obtain ⟨name, hname, on, hon, hsome⟩ : ∃ name, format? items[0]? = some name ∧
          ∃ on, switch? items[1]? = some on ∧ some (name, on) = some (format, strict) := by
        simpa [section?, items?, Option.bind_eq_some_iff] using h
      cases hsome
      exact ⟨hname, hon⟩
    | tables items =>
      -- a table is no format, so there can be no table in the list
      cases items with
      | nil => cases h; exact ⟨rfl, rfl⟩
      | cons => cases h
    | datetime => cases h; exact ⟨rfl, rfl⟩
    | string | integer | float | boolean => cases h

/-- **Settings that are read from a document are as it has them.** -/
theorem says_of_ofEntries? {root : Toml.Entries} {settings : Settings}
    (h : ofEntries? root = some settings) : Says root settings := by
  obtain ⟨verbose, hverbose, format, strict, hpart, rfl⟩ : ∃ verbose,
      switch? (root.lookup "verbose") = some verbose ∧
        ∃ format strict, section? (root.lookup "scan") = some (format, strict) ∧
          ⟨verbose, format, strict⟩ = settings := by
    simpa [ofEntries?, Option.bind_eq_some_iff] using h
  obtain ⟨hformat, hstrict⟩ := section?_eq_some hpart
  exact ⟨switch?_eq_some hverbose, switch?_eq_some hstrict, format?_eq_some hformat⟩

end Settings

/-! ## What is done with them -/

section Whole

variable {invocation : Invocation} {settings : Settings} {inputs other : Inputs}

/-- What the inputs give in turn depends on standard input and on what stands at their own paths. -/
theorem Inputs.inTurn_congr {paths : List String} (hstdin : inputs.stdin = other.stdin)
    (hfiles : ∀ path ∈ paths, inputs.files.entry path = other.files.entry path) :
    inputs.inTurn paths = other.inTurn paths := by
  induction paths generalizing inputs other with
  | nil => rfl
  | cons path paths ih =>
    rw [List.forall_mem_cons] at hfiles
    have hread : inputs.read path = other.read path := by
      rw [Inputs.read, Inputs.read, hstdin, hfiles.1]
    have hafter : (inputs.after path).inTurn paths = (other.after path).inTurn paths := by
      rw [Inputs.after, Inputs.after]
      split
      · exact ih rfl hfiles.2
      · exact ih hstdin hfiles.2
    rw [inTurn, inTurn, hread, hafter]

/-- A command depends on its inputs only by what they give in turn. -/
theorem Invocation.executeWith_congr
    (h : inputs.inTurn invocation.command.inputs = other.inTurn invocation.command.inputs) :
    invocation.executeWith settings inputs = invocation.executeWith settings other := by
  cases hname : invocation.command.name with
  | check => rw [executeWith_check hname, executeWith_check hname, CheckOptions.checkFiles_congr _ h]
  | scan =>
    cases hformat : ListingFormat.ofName? (invocation.formatName settings) with
    | none => rw [executeWith_of_unformatted hname hformat, executeWith_of_unformatted hname hformat]
    | some format =>
      rw [executeWith_scan hname hformat, executeWith_scan hname hformat,
        ScanOptions.scanFiles_congr _ h]

/-- **Where the format of the settings does not count**, runs end alike whatever it is. -/
theorem endsAs_of_format {name : String}
    (hneedless : invocation.command.format.isSome ∨ invocation.command.name = .check)
    (hgiven : other.inTurn invocation.command.inputs = inputs.inTurn invocation.command.inputs) :
    (Outcome.ofRun (invocation.isVerbose settings)
      (invocation.executeWith { settings with format := name } other)).EndsAs
        (Outcome.ofRun (invocation.isVerbose settings) (invocation.executeWith settings inputs)) := by
  rw [Invocation.executeWith_congr hgiven]
  cases hname : invocation.command.name with
  | check =>
    rw [Invocation.executeWith_check hname, Invocation.executeWith_check hname]
    exact Outcome.endsAs_ofRun _ _ rfl rfl
  | scan =>
    obtain ⟨asked, hasked⟩ : ∃ asked, invocation.command.format = some asked := by
      rcases hneedless with hsome | hcheck
      · exact Option.isSome_iff_exists.mp hsome
      · rw [hname] at hcheck
        cases hcheck
    have hformat : ∀ any : Settings, invocation.formatName any = asked := by
      intro any
      rw [Invocation.formatName, hasked]
      rfl
    cases hknown : ListingFormat.ofName? asked with
    | none =>
      rw [Invocation.executeWith_of_unformatted hname ((hformat _).symm ▸ hknown),
        Invocation.executeWith_of_unformatted hname ((hformat _).symm ▸ hknown), hformat, hformat]
      exact Outcome.endsAs_ofRun _ _ rfl rfl
    | some format =>
      rw [Invocation.executeWith_scan hname ((hformat _).symm ▸ hknown),
        Invocation.executeWith_scan hname ((hformat _).symm ▸ hknown)]
      exact Outcome.endsAs_ofRun _ _ rfl rfl

end Whole

namespace Invocation

variable {environment : Environment} {args : List String} {invocation : Invocation}

/-- Without the variable for the settings file the values of the others fit all the more. -/
theorem environmentFits_without (options : LevelOptions)
    (h : options.environmentFits environment = true) :
    options.environmentFits { environment with settingsPath := none } = true := by
  simp only [LevelOptions.environmentFits, Bool.and_eq_true] at h ⊢
  exact ⟨h.1, by simp⟩

/-- Without the variable for the settings file an invocation is the same but for the path of this file,
which is then named by an option or not at all. -/
theorem ofArgState_without {state : ArgState} (h : ofArgState environment state = .ok invocation) :
    ∃ option, ofArgState { environment with settingsPath := none } state =
        .ok { invocation with settingsPath := option } ∧
      invocation.settingsPath = option.or environment.settingsPath := by
  unfold ofArgState at h ⊢
  cases hcommand : state.command with
  | none => simp [hcommand] at h
  | some name =>
    simp only [hcommand] at h ⊢
    split at h
    case isTrue => cases h
    case isFalse hcomplete =>
      split at h
      case isTrue => cases h
      case isFalse hfits =>
        obtain ⟨houter, hinner⟩ : state.outer.environmentFits environment = true ∧
            state.inner.environmentFits environment = true := by simpa using hfits
        obtain rfl := Except.ok.inj h
        rw [if_neg hcomplete, environmentFits_without _ houter, environmentFits_without _ hinner]
        refine ⟨state.inner.settingsPath <|> state.outer.settingsPath, ?_, ?_⟩
        · simp
        · cases state.inner.settingsPath <;> cases state.outer.settingsPath <;> rfl

/-- **A variable names the settings file** where no option does. -/
theorem parse_without_variable (h : Invocation.parse environment args = .ok invocation) :
    ∃ option, Invocation.parse { environment with settingsPath := none } args =
        .ok { invocation with settingsPath := option } ∧
      invocation.settingsPath = option.or environment.settingsPath := by
  rw [parse] at h ⊢
  cases hstate : ArgState.initial.giveAll args with
  | error stop => rw [hstate] at h; cases h
  | ok state =>
    cases hchecked : state.checkOuter with
    | error stop => rw [hstate] at h; simp only [bind, Except.bind, hchecked] at h; cases h
    | ok checked =>
      rw [hstate] at h
      simp only [bind, Except.bind, hchecked] at h ⊢
      exact ofArgState_without h

end Invocation

/-- **A run that ends before it starts**: nothing is written, and nothing is reported. -/
def Outcome.refused (error : ToolError) : Outcome :=
  ⟨1, "", [], some error.message⟩

section Resolution

variable [Wording] (surroundings : Surroundings) (args : List String) (invocation : Invocation)

/-- **A command that is carried out** with what the command line and the settings say together: what it
does is a listing or a check with the options that result. -/
structure CarriedOut (settings : Settings) (verbose strict : Bool) : Prop where
  /-- the run is verbose if the command line or the settings say so -/
  verbose_iff : verbose = true ↔ invocation.verbose = true ∨ settings.verbose = true
  /-- reserved words are whole words if the command line or the settings say so -/
  strict_iff : strict = true ↔
    invocation.command.strictKeywords = true ∨ settings.strictKeywords = true
  /-- a listing is made in the format of the command line, or else in that of the settings -/
  listed : invocation.command.name = .scan → ∀ format,
    ListingFormat.ofName? (invocation.command.format.getD settings.format) = some format →
    run surroundings args = Outcome.ofRun verbose
      (((ScanOptions.mk verbose format strict).scanFiles surroundings.inputs
        invocation.command.inputs).concluded
          [Invocation.settingsEvent settings, Invocation.commandEvent .scan] fun _ => .ok ())
  /-- no listing is made in a format that does not exist; the run then ends before an input is read -/
  unformatted : invocation.command.name = .scan →
    ListingFormat.ofName? (invocation.command.format.getD settings.format) = none →
    run surroundings args = Outcome.ofRun verbose ⟨⟨"", [Invocation.settingsEvent settings]⟩,
      .error (.unsupportedFormat (invocation.command.format.getD settings.format))⟩
  /-- a check is made whatever the format is -/
  checked : invocation.command.name = .check →
    run surroundings args = Outcome.ofRun verbose
      (((CheckOptions.mk verbose strict).checkFiles surroundings.inputs
        invocation.command.inputs).concluded
          [Invocation.settingsEvent settings, Invocation.commandEvent .check] Tally.verdict)

/-- The entry that a run consults for its settings. -/
abbrev Consults (entry : FileEntry) : Prop :=
  surroundings.places.Consults invocation.settingsPath entry

/-- **How a run comes to its settings**, and what it owes to them. -/
structure Resolution : Prop where
  /-- a settings file is named by an option, or else by the variable -/
  named : ∃ option, Invocation.parse { surroundings.environment with settingsPath := none } args =
      .ok { invocation with settingsPath := option } ∧
    invocation.settingsPath = option.or surroundings.environment.settingsPath
  /-- an entry is consulted, or no path is named and nothing is there to be consulted -/
  consults_or_bare : (∃ entry, Consults surroundings invocation entry) ∨
    invocation.settingsPath = none ∧ surroundings.places.Bare
  /-- no two entries are consulted -/
  consults_one : ∀ entry another, Consults surroundings invocation entry →
    Consults surroundings invocation another → entry = another
  /-- a file that is named must be there, whatever stands in other places -/
  lost : ∀ path, invocation.settingsPath = some path →
    surroundings.places.working.entry path = .missing →
    run surroundings args = Outcome.refused (.settingsNotFound path)
  /-- a run whose entry is a directory ends before it starts -/
  directory : Consults surroundings invocation .directory →
    run surroundings args = Outcome.refused (.unreadable .isDirectory)
  /-- a run whose entry the operating system refuses to read ends before it starts, in the words of the
  system -/
  refused : ∀ entry reason, Consults surroundings invocation entry → entry.refusal? = some reason →
    run surroundings args = Outcome.refused (.unreadable (.refused reason))
  /-- a run whose entry holds bytes that encode no text ends before it starts -/
  undecodable : ∀ entry content, Consults surroundings invocation entry →
    entry.content? = some content → ¬ content.IsValidUTF8 →
    run surroundings args = Outcome.refused (.unreadable .invalidText)
  /-- a run whose entry holds a text that makes no settings ends before it starts, and the reader of
  settings explains why it makes none -/
  malformed : ∀ entry (text : String), Consults surroundings invocation entry →
    entry.content? = some text.toByteArray → Settings.ofText? text = none →
    run surroundings args = Outcome.refused (@ToolError.settingsMalformed (Wording.malformed text))
  /-- in all other cases the command is carried out with what the document in the entry says -/
  settled : ∀ entry (text : String) settings, Consults surroundings invocation entry →
    entry.content? = some text.toByteArray → Settings.ofText? text = some settings →
    ∃ root, Toml.Document.ofText? text = some root ∧ settings.Says root ∧
      ∃ verbose strict, CarriedOut surroundings args invocation settings verbose strict
  /-- where nothing is there to be consulted, the command is carried out with the defaults -/
  defaults : invocation.settingsPath = none → surroundings.places.Bare →
    ∃ verbose strict, CarriedOut surroundings args invocation ⟨false, "text", false⟩ verbose strict
  /-- what stands anywhere else has no say in the run, except for the inputs themselves -/
  unread : ∀ other : Surroundings, other.environment = surroundings.environment →
    other.stdin = surroundings.stdin →
    (∀ path ∈ invocation.command.inputs,
      other.places.working.entry path = surroundings.places.working.entry path) →
    (∀ entry, Consults other invocation entry ↔ Consults surroundings invocation entry) →
    run other args = run surroundings args
  /-- no format in the settings has a say in the run, a bad one included, if the command line has a
  format or the command needs none -/
  harmless : ∀ (other : Surroundings) settings name,
    invocation.command.format.isSome ∨ invocation.command.name = .check →
    surroundings.settings invocation = .ok settings →
    other.environment = surroundings.environment →
    other.settings invocation = .ok { settings with format := name } →
    other.given invocation = surroundings.given invocation →
    (run other args).EndsAs (run surroundings args)

variable {surroundings args invocation} {settings : Settings} {entry : FileEntry}

/-- The bytes at the entry that is consulted decide about the settings. -/
theorem settings_of_content {content : ByteArray} (h : Consults surroundings invocation entry)
    (hcontent : entry.content? = some content) :
    surroundings.settings invocation = Settings.ofContent content := by
  have hentry : entry ≠ .missing := by
    rintro rfl
    cases hcontent
  refine (h.load_eq hentry (.ok .default)).trans ?_
  cases entry with
  | missing | directory => cases hcontent
  | file found | device found =>
    cases found with
    | refused reason => cases hcontent
    | bytes bytes =>
      obtain rfl := Option.some.inj hcontent
      rfl

/-- An entry that is consulted and that the operating system refuses to read makes no settings. -/
theorem settings_of_refusal {reason : String} (h : Consults surroundings invocation entry)
    (hrefusal : entry.refusal? = some reason) :
    surroundings.settings invocation = .error (.unreadable (.refused reason)) := by
  have hentry : entry ≠ .missing := by
    rintro rfl
    cases hrefusal
  refine (h.load_eq hentry (.ok .default)).trans ?_
  cases entry with
  | missing | directory => cases hrefusal
  | file found | device found =>
    cases found with
    | bytes bytes => cases hrefusal
    | refused stated =>
      obtain rfl := Option.some.inj hrefusal
      rfl

/-- An invocation whose settings can be loaded is carried out with them. -/
theorem carriedOut (h : Invocation.parse surroundings.environment args = .ok invocation)
    (hsettings : surroundings.settings invocation = .ok settings) :
    CarriedOut surroundings args invocation settings (invocation.isVerbose settings)
      (invocation.isStrict settings) where
  verbose_iff := Bool.or_eq_true_iff
  strict_iff := Bool.or_eq_true_iff
  listed hname format hformat := by
    rw [run_of_settings h hsettings, Invocation.executeWith_scan hname hformat]
    rfl
  unformatted hname hformat := by
    rw [run_of_settings h hsettings, Invocation.executeWith_of_unformatted hname hformat]
    rfl
  checked hname := by
    rw [run_of_settings h hsettings, Invocation.executeWith_check hname]
    rfl

end Resolution

/-- **Settings are resolved in the same way by every run** that a command line leads to, whatever stands
in the file system. -/
theorem settings_resolved [Wording] (surroundings : Surroundings) (args : List String)
    (invocation : Invocation)
    (h : Invocation.parse surroundings.environment args = .ok invocation) :
    Resolution surroundings args invocation where
  named := Invocation.parse_without_variable h
  consults_or_bare := surroundings.places.consults_or_bare _
  consults_one _ _ hentry hanother := hentry.unique hanother
  lost path hpath hmissing := by
    apply run_of_unsettled h
    rw [Surroundings.settings, hpath, Settings.load, Settings.loadFrom, hmissing]
    rfl
  directory hconsults := by
    apply run_of_unsettled h
    exact hconsults.load_eq (fun hmissing => by cases hmissing) (.ok .default)
  refused entry reason hconsults hrefusal := run_of_unsettled h (settings_of_refusal hconsults hrefusal)
  undecodable entry content hconsults hcontent hinvalid := by
    apply run_of_unsettled h
    rw [settings_of_content hconsults hcontent, Settings.ofContent,
      decodeText_of_invalid hinvalid]
  malformed entry text hconsults hcontent hmalformed := by
    apply run_of_unsettled h
    rw [settings_of_content hconsults hcontent, Settings.ofContent_toByteArray, hmalformed]
  settled entry text settings hconsults hcontent hsettings := by
    obtain ⟨root, hroot, hentries⟩ := Option.bind_eq_some_iff.mp hsettings
    refine ⟨root, hroot, Settings.says_of_ofEntries? hentries, _, _, carriedOut h ?_⟩
    rw [settings_of_content hconsults hcontent, Settings.ofContent_toByteArray, hsettings]
  defaults hnone hbare := by
    refine ⟨_, _, carriedOut h ?_⟩
    rw [Surroundings.settings, hnone, hbare.load_eq]
    rfl
  unread other henvironment hstdin hfiles hconsults := by
    have hother : Invocation.parse other.environment args = .ok invocation := by rw [henvironment, h]
    have hloaded : other.settings invocation = surroundings.settings invocation :=
      SettingsPlaces.load_congr hconsults
    have hgiven : other.inputs.inTurn invocation.command.inputs =
        surroundings.inputs.inTurn invocation.command.inputs := Inputs.inTurn_congr hstdin hfiles
    cases hsettings : surroundings.settings invocation with
    | error error =>
      rw [run_of_unsettled h hsettings, run_of_unsettled hother (hloaded.trans hsettings)]
    | ok settings =>
      rw [run_of_settings h hsettings, run_of_settings hother (hloaded.trans hsettings),
        Invocation.executeWith_congr hgiven]
  harmless other settings name hneedless hsettings henvironment hloaded hgiven := by
    have hother : Invocation.parse other.environment args = .ok invocation := by rw [henvironment, h]
    have hverbose : invocation.isVerbose { settings with format := name } =
        invocation.isVerbose settings := rfl
    rw [run_of_settings h hsettings, run_of_settings hother hloaded, hverbose]
    exact endsAs_of_format hneedless hgiven

/-- A settings file with a bad format, and a malformed one in the home directory: the first decides, and
its format does not count because the command line has another one; the second is as good as none. -/
theorem settings_resolved_overridden :
    let text := "verbose = true\n[scan]\nformat = \"yaml\"\nstrict_keywords = true\n"
    let files := (Inputs.ofTexts [("loxt.toml", text), ("a.lox", "or1")]).files
    let home := (Inputs.ofTexts [(".config/loxt/loxt.toml", "=")]).files
    let surroundings : Surroundings := ⟨⟨files, home, none⟩, ByteArray.empty, ⟨none, none, none⟩⟩
    let homeless : Surroundings := ⟨⟨files, files, none⟩, ByteArray.empty, ⟨none, none, none⟩⟩
    let args := ["scan", "-F", "text", "a.lox"]
    let invocation : Invocation := ⟨false, none, .scan, ["a.lox"], some "text", false⟩
    Invocation.parse surroundings.environment args = .ok invocation ∧
      Resolution surroundings args invocation ∧
      Consults surroundings invocation (.file text.toByteArray) ∧
      Settings.ofText? text = some ⟨true, "yaml", true⟩ ∧
      (run surroundings args).out = "0:3 IDENTIFIER or1\n" ∧
      run homeless args = run surroundings args := by
  intro text files home surroundings homeless args invocation
  have hparse : Invocation.parse surroundings.environment args = .ok invocation := by rfl
  have resolution := settings_resolved surroundings args invocation hparse
  have hworking : ∀ places : SettingsPlaces, places.working = files →
      places.Consults none (.file text.toByteArray) := by
    rintro places hplaces
    have hentry : places.inWorking = .file text.toByteArray := by
      rw [SettingsPlaces.inWorking, hplaces]
      rfl
    exact hentry ▸ .working (hentry ▸ fun hmissing => by cases hmissing)
  refine ⟨hparse, resolution, hworking _ rfl, by decide +kernel, by decide +kernel, ?_⟩
  refine resolution.unread homeless rfl rfl (fun _ _ => rfl) fun entry => ⟨fun h => ?_, fun h => ?_⟩
  · exact h.unique (hworking _ rfl) ▸ hworking _ rfl
  · exact h.unique (hworking _ rfl) ▸ hworking _ rfl

end LoxTools
