import LoxTools.CommandLine.Parse
import LoxTools.Settings.Load
import LoxTools.Tool.Check
import LoxTools.Tool.Scan

/-!
# Executing a command line

A run loads its settings first, then carries out its command with what the command line and
the settings say together: either can turn a switch on, and the format asked for on the
command line comes before the one in the settings. `run` is the whole tool, from arguments
to exit status.
-/

namespace LoxTools

/-- What surrounds a run. -/
structure Surroundings where
  /-- the files, and where settings can be -/
  places : SettingsPlaces
  /-- what comes of reading standard input -/
  stdin : Content
  /-- the variables -/
  environment : Environment

namespace Surroundings

/-- What a command can read. -/
def inputs (surroundings : Surroundings) : Inputs :=
  ⟨surroundings.places.working, surroundings.stdin⟩

end Surroundings

namespace Invocation

/-- The report of the settings loaded. -/
def settingsEvent (settings : Settings) : Log.Event :=
  ⟨.debug, "configuration loaded",
    [("format", .shown settings.format), ("strict_keywords", .bool settings.strictKeywords)]⟩

/-- The report of the command that starts. -/
def commandEvent (name : CommandName) : Log.Event :=
  ⟨.debug, name.description, [("command", .quoted name.word)]⟩

/-- Whether a run is verbose. -/
def isVerbose (invocation : Invocation) (settings : Settings) : Bool :=
  invocation.verbose || settings.verbose

/-- Whether reserved words must be whole words. -/
def isStrict (invocation : Invocation) (settings : Settings) : Bool :=
  invocation.command.strictKeywords || settings.strictKeywords

/-- The name of the listing format. -/
def formatName (invocation : Invocation) (settings : Settings) : String :=
  invocation.command.format.getD settings.format

/-- The `scan` command. -/
def executeScan (invocation : Invocation) (settings : Settings) (inputs : Inputs) : Run Unit := do
  let format ← Run.ofExcept (ListingFormat.parse (invocation.formatName settings))
  Run.report [commandEvent .scan]
  let options : ScanOptions :=
    ⟨invocation.isVerbose settings, format, invocation.isStrict settings⟩
  let _ ← options.scanFiles inputs invocation.command.inputs
  return ()

/-- The `check` command, which fails if an input does. -/
def executeCheck (invocation : Invocation) (settings : Settings) (inputs : Inputs) : Run Unit := do
  Run.report [commandEvent .check]
  let options : CheckOptions := ⟨invocation.isVerbose settings, invocation.isStrict settings⟩
  let tally ← options.checkFiles inputs invocation.command.inputs
  if tally.isClean then return () else Run.fail (.checkFailed tally.failed)

/-- A run once its settings are loaded. -/
def executeWith (invocation : Invocation) (settings : Settings) (inputs : Inputs) : Run Unit := do
  Run.report [settingsEvent settings]
  match invocation.command.name with
  | .scan => invocation.executeScan settings inputs
  | .check => invocation.executeCheck settings inputs

end Invocation

/-- **What a run of the tool leaves behind.** -/
structure Outcome where
  /-- the exit status -/
  status : Nat
  /-- the text on standard output -/
  out : String
  /-- the lines of the log shown -/
  log : List String
  /-- the complaint, if there is one; a command line that is not understood has none -/
  complaint : Option String
  deriving DecidableEq, Repr

namespace Outcome

/-- The outcome of a command line that leads to no run. -/
def ofStop [Wording] : Stop → Outcome
  | .usage => ⟨2, "", [], none⟩
  | .version command => ⟨0, versionText command ++ "\n", [], none⟩
  | .help topic long => ⟨0, Wording.help topic long, [], none⟩

/-- The least level shown. -/
def shownLevel (verbose : Bool) : Log.Level :=
  if verbose then .debug else .info

/-- The outcome of a run. -/
def ofRun (verbose : Bool) (run : Run Unit) : Outcome :=
  let log := Log.shownLines (shownLevel verbose) run.transcript.log
  match run.result with
  | .ok () => ⟨0, run.transcript.out, log, none⟩
  | .error error => ⟨1, run.transcript.out, log, some error.message⟩

/-- The outcome of a command line that is understood. -/
def ofInvocation [Wording] (surroundings : Surroundings) (invocation : Invocation) : Outcome :=
  match Settings.load surroundings.places invocation.settingsPath with
  | .error error => ⟨1, "", [], some error.message⟩
  | .ok settings =>
    ofRun (invocation.isVerbose settings) (invocation.executeWith settings surroundings.inputs)

end Outcome

/-- **The whole tool.** -/
def run [Wording] (surroundings : Surroundings) (args : List String) : Outcome :=
  match Invocation.parse surroundings.environment args with
  | .error stop => Outcome.ofStop stop
  | .ok invocation => Outcome.ofInvocation surroundings invocation

end LoxTools
