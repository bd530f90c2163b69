import LoxTools.Lexer.Scan
import LoxTools.Tool.Run
import LoxTools.Tool.Source

/-!
# Checking files

The `check` command says of each input whether it scans cleanly, one entry for each, and
counts both outcomes. A lexical error is counted and the next input is checked; an input that
cannot be read ends the run.
-/

namespace LoxTools

/-- How many inputs scanned cleanly and how many did not. -/
structure Tally where
  /-- inputs without a lexical error -/
  passed : Nat
  /-- inputs with a lexical error -/
  failed : Nat
  deriving DecidableEq, Repr

namespace Tally

/-- No inputs. -/
def empty : Tally := ⟨0, 0⟩

/-- The counts of both together. -/
def add (a b : Tally) : Tally :=
  ⟨a.passed + b.passed, a.failed + b.failed⟩

/-- Whether no input failed. -/
def isClean (tally : Tally) : Bool :=
  tally.failed == 0

end Tally

/-- What the `check` command is asked to do with its inputs. -/
structure CheckOptions where
  /-- report the counts at the end -/
  verbose : Bool
  /-- reserved words must be whole words -/
  strictKeywords : Bool
  deriving DecidableEq, Repr

namespace CheckOptions

/-- The warning about a file with a lexical error. -/
def lexicalErrorEvent (source : Source) (error : LexError) : Log.Event :=
  ⟨.warn, "lexical error", [("file", .shown source.name), ("line", .nat error.line)]⟩

/-- The report at the end. -/
def finishedEvent (tally : Tally) : Log.Event :=
  ⟨.debug, "check finished", [("passed", .nat tally.passed), ("failed", .nat tally.failed)]⟩

/-- The entry of a file that scans cleanly. -/
def passedEntry (name : String) (tokens : List Token) : String :=
  "ok " ++ name ++ " (" ++ toString tokens.length ++ " tokens)\n"

/-- The entry of a file with a lexical error. -/
def failedEntry (name : String) (error : LexError) : String :=
  name ++ ": " ++ error.message ++ "\n"

/-- One file, once it is read. -/
def checkSource (options : CheckOptions) (source : Source) : Run Tally := do
  let scanned := (Lexer.ofString source.text options.strictKeywords).run
  Run.report scanned.events.toList
  match scanned.result with
  | .ok tokens =>
    Run.write (passedEntry source.name tokens)
    return ⟨1, 0⟩
  | .error error =>
    Run.report [lexicalErrorEvent source error]
    Run.write (failedEntry source.name error)
    return ⟨0, 1⟩

/-- One input. -/
def checkFile (options : CheckOptions) (inputs : Inputs) (path : String) : Run Tally := do
  let source ← Run.ofExcept (inputs.read path)
  options.checkSource source

/-- All inputs in turn. -/
def checkEach (options : CheckOptions) : Inputs → List String → Run Tally
  | _, [] => Run.pure Tally.empty
  | inputs, path :: paths => do
    let tally ← options.checkFile inputs path
    let tallies ← options.checkEach (inputs.after path) paths
    return tally.add tallies

/-- **All inputs in turn**, with a report of the counts at the end. -/
def checkFiles (options : CheckOptions) (inputs : Inputs) (paths : List String) :
    Run Tally := do
  let tally ← options.checkEach inputs paths
  Run.report (if options.verbose then [finishedEvent tally] else [])
  return tally

end CheckOptions

end LoxTools
