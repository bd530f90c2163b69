import LoxTools.Lexer.Scan
import LoxTools.Tool.Format
import LoxTools.Tool.Run
import LoxTools.Tool.Source

/-!
# Listing tokens

The `scan` command lists the tokens of each input in turn and counts them. The first input
that cannot be read or has a lexical error ends the run; nothing of that input is listed.
-/

namespace LoxTools

/-- What the `scan` command is asked to do with its inputs. -/
structure ScanOptions where
  /-- report each file listed -/
  verbose : Bool
  /-- how to list -/
  format : ListingFormat
  /-- reserved words must be whole words -/
  strictKeywords : Bool
  deriving DecidableEq, Repr

namespace ScanOptions

/-- The report before a file is scanned. -/
def scanningEvent (source : Source) : Log.Event :=
  ⟨.debug, "scanning", [("file", .shown source.name), ("chars", .nat source.text.length)]⟩

/-- The report after a file is listed. -/
def scannedEvent (source : Source) (tokens : List Token) : Log.Event :=
  ⟨.info, "scanned", [("file", .shown source.name), ("tokens", .nat tokens.length)]⟩

/-- One file, once it is read. -/
def scanSource (options : ScanOptions) (source : Source) : Run Nat := do
  let scanned := (Lexer.ofString source.text options.strictKeywords).run
  Run.report (scanningEvent source :: scanned.events.toList)
  match scanned.result with
  | .error error => Run.fail (.lexical source.name error)
  | .ok tokens =>
    Run.write (options.format.listing tokens)
    Run.report (if options.verbose then [scannedEvent source tokens] else [])
    return tokens.length

/-- One input. -/
def scanFile (options : ScanOptions) (inputs : Inputs) (path : String) : Run Nat := do
  let source ← Run.ofExcept (inputs.read path)
  options.scanSource source

/-- **All inputs in turn**, with the number of tokens listed. -/
def scanFiles (options : ScanOptions) : Inputs → List String → Run Nat
  | _, [] => Run.pure 0
  | inputs, path :: paths => do
    let count ← options.scanFile inputs path
    let counts ← options.scanFiles (inputs.after path) paths
    return count + counts

end ScanOptions

end LoxTools
