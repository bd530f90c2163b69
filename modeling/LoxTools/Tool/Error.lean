import LoxTools.Files.Basic
import LoxTools.Lexer.Error

/-!
# Errors of the tool

Why a run of the tool fails, and what it says then.
-/

namespace LoxTools

/-- Why a run fails. -/
inductive ToolError where
  /-- the settings file asked for does not exist -/
  | settingsNotFound (path : String)
  /-- the settings file cannot be understood, as its reader explains -/
  | settingsMalformed {detail : String}
  /-- an input is not a regular file -/
  | inputNotFound (path : String)
  /-- no listing format has this name -/
  | unsupportedFormat (name : String)
  /-- an input has a lexical error -/
  | lexical (name : String) (error : LexError)
  /-- a check found inputs with lexical errors -/
  | checkFailed (count : Nat)
  /-- something that exists cannot be read -/
  | unreadable (fault : ReadFault)
  deriving DecidableEq, Repr

/-- A phrase with its explanation behind a colon, if there is one. -/
def explained (phrase detail : String) : String :=
  if detail = "" then phrase else phrase ++ ": " ++ detail

/-- **What the tool says.** -/
def ToolError.message : ToolError → String
  | settingsNotFound path => "Configuration error: Configuration file not found: " ++ path
  | @settingsMalformed detail =>
    explained "Configuration error: Failed to parse configuration" detail
  | inputNotFound path => "Validation error: Input file not found: " ++ path
  | unsupportedFormat name =>
    "Validation error: Unsupported output format: " ++ name ++ " (expected text or json)"
  | lexical name error => name ++ ": " ++ error.message
  | checkFailed count => toString count ++ " file(s) failed to scan"
  | unreadable fault => "IO error: " ++ fault.message

end LoxTools
