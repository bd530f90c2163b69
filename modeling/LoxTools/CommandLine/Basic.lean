/-!
# Command lines

What the command line asks for. A run has one of two commands, each with its inputs, and the
switches and values that options give it.
-/

namespace LoxTools

/-- The name of a command. -/
inductive CommandName where
  | scan | check
  deriving DecidableEq, Repr

namespace CommandName

/-- The word that chooses the command. -/
def word : CommandName → String
  | scan => "scan"
  | check => "check"

/-- What the command does. -/
def description : CommandName → String
  | scan => "Print the tokens of Lox source files"
  | check => "Report whether Lox source files scan cleanly"

/-- The command that a word chooses. -/
def ofWord? (word : String) : Option CommandName :=
  [scan, check].find? fun name => name.word == word

end CommandName

/-- A command with its inputs and its own options. -/
structure Command where
  /-- which command -/
  name : CommandName
  /-- the paths of the inputs -/
  inputs : List String
  /-- the listing format asked for; only `scan` has one -/
  format : Option String
  /-- reserved words must be whole words -/
  strictKeywords : Bool
  deriving DecidableEq, Repr

/-- What a command line asks for. -/
structure Invocation where
  /-- report more -/
  verbose : Bool
  /-- the settings file asked for -/
  settingsPath : Option String
  /-- what to do -/
  command : Command
  deriving DecidableEq, Repr

/-- The variables that stand in for options. -/
structure Environment where
  /-- for the verbose switch -/
  verbose : Option String
  /-- for the settings file -/
  settingsPath : Option String
  /-- for the switch that turns colours off -/
  noColor : Option String
  deriving DecidableEq, Repr

/-- What a command line can ask for help on. -/
inductive HelpTopic where
  /-- the tool -/
  | tool
  /-- one of its commands -/
  | command (name : CommandName)
  /-- asking for help -/
  | help
  deriving DecidableEq, Repr

namespace HelpTopic

/-- The word that asks for help in the place of a command. -/
def word : String := "help"

/-- The topic of options: the command, once it is named, or else the tool. -/
def ofCommand : Option CommandName → HelpTopic
  | none => tool
  | some name => command name

/-- The topic that the arguments behind the word for help name. -/
def ofArgs? : List String → Option HelpTopic
  | [] => some tool
  | [arg] => if arg = word then some help else (CommandName.ofWord? arg).map command
  | _ => none

end HelpTopic

/-- Why a command line does not lead to a run. -/
inductive Stop where
  /-- it cannot be understood -/
  | usage
  /-- it asks for the version, of the tool or of a command -/
  | version (command : Option CommandName)
  /-- it asks for help, at length or not -/
  | help (topic : HelpTopic) (long : Bool)
  deriving DecidableEq, Repr

/-- The name and version of the tool, or of one of its commands. -/
def versionText (command : Option CommandName) : String :=
  let name := match command with
    | none => "loxt"
    | some name => "loxt-" ++ name.word
  name ++ " 0.1.0"

end LoxTools
