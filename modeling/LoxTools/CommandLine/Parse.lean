import LoxTools.CommandLine.Basic

/-!
# Reading a command line

Arguments are read from left to right, and the first one that cannot be understood, or that
asks for the version or for help, decides. There are two levels: options before the command and options
behind it. An option may be given once on each level, and the level of the command
counts more.

* A word behind `--`, and a word that is `-` or does not start with a hyphen, is no option:
  before the command it must be the name of a command, and behind it is an input.
* The word `help` in the place of a command asks for help, and all arguments behind it must be one word
  at most, which names the topic. Behind `--` it means nothing.
* A long option may have its value behind an equals sign, a short one directly behind its
  letter, with or without an equals sign; else the next argument is the value, which then
  must not look like an option.
* Short options without values can share one hyphen with an option behind them.
* Paths are not empty. Switches take no value.
* A settings path that is an argument of its own, before the command, is checked when the next
  option before the command comes, and else only when all arguments are read. So a command that
  is asked for its version answers even if the path given last before it is empty or the second one.

An option that is absent on a level is looked up in the environment. A variable that has no
valid value is an error even where the other level has the option.
-/

namespace LoxTools

/-- The options that every level has. -/
structure LevelOptions where
  /-- the verbose switch -/
  verbose : Bool
  /-- the switch that turns colours off -/
  noColor : Bool
  /-- the settings file -/
  settingsPath : Option String
  deriving DecidableEq, Repr

namespace LevelOptions

/-- No option given. -/
def empty : LevelOptions := ⟨false, false, none⟩

/-- A settings file for a level, which must be the first there and have a name. -/
def giveSettingsPath (options : LevelOptions) (path : String) : Except Stop LevelOptions :=
  if path = "" ∨ options.settingsPath.isSome then .error .usage
  else .ok { options with settingsPath := some path }

end LevelOptions

/-- The options that take a value. -/
inductive ValueOption where
  | settingsPath | format
  deriving DecidableEq, Repr

/-- What has been read so far. -/
structure ArgState where
  /-- the options before the command -/
  outer : LevelOptions
  /-- the command, once it is named -/
  command : Option CommandName
  /-- the options behind the command that it shares with the level before -/
  inner : LevelOptions
  /-- the listing format -/
  format : Option String
  /-- the switch for whole reserved words -/
  strictKeywords : Bool
  /-- the inputs, in order -/
  inputs : List String
  /-- the option whose value the next argument is -/
  awaiting : Option ValueOption
  /-- a settings path given before the command that is still to be checked -/
  unchecked : Option String
  /-- whether no option can follow -/
  wordsOnly : Bool
  deriving DecidableEq, Repr

namespace ArgState

/-- Nothing read. -/
def initial : ArgState :=
  ⟨LevelOptions.empty, none, LevelOptions.empty, none, false, [], none, none, false⟩

/-- The options of the level that is being read. -/
def level (state : ArgState) : LevelOptions :=
  if state.command.isSome then state.inner else state.outer

/-- Other options for the level that is being read. -/
def setLevel (state : ArgState) (options : LevelOptions) : ArgState :=
  if state.command.isSome then { state with inner := options } else { state with outer := options }

/-! ## Options -/

/-- The verbose switch. -/
def giveVerbose (state : ArgState) : Except Stop ArgState :=
  if state.level.verbose then .error .usage
  else .ok (state.setLevel { state.level with verbose := true })

/-- The switch that turns colours off. -/
def giveNoColor (state : ArgState) : Except Stop ArgState :=
  if state.level.noColor then .error .usage
  else .ok (state.setLevel { state.level with noColor := true })

/-- The switch for whole reserved words, which only commands have. -/
def giveStrictKeywords (state : ArgState) : Except Stop ArgState :=
  if state.command.isNone ∨ state.strictKeywords then .error .usage
  else .ok { state with strictKeywords := true }

/-- A value for an option. -/
def giveValue (state : ArgState) (value : String) : ValueOption → Except Stop ArgState
  | .settingsPath => (state.level.giveSettingsPath value).map state.setLevel
  | .format =>
    if state.format.isSome then .error .usage else .ok { state with format := some value }

/-- A value that is an argument of its own. Before the command its check is put off. -/
def giveSeparateValue (state : ArgState) (value : String) (valued : ValueOption) :
    Except Stop ArgState :=
  match state.command with
  | none => .ok { state with unchecked := some value }
  | some _ => state.giveValue value valued

/-- The check that was put off. -/
def checkOuter (state : ArgState) : Except Stop ArgState :=
  match state.unchecked with
  | none => .ok state
  | some path => do
    let outer ← state.outer.giveSettingsPath path
    return { state with outer := outer, unchecked := none }

/-- What comes before each option: before the command, the check that was put off. -/
def beforeOption (state : ArgState) : Except Stop ArgState :=
  match state.command with
  | none => state.checkOuter
  | some _ => .ok state

/-- The option with a long name that takes a value. -/
def longValueOption? (state : ArgState) (name : String) : Option ValueOption :=
  if name = "config" then some .settingsPath
  else if name = "format" ∧ state.command = some .scan then some .format
  else none

/-- The option with a letter that takes a value. -/
def shortValueOption? (state : ArgState) (letter : Char) : Option ValueOption :=
  if letter = 'c' then some .settingsPath
  else if letter = 'F' ∧ state.command = some .scan then some .format
  else none

/-- A switch by its long name. -/
def giveLongSwitch (state : ArgState) (name : String) : Except Stop ArgState :=
  if name = "verbose" then state.giveVerbose
  else if name = "no-color" then state.giveNoColor
  else if name = "strict-keywords" then state.giveStrictKeywords
  else if name = "version" then .error (.version state.command)
  else if name = "help" then .error (.help (.ofCommand state.command) true)
  else .error .usage

/-- A long option behind its two hyphens. -/
def giveLong (state : ArgState) (option : List Char) : Except Stop ArgState :=
  let name := String.ofList (option.takeWhile (· != '='))
  match state.longValueOption? name, option.dropWhile (· != '=') with
  | some valued, _ :: value => state.giveValue (String.ofList value) valued
  | some valued, [] => .ok { state with awaiting := some valued }
  | none, _ :: _ => .error .usage
  | none, [] => state.giveLongSwitch name

/-- A value directly behind the letter of its option. -/
def attachedValue : List Char → List Char
  | '=' :: value => value
  | value => value

/-- Short options behind their hyphen. -/
def giveShort : ArgState → List Char → Except Stop ArgState
  | state, [] => .ok state
  | state, letter :: rest =>
    match state.shortValueOption? letter with
    | some valued =>
      if rest.isEmpty then .ok { state with awaiting := some valued }
      else state.giveValue (String.ofList (attachedValue rest)) valued
    | none =>
      if letter = 'V' then .error (.version state.command)
      else if letter = 'h' then .error (.help (.ofCommand state.command) false)
      else if letter = 'v' then do
        let state ← state.giveVerbose
        giveShort state rest
      else .error .usage

/-! ## Arguments -/

/-- A word that is no option: the command, or one of its inputs. -/
def giveWord (state : ArgState) (word : String) : Except Stop ArgState :=
  match state.command with
  | some _ =>
    if word = "" then .error .usage else .ok { state with inputs := state.inputs ++ [word] }
  | none =>
    match CommandName.ofWord? word with
    | some name => if state.wordsOnly then .error .usage else .ok { state with command := some name }
    | none => .error .usage

/-- Whether an argument cannot be a value because it looks like an option. -/
def looksLikeOption : List Char → Bool
  | '-' :: _ :: _ => true
  | _ => false

/-- **One more argument.** -/
def give (state : ArgState) (arg : String) : Except Stop ArgState :=
  match state.awaiting with
  | some valued =>
    if looksLikeOption arg.toList then .error .usage
    else { state with awaiting := none }.giveSeparateValue arg valued
  | none =>
    if state.wordsOnly then state.giveWord arg
    else match arg.toList with
      | ['-', '-'] => .ok { state with wordsOnly := true }
      | '-' :: '-' :: option => do (← state.beforeOption).giveLong option
      | '-' :: letter :: letters => do (← state.beforeOption).giveShort (letter :: letters)
      | _ => state.giveWord arg

/-- Whether an argument is the word for help in the place of a command. -/
def asksForHelp (state : ArgState) (arg : String) : Bool :=
  state.awaiting.isNone && !state.wordsOnly && state.command.isNone && arg == HelpTopic.word

/-- **All arguments**, up to the first one that decides. -/
def giveAll : ArgState → List String → Except Stop ArgState
  | state, [] => .ok state
  | state, arg :: args =>
    if state.asksForHelp arg then
      match HelpTopic.ofArgs? args with
      | some topic => .error (.help topic true)
      | none => .error .usage
    else do giveAll (← state.give arg) args

end ArgState

/-! ## The environment -/

/-- The value of a variable that stands in for a switch. -/
def switchVariable? : String → Option Bool
  | "true" => some true
  | "false" => some false
  | _ => none

namespace LevelOptions

/-- Whether the environment has valid values for the options that a level lacks. -/
def environmentFits (options : LevelOptions) (environment : Environment) : Bool :=
  (options.verbose || environment.verbose.all fun value => (switchVariable? value).isSome) &&
  (options.noColor || environment.noColor.all fun value => (switchVariable? value).isSome) &&
  (options.settingsPath.isSome || environment.settingsPath.all (· != ""))

end LevelOptions

/-! ## Command lines -/

namespace Invocation

/-- What the arguments read ask for, together with the environment. -/
def ofArgState (environment : Environment) (state : ArgState) : Except Stop Invocation :=
  match state.command with
  | none => .error .usage
  | some name =>
    if state.awaiting.isSome ∨ state.inputs = [] then .error .usage
    else if !state.outer.environmentFits environment || !state.inner.environmentFits environment then
      .error .usage
    else
      let command := ⟨name, state.inputs, state.format, state.strictKeywords⟩
      let verbose := state.outer.verbose || state.inner.verbose ||
        environment.verbose == some "true"
      let settingsPath :=
        (state.inner.settingsPath <|> state.outer.settingsPath) <|> environment.settingsPath
      .ok ⟨verbose, settingsPath, command⟩

/-- **Reading a command line.** -/
def parse (environment : Environment) (args : List String) : Except Stop Invocation := do
  let state ← ArgState.initial.giveAll args
  ofArgState environment (← state.checkOuter)

end Invocation

end LoxTools
