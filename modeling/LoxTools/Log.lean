/-!
# Log events

What a run tells about itself is a list of events, oldest first. An event has a level, a
message and named values in a fixed order. The command line shows the events from some level
on, one line each; `Event.line` writes them.
-/

namespace LoxTools.Log

/-- How important an event is. -/
inductive Level where
  | trace | debug | info | warn
  deriving DecidableEq, Repr

/-- The upper-case name of a level. -/
def Level.name : Level → String
  | .trace => "TRACE"
  | .debug => "DEBUG"
  | .info => "INFO"
  | .warn => "WARN"

/-- Whether a level is at least as important as another. -/
def Level.reaches (level least : Level) : Bool :=
  least.ctorIdx ≤ level.ctorIdx

/-- A value attached to an event. -/
inductive Value where
  /-- a count or a position -/
  | nat (n : Nat)
  /-- a switch -/
  | bool (b : Bool)
  /-- a name, shown as it is -/
  | shown (text : String)
  /-- a fixed word, shown between double quotes -/
  | quoted (text : String)
  deriving DecidableEq, Repr

/-- A value as a log line shows it. -/
def Value.render : Value → String
  | .nat n => toString n
  | .bool true => "true"
  | .bool false => "false"
  | .shown text => text
  | .quoted text => "\"" ++ text ++ "\""

/-- One event. -/
structure Event where
  /-- its importance -/
  level : Level
  /-- what happened -/
  message : String
  /-- the values attached, in the order in which they are shown -/
  fields : List (String × Value)
  deriving DecidableEq, Repr

/-- The event as a line: level, message, then each value behind its name. -/
def Event.line (event : Event) : String :=
  event.level.name ++ " " ++ event.message ++
    String.join (event.fields.map fun field => " " ++ field.1 ++ "=" ++ field.2.render)

/-- The lines of the events that are important enough. -/
def shownLines (least : Level) (events : List Event) : List String :=
  (events.filter fun event => event.level.reaches least).map Event.line

end LoxTools.Log
