import LoxTools.Lexer.Rules
import LoxTools.Log

/-!
# Scanning

Scanning makes one decision for every position of the source, in order. A position inside
the token emitted last is passed over; a line feed ends the line and with it any comment;
blanks and the rest of a comment are passed over; two slashes start a comment; anywhere else a
token must start. After the first error nothing changes any more.

* `ScanState.step` — the decision at one position;
* `Lexer.run` — all decisions, from the first position to the last;
* `Lexer.scan` — the tokens, or the first error;
* `Lexer.log` — what scanning reports about itself.
-/

namespace LoxTools

/-- What scanning has found so far. -/
structure ScanState where
  /-- the tokens emitted, in source order -/
  tokens : Array Token
  /-- the line scanning is on -/
  line : Line
  /-- whether a comment is open -/
  inComment : Bool
  /-- the first error -/
  error : Option LexError
  /-- the events reported, in order -/
  events : Array Log.Event
  deriving DecidableEq, Repr

namespace ScanState

/-- Nothing found yet. -/
def initial : ScanState :=
  ⟨#[], Line.first, false, none, #[]⟩

/-- Whether a position lies inside the token emitted last. -/
def covers (state : ScanState) (index : Nat) : Bool :=
  match state.tokens.back? with
  | none => false
  | some token => token.contains index

/-- Behind the line feed at `index`: a new line, and no comment. -/
def endLine (state : ScanState) (index : Nat) : ScanState :=
  { state with line := state.line.next index, inComment := false }

/-- The report of a token. -/
def tokenEvent (token : Token) : Log.Event :=
  ⟨.trace, "token",
    [("kind", .shown token.kind.name), ("start", .nat token.start), ("length", .nat token.length)]⟩

/-- One more token, and its report. -/
def emit (state : ScanState) (token : Token) : ScanState :=
  { state with
    tokens := state.tokens.push token
    events := state.events.push (tokenEvent token) }

/-- An event reported. -/
def report (state : ScanState) (event : Log.Event) : ScanState :=
  { state with events := state.events.push event }

/-- **The decision at one position.** -/
def step (lexer : Lexer) (state : ScanState) (index : Nat) : ScanState :=
  if state.error.isSome || state.covers index then state
  else match lexer.chars[index]? with
    | none => state
    | some c =>
      if c == '\n' then state.endLine index
      else if state.inComment || isBlank c then state
      else if lexer.commentStarts index then { state with inComment := true }
      else match lexer.tokenAt state.line index with
        | .ok token => state.emit token
        | .error error => { state with error := some error }

/-- The state that the first `count` positions lead to. -/
def after (lexer : Lexer) (state : ScanState) (count : Nat) : ScanState :=
  (List.range count).foldl (step lexer) state

/-- The tokens, or the error if there is one. -/
def result (state : ScanState) : Except LexError (List Token) :=
  match state.error with
  | some error => .error error
  | none => .ok state.tokens.toList

end ScanState

namespace Lexer

/-- The report at the beginning. -/
def startEvent (lexer : Lexer) : Log.Event :=
  ⟨.debug, "scanning source",
    [("code_points", .nat lexer.chars.size), ("strict_keywords", .bool lexer.strictKeywords)]⟩

/-- The report at the end. -/
def finishEvent (state : ScanState) : Log.Event :=
  match state.error with
  | some error =>
    ⟨.debug, "scan failed", [("line", .nat error.line), ("position", .nat error.position)]⟩
  | none =>
    ⟨.debug, "scan finished",
      [("tokens", .nat state.tokens.size), ("lines", .nat state.line.number)]⟩

/-- **A whole scan**, with its reports. -/
def run (lexer : Lexer) : ScanState :=
  let final := (ScanState.initial.report lexer.startEvent).after lexer lexer.chars.size
  final.report (finishEvent final)

/-- **Scanning**: the tokens in source order, or the first error. No end marker is added. -/
def scan (lexer : Lexer) : Except LexError (List Token) :=
  lexer.run.result

/-- What scanning reports, oldest first. -/
def log (lexer : Lexer) : List Log.Event :=
  lexer.run.events.toList

end Lexer

end LoxTools
