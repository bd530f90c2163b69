import LoxTools.Log
import LoxTools.Tool.Error

/-!
# Runs

A run writes output, reports events and ends with a value or an error. Runs are composed in
sequence: what the first wrote and reported comes first, and after an error nothing
follows. What was written before an error stays written.
-/

namespace LoxTools

/-- What a run wrote and reported. -/
structure Transcript where
  /-- the text written to standard output -/
  out : String
  /-- the events reported, oldest first -/
  log : List Log.Event
  deriving DecidableEq, Repr

namespace Transcript

/-- Nothing written, nothing reported. -/
def empty : Transcript := ⟨"", []⟩

/-- One after the other. -/
def append (first second : Transcript) : Transcript :=
  ⟨first.out ++ second.out, first.log ++ second.log⟩

instance : Append Transcript := ⟨append⟩

end Transcript

/-- A run that ends with an `α` or an error. -/
structure Run (α : Type) where
  /-- what it wrote and reported -/
  transcript : Transcript
  /-- how it ended -/
  result : Except ToolError α

namespace Run

variable {α β : Type}

/-- End at once with a value. -/
def pure (a : α) : Run α := ⟨Transcript.empty, .ok a⟩

/-- End at once with an error. -/
def fail (error : ToolError) : Run α := ⟨Transcript.empty, .error error⟩

/-- Write a text. -/
def write (text : String) : Run Unit := ⟨⟨text, []⟩, .ok ()⟩

/-- Report some events. -/
def report (events : List Log.Event) : Run Unit := ⟨⟨"", events⟩, .ok ()⟩

/-- **Sequence**: the second run starts from the value of the first, if there is one. -/
def bind (first : Run α) (next : α → Run β) : Run β :=
  match first.result with
  | .error error => ⟨first.transcript, .error error⟩
  | .ok a =>
    let second := next a
    ⟨first.transcript ++ second.transcript, second.result⟩

instance : Monad Run where
  pure := pure
  bind := bind

/-- What is known to succeed or fail without writing anything. -/
def ofExcept : Except ToolError α → Run α
  | .ok a => pure a
  | .error error => fail error

end Run

end LoxTools
