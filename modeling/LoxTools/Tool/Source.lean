import LoxTools.Tool.Error

/-!
# Inputs

The inputs of a run are named by paths. The path `-` means standard input, which can be read
to its end once: reading it again gives nothing. Any other path must lead to a regular file. What is
read must be text; bytes that are none, and a refusal by the operating system, end the run.
-/

namespace LoxTools

/-- A source with the name that output and diagnostics use. -/
structure Source where
  /-- the name shown -/
  name : String
  /-- the content -/
  text : String
  deriving DecidableEq, Repr

/-- What a run can read. -/
structure Inputs where
  /-- the files -/
  files : FileSystem
  /-- what comes of reading the rest of standard input -/
  stdin : Content

namespace Inputs

/-- The path that means standard input. -/
def stdinPath : String := "-"

/-- The name shown for standard input. -/
def stdinName : String := "<stdin>"

/-- **Reading an input.** -/
def read (inputs : Inputs) (path : String) : Except ToolError Source :=
  if path = stdinPath then
    match decodeText inputs.stdin with
    | .ok text => .ok ⟨stdinName, text⟩
    | .error fault => .error (.unreadable fault)
  else match inputs.files.entry path with
    | .file content =>
      match decodeText content with
      | .ok text => .ok ⟨path, text⟩
      | .error fault => .error (.unreadable fault)
    | _ => .error (.inputNotFound path)

/-- What can be read afterwards. -/
def after (inputs : Inputs) (path : String) : Inputs :=
  if path = stdinPath then { inputs with stdin := ByteArray.empty } else inputs

end Inputs

end LoxTools
