import LoxTools.CommandLine.Execute

/-!
# The program

The outer layer: it looks up the files that a command line names and the variables of
the environment, hands them to `run`, and prints what comes back.
-/

namespace LoxTools.Program

/-- The error number of the operating system for reading a directory. -/
def directoryError : UInt32 := 21

/-- The words of the operating system for an error, with its number. -/
def reasonOf (details : String) (code : UInt32) : String :=
  details ++ " (os error " ++ toString code ++ ")"

/-- What stands at a path of this machine. Only reading tells, so a device passes for a file. -/
def entryAt (path : String) : IO FileEntry := do
  try
    return .file (← IO.FS.readBinFile path)
  catch
    | .inappropriateType _ code _ =>
      return if code = directoryError then .directory else .missing
    | .permissionDenied _ code details => return .file (.refused (reasonOf details code))
    | _ => return .missing

/-- The file system of this machine below a directory, as far as the paths given. -/
def fileSystemAt (directory : String) (paths : List String) : IO FileSystem := do
  let entries ← paths.mapM fun path => do
    return (path, ← entryAt (directory ++ path))
  return ⟨fun path => (entries.lookup path).getD .missing⟩

/-- The variables that stand in for options. -/
def environment : IO Environment := do
  return ⟨← IO.getEnv "LOXT_VERBOSE", ← IO.getEnv "LOXT_CONFIG", ← IO.getEnv "LOXT_NO_COLOR"⟩

/-- The places where settings can be, and the inputs of an invocation. -/
def placesOf (invocation : Invocation) : IO SettingsPlaces := do
  let paths := Settings.fileName :: invocation.settingsPath.toList ++ invocation.command.inputs
  let home ← match ← IO.getEnv "HOME" with
    | some directory => fileSystemAt (directory ++ "/") [Settings.homeName]
    | none => fileSystemAt "" []
  let configuration ← match ← IO.getEnv "XDG_CONFIG_HOME" with
    | some directory => some <$> fileSystemAt (directory ++ "/") [Settings.nestedName]
    | none => pure none
  return ⟨← fileSystemAt "" paths, home, configuration⟩

/-- All that is left on a stream. -/
partial def readAll (stream : IO.FS.Stream) (content : ByteArray) : IO ByteArray := do
  let bytes ← stream.read 4096
  if bytes.isEmpty then return content
  readAll stream (content ++ bytes)

/-- Standard input, which is read only if an input asks for it. -/
def stdinOf (invocation : Invocation) : IO Content := do
  if invocation.command.inputs.contains Inputs.stdinPath then
    try
      return ← readAll (← IO.getStdin) ByteArray.empty
    catch error =>
      return .refused (toString error)
  else
    return ByteArray.empty

/-- The surroundings of a run. -/
def surroundingsOf (environment : Environment) (args : List String) : IO Surroundings := do
  match Invocation.parse environment args with
  | .ok invocation => return ⟨← placesOf invocation, ← stdinOf invocation, environment⟩
  | .error _ =>
    let nothing : FileSystem := ⟨fun _ => .missing⟩
    return ⟨⟨nothing, nothing, none⟩, ByteArray.empty, environment⟩

/-- Print what a run leaves behind. -/
def print (outcome : Outcome) : IO Unit := do
  IO.print outcome.out
  for line in outcome.log do
    IO.eprintln line
  if outcome.status = 2 then
    IO.eprintln "error: usage: loxt [OPTIONS] <scan|check> [OPTIONS] <INPUT>..."
  match outcome.complaint with
  | some complaint => IO.eprintln ("error: " ++ complaint)
  | none => return ()

end LoxTools.Program

/-- The program: arguments in, exit status out. -/
def main (args : List String) : IO UInt32 := do
  let surroundings ← LoxTools.Program.surroundingsOf (← LoxTools.Program.environment) args
  let outcome := LoxTools.run surroundings args
  LoxTools.Program.print outcome
  return outcome.status.toUInt32
