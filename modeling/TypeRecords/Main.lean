import TypeRecords.CommandLine.Session

/-!
The program.

Plays the interaction of a run on the files of the machine.
-/

namespace TypeRecords.CommandLine

/-- The number of an error. Some accesses report it negated. -/
def errorNumber (code : UInt32) : UInt32 := if code < 0x80000000 then code else -code

/-- The error of a failed access to the machine's files. -/
def fileError (error : IO.Error) : FileError :=
  match error with
  | .noFileOrDirectory .. => .missing
  | .alreadyExists .. => .alreadyExists
  | .inappropriateType _ code details =>
    if errorNumber code = 20 then .notDirectory
    else if errorNumber code = 21 then .isDirectory
    else .other details
  | .invalidArgument _ code details =>
    if errorNumber code = 36 then .nameTooLong else .other details
  | other => .other (toString other)

/-- Runs an action on files. -/
def attempt {α : Type} (action : IO α) : IO (Except FileError α) := do
  try return .ok (← action)
  catch error => return .error (fileError error)

/-- Makes a directory, or accepts one that is there. -/
def ensureDirectory (path : String) : IO Unit := do
  try IO.FS.createDir path
  catch
    | .alreadyExists .. => IO.FS.createDirAll path
    | error => throw error

/-- Makes a directory and those around it as far as they are missing. Their paths are given from
the innermost outwards. -/
def ensureDirectories : List String → IO Unit
  | [] => return
  | path :: outer => do
    try ensureDirectory path
    catch
      | .noFileOrDirectory .. =>
        ensureDirectories outer
        ensureDirectory path
      | error => throw error

/-- Writes a file, and makes the directories it is to stand in. -/
def writeFile (path : String) (contents : List UInt8) : IO Unit := do
  ensureDirectories (Path.directories path)
  IO.FS.writeBinFile path ⟨contents.toArray⟩

/-- Plays an interaction on the machine's files. -/
def Interaction.play : Interaction → IO Outcome
  | .finish outcome => return outcome
  | .read path next => do
    let contents ← attempt (IO.FS.readBinFile path)
    (next (contents.map fun bytes => bytes.toList)).play
  | .write path contents next => do
    let written ← attempt (writeFile path contents)
    (next written).play

end TypeRecords.CommandLine

open TypeRecords.CommandLine

/-- Runs the program on its arguments. -/
def main (arguments : List String) : IO UInt32 := do
  let outcome ← (session .linux arguments).play
  (← IO.getStdout).putStr outcome.output
  (← IO.getStderr).putStr outcome.errors
  return outcome.exitCode.toUInt32
