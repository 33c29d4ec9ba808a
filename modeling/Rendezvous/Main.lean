import Rendezvous.CommandLine.Run

/-!
# The program

Hands the arguments, the environment and the files that the arguments name to a run, and writes
what comes of it.
-/

namespace Rendezvous.Program

/-- The variables of the environment of this program. -/
def readEnvironment : IO Environment := do
  let text ← try IO.FS.readFile "/proc/self/environ" catch _ => pure ""
  return (Text.splitOn "\x00" text).filterMap fun entry =>
    match Text.splitOn "=" entry with
    | name :: value@(_ :: _) => some (name, String.intercalate "=" value)
    | _ => none

/-- The text at a path, if anything is there. What cannot be read as text, such as a folder, counts
as empty. -/
def readEntry? (path : String) : IO (Option String) := do
  try
    return some (← IO.FS.readFile path)
  catch
    | .noFileOrDirectory .. => return none
    | _ => return some ""

/-- The files at the given paths. -/
def readFolder (paths : List String) : IO Folder := do
  let mut texts : List (String × String) := []
  for path in paths do
    if let some text ← readEntry? (Path.normalize path) then
      texts := texts ++ [(String.intercalate "/" (Folder.resolve (Path.parts path) []), text)]
  return { path := "/", texts }

end Rendezvous.Program

open Rendezvous in
/-- Runs the program and writes what comes of it. -/
def main (args : List String) : IO UInt32 := do
  let environment ← Program.readEnvironment
  let folder ← Program.readFolder (CommandLine.paths environment args)
  let transcript := CommandLine.run { folder, environment } args
  let stdout ← IO.getStdout
  let stderr ← IO.getStderr
  for line in transcript.output do
    stdout.putStrLn line
  for line in transcript.errors do
    stderr.putStrLn line
  match transcript.ending with
  | .exit code => return code.toUInt32
  | .failed kind message =>
    stderr.putStrLn (kind ++ ": " ++ message)
    return 1
