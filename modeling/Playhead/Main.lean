import Playhead.CommandLine

/-!
# The program

Gathers the surroundings, has `Playhead.CommandLine` answer, and prints the answer.
-/

namespace Playhead.Program

/-- A file's text; none if it cannot be read. -/
def readText? (path : String) : IO (Option String) := do
  try
    return some (← IO.FS.readFile path)
  catch _ => return none

/-- The environment, which the system keeps as entries that end in zero bytes. -/
def readEnvironment : IO (List (String × String)) := do
  let text ← readText? "/proc/self/environ"
  let entries := (text.getD "").toList.splitOn '\x00'
  return entries.filterMap fun entry =>
    match entry.dropWhile (· != '=') with
    | _ :: value => some (String.ofList (entry.takeWhile (· != '=')), String.ofList value)
    | [] => none

/-- The surroundings with those files that a call can ask for. The configuration file may have an
extension that its path lacks. -/
def surroundings (arguments : List String) : IO Surroundings := do
  let environment ← readEnvironment
  let w : Surroundings := { environment, file? := fun _ => none }
  let configured := w.configPath?.toList
  let paths := configured ++ configured.map (· ++ ".toml") ++
    (CommandLine.Call.ofArguments arguments).path?.toList
  let files ← paths.mapM fun path => return (path, ← readText? path)
  return { w with file? := fun path => (files.lookup path).join }

end Playhead.Program

def main (arguments : List String) : IO UInt32 := do
  let w ← Playhead.Program.surroundings arguments
  match Playhead.CommandLine.exit .standard w arguments with
  | .ok exit =>
    exit.printed.forM IO.println
    exit.reported.forM IO.eprintln
    return exit.code.toUInt32
  | .error .overflow =>
    IO.eprintln "attempt to add with overflow"
    return 101
  | .error .endless =>
    IO.eprintln "Error: the run does not end"
    return 1
