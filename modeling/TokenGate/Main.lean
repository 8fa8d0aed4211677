import TokenGate.CommandLine.Program

/-!
# The executable

It takes its environment from the process and its files from the file system. It has no connection
to any network, so that no server is ever reached.
-/

namespace TokenGate

/-- The variables of the process, as the system lists them. -/
def readEnvironment : IO (List (String × String)) := do
  let listing ← IO.FS.readBinFile "/proc/self/environ"
  let entries := (String.fromUTF8? listing).getD ""
  return (entries.splitOn "\x00").filterMap fun entry =>
    match entry.splitOn "=" with
    | name :: value@(_ :: _) => some (name, "=".intercalate value)
    | _ => none

/-- The text of a file, if there is one. -/
def readFile? (name : String) : IO (Option String) := do
  try
    return some (← IO.FS.readFile name)
  catch _ =>
    return none

end TokenGate

open TokenGate in
/-- Runs the program on the arguments of the process. -/
def main (args : List String) : IO UInt32 := do
  let environment ← readEnvironment
  let named := match CommandLine.read environment args with
    | .ok i => i.values.config
    | .error _ => none
  let text ← match named with
    | some name => readFile? name
    | none => pure none
  let run := CommandLine.run
    { environment := environment
      file? := fun name => if some name = named then text else none
      network := .unreachable } args
  (← IO.getStdout).putStr run.stdout
  (← IO.getStderr).putStr run.stderr
  return run.exit
