import EntityQuery.CommandLine.Run

/-!
# The program

Reads the files that the arguments name and prints what the command says.
-/

set_option autoImplicit false

open EntityQuery.CommandLine

/-- The contents of a file, if it can be read. -/
def readText? (path : String) : IO (Option String) :=
  try return some (← IO.FS.readFile path) catch _ => return none

/-- Runs the command of the arguments. -/
def main (arguments : List String) : IO UInt32 := do
  let paths := ((readCommand? arguments).map Command.files).getD []
  let files ← paths.mapM fun path => return (path, ← readText? path)
  match run (fun path => (files.lookup path).join) arguments with
  | .ok text =>
    IO.print text
    return 0
  | .error failure =>
    IO.eprintln failure.message
    return UInt32.ofNat failure.exitCode
