import RegisterMap.CommandLine

/-!
# The Program

Reads its arguments and the files that they lead to, prints the results, and reports a failure on
the error output.
-/

namespace RegisterMap

/-- The system's number for a path that goes on behind a file. -/
def notADirectory : UInt32 := 20

/-- What is found at a path of the file system. -/
def readPath (path : String) : IO FileContent := do
  try
    return .text (← IO.FS.readFile path)
  catch
    | .noFileOrDirectory .. => return .missing
    | .inappropriateType _ code _ =>
      return if code = notADirectory then .missing else .directory
    | e => return .unreadable (toString e)

end RegisterMap

open RegisterMap in
/-- The **main program**. -/
def main (arguments : List String) : IO UInt32 := do
  let workingDirectory := toString (← IO.currentDir)
  let result ← runProgram { workingDirectory, read := readPath } arguments
  IO.print result.printed
  match result.errorText with
  | some text => IO.eprintln text
  | none => pure ()
  return result.status.toUInt32
