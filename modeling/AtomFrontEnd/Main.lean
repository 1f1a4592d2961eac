import AtomFrontEnd.CommandLine

/-!
The program: reads the file that the command line names, writes the report and
ends with its status.
-/

namespace AtomFrontEnd

/-- The failure that a system error stands for. -/
def ReadFailure.ofError : IO.Error → ReadFailure
  | .noFileOrDirectory .. => .notFound
  | .inappropriateType .. => .isDirectory
  | e => .other (toString e)

/-- The content of a file, or why there is none. -/
def readContent (file : String) : IO (Except ReadFailure ByteArray) := do
  try
    return .ok (← IO.FS.readBinFile file)
  catch e =>
    return .error (ReadFailure.ofError e)

/-- Whether both streams go to a terminal. -/
def onTerminal : IO Bool := do
  let output ← (← IO.getStdout).isTty
  let errors ← (← IO.getStderr).isTty
  return output && errors

end AtomFrontEnd

open AtomFrontEnd in
/-- Checks one file. -/
def main (arguments : List String) : IO UInt32 := do
  match CommandLine.ofArguments? arguments with
  | none =>
    IO.eprintln "usage: [--quiet] [--accept-struct-types] [--color auto|always|never] [FILE]"
    return 2
  | some line =>
    let content ← readContent line.file
    let output := line.output (← onTerminal) content
    IO.print output.stdout
    IO.eprint output.stderr
    return output.status.toUInt32
