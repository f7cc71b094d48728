import Bhasha.CommandLine

/-!
# The program

The outer layer: it reads the arguments, the variable for the depth of calls,
the named file or the lines of the standard input, and writes what the library
answers.
-/

namespace Bhasha

/-- The cause for which the system refused to read a file. -/
def ReadError.ofSystem : IO.Error → ReadError
  | .noFileOrDirectory _ _ _ => .notFound
  | .inappropriateType _ 21 _ => .isDirectory
  | error => .system (toString error)

/-- Read a file, or tell why it cannot be read. -/
def readBytes (path : String) : IO (Except ReadError ByteArray) := do
  try
    return .ok (← IO.FS.readBinFile path)
  catch error =>
    return .error (ReadError.ofSystem error)

/-- Write bytes to the standard output at once. -/
def writeBytes (bytes : ByteArray) : IO Unit := do
  let output ← IO.getStdout
  output.write bytes
  output.flush

/-- Write what a session has printed, and go on without it. -/
def showOutput (session : Session) : IO Session := do
  let (bytes, machine) := session.machine.takeOutput .unbounded
  writeBytes bytes
  return { session with machine }

/-- Take lines from the standard input until the session ends. -/
partial def promptLoop (session : Session) : IO Unit := do
  let line ← (← IO.getStdin).getLine
  if line.isEmpty then
    discard (showOutput (Repl.leave session))
  else
    let (continues, session) :=
      Repl.step session (Text.applyBackspaces line)
    let session ← showOutput session
    if continues then
      promptLoop session

/-- Write a report and give its exit code. -/
def deliver (report : ProgramReport) : IO UInt32 := do
  writeBytes report.standardOutput
  (← IO.getStderr).putStr report.standardError
  return report.exitCode.toUInt32

end Bhasha

open Bhasha in
/-- Run the program on its arguments. -/
def main (arguments : List String) : IO UInt32 := do
  let coloring := if ← (← IO.getStdout).isTty then .on else .off
  let depth ← IO.getEnv "NEPALI_MAX_DEPTH"
  let invocation := Invocation.ofArguments arguments depth
  match invocation with
  | .prompt config =>
    promptLoop (← showOutput (Repl.greet (Session.start config coloring)))
    return 0
  | .file path _ _ =>
    let content ← readBytes path
    deliver (invocation.run coloring (fun _ => content) "")
  | _ => deliver (invocation.run coloring (fun _ => .error .notFound) "")
