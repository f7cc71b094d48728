import Bhasha.Evaluation.Basic
import Bhasha.Parser.Grammar
import Bhasha.Text.Style

/-!
# Running a source

A run may list the tokens of a source first.  A source with diagnostics is not
evaluated.  What a program prints and its value go to the standard output;
diagnostics and the failure that stopped a program go to the standard error.
-/

namespace Bhasha

open Text

/-! ## Messages -/

/-- Diagnostics as they are shown. -/
def styledDiagnostics (coloring : Coloring) (messages : List String) :
    String :=
  (Style.colored .red).apply coloring (Diagnostic.report messages)

/-- The word in front of an error message. -/
def errorLabel (coloring : Coloring) : String :=
  (Style.boldColored .brightRed).apply coloring "Error:"

/-- An error message as it is shown. -/
def styledError (coloring : Coloring) (message : String) : String :=
  errorLabel coloring ++ " " ++ (Style.colored .red).apply coloring message

/-! ## Sources -/

/-- What a run is to do besides evaluating. -/
structure RunSettings where
  listTokens : Bool
  config : Config
  coloring : Coloring

/-- How a run ended. -/
inductive RunEnding where
  | success
  | parseFailed
  | evaluationFailed
deriving DecidableEq

/-- Whether a run did what was asked. -/
def RunEnding.isSuccess (ending : RunEnding) : Bool :=
  ending = .success

/-- How a run ended and what it wrote. -/
structure RunReport where
  ending : RunEnding
  standardOutput : ByteArray
  standardError : String

/-- The machine at the start of a run, with the tokens of the source listed. -/
def RunSettings.start (settings : RunSettings) (source : String) : Machine :=
  if settings.listTokens then
    { Machine.initial with
      sink := (Sink.unbounded.writeLine (tokenListing source)).2 }
  else
    Machine.initial

/-- The report of an evaluation that ended with a value or without one. -/
def RunReport.ofValue (coloring : Coloring) (sink : Sink) :
    Option Value → RunReport
  | none => ⟨.success, sink.written, ""⟩
  | some (.error failure) =>
    ⟨.evaluationFailed, sink.written,
      styledError coloring failure.message ++ "\n"⟩
  | some value => ⟨.success, (sink.writeLine value.inspect).2.written, ""⟩

/-- Run a source from the beginning. -/
def RunSettings.run (settings : RunSettings) (source : String) : RunReport :=
  let machine := settings.start source
  let parsed := parse source
  if parsed.diagnostics.isEmpty then
    let (value, after) := parsed.program.eval settings.config machine
    RunReport.ofValue settings.coloring after.sink value
  else
    ⟨.parseFailed, machine.sink.written,
      styledDiagnostics settings.coloring parsed.messages ++ "\n"⟩

/-! ## Files -/

/-- Why a file cannot be read as text. -/
inductive ReadError where
  | notFound
  | isDirectory
  | notText
  | system (text : String)
deriving DecidableEq

namespace ReadError

/-- The text of the cause. -/
def cause : ReadError → String
  | .notFound => "No such file or directory (os error 2)"
  | .isDirectory => "Is a directory (os error 21)"
  | .notText => "stream did not contain valid UTF-8"
  | .system text => text

/-- What could not be done. -/
def summary (path : String) : String :=
  "failed to read " ++ path

/-- What could not be done, and why. -/
def message (path : String) (error : ReadError) : String :=
  summary path ++ ": " ++ error.cause

end ReadError

/-- The text that the bytes of a file encode. -/
def decodeFile (bytes : ByteArray) : Except ReadError String :=
  match String.fromUTF8? bytes with
  | some text => .ok text
  | none => .error .notText

/-- Run the source in a file that was read, or was found unreadable. -/
def RunSettings.runFile (settings : RunSettings)
    (content : Except ReadError ByteArray) : Except ReadError RunReport := do
  let source ← decodeFile (← content)
  return settings.run source

end Bhasha
