import Bhasha.Session
import Bhasha.Text.Backspace

/-!
# The read-eval-print loop

The loop greets, takes lines, shows what each line led to, and says goodbye at
the first line that ends the session or at the end of its input.  Everything
is written to the output of the session, in order.
-/

namespace Bhasha

open Text

/-- The pieces of a text that line feeds end; the last one need not be ended. -/
def splitLines (input : String) : List String :=
  let pieces := input.toList.splitOn '\n'
  let lines := if pieces.getLast? = some [] then pieces.dropLast else pieces
  lines.map String.ofList

/-- The lines of an input, after the backspaces in them have taken effect. -/
def inputLines (input : String) : List String :=
  (splitLines input).map applyBackspaces

/-- What is shown for an outcome, if it does not end the session. -/
def Outcome.render (coloring : Coloring) : Outcome → String
  | .empty => ""
  | .evaluated none => ""
  | .evaluated (some (.error failure)) =>
    styledError coloring failure.message ++ "\n"
  | .evaluated (some value) => value.inspect ++ "\n"
  | .diagnostics found =>
    styledDiagnostics coloring (found.map Diagnostic.message) ++ "\n"
  | .command (.message text) => text ++ "\n"
  | .command (.error text) => styledError coloring text ++ "\n"
  | .command _ => ""

/-- Whether an outcome ends the session. -/
def Outcome.isExit : Outcome → Bool
  | .command .exit => true
  | _ => false

namespace Repl

/-- The text at the start of a session. -/
def banner (coloring : Coloring) : String :=
  let code := (Style.colored .cyan).apply coloring
  let ending := (Style.colored .brightRed).apply coloring
  (Style.boldColored .brightCyan).apply coloring "नेपाली प्रोग्रामिङ भाषा" ++
    "\nType expressions like: " ++ code "लेट x = ५;" ++ ", " ++
    code "लेख्नुहोस्(x + 1)" ++
    "\nType '" ++ (Style.colored .brightGreen).apply coloring ":help" ++
    "' for more information, '" ++ ending exitWord ++ "' or " ++
    ending "Ctrl+C" ++ " to exit.\n\n"

/-- The text at the end of a session. -/
def goodbye (coloring : Coloring) : String :=
  (Style.colored .brightCyan).apply coloring "Goodbye!" ++ "\n"

/-- Greet. -/
def greet (session : Session) : Session :=
  session.write (banner session.coloring)

/-- Say goodbye. -/
def leave (session : Session) : Session :=
  session.write (goodbye session.coloring)

/-- Take a line and show its outcome; the answer tells whether to go on. -/
def step (session : Session) (line : String) : Bool × Session :=
  let (outcome, session) := session.submit line
  if outcome.isExit then
    (false, leave session)
  else
    (true, session.write (outcome.render session.coloring))

/-- Take lines until one ends the session or there are no more. -/
def loop (session : Session) : List String → Session
  | [] => leave session
  | line :: lines =>
    match step session line with
    | (true, session) => loop session lines
    | (false, session) => session

/-- Everything that a session on a whole input writes. -/
def transcript (config : Config) (coloring : Coloring) (input : String) :
    ByteArray :=
  let session := loop (greet (Session.start config coloring)) (inputLines input)
  session.machine.sink.written

end Repl

end Bhasha
