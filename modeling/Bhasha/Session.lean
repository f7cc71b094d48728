import Bhasha.Command.Registry
import Bhasha.Run

/-!
# Sessions

A session takes lines one after another.  A line is blank, asks to end the
session, is a command, or is a source that is evaluated in the global scope
that the lines share.  Only lines that are evaluated change the bindings.
-/

namespace Bhasha

open Text

/-- What one line led to. -/
inductive Outcome where
  /-- There was nothing to do. -/
  | empty
  /-- A command ran. -/
  | command (reply : Reply)
  /-- A source was evaluated, with or without a value. -/
  | evaluated (value : Option Value)
  /-- A source had diagnostics and was not evaluated. -/
  | diagnostics (diagnostics : List Diagnostic)

/-- What a session keeps from line to line. -/
structure Session where
  config : Config
  coloring : Coloring
  machine : Machine

namespace Session

/-- A session before its first line. -/
def start (config : Config) (coloring : Coloring) : Session :=
  ⟨config, coloring, Machine.initial⟩

/-- What the commands of a session can see. -/
def view (session : Session) : CommandView :=
  ⟨session.machine.scopes, session.config, session.coloring⟩

/-- Write a text to the output of a session. -/
def write (session : Session) (text : String) : Session :=
  { session with
    machine := { session.machine with
      sink := (session.machine.sink.write text).2 } }

/-- Evaluate a line that is no command. -/
def evaluate (session : Session) (line : String) : Outcome × Session :=
  let parsed := parse line
  if !parsed.diagnostics.isEmpty then
    (.diagnostics parsed.diagnostics, session)
  else if parsed.program.isEmpty then
    (.empty, session)
  else
    let (value, machine) := parsed.program.eval session.config session.machine
    (.evaluated value, { session with machine })

/-- Take one line. -/
def submit (session : Session) (line : String) : Outcome × Session :=
  let line := trim line
  if line.isEmpty then
    (.empty, session)
  else if line = exitWord then
    (.command .exit, session)
  else
    match Registry.standard.dispatch line session.view with
    | (_, .notACommand) => session.evaluate line
    | (printed, reply) => (.command reply, session.write printed)

end Session

end Bhasha
