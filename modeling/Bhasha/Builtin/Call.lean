import Bhasha.Sink
import Bhasha.Value.Inspect

/-!
# Calling builtin functions

A call gives a value or a failure and may write to the sink.  The print
builtins never fail: a sink that is full is no error of the program.
-/

namespace Bhasha

namespace Builtin

/-- The only argument of a call. -/
def single : List Value → Except Failure Value
  | [argument] => .ok argument
  | arguments => .error (.wrongArgumentCount arguments.length 1)

/-- The length of a string in characters, or of an array. -/
def measure : Value → Except Failure Nat
  | .string content => .ok content.length
  | .array _ items => .ok items.length
  | other =>
    .error (.invalidArgument length.name "STRING or ARRAY" other.kind)

/-- Write each value on a line of its own, until a line does not fit. -/
def writeLines : List Value → Sink → Sink
  | [], sink => sink
  | value :: values, sink =>
    match sink.writeLine value.inspect with
    | (true, sink) => writeLines values sink
    | (false, sink) => sink

/-- Write the values on one line, separated by spaces. -/
def writeJoined (values : List Value) (sink : Sink) : Sink :=
  (sink.writeLine (" ".intercalate (values.map Value.inspect))).2

/-- The outcome of a call, and the sink after it. -/
def call (builtin : Builtin) (arguments : List Value) (sink : Sink) :
    Except Failure Value × Sink :=
  match builtin with
  | .length =>
    (do
      let size ← measure (← single arguments)
      return .integer (Int64.ofNat size), sink)
  | .print => (.ok .null, writeJoined arguments sink)
  | .write => (.ok .null, writeJoined arguments sink)
  | .printLines => (.ok .null, writeLines arguments sink)
  | .typeName =>
    (do return .string (← single arguments).kind.lowerName, sink)
  | .text =>
    (do return .string (← single arguments).inspect, sink)

end Builtin

end Bhasha
