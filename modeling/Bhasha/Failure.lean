import Bhasha.Program.Basic
import Bhasha.Value.Kind

/-!
# Failures

The reasons for which an evaluation stops without a value.
-/

namespace Bhasha

/-- Why an evaluation failed. -/
inductive Failure where
  | identifierNotFound (name : String)
  | typeMismatch (left : ValueKind) (operator : BinaryOp) (right : ValueKind)
  | unknownUnary (operator : UnaryOp) (operand : ValueKind)
  | unknownBinary (left : ValueKind) (operator : BinaryOp) (right : ValueKind)
  | divisionByZero
  | unusableHashKey (kind : ValueKind)
  | indexNotSupported (kind : ValueKind)
  | notAFunction (kind : ValueKind)
  | wrongArgumentCount (got want : Nat)
  | invalidArgument (builtin expected : String) (got : ValueKind)
  | stackExhausted (limit : Nat)
deriving DecidableEq

namespace Failure

/-- The text of a failure. -/
def message : Failure → String
  | .identifierNotFound name => "identifier not found: " ++ name
  | .typeMismatch left operator right =>
    "type mismatch: " ++ left.name ++ " " ++ operator.spelling ++ " " ++
      right.name
  | .unknownUnary operator operand =>
    "unknown operator: " ++ operator.spelling ++ operand.name
  | .unknownBinary left operator right =>
    "unknown operator: " ++ left.name ++ " " ++ operator.spelling ++ " " ++
      right.name
  | .divisionByZero => "division by zero"
  | .unusableHashKey kind => "unusable as hash key: " ++ kind.name
  | .indexNotSupported kind => "index operator not supported: " ++ kind.name
  | .notAFunction kind => "not a function: " ++ kind.name
  | .wrongArgumentCount got want =>
    "wrong number of arguments. got=" ++ toString got ++ ", want=" ++
      toString want
  | .invalidArgument builtin expected got =>
    "argument to `" ++ builtin ++ "` must be " ++ expected ++ ", got " ++
      got.name
  | .stackExhausted limit =>
    "stack exhausted: call depth exceeded " ++ toString limit

end Failure

end Bhasha
