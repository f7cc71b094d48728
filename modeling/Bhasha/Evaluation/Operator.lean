import Bhasha.Value.Basic

/-!
# Operators on values

Integer arithmetic wraps around at 64 bits, and division goes toward zero.
Values of other types can be tested for equality, and strings can be joined.
-/

namespace Bhasha

/-- Apply a unary operator. -/
def UnaryOp.apply : UnaryOp → Value → Except Failure Value
  | .not, operand => .ok (.boolean !operand.isTruthy)
  | .negate, .integer value => .ok (.integer (-value))
  | .negate, operand => .error (.unknownUnary .negate operand.kind)

namespace BinaryOp

/-- Apply a binary operator to two integers. -/
def applyIntegers (operator : BinaryOp) (left right : Int64) :
    Except Failure Value :=
  match operator with
  | .add => .ok (.integer (left + right))
  | .subtract => .ok (.integer (left - right))
  | .multiply => .ok (.integer (left * right))
  | .divide =>
    if right = 0 then .error .divisionByZero else .ok (.integer (left / right))
  | .less => .ok (.boolean (left < right))
  | .greater => .ok (.boolean (right < left))
  | .lessEqual => .ok (.boolean (left ≤ right))
  | .greaterEqual => .ok (.boolean (right ≤ left))
  | .equal => .ok (.boolean (left == right))
  | .notEqual => .ok (.boolean (left != right))

/-- The failure of an operator that does not fit its operands. -/
def mismatch (operator : BinaryOp) (left right : ValueKind) : Failure :=
  if left = right then
    .unknownBinary left operator right
  else
    .typeMismatch left operator right

/-- Apply a binary operator. -/
def apply (operator : BinaryOp) (left right : Value) :
    Except Failure Value :=
  match operator, left, right with
  | operator, .integer left, .integer right => operator.applyIntegers left right
  | .equal, left, right => .ok (.boolean (left.isIdentical right))
  | .notEqual, left, right => .ok (.boolean !(left.isIdentical right))
  | .add, .string left, .string right => .ok (.string (left ++ right))
  | operator, left, right => .error (operator.mismatch left.kind right.kind)

end BinaryOp

/-- The item of an array at a position, and null outside of the array. -/
def itemAt (items : List Value) (position : Int64) : Value :=
  if position < 0 then .null else items.getD position.toInt.toNat .null

/-- Look up a position in an array or a key in a hash. -/
def Value.index : Value → Value → Except Failure Value
  | .array _ items, .integer position => .ok (itemAt items position)
  | .hash _ entries, key => do
    return ((Entries.get? entries (← key.toKey)).getD .null)
  | collection, _ => .error (.indexNotSupported collection.kind)

end Bhasha
