import Bhasha.Value.Basic

/-!
# Structural equality of values

Arrays and hashes are compared by their contents and errors by their cause.
All other values are compared as the operators compare them, so functions are
still told apart by their identity.
-/

namespace Bhasha

mutual

/-- Whether two values have the same structure. -/
def Value.same : Value → Value → Bool
  | .array _ left, .array _ right => Value.sameList left right
  | .hash _ left, .hash _ right => Value.sameEntries left right
  | .error left, .error right => left == right
  | left, right => left.isIdentical right

/-- Whether two lists of values have the same structure. -/
def Value.sameList : List Value → List Value → Bool
  | [], [] => true
  | left :: lefts, right :: rights =>
    Value.same left right && Value.sameList lefts rights
  | _, _ => false

/-- Whether the entries of two hashes have the same structure. -/
def Value.sameEntries : List (Key × Value) → List (Key × Value) → Bool
  | [], [] => true
  | (key, left) :: lefts, (key', right) :: rights =>
    key == key' && Value.same left right && Value.sameEntries lefts rights
  | _, _ => false

end

end Bhasha
