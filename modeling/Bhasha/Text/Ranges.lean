/-!
# Ranges of code points

A property of characters is kept as the increasing list of the ranges of code
points that have it.  Membership stops at the first range that starts above
the code point, so a small code point is decided by the first few ranges.
-/

namespace Bhasha.Text

/-- Disjoint ranges of code points in increasing order, both ends included. -/
abbrev Ranges := List (Nat × Nat)

namespace Ranges

/-- Whether a code point lies in one of the ranges. -/
def contains : Ranges → Nat → Bool
  | [], _ => false
  | (first, last) :: rest, code =>
    first ≤ code && (code ≤ last || contains rest code)

end Ranges

end Bhasha.Text
