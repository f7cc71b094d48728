import Bhasha.Builtin.Basic
import Bhasha.Failure
import Bhasha.Sorted

/-!
# Values

Arrays, hashes and functions carry the identity that they were given when they
were made; copies keep it.  A function also carries the number of the scope in
which it was made.  Hashes map keys to values in the order of the keys:
integers, then booleans, then strings, each by value.
-/

namespace Bhasha

/-! ## Keys -/

/-- What a hash can be indexed with. -/
inductive Key where
  | integer (value : Int64)
  | boolean (value : Bool)
  | string (text : String)
deriving DecidableEq

namespace Key

/-- The place of a key's type in the order of keys. -/
def rank : Key → Nat
  | .integer _ => 0
  | .boolean _ => 1
  | .string _ => 2

/-- The order of keys: by type, and by value within a type. -/
def order : Key → Key → Ordering
  | .integer left, .integer right => compare left.toInt right.toInt
  | .boolean left, .boolean right => compare left.toNat right.toNat
  | .string left, .string right => compare left right
  | left, right => compare left.rank right.rank

instance : Ord Key :=
  ⟨order⟩

end Key

/-! ## Values -/

/-- The number of a scope. -/
abbrev ScopeId := Nat

/-- What tells apart the arrays, hashes and functions of a run. -/
abbrev Identity := Nat

/-- A function literal together with the scope in which it was evaluated. -/
structure Closure where
  parameters : List String
  body : Block
  scope : ScopeId

/-- A value of the language. -/
inductive Value where
  | integer (value : Int64)
  | boolean (value : Bool)
  | string (text : String)
  | array (identity : Identity) (items : List Value)
  | hash (identity : Identity) (entries : List (Key × Value))
  | function (identity : Identity) (closure : Closure)
  | builtin (builtin : Builtin)
  | error (failure : Failure)
  | null

/--
The entries of a hash, in the order of their keys.  The value that a key was
made from is not kept beside the key: only integers, booleans and strings can be
keys, and each of them is `Key.toValue` of its key.
-/
abbrev Entries := Sorted Key Value

/-- The value that a key was made from. -/
def Key.toValue : Key → Value
  | .integer value => .integer value
  | .boolean value => .boolean value
  | .string text => .string text

namespace Value

/-- The type of a value. -/
def kind : Value → ValueKind
  | .integer _ => .integer
  | .boolean _ => .boolean
  | .string _ => .string
  | .array _ _ => .array
  | .hash _ _ => .hash
  | .function _ _ => .function
  | .builtin _ => .builtin
  | .error _ => .error
  | .null => .null

/-- Everything but falsehood and null counts as true. -/
def isTruthy : Value → Bool
  | .boolean value => value
  | .null => false
  | _ => true

/-- Whether a value is an error. -/
def isError : Value → Bool
  | .error _ => true
  | _ => false

/--
Equality as the operators test it: plain values by value, arrays, hashes and
functions by identity.  An error is not even equal to itself.
-/
def isIdentical : Value → Value → Bool
  | .integer left, .integer right => left == right
  | .boolean left, .boolean right => left == right
  | .string left, .string right => left == right
  | .null, .null => true
  | .array left _, .array right _ => left == right
  | .hash left _, .hash right _ => left == right
  | .function left _, .function right _ => left == right
  | .builtin left, .builtin right => left == right
  | _, _ => false

/-- The key that a value stands for, if it can be one. -/
def toKey : Value → Except Failure Key
  | .integer value => .ok (.integer value)
  | .boolean value => .ok (.boolean value)
  | .string text => .ok (.string text)
  | other => .error (.unusableHashKey other.kind)

end Value

/-! ## Entries of hashes -/

namespace Entries

/-- Bind a key to a value, in place of an earlier binding of the key. -/
def insert (entries : Entries) (key value : Value) :
    Except Failure Entries := do
  let key ← key.toKey
  return Sorted.insert key value entries

/-- The value bound to a key. -/
def get? (entries : Entries) (key : Key) : Option Value :=
  List.lookup key entries

end Entries

end Bhasha
