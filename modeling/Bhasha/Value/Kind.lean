/-!
# Types of values

The name of a value's type, as failures and the type builtin show it.
-/

namespace Bhasha

/-- The type of a value. -/
inductive ValueKind where
  | integer
  | boolean
  | string
  | array
  | hash
  | function
  | builtin
  | error
  | null
deriving DecidableEq

namespace ValueKind

/-- The name of a type. -/
def name : ValueKind → String
  | .integer => "INTEGER"
  | .boolean => "BOOLEAN"
  | .string => "STRING"
  | .array => "ARRAY"
  | .hash => "HASH"
  | .function => "FUNCTION"
  | .builtin => "BUILTIN"
  | .error => "ERROR"
  | .null => "NULL"

/-- The name of a type in small letters. -/
def lowerName : ValueKind → String
  | .integer => "integer"
  | .boolean => "boolean"
  | .string => "string"
  | .array => "array"
  | .hash => "hash"
  | .function => "function"
  | .builtin => "builtin"
  | .error => "error"
  | .null => "null"

end ValueKind

end Bhasha
