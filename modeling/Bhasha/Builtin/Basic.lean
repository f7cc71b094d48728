/-!
# Builtin functions

The functions that every program finds under their names unless it binds the
names itself, with the documentation that the prompt shows.
-/

namespace Bhasha

/-- A builtin function. -/
inductive Builtin where
  | length
  | print
  | write
  | printLines
  | typeName
  | text
deriving DecidableEq

namespace Builtin

/-- The name of a builtin. -/
def name : Builtin → String
  | .length => "लेन"
  | .print => "प्रिन्ट"
  | .write => "लेख्नुहोस्"
  | .printLines => "प्रिन्टल"
  | .typeName => "टाइप"
  | .text => "स्ट्रिंग"

/-- What a builtin does. -/
def description : Builtin → String
  | .length => "Length of a string (in characters) or an array"
  | .print => "Print the arguments separated by spaces, then a newline"
  | .write => "Same as प्रिन्ट"
  | .printLines => "Print each argument on its own line"
  | .typeName => "Type name of a value, in lowercase"
  | .text => "Textual representation of a value"

/-- How a builtin is called. -/
def signature : Builtin → String
  | .length => "लेन(value: STRING | ARRAY) -> INTEGER"
  | .print => "प्रिन्ट(...values) -> NULL"
  | .write => "लेख्नुहोस्(...values) -> NULL"
  | .printLines => "प्रिन्टल(...values) -> NULL"
  | .typeName => "टाइप(value) -> STRING"
  | .text => "स्ट्रिंग(value) -> STRING"

/-- Every builtin, in the order of their names. -/
def all : List Builtin :=
  [.typeName, .print, .printLines, .write, .length, .text]

/-- The builtin of a name. -/
def ofName? (name : String) : Option Builtin :=
  all.find? fun builtin => builtin.name == name

end Builtin

end Bhasha
