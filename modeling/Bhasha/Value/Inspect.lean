import Bhasha.Program.Printer
import Bhasha.Value.Basic

/-!
# The text of a value

The text that the prompt shows and the print builtins write.  Strings stand
without quotation marks.  A function is shown as its literal, each statement
of its body on a line of its own.
-/

namespace Bhasha

/-- The text of a function. -/
def Closure.inspect (closure : Closure) : String :=
  Keyword.function.spelling ++ "(" ++ ", ".intercalate closure.parameters ++
    ") \x7b\n" ++ Stmt.printLines closure.body ++ "\x7d"

/-- The text of a truth value. -/
def inspectBoolean : Bool → String
  | true => "सत्य"
  | false => "असत्य"

/-- The text of a key. -/
def Key.inspect : Key → String
  | .integer value => Numeral.write value
  | .boolean value => inspectBoolean value
  | .string text => text

mutual

/-- The text of a value. -/
def Value.inspect : Value → String
  | .integer value => Numeral.write value
  | .boolean value => inspectBoolean value
  | .string text => text
  | .array _ items => "[" ++ Value.inspectList items ++ "]"
  | .hash _ entries => "\x7b" ++ Value.inspectEntries entries ++ "\x7d"
  | .function _ closure => closure.inspect
  | .builtin _ => "बिल्टिन फनक्शन"
  | .error failure => "ERROR: " ++ failure.message
  | .null => "निल"

/-- Values separated by commas. -/
def Value.inspectList : List Value → String
  | [] => ""
  | [item] => Value.inspect item
  | item :: items => Value.inspect item ++ ", " ++ Value.inspectList items

/-- Keys and values, separated by commas. -/
def Value.inspectEntries : List (Key × Value) → String
  | [] => ""
  | [(key, value)] => key.inspect ++ ": " ++ Value.inspect value
  | (key, value) :: entries =>
    key.inspect ++ ": " ++ Value.inspect value ++ ", " ++
      Value.inspectEntries entries

end

end Bhasha
