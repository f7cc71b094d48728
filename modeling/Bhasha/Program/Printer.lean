import Bhasha.Numeral
import Bhasha.Program.Basic

/-!
# The canonical text of a program

Operators and index expressions are printed in parentheses, so the text shows
the tree without a rule of precedence.  Strings are printed between quotation
marks as they are.  Each statement of a program ends its line.
-/

namespace Bhasha

mutual

/-- The canonical text of an expression. -/
def Expr.print : Expr → String
  | .name name => name
  | .integer value => Numeral.write value
  | .string text => "\"" ++ text ++ "\""
  | .boolean true => Keyword.truth.spelling
  | .boolean false => Keyword.falsehood.spelling
  | .array items => "[" ++ Expr.printList items ++ "]"
  | .hash entries => "\x7b" ++ Expr.printPairs entries ++ "\x7d"
  | .unary operator operand =>
    "(" ++ operator.spelling ++ Expr.print operand ++ ")"
  | .binary operator left right =>
    "(" ++ Expr.print left ++ " " ++ operator.spelling ++ " " ++
      Expr.print right ++ ")"
  | .conditional condition consequence alternative =>
    Keyword.conditional.spelling ++ " " ++ Expr.print condition ++
      " \x7b" ++ Stmt.printList consequence ++ " \x7d" ++
      Stmt.printAlternative alternative
  | .function parameters body =>
    Keyword.function.spelling ++ "(" ++ ", ".intercalate parameters ++
      ") \x7b" ++ Stmt.printList body ++ " \x7d"
  | .call callee arguments =>
    Expr.print callee ++ "(" ++ Expr.printList arguments ++ ")"
  | .index collection position =>
    "(" ++ Expr.print collection ++ "[" ++ Expr.print position ++ "])"

/-- Expressions separated by commas. -/
def Expr.printList : List Expr → String
  | [] => ""
  | [item] => Expr.print item
  | item :: items => Expr.print item ++ ", " ++ Expr.printList items

/-- Keys and values, separated by commas. -/
def Expr.printPairs : List (Expr × Expr) → String
  | [] => ""
  | [(key, value)] => Expr.print key ++ ": " ++ Expr.print value
  | (key, value) :: entries =>
    Expr.print key ++ ": " ++ Expr.print value ++ ", " ++
      Expr.printPairs entries

/-- The canonical text of a statement. -/
def Stmt.print : Stmt → String
  | .define name value =>
    Keyword.binding.spelling ++ " " ++ name ++ " = " ++ Expr.print value ++ ";"
  | .result value =>
    Keyword.result.spelling ++ " " ++ Expr.print value ++ ";"
  | .expression value => Expr.print value ++ ";"
  | .block body => "\x7b" ++ Stmt.printList body ++ " \x7d"

/-- Statements, each after a space. -/
def Stmt.printList : List Stmt → String
  | [] => ""
  | statement :: statements =>
    " " ++ Stmt.print statement ++ Stmt.printList statements

/-- The second branch of a conditional, if it has one. -/
def Stmt.printAlternative : Option (List Stmt) → String
  | none => ""
  | some body =>
    " " ++ Keyword.alternative.spelling ++
      " \x7b" ++ Stmt.printList body ++ " \x7d"

end

/-- The text of a block in braces. -/
def Block.print (body : Block) : String :=
  "\x7b" ++ Stmt.printList body ++ " \x7d"

/-- Statements, each on a line of its own. -/
def Stmt.printLines (statements : List Stmt) : String :=
  String.join (statements.map fun statement => Stmt.print statement ++ "\n")

/-- The canonical text of a program. -/
def Program.print (program : Program) : String :=
  Stmt.printLines program

end Bhasha
