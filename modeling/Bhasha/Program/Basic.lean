import Bhasha.Token.Kind

/-!
# Programs

A program is a list of statements.  Function bodies and the branches of a
conditional are lists of statements too.  The parser never makes a nested
block; it is there for trees that are built by hand.
-/

namespace Bhasha

/-- The operators with one operand. -/
inductive UnaryOp where
  | not
  | negate
deriving DecidableEq

namespace UnaryOp

/-- The symbol of an operator. -/
def symbol : UnaryOp → Symbol
  | .not => .bang
  | .negate => .minus

/-- The operator that a symbol stands for in front of an operand. -/
def ofSymbol? : Symbol → Option UnaryOp
  | .bang => some .not
  | .minus => some .negate
  | _ => none

/-- The text of an operator. -/
def spelling (operator : UnaryOp) : String :=
  operator.symbol.spelling

@[simp]
theorem ofSymbol?_symbol (operator : UnaryOp) :
    ofSymbol? operator.symbol = some operator := by
  cases operator <;> rfl

end UnaryOp

/-- The operators with two operands. -/
inductive BinaryOp where
  | add
  | subtract
  | multiply
  | divide
  | less
  | greater
  | lessEqual
  | greaterEqual
  | equal
  | notEqual
deriving DecidableEq

namespace BinaryOp

/-- The symbol of an operator. -/
def symbol : BinaryOp → Symbol
  | .add => .plus
  | .subtract => .minus
  | .multiply => .asterisk
  | .divide => .slash
  | .less => .less
  | .greater => .greater
  | .lessEqual => .lessEqual
  | .greaterEqual => .greaterEqual
  | .equal => .equal
  | .notEqual => .notEqual

/-- The operator that a symbol stands for between two operands. -/
def ofSymbol? : Symbol → Option BinaryOp
  | .plus => some .add
  | .minus => some .subtract
  | .asterisk => some .multiply
  | .slash => some .divide
  | .less => some .less
  | .greater => some .greater
  | .lessEqual => some .lessEqual
  | .greaterEqual => some .greaterEqual
  | .equal => some .equal
  | .notEqual => some .notEqual
  | _ => none

/-- The text of an operator. -/
def spelling (operator : BinaryOp) : String :=
  operator.symbol.spelling

/-- Whether an operator compares for equality. -/
def isEquality : BinaryOp → Bool
  | .equal | .notEqual => true
  | _ => false

@[simp]
theorem ofSymbol?_symbol (operator : BinaryOp) :
    ofSymbol? operator.symbol = some operator := by
  cases operator <;> rfl

end BinaryOp

mutual

/-- An expression. -/
inductive Expr where
  | name (name : String)
  | integer (value : Int64)
  | string (text : String)
  | boolean (value : Bool)
  | array (items : List Expr)
  | hash (entries : List (Expr × Expr))
  | unary (operator : UnaryOp) (operand : Expr)
  | binary (operator : BinaryOp) (left right : Expr)
  | conditional (condition : Expr) (consequence : List Stmt)
      (alternative : Option (List Stmt))
  | function (parameters : List String) (body : List Stmt)
  | call (callee : Expr) (arguments : List Expr)
  | index (collection position : Expr)

/-- A statement. -/
inductive Stmt where
  | define (name : String) (value : Expr)
  | result (value : Expr)
  | expression (value : Expr)
  | block (body : List Stmt)

end

/-- A sequence of statements in braces. -/
abbrev Block := List Stmt

/-- A whole program. -/
abbrev Program := List Stmt

end Bhasha
