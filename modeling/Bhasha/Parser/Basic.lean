import Bhasha.Diagnostic
import Bhasha.Program.Basic
import Bhasha.Token.Lexer

/-!
# The state of a parser

A parser stands on a lexeme and has the later ones before it.  A construct is
read from its first lexeme to its last, so afterwards the parser stands on the
last lexeme of the construct.  A step inside an expression may stop with one
diagnostic; the statement around it records that diagnostic and gives no node.
-/

namespace Bhasha

/-! ## Precedence -/

/-- How tightly an operator binds its operands. -/
inductive Precedence where
  | lowest
  | equality
  | comparison
  | sum
  | product
  | unary
  | call
deriving DecidableEq

namespace Precedence

/-- The place of a precedence in the order from loose to tight. -/
def rank : Precedence → Nat
  | .lowest => 0
  | .equality => 1
  | .comparison => 2
  | .sum => 3
  | .product => 4
  | .unary => 5
  | .call => 6

/-- The precedence of a symbol that stands after an expression. -/
def ofSymbol : Symbol → Precedence
  | .equal | .notEqual => .equality
  | .less | .greater | .lessEqual | .greaterEqual => .comparison
  | .plus | .minus => .sum
  | .asterisk | .slash => .product
  | .leftParen | .leftBracket => .call
  | _ => .lowest

/-- The precedence of a token that stands after an expression. -/
def ofKind : Kind → Precedence
  | .symbol symbol => ofSymbol symbol
  | _ => .lowest

end Precedence

/-! ## State -/

/-- The lexeme in hand, the later ones, and the diagnostics so far. -/
structure Parser where
  current : Lexeme
  upcoming : List Lexeme
  diagnostics : Array Diagnostic

namespace Parser

/-- A parser on the first of some lexemes. -/
def ofLexemes : List Lexeme → Parser
  | [] => ⟨.endOfInput, [], #[]⟩
  | first :: rest => ⟨first, rest, #[]⟩

/-- A parser on the first lexeme of a source. -/
def ofSource (source : String) : Parser :=
  ofLexemes (lexemes source)

/-- The kind of the lexeme after the current one. -/
def peek (parser : Parser) : Kind :=
  match parser.upcoming with
  | [] => .endOfInput
  | next :: _ => next.kind

/-- Move to the next lexeme, or to the end of the input. -/
def advance (parser : Parser) : Parser :=
  match parser.upcoming with
  | [] => { parser with current := .endOfInput }
  | next :: rest => { parser with current := next, upcoming := rest }

/-- Add a diagnostic. -/
def record (parser : Parser) (diagnostic : Diagnostic) : Parser :=
  { parser with diagnostics := parser.diagnostics.push diagnostic }

/-- Move over a semicolon, if one is next. -/
def skipSemicolon (parser : Parser) : Parser :=
  if parser.peek = .symbol .semicolon then parser.advance else parser

/-- A bound on the nested steps that the lexemes of a parser can lead to. -/
def budget (parser : Parser) : Nat :=
  8 * (parser.upcoming.length + 2)

end Parser

/-! ## Steps -/

/-- A step of a parser, which may stop with one diagnostic. -/
abbrev ParseM := EStateM Diagnostic Parser

namespace ParseM

/-- The current lexeme. -/
@[inline]
def current : ParseM Lexeme := do
  return (← get).current

/-- The kind of the next lexeme. -/
@[inline]
def peek : ParseM Kind := do
  return (← get).peek

/-- Move to the next lexeme. -/
@[inline]
def advance : ParseM Unit :=
  modify Parser.advance

/-- Move over a semicolon, if one is next. -/
@[inline]
def skipSemicolon : ParseM Unit :=
  modify Parser.skipSemicolon

/-- Move to the next lexeme if it is of the wanted kind, and stop otherwise. -/
def expect (wanted : Kind) : ParseM Unit := do
  let found ← peek
  if found = wanted then
    advance
  else
    throw (.expected wanted found)

/-- Stop because no expression starts with the current lexeme. -/
def noOperand {α : Type} : ParseM α := do
  let lexeme ← current
  throw (.noOperand lexeme.kind)

/-- Run a step; if it stops, record its diagnostic and give nothing. -/
def attempt {α : Type} (step : ParseM α) (parser : Parser) :
    Option α × Parser :=
  match step parser with
  | .ok result after => (some result, after)
  | .error diagnostic after => (none, after.record diagnostic)

end ParseM

end Bhasha
