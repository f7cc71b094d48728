import Bhasha.Parser.Basic

/-!
# The grammar

Statements are told apart by their first lexeme.  An expression is an operand
followed by operators, calls and indexes that bind more tightly than the place
where the expression stands.

The functions of this module recurse on a budget.  Each nested step costs one
unit, and at most six steps are taken between two lexemes, so the budget of
`Parser.budget` is never used up and the cases for an empty budget are never
reached from the entry points at the end.
-/

namespace Bhasha

namespace Grammar

open ParseM

/-! ## Parameters -/

/-- The names after the first parameter, each after a comma. -/
def moreParameters : Nat → ParseM (List String)
  | 0 => pure []
  | budget + 1 => do
    if (← peek) = .symbol .comma then
      advance
      expect .identifier
      let name := (← current).literal
      let names ← moreParameters budget
      pure (name :: names)
    else
      pure []

/-- The parameters of a function, after its opening parenthesis. -/
def parameters (budget : Nat) : ParseM (List String) := do
  if (← peek) = .symbol .rightParen then
    advance
    pure []
  else
    expect .identifier
    let name := (← current).literal
    let names ← moreParameters budget
    expect (.symbol .rightParen)
    pure (name :: names)

/-! ## Expressions and statements -/

mutual

/-- An expression whose operators bind more tightly than a level. -/
def expression : Nat → Precedence → ParseM Expr
  | 0, _ => noOperand
  | budget + 1, level => do
    let left ← operand budget
    operators budget level left

/-- The operators, calls and indexes after an expression. -/
def operators : Nat → Precedence → Expr → ParseM Expr
  | 0, _, left => pure left
  | budget + 1, level, left => do
    let next ← peek
    if level.rank < (Precedence.ofKind next).rank then
      advance
      let left ← extend budget left
      operators budget level left
    else
      pure left

/-- An expression made larger by the operator in hand. -/
def extend : Nat → Expr → ParseM Expr
  | 0, left => pure left
  | budget + 1, left => do
    match (← current).kind with
    | .symbol .leftParen => call budget left
    | .symbol .leftBracket => index budget left
    | .symbol symbol =>
      match BinaryOp.ofSymbol? symbol with
      | some operator =>
        binary budget operator (Precedence.ofSymbol symbol) left
      | none => pure left
    | _ => pure left

/-- A binary operator and its right operand. -/
def binary : Nat → BinaryOp → Precedence → Expr → ParseM Expr
  | 0, _, _, _ => noOperand
  | budget + 1, operator, level, left => do
    advance
    let right ← expression budget level
    pure (.binary operator left right)

/-- The arguments of a call. -/
def call : Nat → Expr → ParseM Expr
  | 0, _ => noOperand
  | budget + 1, callee => do
    let arguments ← expressionList budget (.symbol .rightParen)
    pure (.call callee arguments)

/-- The position in an index expression. -/
def index : Nat → Expr → ParseM Expr
  | 0, _ => noOperand
  | budget + 1, collection => do
    advance
    let position ← expression budget .lowest
    expect (.symbol .rightBracket)
    pure (.index collection position)

/-- What an expression can start with. -/
def operand : Nat → ParseM Expr
  | 0 => noOperand
  | budget + 1 => do
    let lexeme ← current
    match lexeme.kind with
    | .identifier => pure (.name lexeme.literal)
    | .keyword .print => pure (.name lexeme.literal)
    | .integer =>
      match Numeral.read? lexeme.literal with
      | some value => pure (.integer value)
      | none => throw (.integerTooLarge lexeme.literal)
    | .string => pure (.string lexeme.literal)
    | .keyword .truth => pure (.boolean true)
    | .keyword .falsehood => pure (.boolean false)
    | .symbol .bang => unary budget .not
    | .symbol .minus => unary budget .negate
    | .symbol .leftParen => grouped budget
    | .keyword .conditional => conditional budget
    | .keyword .function => function budget
    | .symbol .leftBracket => array budget
    | .symbol .leftBrace => hash budget
    | _ => noOperand

/-- The operand of a unary operator. -/
def unary : Nat → UnaryOp → ParseM Expr
  | 0, _ => noOperand
  | budget + 1, operator => do
    advance
    let operand ← expression budget .unary
    pure (.unary operator operand)

/-- An expression in parentheses. -/
def grouped : Nat → ParseM Expr
  | 0 => noOperand
  | budget + 1 => do
    advance
    let inner ← expression budget .lowest
    expect (.symbol .rightParen)
    pure inner

/-- A conditional with one or two branches. -/
def conditional : Nat → ParseM Expr
  | 0 => noOperand
  | budget + 1 => do
    advance
    let condition ← expression budget .lowest
    expect (.symbol .leftBrace)
    let consequence ← block budget
    if (← peek) = .keyword .alternative then
      advance
      expect (.symbol .leftBrace)
      let alternative ← block budget
      pure (.conditional condition consequence (some alternative))
    else
      pure (.conditional condition consequence none)

/-- A function literal. -/
def function : Nat → ParseM Expr
  | 0 => noOperand
  | budget + 1 => do
    expect (.symbol .leftParen)
    let names ← parameters budget
    expect (.symbol .leftBrace)
    let body ← block budget
    pure (.function names body)

/-- An array literal. -/
def array : Nat → ParseM Expr
  | 0 => noOperand
  | budget + 1 => do
    let items ← expressionList budget (.symbol .rightBracket)
    pure (.array items)

/-- A hash literal. -/
def hash : Nat → ParseM Expr
  | 0 => noOperand
  | budget + 1 => do
    let entries ← hashEntries budget
    pure (.hash entries)

/-- Expressions separated by commas, up to a closing lexeme. -/
def expressionList : Nat → Kind → ParseM (List Expr)
  | 0, _ => noOperand
  | budget + 1, close => do
    if (← peek) = close then
      advance
      pure []
    else
      advance
      let first ← expression budget .lowest
      let rest ← moreExpressions budget
      expect close
      pure (first :: rest)

/-- The expressions after the first one, each after a comma. -/
def moreExpressions : Nat → ParseM (List Expr)
  | 0 => pure []
  | budget + 1 => do
    if (← peek) = .symbol .comma then
      advance
      advance
      let first ← expression budget .lowest
      let rest ← moreExpressions budget
      pure (first :: rest)
    else
      pure []

/-- Keys and values up to the closing brace; a last comma is allowed. -/
def hashEntries : Nat → ParseM (List (Expr × Expr))
  | 0 => noOperand
  | budget + 1 => do
    if (← peek) = .symbol .rightBrace then
      advance
      pure []
    else
      advance
      let key ← expression budget .lowest
      expect (.symbol .colon)
      advance
      let value ← expression budget .lowest
      if (← peek) ≠ .symbol .rightBrace then
        expect (.symbol .comma)
      let entries ← hashEntries budget
      pure ((key, value) :: entries)

/-- The statements of a block, after its opening brace. -/
def block : Nat → ParseM Block
  | 0 => noOperand
  | budget + 1 => do
    advance
    blockStatements budget

/-- The statements up to the closing brace of a block. -/
def blockStatements : Nat → ParseM Block
  | 0 => noOperand
  | budget + 1 => do
    let kind := (← current).kind
    if kind = .symbol .rightBrace then
      pure []
    else if kind = .endOfInput then
      throw (.expected (.symbol .rightBrace) .endOfInput)
    else
      let first ← modifyGet (statement budget)
      advance
      let rest ← blockStatements budget
      pure (first.toList ++ rest)

/-- A statement; a stray semicolon is none, and no error either. -/
def statement : Nat → Parser → Option Stmt × Parser
  | 0, parser => (none, parser)
  | budget + 1, parser =>
    match parser.current.kind with
    | .keyword .binding => attempt (definition budget) parser
    | .keyword .number => attempt (definition budget) parser
    | .keyword .result => attempt (result budget) parser
    | .symbol .semicolon => (none, parser)
    | _ => attempt (expressionStatement budget) parser

/-- The definition of a name. -/
def definition : Nat → ParseM Stmt
  | 0 => noOperand
  | budget + 1 => do
    expect .identifier
    let name := (← current).literal
    expect (.symbol .assign)
    advance
    let value ← expression budget .lowest
    skipSemicolon
    pure (.define name value)

/-- The return of a value. -/
def result : Nat → ParseM Stmt
  | 0 => noOperand
  | budget + 1 => do
    advance
    let value ← expression budget .lowest
    skipSemicolon
    pure (.result value)

/-- An expression that stands as a statement. -/
def expressionStatement : Nat → ParseM Stmt
  | 0 => noOperand
  | budget + 1 => do
    let value ← expression budget .lowest
    skipSemicolon
    pure (.expression value)

end

/-- The statements up to the end of the input. -/
def statements : Nat → Parser → Program × Parser
  | 0, parser => ([], parser)
  | budget + 1, parser =>
    if parser.current.kind = .endOfInput then
      ([], parser)
    else
      let (first, parser) := statement budget parser
      let (rest, parser) := statements budget parser.advance
      (first.toList ++ rest, parser)

end Grammar

/-! ## Entry points -/

namespace Parser

/-- The statement that starts at the current lexeme. -/
def statement (parser : Parser) : Option Stmt × Parser :=
  Grammar.statement parser.budget parser

/-- The expression above a level that starts at the current lexeme. -/
def expression (parser : Parser) (level : Precedence) :
    Option Expr × Parser :=
  ParseM.attempt (Grammar.expression parser.budget level) parser

/-- The statements from the current lexeme to the end of the input. -/
def program (parser : Parser) : Program × Parser :=
  Grammar.statements parser.budget parser

/-- The texts of the diagnostics so far. -/
def messages (parser : Parser) : List String :=
  parser.diagnostics.toList.map Diagnostic.message

end Parser

/-- What a source was read as: a program, and what is wrong with the source. -/
structure Parsed where
  program : Program
  diagnostics : List Diagnostic

namespace Parsed

/-- The texts of the diagnostics. -/
def messages (parsed : Parsed) : List String :=
  parsed.diagnostics.map Diagnostic.message

end Parsed

/-- Read the program that some lexemes spell. -/
def parseLexemes (input : List Lexeme) : Parsed :=
  let (program, parser) := (Parser.ofLexemes input).program
  ⟨program, parser.diagnostics.toList⟩

/-- Read a program from its source. -/
def parse (source : String) : Parsed :=
  parseLexemes (lexemes source)

end Bhasha
