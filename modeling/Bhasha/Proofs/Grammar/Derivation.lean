import Bhasha.Numeral
import Bhasha.Program.Basic
import Bhasha.Token.Basic
import Mathlib.Data.Nat.Digits.Defs

/-!
# Derivations of programs

A phrase is a list of lexemes.  The relations of this module say which phrases
derive which trees; they mention neither a state nor an order of reading.  In
the usual notation, with the kinds of lexemes as terminals:

    sequence   = { statement | ";" }
    statement  = ( binding | number ) IDENT "=" expression [ ";" ]
               | result expression [ ";" ]
               | expression [ ";" ]
    block      = "{" sequence "}"
    expression = equality
    equality   = equality ( "==" | "!=" ) comparison | comparison
    comparison = comparison ( "<" | ">" | "<=" | ">=" ) sum | sum
    sum        = sum ( "+" | "-" ) product | product
    product    = product ( "*" | "/" ) signed | signed
    signed     = ( "!" | "-" ) signed | applied
    applied    = applied "(" items ")" | applied "[" expression "]" | atom
    atom       = IDENT | print | INT | STRING | truth | falsehood
               | "(" expression ")" | "[" items "]" | "{" entries "}"
               | conditional expression block [ alternative block ]
               | function "(" parameters ")" block
    items      = [ expression { "," expression } ]
    entries    = [ expression ":" expression [ "," entries ] ]
    parameters = [ IDENT { "," IDENT } ]

A statement that is not closed by a semicolon may not stand directly before a
lexeme with which its expression would go on.
-/

namespace Bhasha

/-! ## Terminals with a value -/

/-- An integer is the value of a numeral read in decimal. -/
def Numeral.Denotes (literal : String) (value : Int64) : Prop :=
  ∃ digits : List Nat,
    literal.toList.mapM digitValue? = some digits ∧
      value.toInt = (Nat.ofDigits 10 digits.reverse : Nat)

/-! ## Strata -/

/-- The strata of expressions, from the loosest to the tightest. -/
inductive Stratum where
  | equality
  | comparison
  | sum
  | product
  | signed
  | applied
deriving DecidableEq

/-- The place of a stratum in the order from loose to tight. -/
def Stratum.rank : Stratum → Nat
  | .equality => 1
  | .comparison => 2
  | .sum => 3
  | .product => 4
  | .signed => 5
  | .applied => 6

/-- The stratum to which the applications of a binary operator belong. -/
def BinaryOp.stratum : BinaryOp → Stratum
  | .equal | .notEqual => .equality
  | .less | .greater | .lessEqual | .greaterEqual => .comparison
  | .add | .subtract => .sum
  | .multiply | .divide => .product

/-- An expression in front of a lexeme of this kind would go on with it. -/
inductive Kind.Continues : Kind → Prop where
  | call : Kind.Continues (.symbol .leftParen)
  | index : Kind.Continues (.symbol .leftBracket)
  | binary (operator : BinaryOp) : Kind.Continues (.symbol operator.symbol)

/-- An expression can start with a lexeme of this kind. -/
inductive Kind.Starts : Kind → Prop where
  | name : Kind.Starts .identifier
  | integer : Kind.Starts .integer
  | string : Kind.Starts .string
  | print : Kind.Starts (.keyword .print)
  | truth : Kind.Starts (.keyword .truth)
  | falsehood : Kind.Starts (.keyword .falsehood)
  | conditional : Kind.Starts (.keyword .conditional)
  | function : Kind.Starts (.keyword .function)
  | unary (operator : UnaryOp) : Kind.Starts (.symbol operator.symbol)
  | grouped : Kind.Starts (.symbol .leftParen)
  | array : Kind.Starts (.symbol .leftBracket)
  | hash : Kind.Starts (.symbol .leftBrace)

/-- The sides of a pair of brackets. -/
inductive Bracket where
  | opening
  | closing
deriving DecidableEq

/-- The side on which a lexeme of this kind stands, if it is a bracket. -/
def Kind.bracket? : Kind → Option Bracket
  | .symbol .leftParen | .symbol .leftBracket | .symbol .leftBrace =>
    some .opening
  | .symbol .rightParen | .symbol .rightBracket | .symbol .rightBrace =>
    some .closing
  | _ => none

theorem BinaryOp.bracket?_symbol (operator : BinaryOp) :
    (Kind.symbol operator.symbol).bracket? = none := by
  cases operator <;> rfl

theorem UnaryOp.bracket?_symbol (operator : UnaryOp) :
    (Kind.symbol operator.symbol).bracket? = none := by
  cases operator <;> rfl

/-! ## Phrases -/

namespace Phrase

/-- The names after the first parameter, each after a comma. -/
inductive MoreParameters : List Lexeme → List String → Prop where
  | none : MoreParameters [] []
  | some (more : MoreParameters phrase names) :
      MoreParameters
        (⟨.symbol .comma, comma⟩ :: ⟨.identifier, name⟩ :: phrase)
        (name :: names)

/-- The parameters of a function, without the parentheses. -/
inductive Parameters : List Lexeme → List String → Prop where
  | none : Parameters [] []
  | some (more : MoreParameters phrase names) :
      Parameters (⟨.identifier, name⟩ :: phrase) (name :: names)

mutual

/-- An expression of a stratum. -/
inductive Expression : Stratum → List Lexeme → Expr → Prop where
  | tighter
      (order : loose.rank ≤ tight.rank)
      (inner : Expression tight phrase tree) :
      Expression loose phrase tree
  | binary
      (order : operator.stratum.rank < tight.rank)
      (left : Expression operator.stratum leftPhrase leftTree)
      (right : Expression tight rightPhrase rightTree) :
      Expression operator.stratum
        (leftPhrase ++ ⟨.symbol operator.symbol, mark⟩ :: rightPhrase)
        (.binary operator leftTree rightTree)
  | unary {operator : UnaryOp}
      (operand : Expression .signed phrase tree) :
      Expression .signed (⟨.symbol operator.symbol, mark⟩ :: phrase)
        (.unary operator tree)
  | call
      (callee : Expression .applied calleePhrase calleeTree)
      (arguments : Items phrase trees) :
      Expression .applied
        (calleePhrase ++ ⟨.symbol .leftParen, opening⟩ ::
          (phrase ++ [⟨.symbol .rightParen, closing⟩]))
        (.call calleeTree trees)
  | index
      (collection : Expression .applied collectionPhrase collectionTree)
      (position : Expression .equality phrase tree) :
      Expression .applied
        (collectionPhrase ++ ⟨.symbol .leftBracket, opening⟩ ::
          (phrase ++ [⟨.symbol .rightBracket, closing⟩]))
        (.index collectionTree tree)
  | name :
      Expression .applied [⟨.identifier, literal⟩] (.name literal)
  | print :
      Expression .applied [⟨.keyword .print, literal⟩] (.name literal)
  | integer (denotes : Numeral.Denotes literal value) :
      Expression .applied [⟨.integer, literal⟩] (.integer value)
  | string :
      Expression .applied [⟨.string, literal⟩] (.string literal)
  | truth :
      Expression .applied [⟨.keyword .truth, literal⟩] (.boolean true)
  | falsehood :
      Expression .applied [⟨.keyword .falsehood, literal⟩] (.boolean false)
  | grouped (inner : Expression .equality phrase tree) :
      Expression .applied
        (⟨.symbol .leftParen, opening⟩ ::
          (phrase ++ [⟨.symbol .rightParen, closing⟩]))
        tree
  | array (items : Items phrase trees) :
      Expression .applied
        (⟨.symbol .leftBracket, opening⟩ ::
          (phrase ++ [⟨.symbol .rightBracket, closing⟩]))
        (.array trees)
  | hash (entries : Entries phrase pairs) :
      Expression .applied
        (⟨.symbol .leftBrace, opening⟩ ::
          (phrase ++ [⟨.symbol .rightBrace, closing⟩]))
        (.hash pairs)
  | conditional
      (condition : Expression .equality conditionPhrase conditionTree)
      (consequence : Block consequencePhrase body)
      (alternative : Alternative alternativePhrase other) :
      Expression .applied
        (⟨.keyword .conditional, word⟩ ::
          (conditionPhrase ++ (consequencePhrase ++ alternativePhrase)))
        (.conditional conditionTree body other)
  | function
      (parameters : Parameters parametersPhrase names)
      (body : Block bodyPhrase statements) :
      Expression .applied
        (⟨.keyword .function, word⟩ :: ⟨.symbol .leftParen, opening⟩ ::
          (parametersPhrase ++ ⟨.symbol .rightParen, closing⟩ :: bodyPhrase))
        (.function names statements)

/-- Expressions separated by commas. -/
inductive Items : List Lexeme → List Expr → Prop where
  | none : Items [] []
  | some
      (first : Expression .equality phrase tree)
      (more : MoreItems rest trees) :
      Items (phrase ++ rest) (tree :: trees)

/-- The expressions after the first one, each after a comma. -/
inductive MoreItems : List Lexeme → List Expr → Prop where
  | none : MoreItems [] []
  | some
      (first : Expression .equality phrase tree)
      (more : MoreItems rest trees) :
      MoreItems (⟨.symbol .comma, comma⟩ :: (phrase ++ rest)) (tree :: trees)

/-- Keys and values separated by commas; a last comma is allowed. -/
inductive Entries : List Lexeme → List (Expr × Expr) → Prop where
  | none : Entries [] []
  | last
      (key : Expression .equality keyPhrase keyTree)
      (value : Expression .equality valuePhrase valueTree) :
      Entries (keyPhrase ++ ⟨.symbol .colon, colon⟩ :: valuePhrase)
        [(keyTree, valueTree)]
  | some
      (key : Expression .equality keyPhrase keyTree)
      (value : Expression .equality valuePhrase valueTree)
      (more : Entries rest pairs) :
      Entries
        (keyPhrase ++ ⟨.symbol .colon, colon⟩ ::
          (valuePhrase ++ ⟨.symbol .comma, comma⟩ :: rest))
        ((keyTree, valueTree) :: pairs)

/-- Statements in braces. -/
inductive Block : List Lexeme → List Stmt → Prop where
  | braces (statements : Sequence phrase body) :
      Block
        (⟨.symbol .leftBrace, opening⟩ ::
          (phrase ++ [⟨.symbol .rightBrace, closing⟩]))
        body

/-- The second branch of a conditional, which may be missing. -/
inductive Alternative : List Lexeme → Option (List Stmt) → Prop where
  | none : Alternative [] none
  | some (body : Block phrase statements) :
      Alternative (⟨.keyword .alternative, word⟩ :: phrase) (some statements)

/-- A statement, without the semicolon that may close it. -/
inductive Statement : List Lexeme → Stmt → Prop where
  | binding (value : Expression .equality phrase tree) :
      Statement
        (⟨.keyword .binding, word⟩ :: ⟨.identifier, name⟩ ::
          ⟨.symbol .assign, mark⟩ :: phrase)
        (.define name tree)
  | number (value : Expression .equality phrase tree) :
      Statement
        (⟨.keyword .number, word⟩ :: ⟨.identifier, name⟩ ::
          ⟨.symbol .assign, mark⟩ :: phrase)
        (.define name tree)
  | result (value : Expression .equality phrase tree) :
      Statement (⟨.keyword .result, word⟩ :: phrase) (.result tree)
  | expression (value : Expression .equality phrase tree) :
      Statement phrase (.expression tree)

/-- Statements and semicolons. -/
inductive Sequence : List Lexeme → List Stmt → Prop where
  | empty : Sequence [] []
  | semicolon (more : Sequence rest statements) :
      Sequence (⟨.symbol .semicolon, mark⟩ :: rest) statements
  | closed
      (first : Statement phrase statement)
      (more : Sequence rest statements) :
      Sequence (phrase ++ ⟨.symbol .semicolon, mark⟩ :: rest)
        (statement :: statements)
  | unclosed
      (first : Statement phrase statement)
      (stops : ∀ next ∈ rest.head?, ¬ next.kind.Continues)
      (more : Sequence rest statements) :
      Sequence (phrase ++ rest) (statement :: statements)

end

/-! ## First lexemes -/

/-- An expression has a first lexeme, of a kind with which it can start. -/
theorem Expression.starts
    {stratum : Stratum} {phrase : List Lexeme} {tree : Expr} :
    Expression stratum phrase tree →
      ∃ first rest, phrase = first :: rest ∧ first.kind.Starts
  | .tighter _ inner => inner.starts
  | .binary _ left _ => by
    rcases left.starts with ⟨first, rest, rfl, starts⟩
    exact ⟨first, _, rfl, starts⟩
  | .call callee _ => by
    rcases callee.starts with ⟨first, rest, rfl, starts⟩
    exact ⟨first, _, rfl, starts⟩
  | .index collection _ => by
    rcases collection.starts with ⟨first, rest, rfl, starts⟩
    exact ⟨first, _, rfl, starts⟩
  | .unary _ => ⟨_, _, rfl, .unary _⟩
  | .name => ⟨_, _, rfl, .name⟩
  | .print => ⟨_, _, rfl, .print⟩
  | .integer _ => ⟨_, _, rfl, .integer⟩
  | .string => ⟨_, _, rfl, .string⟩
  | .truth => ⟨_, _, rfl, .truth⟩
  | .falsehood => ⟨_, _, rfl, .falsehood⟩
  | .grouped _ => ⟨_, _, rfl, .grouped⟩
  | .array _ => ⟨_, _, rfl, .array⟩
  | .hash _ => ⟨_, _, rfl, .hash⟩
  | .conditional _ _ _ => ⟨_, _, rfl, .conditional⟩
  | .function _ _ => ⟨_, _, rfl, .function⟩

/-- An expression of any stratum is an expression of the loosest one. -/
theorem Expression.loosest
    {stratum : Stratum} {phrase : List Lexeme} {tree : Expr}
    (derives : Expression stratum phrase tree) :
    Expression .equality phrase tree := by
  apply Expression.tighter ?_ derives
  cases stratum <;> decide

/-- An expression is a program of one statement. -/
theorem Expression.sequence
    {stratum : Stratum} {phrase : List Lexeme} {tree : Expr}
    (derives : Expression stratum phrase tree) :
    Sequence phrase [.expression tree] := by
  rw [← List.append_nil phrase]
  exact .unclosed (.expression derives.loosest) nofun .empty

theorem Expression.length_pos
    {stratum : Stratum} {phrase : List Lexeme} {tree : Expr}
    (derives : Expression stratum phrase tree) :
    0 < phrase.length := by
  rcases derives.starts with ⟨first, rest, rfl, -⟩
  exact Nat.succ_pos _

theorem Statement.length_pos
    {phrase : List Lexeme} {tree : Stmt} :
    Statement phrase tree → 0 < phrase.length
  | .binding _ => Nat.succ_pos _
  | .number _ => Nat.succ_pos _
  | .result _ => Nat.succ_pos _
  | .expression value => value.length_pos

/-! ## Nesting -/

/-- Brackets are nested, and every numeral denotes an integer. -/
inductive Nested : List Lexeme → Prop where
  | nil : Nested []
  | cons
      (plain : lexeme.kind.bracket? = none)
      (other : lexeme.kind ≠ .integer)
      (rest : Nested phrase) :
      Nested (lexeme :: phrase)
  | numeral (denotes : Numeral.Denotes literal value) :
      Nested [⟨.integer, literal⟩]
  | enclose
      (opens : opening.kind.bracket? = some .opening)
      (inner : Nested phrase)
      (closes : closing.kind.bracket? = some .closing)
      (rest : Nested later) :
      Nested (opening :: (phrase ++ closing :: later))
  | append (first : Nested phrase) (second : Nested later) :
      Nested (phrase ++ later)

/-- A numeral of a nested phrase denotes an integer. -/
theorem Nested.denotes
    {phrase : List Lexeme} {lexeme : Lexeme}
    (nested : Nested phrase)
    (member : lexeme ∈ phrase)
    (isNumeral : lexeme.kind = .integer) :
    ∃ value, Numeral.Denotes lexeme.literal value := by
  induction nested with
  | nil => cases member
  | cons _ other _ induction =>
      rcases List.mem_cons.1 member with rfl | later
      · exact absurd isNumeral other
      · exact induction later
  | numeral denotes =>
      cases List.mem_singleton.1 member
      exact ⟨_, denotes⟩
  | enclose opens _ closes _ inner rest =>
      rcases List.mem_cons.1 member with rfl | member
      · rw [isNumeral] at opens
        cases opens
      rcases List.mem_append.1 member with within | member
      · exact inner within
      rcases List.mem_cons.1 member with rfl | later
      · rw [isNumeral] at closes
        cases closes
      · exact rest later
  | append _ _ first second =>
      rcases List.mem_append.1 member with early | late
      · exact first early
      · exact second late

theorem MoreParameters.nested
    {phrase : List Lexeme} {names : List String} :
    MoreParameters phrase names → Nested phrase
  | .none => .nil
  | .some more => .cons rfl nofun (.cons rfl nofun more.nested)

theorem Parameters.nested
    {phrase : List Lexeme} {names : List String} :
    Parameters phrase names → Nested phrase
  | .none => .nil
  | .some more => .cons rfl nofun more.nested

mutual

theorem Expression.nested
    {stratum : Stratum} {phrase : List Lexeme} {tree : Expr} :
    Expression stratum phrase tree → Nested phrase
  | .tighter _ inner => inner.nested
  | .binary _ left right =>
    left.nested.append
      (.cons (BinaryOp.bracket?_symbol _) nofun right.nested)
  | .unary operand =>
    .cons (UnaryOp.bracket?_symbol _) nofun operand.nested
  | .call callee arguments =>
    callee.nested.append (.enclose rfl arguments.nested rfl .nil)
  | .index collection position =>
    collection.nested.append (.enclose rfl position.nested rfl .nil)
  | .name => .cons rfl nofun .nil
  | .print => .cons rfl nofun .nil
  | .integer denotes => .numeral denotes
  | .string => .cons rfl nofun .nil
  | .truth => .cons rfl nofun .nil
  | .falsehood => .cons rfl nofun .nil
  | .grouped inner => .enclose rfl inner.nested rfl .nil
  | .array items => .enclose rfl items.nested rfl .nil
  | .hash entries => .enclose rfl entries.nested rfl .nil
  | .conditional condition consequence alternative =>
    .cons rfl nofun (condition.nested.append
      (consequence.nested.append alternative.nested))
  | .function parameters body =>
    .cons rfl nofun (.enclose rfl parameters.nested rfl body.nested)

theorem Items.nested
    {phrase : List Lexeme} {trees : List Expr} :
    Items phrase trees → Nested phrase
  | .none => .nil
  | .some first more => first.nested.append more.nested

theorem MoreItems.nested
    {phrase : List Lexeme} {trees : List Expr} :
    MoreItems phrase trees → Nested phrase
  | .none => .nil
  | .some first more => .cons rfl nofun (first.nested.append more.nested)

theorem Entries.nested
    {phrase : List Lexeme} {pairs : List (Expr × Expr)} :
    Entries phrase pairs → Nested phrase
  | .none => .nil
  | .last key value => key.nested.append (.cons rfl nofun value.nested)
  | .some key value more =>
    key.nested.append (.cons rfl nofun
      (value.nested.append (.cons rfl nofun more.nested)))

theorem Block.nested
    {phrase : List Lexeme} {body : List Stmt} :
    Block phrase body → Nested phrase
  | .braces statements => .enclose rfl statements.nested rfl .nil

theorem Alternative.nested
    {phrase : List Lexeme} {body : Option (List Stmt)} :
    Alternative phrase body → Nested phrase
  | .none => .nil
  | .some body => .cons rfl nofun body.nested

theorem Statement.nested
    {phrase : List Lexeme} {statement : Stmt} :
    Statement phrase statement → Nested phrase
  | .binding value =>
    .cons rfl nofun (.cons rfl nofun (.cons rfl nofun value.nested))
  | .number value =>
    .cons rfl nofun (.cons rfl nofun (.cons rfl nofun value.nested))
  | .result value => .cons rfl nofun value.nested
  | .expression value => value.nested

/-- The brackets of a program are nested. -/
theorem Sequence.nested
    {phrase : List Lexeme} {body : List Stmt} :
    Sequence phrase body → Nested phrase
  | .empty => .nil
  | .semicolon more => .cons rfl nofun more.nested
  | .closed first more => first.nested.append (.cons rfl nofun more.nested)
  | .unclosed first _ more => first.nested.append more.nested

end

end Phrase

end Bhasha
