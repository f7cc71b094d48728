import Bhasha.Proofs.Parser.Lookahead

/-!
# The visits of a parser

What a parser gives back does not say which statements it has tried on the way,
where its blocks were opened and closed, and whether its budget was used up.
This module has the same grammar with these visits written down.  A step that
is watched carries the proof that its visits lie between the parser before and
the parser after, one inside the other, and that they account for all
diagnostics that were added on the way.

The theorems at the end say that a watched step runs as the step of the grammar
that it watches.
-/

namespace Bhasha

open Step

/-! ## Visits -/

/-- What is visited. -/
inductive Part where
  /-- A statement, and the node that was read there. -/
  | statement (result : Option Stmt)
  /-- A block, from its opening brace to its closing brace. -/
  | block
  /-- A step for which no budget was left. -/
  | exhausted

/-- The parser before and after a part, and the visits inside. -/
structure Visit where
  part : Part
  start : Parser
  finish : Parser
  inside : List Visit

namespace Visit

mutual

/-- A visit and those inside it. -/
def preorder : Visit → List Visit
  | ⟨part, start, finish, inside⟩ => ⟨part, start, finish, inside⟩ :: all inside

/-- Some visits and those inside them, each in front of what it holds. -/
def all : List Visit → List Visit
  | [] => []
  | visit :: visits => preorder visit ++ all visits

end

@[simp]
theorem all_nil : all [] = [] := by
  rw [all]

@[simp]
theorem all_cons (visit : Visit) (visits : List Visit) :
    all (visit :: visits) = visit :: all visit.inside ++ all visits := by
  rcases visit with ⟨part, start, finish, inside⟩
  rw [all, preorder]

@[simp]
theorem all_append (visits others : List Visit) :
    all (visits ++ others) = all visits ++ all others := by
  induction visits with
  | nil => simp
  | cons visit visits induction => simp [induction]

/-- The diagnostics that were added during a visit. -/
def recorded (visit : Visit) : List Diagnostic :=
  visit.finish.diagnostics.toList.drop visit.start.diagnostics.size

theorem recorded_eq
    {visit : Visit} {found : List Diagnostic}
    (added : visit.finish.diagnostics.toList =
      visit.start.diagnostics.toList ++ found) :
    visit.recorded = found := by
  rw [recorded, added, ← Array.length_toList, List.drop_left]

/-- A visit adds what the visits inside add, and then its own diagnostics. -/
def Adds (visit : Visit) (own : List Diagnostic) : Prop :=
  visit.recorded = visit.inside.flatMap recorded ++ own

/--
A statement is read and nothing is wrong with it, or it is not read and one
thing is wrong with it; a stray semicolon is neither.  A block has no
diagnostics but those of its statements.
-/
def Lawful (visit : Visit) : Prop :=
  match visit.part with
  | .statement result =>
    if visit.start.current.kind = .symbol .semicolon then
      result = none ∧ visit.inside = [] ∧ visit.recorded = []
    else
      match result with
      | some _ => visit.Adds []
      | none => ∃ diagnostic, visit.Adds [diagnostic]
  | .block => visit.Adds []
  | .exhausted => True

end Visit

/-! ## Paths -/

/--
A parser stands where an earlier one stood or on a lexeme behind, unless it is
at the end of the input.
-/
def Parser.Follows (later earlier : Parser) : Prop :=
  later.current.kind ≠ .endOfInput →
    later.current :: later.upcoming <:+ earlier.current :: earlier.upcoming

theorem Parser.advance_follows (parser : Parser) :
    parser.advance.Follows parser := by
  rcases parser with ⟨current, upcoming, diagnostics⟩
  cases upcoming with
  | nil => exact fun inside => (inside rfl).elim
  | cons next rest => exact fun _ => List.suffix_cons current (next :: rest)

/-- The visits of a parser on its way to another one. -/
structure Path (start : Parser) (visits : List Visit) (finish : Parser) :
    Prop where
  upcoming : finish.upcoming <:+ start.upcoming
  recorded : finish.diagnostics.toList =
    start.diagnostics.toList ++ visits.flatMap Visit.recorded
  follows : finish.Follows start
  within : ∀ visit ∈ Visit.all visits,
    visit.start.upcoming <:+ start.upcoming ∧
      finish.upcoming <:+ visit.finish.upcoming
  stands : ∀ visit ∈ Visit.all visits, visit.start.Follows start
  lawful : ∀ visit ∈ Visit.all visits, visit.Lawful

namespace Path

variable {start middle finish : Parser} {visits others inside : List Visit}

/-- A parser that only moves visits nothing. -/
theorem still
    (upcoming : finish.upcoming <:+ start.upcoming)
    (follows : finish.Follows start)
    (diagnostics : finish.diagnostics = start.diagnostics) :
    Path start [] finish where
  upcoming := upcoming
  recorded := by simp [diagnostics]
  follows := follows
  within := by simp
  stands := by simp
  lawful := by simp

theorem refl (parser : Parser) : Path parser [] parser :=
  .still (List.suffix_refl _) (fun _ => List.suffix_refl _) rfl

theorem advance (parser : Parser) : Path parser [] parser.advance :=
  .still (Parser.Reaches.advance parser).upcoming parser.advance_follows
    parser.advance_diagnostics

/-- What follows the end of a path follows its start. -/
theorem follows_trans
    {later : Parser}
    (path : Path start visits middle)
    (follows : later.Follows middle) :
    later.Follows start := by
  intro inside
  have behind := follows inside
  by_cases atEnd : middle.current.kind = .endOfInput
  · -- Nothing stands at the end of the input but its end.
    rcases List.suffix_cons_iff.1 behind with same | within
    · injection same with isCurrent
      exact absurd (isCurrent ▸ atEnd) inside
    · exact (within.trans path.upcoming).trans (List.suffix_cons _ _)
  · exact behind.trans (path.follows atEnd)

theorem trans
    (left : Path start visits middle)
    (right : Path middle others finish) :
    Path start (visits ++ others) finish where
  upcoming := right.upcoming.trans left.upcoming
  recorded := by
    rw [right.recorded, left.recorded, List.flatMap_append, List.append_assoc]
  follows := left.follows_trans right.follows
  within visit member := by
    rw [Visit.all_append, List.mem_append] at member
    rcases member with early | late
    · rcases left.within visit early with ⟨behind, before⟩
      exact ⟨behind, right.upcoming.trans before⟩
    · rcases right.within visit late with ⟨behind, before⟩
      exact ⟨behind.trans left.upcoming, before⟩
  stands visit member := by
    rw [Visit.all_append, List.mem_append] at member
    rcases member with early | late
    · exact left.stands visit early
    · exact left.follows_trans (right.stands visit late)
  lawful visit member := by
    rw [Visit.all_append, List.mem_append] at member
    rcases member with early | late
    · exact left.lawful visit early
    · exact right.lawful visit late

/-- A visit that is lawful if it adds no more than its own diagnostics. -/
theorem single
    {part : Part} {own : List Diagnostic}
    (path : Path start inside middle)
    (upcoming : finish.upcoming = middle.upcoming)
    (current : finish.current = middle.current)
    (diagnostics : finish.diagnostics.toList =
      middle.diagnostics.toList ++ own)
    (lawful : Visit.Adds ⟨part, start, finish, inside⟩ own →
      Visit.Lawful ⟨part, start, finish, inside⟩) :
    Path start [⟨part, start, finish, inside⟩] finish := by
  have added : finish.diagnostics.toList =
      start.diagnostics.toList ++ (inside.flatMap Visit.recorded ++ own) := by
    rw [diagnostics, path.recorded, List.append_assoc]
  have adds : Visit.Adds ⟨part, start, finish, inside⟩ own :=
    Visit.recorded_eq added
  refine ⟨upcoming ▸ path.upcoming, ?_, ?_, ?_, ?_, ?_⟩
  · rw [List.flatMap_singleton, adds, added]
  · rw [Parser.Follows, upcoming, current]
    exact path.follows
  · intro visit member
    rw [Visit.all_cons, Visit.all_nil, List.append_nil] at member
    rcases List.mem_cons.1 member with rfl | deeper
    · exact ⟨List.suffix_refl _, List.suffix_refl _⟩
    · exact upcoming ▸ path.within visit deeper
  · intro visit member
    rw [Visit.all_cons, Visit.all_nil, List.append_nil] at member
    rcases List.mem_cons.1 member with rfl | deeper
    · exact fun _ => List.suffix_refl _
    · exact path.stands visit deeper
  · intro visit member
    rw [Visit.all_cons, Visit.all_nil, List.append_nil] at member
    rcases List.mem_cons.1 member with rfl | deeper
    · exact lawful adds
    · exact path.lawful visit deeper

/-- A semicolon that ends no statement is passed over. -/
theorem stray
    (isStray : start.current.kind = .symbol .semicolon) :
    Path start [⟨.statement none, start, start, []⟩] start :=
  (refl start).single rfl rfl (List.append_nil _).symm fun adds => by
    simpa [Visit.Lawful, Visit.Adds, isStray] using adds

/-- A statement that is read has no diagnostic of its own. -/
theorem read
    {node : Stmt}
    (path : Path start inside finish)
    (notStray : start.current.kind ≠ .symbol .semicolon) :
    Path start [⟨.statement (some node), start, finish, inside⟩] finish :=
  path.single rfl rfl (List.append_nil _).symm fun adds => by
    simpa [Visit.Lawful, notStray] using adds

/-- A statement that is not read has one diagnostic of its own. -/
theorem missed
    {diagnostic : Diagnostic}
    (path : Path start inside middle)
    (notStray : start.current.kind ≠ .symbol .semicolon) :
    Path start [⟨.statement none, start, middle.record diagnostic, inside⟩]
      (middle.record diagnostic) :=
  path.single rfl rfl (Array.toList_push ..) fun adds => by
    simpa [Visit.Lawful, notStray] using ⟨diagnostic, adds⟩

end Path

/-! ## Steps that are watched -/

/-- A step of a parser, with the visits that it makes. -/
structure Watched (α : Type) where
  run : ParseM α
  visits : Parser → List Visit
  path : ∀ parser, Path parser (visits parser) (final run parser)

namespace Watched

variable {α β : Type}

/-- A step that visits nothing. -/
def still
    (run : ParseM α)
    (path : ∀ parser, Path parser [] (final run parser)) :
    Watched α :=
  ⟨run, fun _ => [], path⟩

/-- A step that visits nothing adds no diagnostic. -/
theorem diagnostics_of_visits_nil
    {step : Watched α} {parser : Parser}
    (nothing : step.visits parser = []) :
    (final step.run parser).diagnostics = parser.diagnostics := by
  have path := (step.path parser).recorded
  rw [nothing, List.flatMap_nil, List.append_nil] at path
  exact Array.toList_inj.1 path

theorem length_le
    {step : Watched α} {parser after : Parser} {value : α}
    (outcome : step.run parser = .ok value after) :
    after.upcoming.length ≤ parser.upcoming.length := by
  have path := (step.path parser).upcoming.length_le
  rwa [final_of_ok outcome] at path

/-- A sequence of watched steps. -/
def sequence (first : Watched α) (next : α → Watched β) : Watched β where
  run := first.run >>= fun value => (next value).run
  visits parser := first.visits parser ++
    match first.run parser with
    | .ok value middle => (next value).visits middle
    | .error _ _ => []
  path parser := by
    have start := first.path parser
    cases outcome : first.run parser with
    | ok value middle =>
        rw [final_of_ok outcome] at start
        rw [final, bind_ok outcome]
        exact start.trans ((next value).path middle)
    | error diagnostic middle =>
        rw [final_of_error outcome] at start
        rw [final_of_error (bind_error outcome), List.append_nil]
        exact start

instance : Monad Watched where
  pure value := still (pure value) fun parser => .refl parser
  bind := sequence

/-- The current lexeme. -/
def current : Watched Lexeme :=
  still ParseM.current fun parser => .refl parser

/-- The kind of the next lexeme. -/
def peek : Watched Kind :=
  still ParseM.peek fun parser => .refl parser

/-- Move to the next lexeme. -/
def advance : Watched Unit :=
  still ParseM.advance .advance

/-- Move over a semicolon, if one is next. -/
def skipSemicolon : Watched Unit :=
  still ParseM.skipSemicolon fun parser => by
    show Path parser [] parser.skipSemicolon
    rw [Parser.skipSemicolon]
    split
    · exact .advance parser
    · exact .refl parser

/-- Stop with a diagnostic. -/
def stop (diagnostic : Diagnostic) : Watched α :=
  still (throw diagnostic) fun parser => .refl parser

/-- Stop because no expression starts with the current lexeme. -/
def noOperand : Watched α :=
  still ParseM.noOperand fun parser => .refl parser

/-- Move to the next lexeme if it is of the wanted kind, and stop otherwise. -/
def expect (wanted : Kind) : Watched Unit :=
  still (ParseM.expect wanted) fun parser => by
    by_cases found : parser.peek = wanted
    · rw [final_of_ok (ParseM.expect_ok found)]
      exact .advance parser
    · rw [final, ParseM.expect, ParseM.peek_bind, if_neg found]
      exact .refl parser

/-- A step for which no budget is left. -/
def exhausted (step : Watched α) : Watched α where
  run := step.run
  visits parser :=
    [⟨.exhausted, parser, final step.run parser, step.visits parser⟩]
  path parser := (step.path parser).single rfl rfl (List.append_nil _).symm
    fun _ => trivial

/-- A block, from its opening brace on. -/
def asBlock (step : Watched α) : Watched α where
  run := step.run
  visits parser :=
    [⟨.block, parser, final step.run parser, step.visits parser⟩]
  path parser := (step.path parser).single rfl rfl (List.append_nil _).symm id

/-- The node that a step reads as a statement; a semicolon has none. -/
def readStatement (step : Watched Stmt) (parser : Parser) :
    Option Stmt × Parser :=
  if parser.current.kind = .symbol .semicolon then
    (none, parser)
  else
    ParseM.attempt step.run parser

/-- The visits of a step that is read as a statement. -/
def insideStatement (step : Watched Stmt) (parser : Parser) : List Visit :=
  if parser.current.kind = .symbol .semicolon then
    []
  else
    step.visits parser

/-- A statement that starts with the current lexeme. -/
def asStatement (step : Watched Stmt) : Watched (Option Stmt) where
  run := modifyGet (readStatement step)
  visits parser := [⟨.statement (readStatement step parser).1, parser,
    (readStatement step parser).2, insideStatement step parser⟩]
  path parser := by
    show Path parser _ (readStatement step parser).2
    by_cases stray : parser.current.kind = .symbol .semicolon
    · rw [readStatement, insideStatement, if_pos stray, if_pos stray]
      exact .stray stray
    · rw [readStatement, insideStatement, if_neg stray, if_neg stray,
        ParseM.attempt]
      have inner := step.path parser
      cases outcome : step.run parser with
      | ok node after =>
          rw [final_of_ok outcome] at inner
          exact inner.read stray
      | error diagnostic after =>
          rw [final_of_error outcome] at inner
          exact inner.missed stray

/-! ## Parameters -/

/-- The names after the first parameter, each after a comma. -/
def moreParameters : Nat → Watched (List String)
  | 0 => exhausted (pure [])
  | budget + 1 => do
    if (← peek) = .symbol .comma then
      advance
      expect .identifier
      let name := (← current).literal
      let names ← moreParameters budget
      pure (name :: names)
    else
      pure []

/-- The parameters of a function, after its opening parenthesis. -/
def parameters (budget : Nat) : Watched (List String) := do
  if (← peek) = .symbol .rightParen then
    advance
    pure []
  else
    expect .identifier
    let name := (← current).literal
    let names ← moreParameters budget
    expect (.symbol .rightParen)
    pure (name :: names)

/-! ## Expressions and statements -/

mutual

/-- An expression whose operators bind more tightly than a level. -/
def expression : Nat → Precedence → Watched Expr
  | 0, _ => exhausted noOperand
  | budget + 1, level => do
    let left ← operand budget
    operators budget level left

/-- The operators, calls and indexes after an expression. -/
def operators : Nat → Precedence → Expr → Watched Expr
  | 0, _, left => exhausted (pure left)
  | budget + 1, level, left => do
    let next ← peek
    if level.rank < (Precedence.ofKind next).rank then
      advance
      let left ← extend budget left
      operators budget level left
    else
      pure left

/-- An expression made larger by the operator in hand. -/
def extend : Nat → Expr → Watched Expr
  | 0, left => exhausted (pure left)
  | budget + 1, left => do
    match (← current).kind with
    | .symbol .leftParen => call budget left
    | .symbol .leftBracket => index budget left
    | .symbol symbol =>
      match BinaryOp.ofSymbol? symbol with
      | some operator =>
        binary budget operator (Precedence.ofSymbol symbol) left
      | none => pure left
    | _ => pure left

/-- A binary operator and its right operand. -/
def binary : Nat → BinaryOp → Precedence → Expr → Watched Expr
  | 0, _, _, _ => exhausted noOperand
  | budget + 1, operator, level, left => do
    advance
    let right ← expression budget level
    pure (.binary operator left right)

/-- The arguments of a call. -/
def call : Nat → Expr → Watched Expr
  | 0, _ => exhausted noOperand
  | budget + 1, callee => do
    let arguments ← expressionList budget (.symbol .rightParen)
    pure (.call callee arguments)

/-- The position in an index expression. -/
def index : Nat → Expr → Watched Expr
  | 0, _ => exhausted noOperand
  | budget + 1, collection => do
    advance
    let position ← expression budget .lowest
    expect (.symbol .rightBracket)
    pure (.index collection position)

/-- What an expression can start with. -/
def operand : Nat → Watched Expr
  | 0 => exhausted noOperand
  | budget + 1 => do
    let lexeme ← current
    match lexeme.kind with
    | .identifier => pure (.name lexeme.literal)
    | .keyword .print => pure (.name lexeme.literal)
    | .integer =>
      match Numeral.read? lexeme.literal with
      | some value => pure (.integer value)
      | none => stop (.integerTooLarge lexeme.literal)
    | .string => pure (.string lexeme.literal)
    | .keyword .truth => pure (.boolean true)
    | .keyword .falsehood => pure (.boolean false)
    | .symbol .bang => unary budget .not
    | .symbol .minus => unary budget .negate
    | .symbol .leftParen => grouped budget
    | .keyword .conditional => conditional budget
    | .keyword .function => function budget
    | .symbol .leftBracket => array budget
    | .symbol .leftBrace => hash budget
    | _ => noOperand

/-- The operand of a unary operator. -/
def unary : Nat → UnaryOp → Watched Expr
  | 0, _ => exhausted noOperand
  | budget + 1, operator => do
    advance
    let operand ← expression budget .unary
    pure (.unary operator operand)

/-- An expression in parentheses. -/
def grouped : Nat → Watched Expr
  | 0 => exhausted noOperand
  | budget + 1 => do
    advance
    let inner ← expression budget .lowest
    expect (.symbol .rightParen)
    pure inner

/-- A conditional with one or two branches. -/
def conditional : Nat → Watched Expr
  | 0 => exhausted noOperand
  | budget + 1 => do
    advance
    let condition ← expression budget .lowest
    expect (.symbol .leftBrace)
    let consequence ← block budget
    if (← peek) = .keyword .alternative then
      advance
      expect (.symbol .leftBrace)
      let alternative ← block budget
      pure (.conditional condition consequence (some alternative))
    else
      pure (.conditional condition consequence none)

/-- A function literal. -/
def function : Nat → Watched Expr
  | 0 => exhausted noOperand
  | budget + 1 => do
    expect (.symbol .leftParen)
    let names ← parameters budget
    expect (.symbol .leftBrace)
    let body ← block budget
    pure (.function names body)

/-- An array literal. -/
def array : Nat → Watched Expr
  | 0 => exhausted noOperand
  | budget + 1 => do
    let items ← expressionList budget (.symbol .rightBracket)
    pure (.array items)

/-- A hash literal. -/
def hash : Nat → Watched Expr
  | 0 => exhausted noOperand
  | budget + 1 => do
    let entries ← hashEntries budget
    pure (.hash entries)

/-- Expressions separated by commas, up to a closing lexeme. -/
def expressionList : Nat → Kind → Watched (List Expr)
  | 0, _ => exhausted noOperand
  | budget + 1, close => do
    if (← peek) = close then
      advance
      pure []
    else
      advance
      let first ← expression budget .lowest
      let rest ← moreExpressions budget
      expect close
      pure (first :: rest)

/-- The expressions after the first one, each after a comma. -/
def moreExpressions : Nat → Watched (List Expr)
  | 0 => exhausted (pure [])
  | budget + 1 => do
    if (← peek) = .symbol .comma then
      advance
      advance
      let first ← expression budget .lowest
      let rest ← moreExpressions budget
      pure (first :: rest)
    else
      pure []

/-- Keys and values up to the closing brace; a last comma is allowed. -/
def hashEntries : Nat → Watched (List (Expr × Expr))
  | 0 => exhausted noOperand
  | budget + 1 => do
    if (← peek) = .symbol .rightBrace then
      advance
      pure []
    else
      advance
      let key ← expression budget .lowest
      expect (.symbol .colon)
      advance
      let value ← expression budget .lowest
      if (← peek) ≠ .symbol .rightBrace then
        expect (.symbol .comma)
      let entries ← hashEntries budget
      pure ((key, value) :: entries)

/-- The statements of a block, after its opening brace. -/
def block : Nat → Watched Block
  | 0 => exhausted noOperand
  | budget + 1 => asBlock do
    advance
    blockStatements budget

/-- The statements up to the closing brace of a block. -/
def blockStatements : Nat → Watched Block
  | 0 => exhausted noOperand
  | budget + 1 => do
    let kind := (← current).kind
    if kind = .symbol .rightBrace then
      pure []
    else if kind = .endOfInput then
      stop (.expected (.symbol .rightBrace) .endOfInput)
    else
      let first ← statement budget
      advance
      let rest ← blockStatements budget
      pure (first.toList ++ rest)

/-- A statement; a stray semicolon is none, and no error either. -/
def statement : Nat → Watched (Option Stmt)
  | 0 => exhausted (pure none)
  | budget + 1 => asStatement do
    match (← current).kind with
    | .keyword .binding => definition budget
    | .keyword .number => definition budget
    | .keyword .result => result budget
    | _ => expressionStatement budget

/-- The definition of a name. -/
def definition : Nat → Watched Stmt
  | 0 => exhausted noOperand
  | budget + 1 => do
    expect .identifier
    let name := (← current).literal
    expect (.symbol .assign)
    advance
    let value ← expression budget .lowest
    skipSemicolon
    pure (.define name value)

/-- The return of a value. -/
def result : Nat → Watched Stmt
  | 0 => exhausted noOperand
  | budget + 1 => do
    advance
    let value ← expression budget .lowest
    skipSemicolon
    pure (.result value)

/-- An expression that stands as a statement. -/
def expressionStatement : Nat → Watched Stmt
  | 0 => exhausted noOperand
  | budget + 1 => do
    let value ← expression budget .lowest
    skipSemicolon
    pure (.expression value)

end

/-- The statements up to the end of the input. -/
def statements : Nat → Watched Program
  | 0 => exhausted (pure [])
  | budget + 1 => do
    if (← current).kind = .endOfInput then
      pure []
    else
      let first ← statement budget
      advance
      let rest ← statements budget
      pure (first.toList ++ rest)

/-! ## The runs of watched steps -/

@[simp]
theorem run_pure (value : α) : (pure value : Watched α).run = pure value :=
  rfl

@[simp]
theorem run_bind (first : Watched α) (next : α → Watched β) :
    (first >>= next).run = first.run >>= fun value => (next value).run :=
  rfl

/-- A sequence that goes on visits what its two steps visit. -/
theorem visits_bind_ok
    {first : Watched α} {next : α → Watched β}
    {parser middle : Parser} {value : α}
    (outcome : first.run parser = .ok value middle) :
    (first >>= next).visits parser =
      first.visits parser ++ (next value).visits middle := by
  show _ ++ _ = _
  rw [outcome]

/-- A sequence that stops visits what its first step visits. -/
theorem visits_bind_error
    {first : Watched α} {next : α → Watched β}
    {parser middle : Parser} {diagnostic : Diagnostic}
    (outcome : first.run parser = .error diagnostic middle) :
    (first >>= next).visits parser = first.visits parser := by
  show _ ++ _ = _
  rw [outcome, List.append_nil]

@[simp]
theorem run_current : current.run = ParseM.current :=
  rfl

@[simp]
theorem run_peek : peek.run = ParseM.peek :=
  rfl

@[simp]
theorem run_advance : advance.run = ParseM.advance :=
  rfl

@[simp]
theorem run_skipSemicolon : skipSemicolon.run = ParseM.skipSemicolon :=
  rfl

@[simp]
theorem run_stop (diagnostic : Diagnostic) :
    (stop diagnostic : Watched α).run = throw diagnostic :=
  rfl

@[simp]
theorem run_noOperand : (noOperand : Watched α).run = ParseM.noOperand :=
  rfl

@[simp]
theorem run_asBlock (step : Watched α) : (asBlock step).run = step.run :=
  rfl

@[simp]
theorem run_ite
    (condition : Prop) [Decidable condition] (yes no : Watched α) :
    (if condition then yes else no).run =
      if condition then yes.run else no.run :=
  apply_ite run condition yes no

@[simp]
theorem run_expect (wanted : Kind) :
    (expect wanted).run = ParseM.expect wanted :=
  rfl

theorem moreParameters_run (budget : Nat) :
    (moreParameters budget).run = Grammar.moreParameters budget := by
  induction budget with
  | zero => rfl
  | succ budget induction =>
      simp [moreParameters, Grammar.moreParameters, induction]

theorem parameters_run (budget : Nat) :
    (parameters budget).run = Grammar.parameters budget := by
  simp [parameters, Grammar.parameters, moreParameters_run]

mutual

theorem expression_run :
    ∀ (budget : Nat) (level : Precedence),
      (expression budget level).run = Grammar.expression budget level
  | 0, _ => rfl
  | budget + 1, level => by
    simp [expression, Grammar.expression, operand_run budget,
      operators_run budget]

theorem operators_run :
    ∀ (budget : Nat) (level : Precedence) (left : Expr),
      (operators budget level left).run = Grammar.operators budget level left
  | 0, _, _ => rfl
  | budget + 1, level, left => by
    simp [operators, Grammar.operators, extend_run budget,
      operators_run budget]

theorem extend_run :
    ∀ (budget : Nat) (left : Expr),
      (extend budget left).run = Grammar.extend budget left
  | 0, _ => rfl
  | budget + 1, left => by
    simp only [extend, Grammar.extend, run_bind, run_current]
    congr with lexeme
    split <;> simp_all [call_run budget, index_run budget]
    split <;> simp_all [binary_run budget]

theorem binary_run :
    ∀ (budget : Nat) (operator : BinaryOp) (level : Precedence) (left : Expr),
      (binary budget operator level left).run =
        Grammar.binary budget operator level left
  | 0, _, _, _ => rfl
  | budget + 1, operator, level, left => by
    simp [binary, Grammar.binary, expression_run budget]

theorem call_run :
    ∀ (budget : Nat) (callee : Expr),
      (call budget callee).run = Grammar.call budget callee
  | 0, _ => rfl
  | budget + 1, callee => by
    simp [call, Grammar.call, expressionList_run budget]

theorem index_run :
    ∀ (budget : Nat) (collection : Expr),
      (index budget collection).run = Grammar.index budget collection
  | 0, _ => rfl
  | budget + 1, collection => by
    simp [index, Grammar.index, expression_run budget]

theorem operand_run :
    ∀ budget : Nat, (operand budget).run = Grammar.operand budget
  | 0 => rfl
  | budget + 1 => by
    simp only [operand, Grammar.operand, run_bind, run_current]
    refine congrArg _ (funext fun lexeme => ?_)
    cases lexeme.kind with
    | integer =>
        cases Numeral.read? lexeme.literal <;> rfl
    | symbol symbol =>
        cases symbol <;>
          simp [unary_run budget, grouped_run budget, array_run budget,
            hash_run budget]
    | keyword keyword =>
        cases keyword <;> simp [conditional_run budget, function_run budget]
    | _ => rfl

theorem unary_run :
    ∀ (budget : Nat) (operator : UnaryOp),
      (unary budget operator).run = Grammar.unary budget operator
  | 0, _ => rfl
  | budget + 1, operator => by
    simp [unary, Grammar.unary, expression_run budget]

theorem grouped_run :
    ∀ budget : Nat, (grouped budget).run = Grammar.grouped budget
  | 0 => rfl
  | budget + 1 => by
    simp [grouped, Grammar.grouped, expression_run budget]

theorem conditional_run :
    ∀ budget : Nat, (conditional budget).run = Grammar.conditional budget
  | 0 => rfl
  | budget + 1 => by
    simp [conditional, Grammar.conditional, expression_run budget,
      block_run budget]

theorem function_run :
    ∀ budget : Nat, (function budget).run = Grammar.function budget
  | 0 => rfl
  | budget + 1 => by
    simp [function, Grammar.function, parameters_run, block_run budget]

theorem array_run :
    ∀ budget : Nat, (array budget).run = Grammar.array budget
  | 0 => rfl
  | budget + 1 => by
    simp [array, Grammar.array, expressionList_run budget]

theorem hash_run :
    ∀ budget : Nat, (hash budget).run = Grammar.hash budget
  | 0 => rfl
  | budget + 1 => by
    simp [hash, Grammar.hash, hashEntries_run budget]

theorem expressionList_run :
    ∀ (budget : Nat) (close : Kind),
      (expressionList budget close).run = Grammar.expressionList budget close
  | 0, _ => rfl
  | budget + 1, close => by
    simp [expressionList, Grammar.expressionList, expression_run budget,
      moreExpressions_run budget]

theorem moreExpressions_run :
    ∀ budget : Nat,
      (moreExpressions budget).run = Grammar.moreExpressions budget
  | 0 => rfl
  | budget + 1 => by
    simp [moreExpressions, Grammar.moreExpressions, expression_run budget,
      moreExpressions_run budget]

theorem hashEntries_run :
    ∀ budget : Nat, (hashEntries budget).run = Grammar.hashEntries budget
  | 0 => rfl
  | budget + 1 => by
    simp [hashEntries, Grammar.hashEntries, expression_run budget,
      hashEntries_run budget]

theorem block_run :
    ∀ budget : Nat, (block budget).run = Grammar.block budget
  | 0 => rfl
  | budget + 1 => by
    simp [block, Grammar.block, blockStatements_run budget]

theorem blockStatements_run :
    ∀ budget : Nat,
      (blockStatements budget).run = Grammar.blockStatements budget
  | 0 => rfl
  | budget + 1 => by
    simp [blockStatements, Grammar.blockStatements, statement_run budget,
      blockStatements_run budget]

theorem statement_run :
    ∀ budget : Nat,
      (statement budget).run = modifyGet (Grammar.statement budget)
  | 0 => rfl
  | budget + 1 => by
    refine congrArg modifyGet (funext fun parser => ?_)
    by_cases stray : parser.current.kind = .symbol .semicolon
    · simp [readStatement, Grammar.statement, stray]
    · rw [readStatement, if_neg stray, ParseM.attempt, Grammar.statement]
      simp only [run_bind, run_current, ParseM.current_bind]
      split <;> split <;> simp_all [ParseM.attempt, definition_run budget,
        result_run budget, expressionStatement_run budget]

theorem definition_run :
    ∀ budget : Nat, (definition budget).run = Grammar.definition budget
  | 0 => rfl
  | budget + 1 => by
    simp [definition, Grammar.definition, expression_run budget]

theorem result_run :
    ∀ budget : Nat, (result budget).run = Grammar.result budget
  | 0 => rfl
  | budget + 1 => by
    simp [result, Grammar.result, expression_run budget]

theorem expressionStatement_run :
    ∀ budget : Nat,
      (expressionStatement budget).run = Grammar.expressionStatement budget
  | 0 => rfl
  | budget + 1 => by
    simp [expressionStatement, Grammar.expressionStatement,
      expression_run budget]

end

theorem statements_run (budget : Nat) :
    (statements budget).run = modifyGet (Grammar.statements budget) := by
  induction budget with
  | zero => rfl
  | succ budget induction =>
      simp only [statements, run_bind, run_current, run_ite, run_pure,
        run_advance, statement_run, induction]
      funext parser
      rw [ParseM.current_bind]
      by_cases atEnd : parser.current.kind = .endOfInput
      · rw [if_pos atEnd]
        show _ = EStateM.Result.ok (Grammar.statements (budget + 1) parser).1
          (Grammar.statements (budget + 1) parser).2
        rw [Grammar.statements_endOfInput atEnd]
        rfl
      · rw [if_neg atEnd]
        show _ = EStateM.Result.ok (Grammar.statements (budget + 1) parser).1
          (Grammar.statements (budget + 1) parser).2
        rw [Grammar.statements_succ atEnd]
        rfl

end Watched

end Bhasha
