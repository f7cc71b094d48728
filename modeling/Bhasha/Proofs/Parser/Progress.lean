import Bhasha.Parser.Grammar
import Bhasha.Proofs.Step

/-!
# Progress of a parser

No step of a parser goes back: afterwards the later lexemes are a final part of
the later lexemes before, and the diagnostics before are an initial part of the
diagnostics afterwards.  This holds for steps that give a result and for steps
that stop, and for every budget.

The first part says what the steps that look at the parser do in a sequence.
-/

namespace Bhasha

/-! ## Sequences of steps -/

namespace ParseM

variable {α β : Type}

@[simp]
theorem peek_bind (next : Kind → ParseM β) (parser : Parser) :
    (peek >>= next) parser = next parser.peek parser :=
  rfl

@[simp]
theorem current_bind (next : Lexeme → ParseM β) (parser : Parser) :
    (current >>= next) parser = next parser.current parser :=
  rfl

@[simp]
theorem advance_bind (next : Unit → ParseM β) (parser : Parser) :
    (advance >>= next) parser = next () parser.advance :=
  rfl

@[simp]
theorem skipSemicolon_bind (next : Unit → ParseM β) (parser : Parser) :
    (skipSemicolon >>= next) parser = next () parser.skipSemicolon :=
  rfl

@[simp]
theorem modifyGet_bind
    (change : Parser → α × Parser) (next : α → ParseM β) (parser : Parser) :
    (modifyGet change >>= next) parser =
      next (change parser).1 (change parser).2 :=
  rfl

theorem noOperand_ne_ok
    {parser after : Parser} {value : α} :
    noOperand parser ≠ .ok value after := by
  intro equal
  cases equal

end ParseM

/-! ## The order of parsers -/

namespace Parser

/-- A parser comes from another one by reading on and adding diagnostics. -/
structure Reaches (before after : Parser) : Prop where
  upcoming : after.upcoming <:+ before.upcoming
  diagnostics : before.diagnostics.toList <+: after.diagnostics.toList

namespace Reaches

theorem refl (parser : Parser) : parser.Reaches parser :=
  ⟨List.suffix_refl _, List.prefix_refl _⟩

theorem trans
    {first second third : Parser}
    (left : first.Reaches second)
    (right : second.Reaches third) :
    first.Reaches third :=
  ⟨right.upcoming.trans left.upcoming,
    left.diagnostics.trans right.diagnostics⟩

theorem advance (parser : Parser) : parser.Reaches parser.advance := by
  rcases parser with ⟨current, upcoming, diagnostics⟩
  cases upcoming with
  | nil => exact ⟨List.suffix_refl _, List.prefix_refl _⟩
  | cons next rest =>
      exact ⟨List.suffix_cons next rest, List.prefix_refl _⟩

theorem skipSemicolon (parser : Parser) :
    parser.Reaches parser.skipSemicolon := by
  rw [Parser.skipSemicolon]
  split
  · exact advance parser
  · exact refl parser

theorem record (parser : Parser) (diagnostic : Diagnostic) :
    parser.Reaches (parser.record diagnostic) :=
  ⟨List.suffix_refl _, by simp [Parser.record]⟩

theorem length_le
    {before after : Parser}
    (reaches : before.Reaches after) :
    after.upcoming.length ≤ before.upcoming.length :=
  reaches.upcoming.length_le

/-- A parser without diagnostics comes from one without diagnostics. -/
theorem clean
    {before after : Parser}
    (reaches : before.Reaches after)
    (clean : after.diagnostics = #[]) :
    before.diagnostics = #[] := by
  have initial := reaches.diagnostics
  rw [clean] at initial
  simpa using initial

end Reaches

end Parser

/-! ## Steps that go on -/

namespace ParseM

/-- A step never goes back, whatever its outcome. -/
def Advances {α : Type} (step : ParseM α) : Prop :=
  Step.Within Parser.Reaches step

namespace Advances

variable {α β : Type}

theorem reaches
    {step : ParseM α} {parser after : Parser} {value : α}
    (advances : step.Advances)
    (outcome : step parser = .ok value after) :
    parser.Reaches after := by
  have whole := advances parser
  rwa [Step.final_of_ok outcome] at whole

theorem pure (value : α) : Advances (pure value) :=
  fun parser => Parser.Reaches.refl parser

theorem throw (diagnostic : Diagnostic) :
    Advances (throw diagnostic : ParseM α) :=
  fun parser => Parser.Reaches.refl parser

theorem noOperand : Advances (ParseM.noOperand : ParseM α) :=
  fun parser => Parser.Reaches.refl parser

theorem current : Advances current :=
  fun parser => Parser.Reaches.refl parser

theorem peek : Advances peek :=
  fun parser => Parser.Reaches.refl parser

theorem advance : Advances advance :=
  fun parser => Parser.Reaches.advance parser

theorem skipSemicolon : Advances skipSemicolon :=
  fun parser => Parser.Reaches.skipSemicolon parser

theorem bind
    {step : ParseM α} {next : α → ParseM β}
    (first : step.Advances)
    (second : ∀ value, (next value).Advances) :
    (step >>= next).Advances :=
  Step.Within.bind Parser.Reaches.trans first second

theorem expect (wanted : Kind) : Advances (expect wanted) := by
  apply peek.bind
  intro found
  split
  · exact advance
  · exact throw _

/-- A failed attempt adds its diagnostic to what the step leaves. -/
theorem attempt
    {step : ParseM α}
    (advances : step.Advances) (parser : Parser) :
    parser.Reaches (ParseM.attempt step parser).2 := by
  have whole := advances parser
  rw [ParseM.attempt]
  cases outcome : step parser with
  | ok value after =>
      simpa [Step.final, outcome] using whole
  | error diagnostic after =>
      rw [Step.final, outcome] at whole
      exact whole.trans (Parser.Reaches.record after diagnostic)

end Advances

end ParseM

/-! ## The steps of the grammar -/

namespace Grammar

open ParseM Step

theorem moreParameters_advances :
    ∀ budget : Nat, (moreParameters budget).Advances
  | 0 => .pure []
  | budget + 1 => by
    rw [moreParameters]
    refine Advances.peek.bind fun next => ?_
    split
    · exact Advances.advance.bind fun _ =>
        (Advances.expect _).bind fun _ =>
          Advances.current.bind fun _ =>
            (moreParameters_advances budget).bind fun _ => .pure _
    · exact .pure []

theorem parameters_advances (budget : Nat) :
    (parameters budget).Advances := by
  rw [parameters]
  refine Advances.peek.bind fun next => ?_
  split
  · exact Advances.advance.bind fun _ => .pure []
  · exact (Advances.expect _).bind fun _ =>
      Advances.current.bind fun _ =>
        (moreParameters_advances budget).bind fun _ =>
          (Advances.expect _).bind fun _ => .pure _

mutual

theorem expression_advances :
    ∀ (budget : Nat) (level : Precedence), (expression budget level).Advances
  | 0, _ => .noOperand
  | budget + 1, level => by
    rw [expression]
    exact (operand_advances budget).bind fun left =>
      operators_advances budget level left

theorem operators_advances :
    ∀ (budget : Nat) (level : Precedence) (left : Expr),
      (operators budget level left).Advances
  | 0, _, left => .pure left
  | budget + 1, level, left => by
    rw [operators]
    refine Advances.peek.bind fun next => ?_
    split
    · exact Advances.advance.bind fun _ =>
        (extend_advances budget left).bind fun larger =>
          operators_advances budget level larger
    · exact .pure left

theorem extend_advances :
    ∀ (budget : Nat) (left : Expr), (extend budget left).Advances
  | 0, left => .pure left
  | budget + 1, left => by
    rw [extend]
    refine Advances.current.bind fun lexeme => ?_
    split
    · exact call_advances budget left
    · exact index_advances budget left
    · split
      · exact binary_advances budget _ _ left
      · exact .pure left
    · exact .pure left

theorem binary_advances :
    ∀ (budget : Nat) (operator : BinaryOp) (level : Precedence) (left : Expr),
      (binary budget operator level left).Advances
  | 0, _, _, _ => .noOperand
  | budget + 1, operator, level, left => by
    rw [binary]
    exact Advances.advance.bind fun _ =>
      (expression_advances budget level).bind fun _ => .pure _

theorem call_advances :
    ∀ (budget : Nat) (callee : Expr), (call budget callee).Advances
  | 0, _ => .noOperand
  | budget + 1, callee => by
    rw [call]
    exact (expressionList_advances budget _).bind fun _ => .pure _

theorem index_advances :
    ∀ (budget : Nat) (collection : Expr), (index budget collection).Advances
  | 0, _ => .noOperand
  | budget + 1, collection => by
    rw [index]
    exact Advances.advance.bind fun _ =>
      (expression_advances budget .lowest).bind fun _ =>
        (Advances.expect _).bind fun _ => .pure _

theorem operand_advances : ∀ budget : Nat, (operand budget).Advances
  | 0 => .noOperand
  | budget + 1 => by
    rw [operand]
    refine Advances.current.bind fun lexeme => ?_
    split
    · exact .pure _
    · exact .pure _
    · split
      · exact .pure _
      · exact .throw _
    · exact .pure _
    · exact .pure _
    · exact .pure _
    · exact unary_advances budget .not
    · exact unary_advances budget .negate
    · exact grouped_advances budget
    · exact conditional_advances budget
    · exact function_advances budget
    · exact array_advances budget
    · exact hash_advances budget
    · exact .noOperand

theorem unary_advances :
    ∀ (budget : Nat) (operator : UnaryOp), (unary budget operator).Advances
  | 0, _ => .noOperand
  | budget + 1, operator => by
    rw [unary]
    exact Advances.advance.bind fun _ =>
      (expression_advances budget .unary).bind fun _ => .pure _

theorem grouped_advances : ∀ budget : Nat, (grouped budget).Advances
  | 0 => .noOperand
  | budget + 1 => by
    rw [grouped]
    exact Advances.advance.bind fun _ =>
      (expression_advances budget .lowest).bind fun _ =>
        (Advances.expect _).bind fun _ => .pure _

theorem conditional_advances : ∀ budget : Nat, (conditional budget).Advances
  | 0 => .noOperand
  | budget + 1 => by
    rw [conditional]
    refine Advances.advance.bind fun _ =>
      (expression_advances budget .lowest).bind fun _ =>
        (Advances.expect _).bind fun _ =>
          (block_advances budget).bind fun _ =>
            Advances.peek.bind fun _ => ?_
    split
    · exact Advances.advance.bind fun _ =>
        (Advances.expect _).bind fun _ =>
          (block_advances budget).bind fun _ => .pure _
    · exact .pure _

theorem function_advances : ∀ budget : Nat, (function budget).Advances
  | 0 => .noOperand
  | budget + 1 => by
    rw [function]
    exact (Advances.expect _).bind fun _ =>
      (parameters_advances budget).bind fun _ =>
        (Advances.expect _).bind fun _ =>
          (block_advances budget).bind fun _ => .pure _

theorem array_advances : ∀ budget : Nat, (array budget).Advances
  | 0 => .noOperand
  | budget + 1 => by
    rw [array]
    exact (expressionList_advances budget _).bind fun _ => .pure _

theorem hash_advances : ∀ budget : Nat, (hash budget).Advances
  | 0 => .noOperand
  | budget + 1 => by
    rw [hash]
    exact (hashEntries_advances budget).bind fun _ => .pure _

theorem expressionList_advances :
    ∀ (budget : Nat) (close : Kind), (expressionList budget close).Advances
  | 0, _ => .noOperand
  | budget + 1, close => by
    rw [expressionList]
    refine Advances.peek.bind fun next => ?_
    split
    · exact Advances.advance.bind fun _ => .pure []
    · exact Advances.advance.bind fun _ =>
        (expression_advances budget .lowest).bind fun _ =>
          (moreExpressions_advances budget).bind fun _ =>
            (Advances.expect _).bind fun _ => .pure _

theorem moreExpressions_advances :
    ∀ budget : Nat, (moreExpressions budget).Advances
  | 0 => .pure []
  | budget + 1 => by
    rw [moreExpressions]
    refine Advances.peek.bind fun next => ?_
    split
    · exact Advances.advance.bind fun _ =>
        Advances.advance.bind fun _ =>
          (expression_advances budget .lowest).bind fun _ =>
            (moreExpressions_advances budget).bind fun _ => .pure _
    · exact .pure []

theorem hashEntries_advances : ∀ budget : Nat, (hashEntries budget).Advances
  | 0 => .noOperand
  | budget + 1 => by
    have entries : ∀ key value : Expr,
        (do return (key, value) :: (← hashEntries budget) :
          ParseM (List (Expr × Expr))).Advances :=
      fun _ _ => (hashEntries_advances budget).bind fun _ => .pure _
    rw [hashEntries]
    refine Advances.peek.bind fun next => ?_
    split
    · exact Advances.advance.bind fun _ => .pure []
    · refine Advances.advance.bind fun _ =>
        (expression_advances budget .lowest).bind fun key =>
          (Advances.expect _).bind fun _ =>
            Advances.advance.bind fun _ =>
              (expression_advances budget .lowest).bind fun value =>
                Advances.peek.bind fun _ => ?_
      split
      · exact (Advances.expect _).bind fun _ => entries key value
      · exact entries key value

theorem block_advances : ∀ budget : Nat, (block budget).Advances
  | 0 => .noOperand
  | budget + 1 => by
    rw [block]
    exact Advances.advance.bind fun _ => blockStatements_advances budget

theorem blockStatements_advances :
    ∀ budget : Nat, (blockStatements budget).Advances
  | 0 => .noOperand
  | budget + 1 => by
    have first : (modifyGet (statement budget) :
        ParseM (Option Stmt)).Advances :=
      fun parser => statement_reaches budget parser
    rw [blockStatements]
    refine Advances.current.bind fun lexeme => ?_
    dsimp only
    split
    · exact .pure []
    · split
      · exact .throw _
      · exact first.bind fun _ =>
          Advances.advance.bind fun _ =>
            (blockStatements_advances budget).bind fun _ => .pure _

theorem statement_reaches :
    ∀ (budget : Nat) (parser : Parser),
      parser.Reaches (statement budget parser).2
  | 0, parser => .refl parser
  | budget + 1, parser => by
    rw [statement]
    split
    · exact (definition_advances budget).attempt parser
    · exact (definition_advances budget).attempt parser
    · exact (result_advances budget).attempt parser
    · exact .refl parser
    · exact (expressionStatement_advances budget).attempt parser

theorem definition_advances : ∀ budget : Nat, (definition budget).Advances
  | 0 => .noOperand
  | budget + 1 => by
    rw [definition]
    exact (Advances.expect _).bind fun _ =>
      Advances.current.bind fun _ =>
        (Advances.expect _).bind fun _ =>
          Advances.advance.bind fun _ =>
            (expression_advances budget .lowest).bind fun _ =>
              Advances.skipSemicolon.bind fun _ => .pure _

theorem result_advances : ∀ budget : Nat, (result budget).Advances
  | 0 => .noOperand
  | budget + 1 => by
    rw [result]
    exact Advances.advance.bind fun _ =>
      (expression_advances budget .lowest).bind fun _ =>
        Advances.skipSemicolon.bind fun _ => .pure _

theorem expressionStatement_advances :
    ∀ budget : Nat, (expressionStatement budget).Advances
  | 0 => .noOperand
  | budget + 1 => by
    rw [expressionStatement]
    exact (expression_advances budget .lowest).bind fun _ =>
      Advances.skipSemicolon.bind fun _ => .pure _

end

/-- At the end of the input there are no statements, whatever the budget. -/
theorem statements_endOfInput
    {budget : Nat} {parser : Parser}
    (atEnd : parser.current.kind = .endOfInput) :
    statements budget parser = ([], parser) := by
  cases budget with
  | zero => rfl
  | succ budget => rw [statements, if_pos atEnd]

/-- Before the end of the input there is a statement, and then the others. -/
theorem statements_succ
    {budget : Nat} {parser : Parser}
    (goes : parser.current.kind ≠ .endOfInput) :
    statements (budget + 1) parser =
      ((statement budget parser).1.toList ++
          (statements budget (statement budget parser).2.advance).1,
        (statements budget (statement budget parser).2.advance).2) := by
  rw [statements, if_neg goes]

theorem statements_reaches (budget : Nat) (parser : Parser) :
    parser.Reaches (statements budget parser).2 := by
  induction budget generalizing parser with
  | zero => exact .refl parser
  | succ budget induction =>
      by_cases atEnd : parser.current.kind = .endOfInput
      · rw [statements_endOfInput atEnd]
        exact .refl parser
      · rw [statements_succ atEnd]
        exact ((statement_reaches budget parser).trans
          (.advance _)).trans (induction _)

end Grammar

end Bhasha
