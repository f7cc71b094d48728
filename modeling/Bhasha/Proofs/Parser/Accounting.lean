import Bhasha.Proofs.Parser.Acceptance
import Bhasha.Proofs.Parser.Visits

/-!
# An account of diagnostics and statements

Every statement that the parser tries starts at a lexeme of its own, and each
try ends with one node or with one diagnostic.  So the nodes of the program and
the diagnostics together are no more than the lexemes at which a statement can
start.

The same argument bounds the budget: what a step still needs is a multiple of
the lexemes in front of it, and so no step is left without budget.
-/

namespace Bhasha

open Step

/-! ## The statements of a tree -/

mutual

/-- The number of statements at all depths of an expression. -/
def Expr.nodes : Expr → Nat
  | .name _ | .integer _ | .string _ | .boolean _ => 0
  | .array items => Expr.nodesList items
  | .hash entries => Expr.nodesPairs entries
  | .unary _ operand => operand.nodes
  | .binary _ left right => left.nodes + right.nodes
  | .conditional condition consequence alternative =>
    condition.nodes + Stmt.nodesList consequence +
      Stmt.nodesOption alternative
  | .function _ body => Stmt.nodesList body
  | .call callee arguments => callee.nodes + Expr.nodesList arguments
  | .index collection position => collection.nodes + position.nodes

/-- The number of statements in some expressions. -/
def Expr.nodesList : List Expr → Nat
  | [] => 0
  | first :: rest => first.nodes + Expr.nodesList rest

/-- The number of statements in some keys and values. -/
def Expr.nodesPairs : List (Expr × Expr) → Nat
  | [] => 0
  | (key, value) :: rest => key.nodes + value.nodes + Expr.nodesPairs rest

/-- The number of statements at all depths of a statement, itself included. -/
def Stmt.nodes : Stmt → Nat
  | .define _ value => 1 + value.nodes
  | .result value => 1 + value.nodes
  | .expression value => 1 + value.nodes
  | .block body => 1 + Stmt.nodesList body

/-- The number of statements at all depths of some statements. -/
def Stmt.nodesList : List Stmt → Nat
  | [] => 0
  | first :: rest => first.nodes + Stmt.nodesList rest

/-- The number of statements in a block that may be missing. -/
def Stmt.nodesOption : Option (List Stmt) → Nat
  | none => 0
  | some body => Stmt.nodesList body

end

/-- The number of statements at all depths of a program. -/
def Program.nodes (program : Program) : Nat :=
  Stmt.nodesList program

theorem Stmt.nodesList_append (first second : List Stmt) :
    Stmt.nodesList (first ++ second) =
      Stmt.nodesList first + Stmt.nodesList second := by
  induction first with
  | nil => simp [Stmt.nodesList]
  | cons head tail induction =>
      simp only [List.cons_append, Stmt.nodesList, induction]
      omega

/-! ## Where statements are tried -/

namespace Visit

/-- Whether a visit is to a statement. -/
def isStatement (visit : Visit) : Bool :=
  match visit.part with
  | .statement _ => true
  | _ => false

/-- The visits to statements, each in front of those inside its blocks. -/
def statements (visits : List Visit) : List Visit :=
  (all visits).filter isStatement

@[simp]
theorem statements_nil : statements [] = [] := by
  rw [statements, all_nil, List.filter_nil]

@[simp]
theorem statements_append (visits others : List Visit) :
    statements (visits ++ others) = statements visits ++ statements others := by
  rw [statements, all_append, List.filter_append]
  rfl

@[simp]
theorem statements_block (start finish : Parser) (inside : List Visit) :
    statements [⟨.block, start, finish, inside⟩] = statements inside := by
  simp [statements, isStatement]

@[simp]
theorem statements_statement
    (result : Option Stmt) (start finish : Parser) (inside : List Visit) :
    statements [⟨.statement result, start, finish, inside⟩] =
      ⟨.statement result, start, finish, inside⟩ :: statements inside := by
  rw [statements, all_cons, all_nil, List.append_nil]
  exact List.filter_cons_of_pos rfl

/-- Whether a visit starts at another lexeme than a semicolon. -/
def isProper (visit : Visit) : Bool :=
  visit.start.current.kind ≠ .symbol .semicolon

/-- The number of statements that are not tried at a semicolon. -/
def tries (visits : List Visit) : Nat :=
  (statements visits).countP isProper

@[simp]
theorem tries_append (visits others : List Visit) :
    tries (visits ++ others) = tries visits + tries others := by
  rw [tries, statements_append, List.countP_append]
  rfl

theorem tries_statement
    {result : Option Stmt} {start finish : Parser} {inside : List Visit}
    (proper : start.current.kind ≠ .symbol .semicolon) :
    tries [⟨.statement result, start, finish, inside⟩] = tries inside + 1 := by
  rw [tries, statements_statement, List.countP_cons_of_pos]
  · rfl
  · simpa [isProper] using proper

/--
The visits start one after the other at lexemes of an input, each behind the
one before, and not behind the lexemes that are left.
-/
inductive Ordered : List Lexeme → List Visit → List Lexeme → Prop where
  | done
      (left : rest <:+ input) :
      Ordered input [] rest
  | next
      (start : visit.start.current :: visit.start.upcoming <:+ input)
      (later : Ordered visit.start.upcoming visits rest) :
      Ordered input (visit :: visits) rest

namespace Ordered

variable {input larger middle rest : List Lexeme} {visits others : List Visit}

theorem weaken
    (ordered : Ordered input visits rest)
    (part : input <:+ larger) :
    Ordered larger visits rest := by
  cases ordered with
  | done left => exact .done (left.trans part)
  | next start later => exact .next (start.trans part) later

theorem append
    (first : Ordered input visits middle)
    (second : Ordered middle others rest) :
    Ordered input (visits ++ others) rest := by
  induction first with
  | done left => exact second.weaken left
  | next start _ induction => exact .next start (induction second)

/-- The visits start at different lexemes of the input. -/
theorem sublist
    (ordered : Ordered input visits rest) :
    List.Sublist (visits.map fun visit => visit.start.current) input := by
  induction ordered with
  | done => exact List.nil_sublist _
  | next start _ induction =>
      exact (induction.cons_cons _).trans start.sublist

/-- Every visit starts at a lexeme of the input. -/
theorem suffix
    (ordered : Ordered input visits rest) :
    ∀ visit ∈ visits,
      visit.start.current :: visit.start.upcoming <:+ input := by
  induction ordered with
  | done => simp
  | next start _ induction =>
      intro visit member
      rcases List.mem_cons.1 member with rfl | later
      · exact start
      · exact (induction visit later).trans
          ((List.suffix_cons _ _).trans start)

/-- Every visit has fewer lexemes in front of it than those before. -/
theorem pairwise
    (ordered : Ordered input visits rest) :
    visits.Pairwise fun visit other =>
      other.start.upcoming.length < visit.start.upcoming.length := by
  induction ordered with
  | done => exact .nil
  | next start later induction =>
      refine .cons (fun other member => ?_) induction
      exact (later.suffix other member).length_le

end Ordered

/--
Budget was left for a visit, and a block was read from its opening brace to its
closing brace or to the end of the input.
-/
def Settled (visit : Visit) : Prop :=
  match visit.part with
  | .statement _ => True
  | .block => visit.start.current.kind = .symbol .leftBrace ∧
      (visit.finish.current.kind = .symbol .rightBrace ∨
        visit.finish.current.kind = .endOfInput)
  | .exhausted => False

theorem Settled.ne_exhausted
    {visit : Visit}
    (settled : visit.Settled) :
    visit.part ≠ .exhausted := by
  intro exhausted
  rwa [Settled, exhausted] at settled

/-- A statement that is tried is read, or there is one thing wrong with it. -/
theorem Lawful.adds
    {visit : Visit}
    (lawful : visit.Lawful)
    (statement : visit.isStatement)
    (proper : visit.start.current.kind ≠ .symbol .semicolon) :
    (∃ node, visit.part = .statement (some node) ∧ visit.Adds []) ∨
      (visit.part = .statement none ∧
        ∃ diagnostic, visit.Adds [diagnostic]) := by
  rcases visit with ⟨part, start, finish, inside⟩
  cases part with
  | statement result =>
      simp only [Lawful, if_neg proper] at lawful
      cases result with
      | some node => exact .inl ⟨node, rfl, lawful⟩
      | none => exact .inr ⟨rfl, lawful⟩
  | block => cases statement
  | exhausted => cases statement

end Visit

/-! ## Where a parser stands -/

namespace Parser

/-- A parser stands on a lexeme of an input, or at its end. -/
structure StandsIn (parser : Parser) (input : List Lexeme) : Prop where
  upcoming : parser.upcoming <:+ input
  current : parser.current.kind ≠ .endOfInput →
    parser.current :: parser.upcoming <:+ input

theorem StandsIn.length_lt
    {parser : Parser} {input : List Lexeme}
    (stands : parser.StandsIn input)
    (inside : parser.current.kind ≠ .endOfInput) :
    parser.upcoming.length < input.length :=
  (stands.current inside).length_le

theorem standsIn_advance (parser : Parser) :
    parser.advance.StandsIn parser.upcoming := by
  rcases parser with ⟨current, upcoming, diagnostics⟩
  cases upcoming with
  | nil => exact ⟨List.suffix_refl _, fun inside => (inside rfl).elim⟩
  | cons first rest =>
      exact ⟨List.suffix_cons first rest, fun _ => List.suffix_refl _⟩

theorem length_advance_lt
    {parser : Parser}
    (inside : parser.peek ≠ .endOfInput) :
    parser.advance.upcoming.length < parser.upcoming.length := by
  rcases exists_of_peek rfl inside with ⟨literal, -, reads⟩
  have length := reads.length_eq
  rw [List.length_singleton] at length
  omega

end Parser

/-! ## Steps with an account -/

namespace Watched

variable {α β : Type}

/--
A step from a parser does not run out of budget, tries statements one behind
the other, adds at most one diagnostic for each of them, and gives no more
nodes, beyond those held before, than are paid for by the other tries.
-/
structure Tallied (input : List Lexeme) (nodes : α → Nat) (held : Nat)
    (step : Watched α) (parser : Parser) : Prop where
  settled : ∀ visit ∈ Visit.all (step.visits parser), visit.Settled
  ordered : Visit.Ordered input (Visit.statements (step.visits parser))
    (final step.run parser).upcoming
  diagnostics : (final step.run parser).diagnostics.size ≤
    parser.diagnostics.size + Visit.tries (step.visits parser)
  gives : ∀ {value after}, step.run parser = .ok value after →
    after.diagnostics.size + nodes value ≤
      held + parser.diagnostics.size + Visit.tries (step.visits parser)

namespace Tallied

variable {input larger : List Lexeme} {nodes : α → Nat} {target : β → Nat}
variable {held : Nat} {step : Watched α} {next : α → Watched β}
variable {parser middle : Parser}

theorem weaken
    (inner : Tallied input nodes held step parser)
    (part : input <:+ larger) :
    Tallied larger nodes held step parser :=
  ⟨inner.settled, inner.ordered.weaken part, inner.diagnostics, inner.gives⟩

/-- More nodes may be held throughout a step. -/
theorem frame
    (inner : Tallied input nodes held step parser) (more : Nat) :
    Tallied input (fun value => more + nodes value) (more + held) step
      parser where
  settled := inner.settled
  ordered := inner.ordered
  diagnostics := inner.diagnostics
  gives outcome := by
    have := inner.gives outcome
    omega

/-- A step that visits nothing. -/
theorem still
    (nothing : step.visits parser = [])
    (gives : ∀ {value after}, step.run parser = .ok value after →
      nodes value ≤ held) :
    Tallied parser.upcoming nodes held step parser where
  settled := by simp [nothing]
  ordered := by
    rw [nothing, Visit.statements_nil]
    exact .done (step.path parser).upcoming
  diagnostics := by simp [diagnostics_of_visits_nil nothing]
  gives outcome := by
    have bound := gives outcome
    have same := diagnostics_of_visits_nil nothing
    rw [final_of_ok outcome] at same
    rw [same]
    omega

theorem pure
    {value : α}
    (paid : nodes value ≤ held) :
    Tallied parser.upcoming nodes held (pure value) parser :=
  still rfl (by rintro _ _ ⟨⟩; exact paid)

theorem stop (diagnostic : Diagnostic) :
    Tallied parser.upcoming nodes held (stop diagnostic) parser :=
  still rfl nofun

theorem noOperand :
    Tallied parser.upcoming nodes held noOperand parser :=
  still rfl nofun

/-- The second step of a sequence holds the nodes that the first one gives. -/
theorem bind
    (first : Tallied input nodes held step parser)
    (second : ∀ {value middle}, step.run parser = .ok value middle →
      Tallied middle.upcoming target (nodes value) (next value) middle) :
    Tallied input target held (step >>= next) parser := by
  cases outcome : step.run parser with
  | ok value middle =>
      have visits : (step >>= next).visits parser = _ := visits_bind_ok outcome
      have run : (step >>= next).run parser = _ := bind_ok outcome
      have isFinal : final (step >>= next).run parser =
          final (next value).run middle := by
        rw [final, run]
        rfl
      have later := second outcome
      have ordered := first.ordered
      have early := first.gives outcome
      have added := first.diagnostics
      rw [final_of_ok outcome] at ordered added
      refine ⟨?_, ?_, ?_, ?_⟩
      · rw [visits, Visit.all_append]
        intro visit member
        rcases List.mem_append.1 member with inFirst | inSecond
        · exact first.settled visit inFirst
        · exact later.settled visit inSecond
      · rw [visits, Visit.statements_append, isFinal]
        exact ordered.append later.ordered
      · have more := later.diagnostics
        rw [visits, Visit.tries_append, isFinal]
        omega
      · intro result after whole
        rw [run] at whole
        have more := later.gives whole
        rw [visits, Visit.tries_append]
        omega
  | error diagnostic middle =>
      have visits : (step >>= next).visits parser = _ :=
        visits_bind_error outcome
      have run : (step >>= next).run parser = _ := bind_error outcome
      have isFinal : final (step >>= next).run parser =
          final step.run parser := by
        rw [final_of_error outcome, final_of_error run]
      refine ⟨?_, ?_, ?_, ?_⟩
      · rw [visits]
        exact first.settled
      · rw [visits, isFinal]
        exact first.ordered
      · rw [visits, isFinal]
        exact first.diagnostics
      · intro result after whole
        rw [run] at whole
        cases whole

/-- A value that is only put into a larger one. -/
theorem map
    {build : α → β}
    (first : Tallied input nodes held step parser)
    (paid : ∀ value, target (build value) ≤ nodes value) :
    Tallied input target held (step >>= fun value => Pure.pure (build value))
      parser :=
  first.bind fun _ => pure (paid _)

/-- A first step that only looks or moves. -/
theorem behind
    {value : α}
    {next : α → Watched β}
    (outcome : step.run parser = .ok value middle)
    (nothing : step.visits parser = [])
    (inner : Tallied input target held (next value) middle) :
    Tallied input target held (step >>= next) parser := by
  have diagnostics := diagnostics_of_visits_nil nothing
  rw [final_of_ok outcome] at diagnostics
  have isVisits : (step >>= next).visits parser =
      (next value).visits middle := by
    rw [visits_bind_ok outcome, nothing, List.nil_append]
  have run : (step >>= next).run parser = (next value).run middle :=
    bind_ok outcome
  have isFinal : final (step >>= next).run parser =
      final (next value).run middle := by
    rw [final, run]
    rfl
  refine ⟨?_, ?_, ?_, ?_⟩
  · rw [isVisits]
    exact inner.settled
  · rw [isVisits, isFinal]
    exact inner.ordered
  · rw [isVisits, isFinal, ← diagnostics]
    exact inner.diagnostics
  · rw [isVisits, run, ← diagnostics]
    exact inner.gives

theorem peek
    {next : Kind → Watched β}
    (inner : Tallied input target held (next parser.peek) parser) :
    Tallied input target held (Watched.peek >>= next) parser :=
  behind rfl rfl inner

theorem current
    {next : Lexeme → Watched β}
    (inner : Tallied input target held (next parser.current) parser) :
    Tallied input target held (Watched.current >>= next) parser :=
  behind rfl rfl inner

theorem advance
    {next : Unit → Watched β}
    (inner : Tallied input target held (next ()) parser.advance) :
    Tallied input target held (Watched.advance >>= next) parser :=
  behind rfl rfl inner

/-- A step that needs only the lexemes behind the next one. -/
theorem past
    {next : Unit → Watched β}
    (inner : Tallied parser.advance.upcoming target held (next ())
      parser.advance) :
    Tallied parser.upcoming target held (Watched.advance >>= next) parser :=
  advance (inner.weaken (Parser.Reaches.advance parser).upcoming)

/-- A lexeme that is expected, and what goes on behind it. -/
theorem expect
    {wanted : Kind} {next : Unit → Watched β}
    (inside : wanted ≠ .endOfInput)
    (inner : parser.advance.upcoming.length < parser.upcoming.length →
      parser.advance.current.kind = wanted →
      Tallied parser.advance.upcoming target held (next ()) parser.advance) :
    Tallied parser.upcoming target held (Watched.expect wanted >>= next)
      parser := by
  have first : Tallied parser.upcoming (fun _ => held) held
      (Watched.expect wanted) parser := still rfl fun _ => le_rfl
  refine first.bind fun outcome => ?_
  rcases ParseM.reads_of_expect inside outcome with ⟨literal, isWanted, reads⟩
  have length := reads.length_eq
  rw [List.length_singleton] at length
  rcases reads.single with ⟨-, -, rfl⟩
  exact inner (by omega) (congrArg Lexeme.kind isWanted)

/-- A semicolon may follow and changes nothing. -/
theorem skipSemicolon
    {value : β}
    (paid : target value ≤ held) :
    Tallied parser.upcoming target held
      (Watched.skipSemicolon >>= fun _ => Pure.pure value) parser :=
  have first : Tallied parser.upcoming (fun _ => held) held
      Watched.skipSemicolon parser := still rfl fun _ => le_rfl
  first.bind fun _ => pure paid

/-- A block tries the statements inside it. -/
theorem asBlock
    (inner : Tallied input nodes held step parser)
    (opens : parser.current.kind = .symbol .leftBrace)
    (closes : (final step.run parser).current.kind = .symbol .rightBrace ∨
      (final step.run parser).current.kind = .endOfInput) :
    Tallied input nodes held (Watched.asBlock step) parser where
  settled := by
    intro visit member
    rw [Watched.asBlock, Visit.all_cons, Visit.all_nil, List.append_nil]
      at member
    rcases List.mem_cons.1 member with rfl | deeper
    · exact ⟨opens, closes⟩
    · exact inner.settled visit deeper
  ordered := by
    rw [Watched.asBlock, Visit.statements_block]
    exact inner.ordered
  diagnostics := by
    rw [Visit.tries, Watched.asBlock, Visit.statements_block]
    exact inner.diagnostics
  gives := by
    rw [Visit.tries, Watched.asBlock, Visit.statements_block]
    exact inner.gives

/--
A statement is tried at the current lexeme.  The try pays for the node of the
statement, or for the diagnostic.
-/
theorem asStatement
    {step : Watched Stmt}
    (inner : parser.current.kind ≠ .symbol .semicolon →
      Tallied parser.upcoming Stmt.nodes 1 step parser) :
    Tallied (parser.current :: parser.upcoming)
      (fun result => Stmt.nodesList result.toList) 0
      (Watched.asStatement step) parser := by
  have run : (Watched.asStatement step).run parser =
      .ok (readStatement step parser).1 (readStatement step parser).2 := rfl
  have visits : (Watched.asStatement step).visits parser =
      [⟨.statement (readStatement step parser).1, parser,
        (readStatement step parser).2, insideStatement step parser⟩] := rfl
  -- What has to be shown of the two parts of a statement that is tried.
  suffices whole :
      (∀ visit ∈ Visit.all (insideStatement step parser), visit.Settled) ∧
      Visit.Ordered parser.upcoming
        (Visit.statements (insideStatement step parser))
        (readStatement step parser).2.upcoming ∧
      (readStatement step parser).2.diagnostics.size +
          Stmt.nodesList (readStatement step parser).1.toList ≤
        parser.diagnostics.size +
          Visit.tries ((Watched.asStatement step).visits parser) by
    rcases whole with ⟨settled, ordered, count⟩
    refine ⟨?_, ?_, ?_, ?_⟩
    · intro visit member
      rw [visits, Visit.all_cons, Visit.all_nil, List.append_nil] at member
      rcases List.mem_cons.1 member with rfl | deeper
      · exact trivial
      · exact settled visit deeper
    · rw [visits, Visit.statements_statement, final_of_ok run]
      exact .next (List.suffix_refl _) ordered
    · rw [final_of_ok run]
      omega
    · intro value after outcome
      rw [run] at outcome
      cases outcome
      omega
  by_cases stray : parser.current.kind = .symbol .semicolon
  · rw [readStatement, insideStatement, if_pos stray, if_pos stray]
    refine ⟨by simp, .done (List.suffix_refl _), ?_⟩
    simp [Stmt.nodesList]
  · have inner := inner stray
    rw [visits, Visit.tries_statement stray, readStatement, insideStatement,
      if_neg stray, if_neg stray, ParseM.attempt]
    have ordered := inner.ordered
    have added := inner.diagnostics
    cases outcome : step.run parser with
    | ok node after =>
        rw [final_of_ok outcome] at ordered
        have count := inner.gives outcome
        refine ⟨inner.settled, ordered, ?_⟩
        simp only [Option.toList_some, Stmt.nodesList]
        omega
    | error diagnostic after =>
        rw [final_of_error outcome] at ordered added
        refine ⟨inner.settled, ordered, ?_⟩
        simp only [Option.toList_none, Stmt.nodesList, Parser.record,
          Array.size_push]
        omega

end Tallied

/-! ## The steps of the grammar -/

theorem moreParameters_tallied
    (budget : Nat) {parser : Parser} {held : Nat}
    (enough : 1 + 8 * parser.upcoming.length ≤ budget) :
    Tallied parser.upcoming (fun _ => held) held (moreParameters budget)
      parser := by
  induction budget generalizing parser with
  | zero => omega
  | succ budget induction =>
      rw [moreParameters]
      refine .peek ?_
      split
      · refine .past (.expect (by decide) fun length _ => .current ?_)
        have lengthComma := (Parser.Reaches.advance parser).length_le
        exact (induction (by omega)).map fun _ => le_rfl
      · exact .pure le_rfl

theorem parameters_tallied
    (budget : Nat) {parser : Parser} {held : Nat}
    (enough : 1 + 8 * parser.upcoming.length ≤ budget) :
    Tallied parser.upcoming (fun _ => held) held (parameters budget)
      parser := by
  rw [parameters]
  refine .peek ?_
  split
  · exact .past (.pure le_rfl)
  · refine .expect (by decide) fun length _ => .current ?_
    refine (moreParameters_tallied budget (by omega)).bind fun _ => ?_
    exact .expect (by decide) fun _ _ => .pure le_rfl

/-- A value that is put into a larger one leaves the parser as it is. -/
theorem final_map
    {α β : Type} (step : Watched α) (build : α → β) (parser : Parser) :
    final (step >>= fun value => pure (build value)).run parser =
      final step.run parser := by
  rw [run_bind]
  cases outcome : step.run parser with
  | ok value after =>
      rw [final_of_ok outcome, final, bind_ok outcome]
      rfl
  | error diagnostic after =>
      rw [final_of_error outcome, final_of_error (bind_error outcome)]

/-- A block goes on to its closing brace or to the end of the input. -/
theorem blockStatements_closes
    (budget : Nat) {parser : Parser} {input : List Lexeme}
    (stands : parser.StandsIn input)
    (enough : 5 + 8 * input.length ≤ budget) :
    (final (blockStatements budget).run parser).current.kind =
        .symbol .rightBrace ∨
      (final (blockStatements budget).run parser).current.kind =
        .endOfInput := by
  induction budget generalizing parser input with
  | zero => omega
  | succ budget induction =>
      rw [blockStatements, final, run_bind, run_current, ParseM.current_bind]
      by_cases closing : parser.current.kind = .symbol .rightBrace
      · simp only [closing, if_true]
        exact .inl closing
      by_cases atEnd : parser.current.kind = .endOfInput
      · simp only [atEnd, if_true]
        exact .inr atEnd
      simp only [closing, atEnd, if_false]
      -- A statement gives a result or none, but does not stop.
      have read : (statement budget).run parser =
          .ok (Grammar.statement budget parser).1
            (Grammar.statement budget parser).2 := by
        rw [statement_run]
        rfl
      have length := stands.length_lt atEnd
      have rest := length_le read
      have later := induction
        (Grammar.statement budget parser).2.standsIn_advance (by omega)
      rw [run_bind, bind_ok read]
      rwa [← final_map] at later

/-- An expression from the next lexeme on. -/
theorem Tallied.next
    {β : Type} {target : β → Nat} {held budget : Nat} {level : Precedence}
    {parser : Parser} {next : Expr → Watched β}
    (start : Tallied parser.advance.upcoming Expr.nodes 0
      (expression budget level) parser.advance)
    (second : ∀ {tree : Expr} {middle : Parser},
      middle.upcoming.length ≤ parser.advance.upcoming.length →
      Tallied middle.upcoming target (held + tree.nodes) (next tree) middle) :
    Tallied parser.upcoming target held
      (Watched.advance >>= fun _ => expression budget level >>= next)
      parser :=
  .past ((start.frame held).bind fun outcome => second (length_le outcome))

mutual

theorem expression_tallied :
    ∀ (budget : Nat) (level : Precedence) {parser : Parser}
      {input : List Lexeme},
      parser.StandsIn input → 2 + 8 * input.length ≤ budget →
      Tallied parser.upcoming Expr.nodes 0 (expression budget level) parser
  | 0, _, _, _, _, enough => by omega
  | budget + 1, level, parser, input, stands, enough => by
    rw [expression]
    refine (operand_tallied budget stands (by omega)).bind
      fun {left middle} outcome => ?_
    have inside : parser.current.kind ≠ .endOfInput := by
      intro atEnd
      rw [operand_run] at outcome
      exact Grammar.operand_ne_ok_of_endOfInput atEnd outcome
    have length := stands.length_lt inside
    have rest := length_le outcome
    exact operators_tallied budget level left (by omega)

theorem operators_tallied :
    ∀ (budget : Nat) (level : Precedence) (left : Expr) {parser : Parser},
      1 + 8 * parser.upcoming.length ≤ budget →
      Tallied parser.upcoming Expr.nodes left.nodes
        (operators budget level left) parser
  | 0, _, _, _, enough => by omega
  | budget + 1, level, left, parser, enough => by
    rw [operators]
    refine .peek ?_
    split
    · next above =>
      have inside : parser.peek ≠ .endOfInput := by
        intro atEnd
        rw [atEnd] at above
        exact absurd above (Nat.not_lt_zero _)
      have length := Parser.length_advance_lt inside
      refine .past ((extend_tallied budget left (by omega)).bind
        fun {larger middle} outcome => ?_)
      have rest := length_le outcome
      exact operators_tallied budget level larger (by omega)
    · exact .pure le_rfl

theorem extend_tallied :
    ∀ (budget : Nat) (left : Expr) {parser : Parser},
      5 + 8 * parser.upcoming.length ≤ budget →
      Tallied parser.upcoming Expr.nodes left.nodes (extend budget left) parser
  | 0, _, _, enough => by omega
  | budget + 1, left, parser, enough => by
    rw [extend]
    refine .current ?_
    split
    · exact call_tallied budget left (by omega)
    · exact index_tallied budget left (by omega)
    · split
      · exact binary_tallied budget _ _ left (by omega)
      · exact .pure le_rfl
    · exact .pure le_rfl

theorem binary_tallied :
    ∀ (budget : Nat) (operator : BinaryOp) (level : Precedence) (left : Expr)
      {parser : Parser},
      3 + 8 * parser.upcoming.length ≤ budget →
      Tallied parser.upcoming Expr.nodes left.nodes
        (binary budget operator level left) parser
  | 0, _, _, _, _, enough => by omega
  | budget + 1, operator, level, left, parser, enough => by
    rw [binary]
    exact .next (expression_tallied budget level parser.standsIn_advance
      (by omega)) fun _ => .pure (by rw [Expr.nodes])

theorem call_tallied :
    ∀ (budget : Nat) (callee : Expr) {parser : Parser},
      4 + 8 * parser.upcoming.length ≤ budget →
      Tallied parser.upcoming Expr.nodes callee.nodes (call budget callee)
        parser
  | 0, _, _, enough => by omega
  | budget + 1, callee, parser, enough => by
    rw [call]
    exact ((expressionList_tallied budget (by decide) (by omega)).frame
      callee.nodes).map fun _ => by rw [Expr.nodes]

theorem index_tallied :
    ∀ (budget : Nat) (collection : Expr) {parser : Parser},
      3 + 8 * parser.upcoming.length ≤ budget →
      Tallied parser.upcoming Expr.nodes collection.nodes
        (index budget collection) parser
  | 0, _, _, enough => by omega
  | budget + 1, collection, parser, enough => by
    rw [index]
    refine .next (expression_tallied budget .lowest parser.standsIn_advance
      (by omega)) fun _ => ?_
    exact .expect (by decide) fun _ _ => .pure (by rw [Expr.nodes])

theorem operand_tallied :
    ∀ (budget : Nat) {parser : Parser} {input : List Lexeme},
      parser.StandsIn input → 1 + 8 * input.length ≤ budget →
      Tallied parser.upcoming Expr.nodes 0 (operand budget) parser
  | 0, _, _, _, enough => by omega
  | budget + 1, parser, input, stands, enough => by
    rw [operand]
    refine .current ?_
    by_cases atEnd : parser.current.kind = .endOfInput
    · rw [atEnd]
      exact .noOperand
    have length := stands.length_lt atEnd
    split
    · exact .pure (by rw [Expr.nodes])
    · exact .pure (by rw [Expr.nodes])
    · split
      · exact .pure (by rw [Expr.nodes])
      · exact .stop _
    · exact .pure (by rw [Expr.nodes])
    · exact .pure (by rw [Expr.nodes])
    · exact .pure (by rw [Expr.nodes])
    · exact unary_tallied budget .not (by omega)
    · exact unary_tallied budget .negate (by omega)
    · exact grouped_tallied budget (by omega)
    · exact conditional_tallied budget (by omega)
    · exact function_tallied budget (by omega)
    · exact array_tallied budget (by omega)
    · exact hash_tallied budget (by omega)
    · exact .noOperand

theorem unary_tallied :
    ∀ (budget : Nat) (operator : UnaryOp) {parser : Parser},
      3 + 8 * parser.upcoming.length ≤ budget →
      Tallied parser.upcoming Expr.nodes 0 (unary budget operator) parser
  | 0, _, _, enough => by omega
  | budget + 1, operator, parser, enough => by
    rw [unary]
    exact .next (expression_tallied budget .unary parser.standsIn_advance
      (by omega)) fun _ => .pure (by rw [Expr.nodes, Nat.zero_add])

theorem grouped_tallied :
    ∀ (budget : Nat) {parser : Parser},
      3 + 8 * parser.upcoming.length ≤ budget →
      Tallied parser.upcoming Expr.nodes 0 (grouped budget) parser
  | 0, _, enough => by omega
  | budget + 1, parser, enough => by
    rw [grouped]
    refine .next (expression_tallied budget .lowest parser.standsIn_advance
      (by omega)) fun _ => ?_
    exact .expect (by decide) fun _ _ => .pure (by rw [Nat.zero_add])

theorem conditional_tallied :
    ∀ (budget : Nat) {parser : Parser},
      7 + 8 * parser.upcoming.length ≤ budget →
      Tallied parser.upcoming Expr.nodes 0 (conditional budget) parser
  | 0, _, enough => by omega
  | budget + 1, parser, enough => by
    rw [conditional]
    have ahead := (Parser.Reaches.advance parser).length_le
    refine .next (expression_tallied budget .lowest parser.standsIn_advance
      (by omega)) fun {condition middle} behind => ?_
    refine .expect (by decide) fun length opens => ?_
    refine ((block_tallied budget opens (by omega)).frame
      (0 + condition.nodes)).bind fun {consequence closed} outcome => ?_
    have rest := length_le outcome
    have further := (Parser.Reaches.advance closed).length_le
    refine .peek ?_
    split
    · refine .past (.expect (by decide) fun lengthBrace opens => ?_)
      refine ((block_tallied budget opens (by omega)).frame
        (0 + condition.nodes + Stmt.nodesList consequence)).map
          fun alternative => ?_
      rw [Expr.nodes, Stmt.nodesOption, Nat.zero_add]
    · refine .pure ?_
      rw [Expr.nodes, Stmt.nodesOption, Nat.zero_add, Nat.add_zero]

theorem function_tallied :
    ∀ (budget : Nat) {parser : Parser},
      7 + 8 * parser.upcoming.length ≤ budget →
      Tallied parser.upcoming Expr.nodes 0 (function budget) parser
  | 0, _, enough => by omega
  | budget + 1, parser, enough => by
    rw [function]
    refine .expect (by decide) fun length _ => ?_
    refine (parameters_tallied budget (by omega)).bind fun outcome => ?_
    have rest := length_le outcome
    refine .expect (by decide) fun lengthBrace opens => ?_
    exact (block_tallied budget opens (by omega)).map fun _ => by
      rw [Expr.nodes]

theorem array_tallied :
    ∀ (budget : Nat) {parser : Parser},
      4 + 8 * parser.upcoming.length ≤ budget →
      Tallied parser.upcoming Expr.nodes 0 (array budget) parser
  | 0, _, enough => by omega
  | budget + 1, parser, enough => by
    rw [array]
    exact (expressionList_tallied budget (by decide) (by omega)).map
      fun _ => by rw [Expr.nodes]

theorem hash_tallied :
    ∀ (budget : Nat) {parser : Parser},
      4 + 8 * parser.upcoming.length ≤ budget →
      Tallied parser.upcoming Expr.nodes 0 (hash budget) parser
  | 0, _, enough => by omega
  | budget + 1, parser, enough => by
    rw [hash]
    exact (hashEntries_tallied budget (by omega)).map fun _ => by
      rw [Expr.nodes]

theorem expressionList_tallied :
    ∀ (budget : Nat) {close : Kind} {parser : Parser},
      close ≠ .endOfInput →
      3 + 8 * parser.upcoming.length ≤ budget →
      Tallied parser.upcoming Expr.nodesList 0 (expressionList budget close)
        parser
  | 0, _, _, _, enough => by omega
  | budget + 1, close, parser, inside, enough => by
    rw [expressionList]
    have ahead := (Parser.Reaches.advance parser).length_le
    refine .peek ?_
    split
    · exact .past (.pure (by rw [Expr.nodesList]))
    · refine .next (expression_tallied budget .lowest parser.standsIn_advance
        (by omega)) fun {first middle} behind => ?_
      refine ((moreExpressions_tallied budget (by omega)).frame
        (0 + first.nodes)).bind fun _ => ?_
      exact .expect inside fun _ _ => .pure (by
        rw [Expr.nodesList, Nat.zero_add])

theorem moreExpressions_tallied :
    ∀ (budget : Nat) {parser : Parser},
      1 + 8 * parser.upcoming.length ≤ budget →
      Tallied parser.upcoming Expr.nodesList 0 (moreExpressions budget) parser
  | 0, _, enough => by omega
  | budget + 1, parser, enough => by
    rw [moreExpressions]
    refine .peek ?_
    split
    · next comma =>
      have inside : parser.peek ≠ .endOfInput := by
        rw [comma]
        exact nofun
      have length := Parser.length_advance_lt inside
      have ahead := (Parser.Reaches.advance parser.advance).length_le
      refine .past (.next (expression_tallied budget .lowest
        parser.advance.standsIn_advance (by omega))
          fun {first middle} behind => ?_)
      exact ((moreExpressions_tallied budget (by omega)).frame
        (0 + first.nodes)).map fun _ => by rw [Expr.nodesList, Nat.zero_add]
    · exact .pure (by rw [Expr.nodesList])

theorem hashEntries_tallied :
    ∀ (budget : Nat) {parser : Parser},
      3 + 8 * parser.upcoming.length ≤ budget →
      Tallied parser.upcoming Expr.nodesPairs 0 (hashEntries budget) parser
  | 0, _, enough => by omega
  | budget + 1, parser, enough => by
    have entries : ∀ {key value : Expr} {place : Parser},
        place.upcoming.length < parser.upcoming.length →
        Tallied place.upcoming Expr.nodesPairs (key.nodes + value.nodes)
          (hashEntries budget >>= fun entries =>
            pure ((key, value) :: entries)) place := by
      intro key value place length
      exact ((hashEntries_tallied budget (by omega)).frame
        (key.nodes + value.nodes)).map fun _ => by rw [Expr.nodesPairs]
    rw [hashEntries]
    have ahead := (Parser.Reaches.advance parser).length_le
    refine .peek ?_
    split
    · exact .past (.pure (by rw [Expr.nodesPairs]))
    · refine .next (expression_tallied budget .lowest parser.standsIn_advance
        (by omega)) fun {key middle} behind => ?_
      refine .expect (by decide) fun length _ => ?_
      rw [Nat.zero_add]
      refine .next (expression_tallied budget .lowest
        middle.advance.standsIn_advance (by omega))
          fun {value last} behindValue => ?_
      have further := (Parser.Reaches.advance middle.advance).length_le
      refine .peek ?_
      split
      · exact .expect (by decide) fun _ _ => entries (by omega)
      · exact entries (by omega)

theorem block_tallied :
    ∀ (budget : Nat) {parser : Parser},
      parser.current.kind = .symbol .leftBrace →
      6 + 8 * parser.upcoming.length ≤ budget →
      Tallied parser.upcoming Stmt.nodesList 0 (block budget) parser
  | 0, _, _, enough => by omega
  | budget + 1, parser, opens, enough => by
    rw [block]
    exact .asBlock (.advance (blockStatements_tallied budget
      parser.standsIn_advance (by omega))) opens
        (blockStatements_closes budget parser.standsIn_advance (by omega))

theorem blockStatements_tallied :
    ∀ (budget : Nat) {parser : Parser} {input : List Lexeme},
      parser.StandsIn input → 5 + 8 * input.length ≤ budget →
      Tallied input Stmt.nodesList 0 (blockStatements budget) parser
  | 0, _, _, _, enough => by omega
  | budget + 1, parser, input, stands, enough => by
    rw [blockStatements]
    refine .current ?_
    dsimp only
    split
    · exact .weaken (.pure (by rw [Stmt.nodesList])) stands.upcoming
    · split
      · exact .weaken (.stop _) stands.upcoming
      · next inside =>
        have length := stands.length_lt inside
        refine ((statement_tallied budget (by omega)).weaken
          (stands.current inside)).bind fun {first middle} outcome => ?_
        have rest := length_le outcome
        exact .advance (((blockStatements_tallied budget
          middle.standsIn_advance (by omega)).frame _).map fun _ => by
            rw [Stmt.nodesList_append])

theorem statement_tallied :
    ∀ (budget : Nat) {parser : Parser},
      12 + 8 * parser.upcoming.length ≤ budget →
      Tallied (parser.current :: parser.upcoming)
        (fun result => Stmt.nodesList result.toList) 0 (statement budget)
        parser
  | 0, _, enough => by omega
  | budget + 1, parser, enough => by
    rw [statement]
    refine .asStatement fun _ => .current ?_
    split
    · exact definition_tallied budget (by omega)
    · exact definition_tallied budget (by omega)
    · exact result_tallied budget (by omega)
    · exact expressionStatement_tallied budget (by omega)

theorem definition_tallied :
    ∀ (budget : Nat) {parser : Parser},
      3 + 8 * parser.upcoming.length ≤ budget →
      Tallied parser.upcoming Stmt.nodes 1 (definition budget) parser
  | 0, _, enough => by omega
  | budget + 1, parser, enough => by
    rw [definition]
    refine .expect (by decide) fun length _ => .current ?_
    refine .expect (by decide) fun lengthAssign _ => ?_
    exact .next (expression_tallied budget .lowest
      (Parser.standsIn_advance _) (by omega)) fun _ =>
        .skipSemicolon (by rw [Stmt.nodes])

theorem result_tallied :
    ∀ (budget : Nat) {parser : Parser},
      3 + 8 * parser.upcoming.length ≤ budget →
      Tallied parser.upcoming Stmt.nodes 1 (result budget) parser
  | 0, _, enough => by omega
  | budget + 1, parser, enough => by
    rw [result]
    exact .next (expression_tallied budget .lowest parser.standsIn_advance
      (by omega)) fun _ => .skipSemicolon (by rw [Stmt.nodes])

theorem expressionStatement_tallied :
    ∀ (budget : Nat) {parser : Parser},
      11 + 8 * parser.upcoming.length ≤ budget →
      Tallied parser.upcoming Stmt.nodes 1 (expressionStatement budget) parser
  | 0, _, enough => by omega
  | budget + 1, parser, enough => by
    rw [expressionStatement]
    have stands : parser.StandsIn (parser.current :: parser.upcoming) :=
      ⟨List.suffix_cons _ _, fun _ => List.suffix_refl _⟩
    have start := expression_tallied budget .lowest stands (by
      rw [List.length_cons]
      omega)
    exact (start.frame 1).bind fun _ => .skipSemicolon (by rw [Stmt.nodes])

end

theorem statements_tallied
    (budget : Nat) {parser : Parser} {input : List Lexeme}
    (stands : parser.StandsIn input)
    (enough : 5 + 8 * input.length ≤ budget) :
    Tallied input Program.nodes 0 (statements budget) parser := by
  induction budget generalizing parser input with
  | zero => omega
  | succ budget induction =>
      rw [statements]
      refine .current ?_
      split
      · exact .weaken (.pure (by rw [Program.nodes, Stmt.nodesList]))
          stands.upcoming
      · next inside =>
        have length := stands.length_lt inside
        refine ((statement_tallied budget (by omega)).weaken
          (stands.current inside)).bind fun {first middle} outcome => ?_
        have rest := length_le outcome
        exact .advance (((induction middle.standsIn_advance
          (by omega)).frame _).map fun _ => by
            rw [Program.nodes, Stmt.nodesList_append, Program.nodes])

end Watched

/-! ## The account of a source -/

namespace Visit

/-- The visits of the parser that reads some lexemes. -/
def ofLexemes (input : List Lexeme) : List Visit :=
  (Watched.statements (Parser.ofLexemes input).budget).visits
    (Parser.ofLexemes input)

/-- The visits of the parser that reads a source. -/
def ofSource (source : String) : List Visit :=
  ofLexemes (lexemes source)

/-- The visits lead to the diagnostics of the lexemes. -/
theorem path_ofLexemes (input : List Lexeme) :
    Path (Parser.ofLexemes input) (ofLexemes input)
      (Parser.ofLexemes input).program.2 := by
  have path := (Watched.statements (Parser.ofLexemes input).budget).path
    (Parser.ofLexemes input)
  rwa [Watched.statements_run] at path

end Visit

theorem Parser.standsIn_ofLexemes (input : List Lexeme) :
    (ofLexemes input).StandsIn input := by
  cases input with
  | nil => exact ⟨List.suffix_refl _, fun inside => (inside rfl).elim⟩
  | cons first rest =>
      exact ⟨List.suffix_cons first rest, fun _ => List.suffix_refl _⟩

theorem Watched.tallied_ofLexemes (input : List Lexeme) :
    Tallied input Program.nodes 0
      (statements (Parser.ofLexemes input).budget)
      (Parser.ofLexemes input) := by
  refine statements_tallied _ (Parser.standsIn_ofLexemes input) ?_
  cases input with
  | nil => decide
  | cons first rest =>
      show 5 + 8 * (rest.length + 1) ≤ 8 * (rest.length + 2)
      omega

/-- The parser that is watched gives the program and the diagnostics. -/
theorem Watched.run_ofLexemes (input : List Lexeme) :
    (statements (Parser.ofLexemes input).budget).run
        (Parser.ofLexemes input) =
      .ok (parseLexemes input).program (Parser.ofLexemes input).program.2 := by
  rw [statements_run, parseLexemes_eq, Parser.advance_before]
  rfl

theorem parseLexemes_diagnostics (input : List Lexeme) :
    (parseLexemes input).diagnostics =
      (Visit.ofLexemes input).flatMap Visit.recorded := by
  have clean : (Parser.ofLexemes input).diagnostics = #[] := by
    cases input <;> rfl
  have recorded := (Visit.path_ofLexemes input).recorded
  rw [clean, List.nil_append] at recorded
  exact recorded

/-- The tries pay for the diagnostics and for the nodes of the program. -/
theorem parseLexemes_count_le (input : List Lexeme) :
    (parseLexemes input).diagnostics.length +
        (parseLexemes input).program.nodes ≤
      Visit.tries (Visit.ofLexemes input) := by
  have clean : (Parser.ofLexemes input).diagnostics.size = 0 := by
    cases input <;> rfl
  have count := (Watched.tallied_ofLexemes input).gives
    (Watched.run_ofLexemes input)
  rw [clean, Nat.zero_add, ← Array.length_toList] at count
  exact count

/-- Whether a token is neither the end of the input nor a semicolon. -/
def Token.isProper (token : Token) : Bool :=
  token.kind ≠ .endOfInput ∧ token.kind ≠ .symbol .semicolon

/-- Statements are tried at different tokens of a source. -/
theorem Visit.tries_ofSource_le (source : String) :
    tries (ofSource source) ≤ (tokenize source).countP Token.isProper := by
  have places := (Watched.tallied_ofLexemes (lexemes source)).ordered.sublist
  calc
    tries (ofSource source)
        = ((statements (ofSource source)).map
            fun visit => visit.start.current).countP
              (fun lexeme => lexeme.kind ≠ .symbol .semicolon) := by
          rw [List.countP_map]
          rfl
    _ ≤ (lexemes source).countP
          (fun lexeme => lexeme.kind ≠ .symbol .semicolon) :=
        places.countP_le
    _ = (lexemes source).countP
          (fun lexeme => lexeme.kind ≠ .endOfInput ∧
            lexeme.kind ≠ .symbol .semicolon) := by
        refine List.countP_congr fun lexeme member => ?_
        simp [kind_ne_endOfInput_of_mem_lexemes member]
    _ ≤ (stream source).countP
          (fun lexeme => lexeme.kind ≠ .endOfInput ∧
            lexeme.kind ≠ .symbol .semicolon) := by
        rw [stream_eq, List.countP_append]
        exact Nat.le_add_right _ _
    _ = (tokenize source).countP Token.isProper := by
        rw [stream, List.countP_map]
        rfl

/--
The parser comes to an end with budget left.  Every statement that it tries
starts at a lexeme of its own; at another lexeme than a semicolon it is read and
has no diagnostic of its own, or is not read and has exactly one, those inside
its blocks aside.  So the diagnostics and the statements at all depths of the
program are together no more than the tokens that are not semicolons.
-/
theorem parse_accounts (source : String) :
    (Watched.statements (Parser.ofSource source).budget).run
        (Parser.ofSource source) =
      .ok (parse source).program (Parser.ofSource source).program.2 ∧
    (∀ visit ∈ Visit.all (Visit.ofSource source),
      visit.part ≠ .exhausted) ∧
    (parse source).diagnostics.length + (parse source).program.nodes ≤
      (tokenize source).countP Token.isProper ∧
    (∀ visit ∈ Visit.statements (Visit.ofSource source),
      visit.start.current :: visit.start.upcoming <:+ lexemes source) ∧
    (Visit.statements (Visit.ofSource source)).Pairwise (fun visit later =>
      later.start.upcoming.length < visit.start.upcoming.length) ∧
    (∀ visit ∈ Visit.statements (Visit.ofSource source),
      visit.start.current.kind ≠ .symbol .semicolon →
      (∃ node, visit.part = .statement (some node) ∧ visit.Adds []) ∨
        (visit.part = .statement none ∧
          ∃ diagnostic, visit.Adds [diagnostic])) ∧
    (∀ visit ∈ Visit.all (Visit.ofSource source),
      visit.part = .block → visit.Adds []) ∧
    (parse source).diagnostics =
      (Visit.ofSource source).flatMap Visit.recorded := by
  have tallied := Watched.tallied_ofLexemes (lexemes source)
  have path := Visit.path_ofLexemes (lexemes source)
  refine ⟨Watched.run_ofLexemes (lexemes source),
    fun visit member => (tallied.settled visit member).ne_exhausted,
    (parseLexemes_count_le (lexemes source)).trans
      (Visit.tries_ofSource_le source),
    tallied.ordered.suffix, tallied.ordered.pairwise, ?_, ?_,
    parseLexemes_diagnostics (lexemes source)⟩
  · intro visit member proper
    rcases List.mem_filter.1 member with ⟨inside, statement⟩
    exact (path.lawful visit inside).adds statement proper
  · intro visit member isBlock
    have lawful := path.lawful visit member
    rwa [Visit.Lawful, isBlock] at lawful

/-- The bound is reached: two diagnostics and one statement at three tokens. -/
example :
    (parse "] x ; )").diagnostics.length + (parse "] x ; )").program.nodes =
      (tokenize "] x ; )").countP Token.isProper := by
  decide +kernel

end Bhasha
