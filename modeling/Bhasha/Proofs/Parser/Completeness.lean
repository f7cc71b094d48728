import Bhasha.Proofs.Numeral
import Bhasha.Proofs.Parser.Reading

/-!
# Completeness of the parser

The parser reads every phrase of the grammar as the tree that is derived from
it, without a diagnostic, if its budget is eight for each lexeme of the phrase.

The productions of the lower strata are recursive on the left, but the parser
never reads a left operand on its own: it reads an operand and then runs its
loop over the operators.  So an expression is read completely when reading it
comes to the same as standing behind it with its tree as the expression so far
and going on with the loop.  This form composes on the left.  Each production
has its own lemma; the derivations are put together at the end.
-/

namespace Bhasha

namespace Grammar

open ParseM Step

/-! ## The loop over the operators -/

/-- The loop ends in front of what binds no tighter than its level. -/
theorem operators_stop
    {budget : Nat} {level : Precedence} {tree : Expr} {parser : Parser}
    (stops : (Precedence.ofKind parser.peek).rank ≤ level.rank) :
    operators budget level tree parser = .ok tree parser := by
  cases budget with
  | zero => rfl
  | succ budget =>
      rw [operators, peek_bind, if_neg (Nat.not_lt.2 stops)]
      rfl

/-- The loop goes on with what binds tighter than its level. -/
theorem operators_go
    {budget : Nat} {level : Precedence} {left larger : Expr}
    {parser after : Parser}
    (above : level.rank < (Precedence.ofKind parser.peek).rank)
    (extends_ : extend budget left parser.advance = .ok larger after) :
    operators (budget + 1) level left parser =
      operators budget level larger after := by
  rw [operators, peek_bind, if_pos above, advance_bind, bind_ok extends_]

/-- A level whose stratum is loose enough lies below an operator's stratum. -/
theorem rank_lt_of_stratum_le
    {level : Precedence} {stratum : Stratum}
    (tight : level.stratum.rank ≤ stratum.rank)
    (low : level.rank < Stratum.applied.rank)
    (loop : stratum ≠ .signed) :
    level.rank < stratum.rank := by
  revert tight low loop
  cases level <;> cases stratum <;> decide

/--
An expression of a stratum ends in front of a kind that binds no tighter.  The
second branch of a conditional always belongs to what stands before it.
-/
structure EndsBefore (rank : Nat) (kind : Kind) : Prop where
  loose : (Precedence.ofKind kind).rank ≤ rank
  other : kind ≠ .keyword .alternative

/-- Every expression ends in front of a kind that no operator has. -/
theorem EndsBefore.of_eq
    {kind found : Kind}
    (equal : found = kind)
    (loose : (Precedence.ofKind kind).rank = 0)
    (other : kind ≠ .keyword .alternative) :
    EndsBefore 0 found := by
  subst equal
  exact ⟨Nat.le_of_eq loose, other⟩

theorem EndsBefore.mono
    {loose tight : Nat} {kind : Kind}
    (ends : EndsBefore loose kind)
    (order : loose ≤ tight) :
    EndsBefore tight kind :=
  ⟨ends.loose.trans order, ends.other⟩

/--
Reading a phrase from its first lexeme on comes to the same as going on behind
it with its tree.  The loop that goes on has lost at most one unit of its
budget for each lexeme.
-/
def ExpressionComplete (stratum : Stratum) (phrase : List Lexeme)
    (tree : Expr) : Prop :=
  ∀ (budget : Nat) (level : Precedence) (parser after : Parser),
    parser.Reads phrase after →
    8 * phrase.length ≤ budget →
    level.stratum.rank ≤ stratum.rank →
    level.rank < Stratum.applied.rank →
    EndsBefore stratum.rank after.peek →
    ∃ left, budget ≤ left + phrase.length ∧
      expression budget level parser.advance = operators left level tree after

/-- Reading items and their closing delimiter gives their trees. -/
def ItemsComplete (phrase : List Lexeme) (trees : List Expr) : Prop :=
  ∀ (budget : Nat) (close : Kind) (closing : String)
    (parser after : Parser),
    parser.Reads (phrase ++ [⟨close, closing⟩]) after →
    close = .symbol .rightParen ∨ close = .symbol .rightBracket →
    8 * (phrase.length + 1) ≤ budget →
    expressionList budget close parser = .ok trees after

/--
Reading items after commas, up to what is no comma, gives their trees.  The
expression in front of them ends there.
-/
def MoreItemsComplete (phrase : List Lexeme) (trees : List Expr) : Prop :=
  ∀ (budget : Nat) (parser after : Parser),
    parser.Reads phrase after →
    8 * phrase.length < budget →
    EndsBefore 0 after.peek →
    after.peek ≠ .symbol .comma →
    EndsBefore 0 parser.peek ∧
      moreExpressions budget parser = .ok trees after

/-- Reading entries and their closing brace gives their trees. -/
def EntriesComplete (phrase : List Lexeme)
    (pairs : List (Expr × Expr)) : Prop :=
  ∀ (budget : Nat) (closing : String) (parser after : Parser),
    parser.Reads (phrase ++ [⟨.symbol .rightBrace, closing⟩]) after →
    8 * (phrase.length + 1) ≤ budget →
    hashEntries budget parser = .ok pairs after

/-- Reading a block gives its statements. -/
def BlockComplete (phrase : List Lexeme) (body : List Stmt) : Prop :=
  ∀ (budget : Nat) (parser after : Parser),
    parser.Reads phrase after →
    8 * phrase.length ≤ budget →
    parser.peek = .symbol .leftBrace ∧
      block budget parser.advance = .ok body after

/-- Reading the second branch of a conditional, if there is one. -/
inductive AlternativeComplete :
    List Lexeme → Option (List Stmt) → Prop where
  | none : AlternativeComplete [] none
  | some (branch : BlockComplete phrase body) :
      AlternativeComplete (⟨.keyword .alternative, word⟩ :: phrase)
        (some body)

/-! ## Parameters -/

theorem moreParameters_complete
    {phrase : List Lexeme} {names : List String}
    (derives : Phrase.MoreParameters phrase names)
    {budget : Nat} {parser after : Parser}
    (reads : parser.Reads phrase after)
    (cost : phrase.length < budget)
    (ends : after.peek ≠ .symbol .comma) :
    moreParameters budget parser = .ok names after := by
  induction derives generalizing budget parser with
  | none =>
      cases reads
      rcases Nat.exists_eq_add_of_le' (show 1 ≤ budget by omega) with
        ⟨budget, rfl⟩
      rw [moreParameters, peek_bind, if_neg ends]
      rfl
  | some _ induction =>
      rcases reads.uncons with ⟨found, -, reads⟩
      rcases reads.uncons with ⟨named, isName, reads⟩
      simp only [List.length_cons] at cost
      rcases Nat.exists_eq_add_of_le' (show 1 ≤ budget by omega) with
        ⟨budget, rfl⟩
      rw [moreParameters, peek_bind, if_pos found, advance_bind,
        bind_ok (expect_ok named), current_bind,
        bind_ok (induction reads (by omega)), isName]
      rfl

theorem parameters_complete
    {phrase : List Lexeme} {names : List String}
    (derives : Phrase.Parameters phrase names)
    {budget : Nat} {parser after : Parser} {closing : String}
    (reads : parser.Reads (phrase ++ [⟨.symbol .rightParen, closing⟩]) after)
    (cost : phrase.length < budget) :
    parameters budget parser = .ok names after := by
  cases derives with
  | none =>
      rcases Parser.Reads.single reads with ⟨found, -, rfl⟩
      rw [parameters, peek_bind, if_pos found]
      rfl
  | some more =>
      rw [List.cons_append] at reads
      rcases reads.uncons with ⟨named, isName, reads⟩
      rcases reads.split with ⟨middle, readsMore, readsClosing⟩
      rcases readsClosing.single with ⟨found, -, rfl⟩
      rw [List.length_cons] at cost
      rw [parameters, peek_bind, if_neg (by rw [named]; decide),
        bind_ok (expect_ok named), current_bind,
        bind_ok (moreParameters_complete more readsMore (by omega)
          (by rw [found]; decide)),
        bind_ok (expect_ok found), isName]
      rfl

/-! ## Expressions -/

namespace ExpressionComplete

variable {stratum : Stratum} {phrase : List Lexeme} {tree : Expr}
variable {budget : Nat} {parser after : Parser}

/-- An expression is read up to what binds no tighter than its level. -/
theorem whole
    {level : Precedence}
    (complete : ExpressionComplete stratum phrase tree)
    (reads : parser.Reads phrase after)
    (cost : 8 * phrase.length ≤ budget)
    (tight : level.stratum.rank ≤ stratum.rank)
    (low : level.rank < Stratum.applied.rank)
    (ends : EndsBefore level.rank after.peek) :
    expression budget level parser.advance = .ok tree after := by
  have bound : level.rank ≤ level.stratum.rank := by
    cases level
    case call => exact absurd low (by decide)
    all_goals decide
  rcases complete budget level parser after reads cost tight low
      (ends.mono (bound.trans tight)) with
    ⟨left, -, runs⟩
  rw [runs]
  exact operators_stop ends.loose

/-- An expression between delimiters is read up to the closing one. -/
theorem delimited
    (complete : ExpressionComplete .equality phrase tree)
    (reads : parser.Reads phrase after)
    (cost : 8 * phrase.length ≤ budget)
    (ends : EndsBefore 0 after.peek) :
    expression budget .lowest parser.advance = .ok tree after :=
  complete.whole reads cost (by decide) (by decide) ends

/-- What is read as an operand is read completely. -/
theorem of_operand
    (nonempty : 0 < phrase.length)
    (runs : ∀ {budget : Nat} {parser after : Parser},
      parser.Reads phrase after →
      8 * phrase.length ≤ budget + 1 →
      EndsBefore stratum.rank after.peek →
      operand budget parser.advance = .ok tree after) :
    ExpressionComplete stratum phrase tree := by
  intro budget level parser after reads cost _ _ ends
  cases budget with
  | zero => omega
  | succ budget =>
      refine ⟨budget, by omega, ?_⟩
      rw [expression, bind_ok (runs reads cost ends)]

/-- What is read as the loop goes on behind a left part is read completely. -/
theorem of_extend
    {leftPhrase rest : List Lexeme} {leftTree : Expr}
    {kind : Kind} {mark : String}
    (left : ExpressionComplete stratum leftPhrase leftTree)
    (loop : stratum ≠ .signed)
    (rank : (Precedence.ofKind kind).rank = stratum.rank)
    (other : kind ≠ .keyword .alternative)
    (runs : ∀ {budget : Nat} {parser after : Parser},
      parser.advance.current = ⟨kind, mark⟩ →
      parser.advance.Reads rest after →
      8 * (rest.length + 1) ≤ budget + 2 →
      EndsBefore stratum.rank after.peek →
      extend budget leftTree parser.advance = .ok tree after) :
    ExpressionComplete stratum (leftPhrase ++ ⟨kind, mark⟩ :: rest) tree := by
  intro budget level parser after reads cost tight low ends
  rcases reads.split with ⟨middle, readsLeft, readsRest⟩
  rcases readsRest.uncons with ⟨found, isMark, readsRest⟩
  simp only [List.length_append, List.length_cons] at cost ⊢
  rcases left budget level parser middle readsLeft (by omega) tight low
      ⟨by rw [found, rank], by rw [found]; exact other⟩ with
    ⟨remaining, enough, outcome⟩
  have above : level.rank < (Precedence.ofKind middle.peek).rank := by
    rw [found, rank]
    exact rank_lt_of_stratum_le tight low loop
  cases remaining with
  | zero => omega
  | succ remaining =>
      refine ⟨remaining, by omega, ?_⟩
      rw [outcome]
      exact operators_go above
        (runs isMark readsRest (by omega) ends)

/-! ### Productions -/

theorem tighter
    {loose tight : Stratum}
    (order : loose.rank ≤ tight.rank)
    (inner : ExpressionComplete tight phrase tree) :
    ExpressionComplete loose phrase tree := by
  intro budget level parser after reads cost above low ends
  exact inner budget level parser after reads cost (above.trans order) low
    (ends.mono order)

theorem binary
    {operator : BinaryOp} {tight : Stratum} {mark : String}
    {leftPhrase rightPhrase : List Lexeme} {leftTree rightTree : Expr}
    (order : operator.stratum.rank < tight.rank)
    (left : ExpressionComplete operator.stratum leftPhrase leftTree)
    (right : ExpressionComplete tight rightPhrase rightTree) :
    ExpressionComplete operator.stratum
      (leftPhrase ++ ⟨.symbol operator.symbol, mark⟩ :: rightPhrase)
      (.binary operator leftTree rightTree) := by
  have bound :
      (Precedence.ofSymbol operator.symbol).stratum.rank ≤ tight.rank := by
    have next :
        (Precedence.ofSymbol operator.symbol).stratum.rank =
          operator.stratum.rank + 1 := by
      cases operator <;> rfl
    omega
  have low :
      (Precedence.ofSymbol operator.symbol).rank < Stratum.applied.rank := by
    cases operator <;> decide
  have rank :
      (Precedence.ofKind (.symbol operator.symbol)).rank =
        operator.stratum.rank :=
    Precedence.rank_ofSymbol operator
  refine left.of_extend (by cases operator <;> decide) rank nofun ?_
  intro budget parser after isMark reads cost ends
  rcases Nat.exists_eq_add_of_le' (show 2 ≤ budget by omega) with ⟨budget, rfl⟩
  have runs :
      expression budget (Precedence.ofSymbol operator.symbol)
        parser.advance.advance = .ok rightTree after :=
    right.whole reads (by omega) bound low
      (by rw [Precedence.rank_ofSymbol]; exact ends)
  have step :
      extend (budget + 2) leftTree parser.advance =
        Grammar.binary (budget + 1) operator
          (Precedence.ofSymbol operator.symbol) leftTree
          parser.advance := by
    rw [extend, current_bind, isMark]
    cases operator <;> rfl
  rw [step, Grammar.binary, advance_bind, bind_ok runs]
  rfl

theorem call
    {opening closing : String}
    {calleePhrase : List Lexeme} {callee : Expr} {trees : List Expr}
    (left : ExpressionComplete .applied calleePhrase callee)
    (items : ItemsComplete phrase trees) :
    ExpressionComplete .applied
      (calleePhrase ++ ⟨.symbol .leftParen, opening⟩ ::
        (phrase ++ [⟨.symbol .rightParen, closing⟩]))
      (.call callee trees) := by
  refine left.of_extend (by decide) rfl nofun ?_
  intro budget parser after isMark reads cost _
  simp only [List.length_append, List.length_singleton] at cost
  rcases Nat.exists_eq_add_of_le' (show 2 ≤ budget by omega) with ⟨budget, rfl⟩
  rw [extend, current_bind, isMark]
  show Grammar.call (budget + 1) callee parser.advance = _
  rw [Grammar.call, bind_ok (items _ _ _ _ _ reads (.inl rfl) (by omega))]
  rfl

theorem index
    {opening closing : String}
    {collectionPhrase : List Lexeme} {collection : Expr}
    (left : ExpressionComplete .applied collectionPhrase collection)
    (position : ExpressionComplete .equality phrase tree) :
    ExpressionComplete .applied
      (collectionPhrase ++ ⟨.symbol .leftBracket, opening⟩ ::
        (phrase ++ [⟨.symbol .rightBracket, closing⟩]))
      (.index collection tree) := by
  refine left.of_extend (by decide) rfl nofun ?_
  intro budget parser after isMark reads cost _
  simp only [List.length_append, List.length_singleton] at cost
  rcases reads.split with ⟨middle, readsPosition, readsClosing⟩
  rcases readsClosing.single with ⟨found, -, rfl⟩
  rcases Nat.exists_eq_add_of_le' (show 2 ≤ budget by omega) with ⟨budget, rfl⟩
  rw [extend, current_bind, isMark]
  show Grammar.index (budget + 1) collection parser.advance = _
  rw [Grammar.index, advance_bind,
    bind_ok (position.delimited readsPosition (by omega)
      (.of_eq found rfl nofun)),
    bind_ok (expect_ok found)]
  rfl

theorem unary
    {operator : UnaryOp} {mark : String}
    (operand : ExpressionComplete .signed phrase tree) :
    ExpressionComplete .signed (⟨.symbol operator.symbol, mark⟩ :: phrase)
      (.unary operator tree) := by
  refine of_operand (by simp) ?_
  intro budget parser after reads cost ends
  rcases reads.uncons with ⟨-, isMark, reads⟩
  rw [List.length_cons] at cost
  rcases Nat.exists_eq_add_of_le' (show 2 ≤ budget by omega) with ⟨budget, rfl⟩
  have runs :
      expression budget .unary parser.advance.advance = .ok tree after :=
    operand.whole reads (by omega) (Nat.le_refl _) (by decide) ends
  have step :
      Grammar.operand (budget + 2) parser.advance =
        Grammar.unary (budget + 1) operator parser.advance := by
    rw [Grammar.operand, current_bind, isMark]
    cases operator <;> rfl
  rw [step, Grammar.unary, advance_bind, bind_ok runs]
  rfl

/-- A phrase of one lexeme that is an operand on its own. -/
theorem single
    {kind : Kind} {literal : String}
    (runs : ∀ {budget : Nat} {parser : Parser},
      parser.current = ⟨kind, literal⟩ →
      operand (budget + 1) parser = .ok tree parser) :
    ExpressionComplete stratum [⟨kind, literal⟩] tree := by
  refine of_operand (by simp) ?_
  intro budget parser after reads cost _
  rcases reads.single with ⟨-, isLexeme, rfl⟩
  rw [List.length_singleton] at cost
  rcases Nat.exists_eq_add_of_le' (show 1 ≤ budget by omega) with ⟨budget, rfl⟩
  exact runs isLexeme

theorem name {literal : String} :
    ExpressionComplete .applied [⟨.identifier, literal⟩] (.name literal) := by
  apply single
  intro budget parser isLexeme
  rw [operand, current_bind, isLexeme]
  rfl

theorem print {literal : String} :
    ExpressionComplete .applied [⟨.keyword .print, literal⟩]
      (.name literal) := by
  apply single
  intro budget parser isLexeme
  rw [operand, current_bind, isLexeme]
  rfl

theorem integer {literal : String} {value : Int64}
    (denotes : Numeral.Denotes literal value) :
    ExpressionComplete .applied [⟨.integer, literal⟩] (.integer value) := by
  apply single
  intro budget parser isLexeme
  rw [operand, current_bind, isLexeme]
  dsimp only
  rw [(Numeral.read?_eq_some_iff literal value).2 denotes]
  rfl

theorem string {literal : String} :
    ExpressionComplete .applied [⟨.string, literal⟩] (.string literal) := by
  apply single
  intro budget parser isLexeme
  rw [operand, current_bind, isLexeme]
  rfl

theorem truth {literal : String} :
    ExpressionComplete .applied [⟨.keyword .truth, literal⟩]
      (.boolean true) := by
  apply single
  intro budget parser isLexeme
  rw [operand, current_bind, isLexeme]
  rfl

theorem falsehood {literal : String} :
    ExpressionComplete .applied [⟨.keyword .falsehood, literal⟩]
      (.boolean false) := by
  apply single
  intro budget parser isLexeme
  rw [operand, current_bind, isLexeme]
  rfl

theorem grouped
    {opening closing : String}
    (inner : ExpressionComplete .equality phrase tree) :
    ExpressionComplete .applied
      (⟨.symbol .leftParen, opening⟩ ::
        (phrase ++ [⟨.symbol .rightParen, closing⟩]))
      tree := by
  refine of_operand (by simp) ?_
  intro budget parser after reads cost _
  rcases reads.uncons with ⟨-, isOpening, reads⟩
  rcases reads.split with ⟨middle, readsInner, readsClosing⟩
  rcases readsClosing.single with ⟨found, -, rfl⟩
  simp only [List.length_cons, List.length_append] at cost
  rcases Nat.exists_eq_add_of_le' (show 2 ≤ budget by omega) with ⟨budget, rfl⟩
  rw [operand, current_bind, isOpening]
  show Grammar.grouped (budget + 1) parser.advance = _
  rw [Grammar.grouped, advance_bind,
    bind_ok (inner.delimited readsInner (by omega)
      (.of_eq found rfl nofun)),
    bind_ok (expect_ok found)]
  rfl

theorem array
    {opening closing : String} {trees : List Expr}
    (items : ItemsComplete phrase trees) :
    ExpressionComplete .applied
      (⟨.symbol .leftBracket, opening⟩ ::
        (phrase ++ [⟨.symbol .rightBracket, closing⟩]))
      (.array trees) := by
  refine of_operand (by simp) ?_
  intro budget parser after reads cost _
  rcases reads.uncons with ⟨-, isOpening, reads⟩
  simp only [List.length_cons, List.length_append] at cost
  rcases Nat.exists_eq_add_of_le' (show 2 ≤ budget by omega) with ⟨budget, rfl⟩
  rw [operand, current_bind, isOpening]
  show Grammar.array (budget + 1) parser.advance = _
  rw [Grammar.array,
    bind_ok (items budget _ _ _ _ reads (.inr rfl) (by omega))]
  rfl

theorem hash
    {opening closing : String} {pairs : List (Expr × Expr)}
    (entries : EntriesComplete phrase pairs) :
    ExpressionComplete .applied
      (⟨.symbol .leftBrace, opening⟩ ::
        (phrase ++ [⟨.symbol .rightBrace, closing⟩]))
      (.hash pairs) := by
  refine of_operand (by simp) ?_
  intro budget parser after reads cost _
  rcases reads.uncons with ⟨-, isOpening, reads⟩
  simp only [List.length_cons, List.length_append] at cost
  rcases Nat.exists_eq_add_of_le' (show 2 ≤ budget by omega) with ⟨budget, rfl⟩
  rw [operand, current_bind, isOpening]
  show Grammar.hash (budget + 1) parser.advance = _
  rw [Grammar.hash, bind_ok (entries budget _ _ _ reads (by omega))]
  rfl

theorem conditional
    {word : String} {conditionPhrase blockPhrase branchPhrase : List Lexeme}
    {conditionTree : Expr} {body : List Stmt} {other : Option (List Stmt)}
    (condition : ExpressionComplete .equality conditionPhrase conditionTree)
    (consequence : BlockComplete blockPhrase body)
    (alternative : AlternativeComplete branchPhrase other) :
    ExpressionComplete .applied
      (⟨.keyword .conditional, word⟩ ::
        (conditionPhrase ++ (blockPhrase ++ branchPhrase)))
      (.conditional conditionTree body other) := by
  refine of_operand (by simp) ?_
  intro budget parser after reads cost ends
  rcases reads.uncons with ⟨-, isWord, reads⟩
  rcases reads.split with ⟨decided, readsCondition, reads⟩
  rcases reads.split with ⟨chosen, readsBlock, readsBranch⟩
  simp only [List.length_cons, List.length_append] at cost
  rcases Nat.exists_eq_add_of_le' (show 2 ≤ budget by omega) with ⟨budget, rfl⟩
  rcases consequence budget decided chosen readsBlock (by omega) with
    ⟨opens, runsBlock⟩
  rw [operand, current_bind, isWord]
  show Grammar.conditional (budget + 1) parser.advance = _
  rw [Grammar.conditional, advance_bind,
    bind_ok (condition.delimited readsCondition (by omega)
      (.of_eq opens rfl nofun)),
    bind_ok (expect_ok opens), bind_ok runsBlock, peek_bind]
  cases alternative with
  | none =>
      cases readsBranch
      rw [if_neg ends.other]
      rfl
  | some branch =>
      rcases readsBranch.uncons with ⟨found, -, readsBranch⟩
      rw [List.length_cons] at cost
      rcases branch budget _ _ readsBranch (by omega) with
        ⟨opensBranch, runsBranch⟩
      rw [if_pos found, advance_bind, bind_ok (expect_ok opensBranch),
        bind_ok runsBranch]
      rfl

theorem function
    {word opening closing : String}
    {namesPhrase blockPhrase : List Lexeme}
    {names : List String} {body : List Stmt}
    (parameters : Phrase.Parameters namesPhrase names)
    (block : BlockComplete blockPhrase body) :
    ExpressionComplete .applied
      (⟨.keyword .function, word⟩ :: ⟨.symbol .leftParen, opening⟩ ::
        (namesPhrase ++ ⟨.symbol .rightParen, closing⟩ :: blockPhrase))
      (.function names body) := by
  refine of_operand (by simp) ?_
  intro budget parser after reads cost _
  rcases reads.uncons with ⟨-, isWord, reads⟩
  rcases reads.uncons with ⟨opens, -, reads⟩
  rw [← List.singleton_append, ← List.append_assoc] at reads
  rcases reads.split with ⟨listed, readsNames, readsBlock⟩
  simp only [List.length_cons, List.length_append] at cost
  rcases Nat.exists_eq_add_of_le' (show 2 ≤ budget by omega) with ⟨budget, rfl⟩
  rcases block budget listed after readsBlock (by omega) with
    ⟨opensBlock, runsBlock⟩
  rw [operand, current_bind, isWord]
  show Grammar.function (budget + 1) parser.advance = _
  rw [Grammar.function, bind_ok (expect_ok opens),
    bind_ok (parameters_complete parameters readsNames (by omega)),
    bind_ok (expect_ok opensBlock), bind_ok runsBlock]
  rfl

end ExpressionComplete

/-! ## Items and entries -/

/-- The kinds with which neither an expression nor a statement starts. -/
def closers : List Kind :=
  [.symbol .rightParen, .symbol .rightBracket, .symbol .rightBrace,
    .symbol .semicolon, .keyword .alternative, .endOfInput]

theorem not_mem_closers_of_starts
    {kind : Kind}
    (starts : kind.Starts) :
    kind ∉ closers := by
  cases starts with
  | unary operator => cases operator <;> decide
  | _ => decide

/-- A parser in front of an expression sees a lexeme that starts one. -/
theorem starts_of_reads
    {phrase : List Lexeme} {parser after : Parser}
    (starts : ∃ first rest, phrase = first :: rest ∧ first.kind.Starts)
    (reads : parser.Reads phrase after) :
    parser.peek.Starts := by
  rcases starts with ⟨first, rest, rfl, isStart⟩
  rcases reads.uncons with ⟨found, -, -⟩
  rw [found]
  exact isStart

/-- No construct is closed in front of an expression. -/
theorem peek_ne_of_starts
    {phrase : List Lexeme} {parser after : Parser} {close : Kind}
    (starts : ∃ first rest, phrase = first :: rest ∧ first.kind.Starts)
    (reads : parser.Reads phrase after)
    (closes : close ∈ closers) :
    parser.peek ≠ close := by
  intro equal
  have isStart := starts_of_reads starts reads
  rw [equal] at isStart
  exact not_mem_closers_of_starts isStart closes

theorem MoreItemsComplete.none : MoreItemsComplete [] [] := by
  intro budget parser after reads cost ends last
  cases reads
  cases budget with
  | zero => omega
  | succ budget =>
      refine ⟨ends, ?_⟩
      rw [moreExpressions, peek_bind, if_neg last]
      rfl

theorem MoreItemsComplete.some
    {comma : String} {phrase rest : List Lexeme}
    {tree : Expr} {trees : List Expr}
    (first : ExpressionComplete .equality phrase tree)
    (more : MoreItemsComplete rest trees) :
    MoreItemsComplete (⟨.symbol .comma, comma⟩ :: (phrase ++ rest))
      (tree :: trees) := by
  intro budget parser after reads cost ends last
  rcases reads.uncons with ⟨found, -, reads⟩
  rcases reads.split with ⟨middle, readsFirst, readsMore⟩
  simp only [List.length_cons, List.length_append] at cost
  cases budget with
  | zero => omega
  | succ budget =>
      rcases more budget middle after readsMore (by omega) ends last with
        ⟨endsFirst, runsMore⟩
      refine ⟨.of_eq found rfl nofun, ?_⟩
      rw [moreExpressions, peek_bind, if_pos found, advance_bind,
        advance_bind,
        bind_ok (first.delimited readsFirst (by omega) endsFirst),
        bind_ok runsMore]
      rfl

theorem ItemsComplete.none : ItemsComplete [] [] := by
  intro budget close closing parser after reads _ cost
  rcases Parser.Reads.single reads with ⟨found, -, rfl⟩
  cases budget with
  | zero => omega
  | succ budget =>
      rw [expressionList, peek_bind, if_pos found]
      rfl

theorem ItemsComplete.some
    {phrase rest : List Lexeme} {tree : Expr} {trees : List Expr}
    (starts : ∃ first rest, phrase = first :: rest ∧ first.kind.Starts)
    (first : ExpressionComplete .equality phrase tree)
    (more : MoreItemsComplete rest trees) :
    ItemsComplete (phrase ++ rest) (tree :: trees) := by
  intro budget close closing parser after reads isClose cost
  rcases reads.split with ⟨listed, readsItems, readsClosing⟩
  rcases readsItems.split with ⟨middle, readsFirst, readsMore⟩
  rcases readsClosing.single with ⟨found, -, rfl⟩
  have goes : parser.peek ≠ close := by
    apply peek_ne_of_starts starts readsFirst
    rcases isClose with rfl | rfl <;> decide
  have ends : EndsBefore 0 listed.peek ∧ listed.peek ≠ .symbol .comma := by
    rcases isClose with rfl | rfl
    · exact ⟨.of_eq found rfl nofun, by rw [found]; nofun⟩
    · exact ⟨.of_eq found rfl nofun, by rw [found]; nofun⟩
  rw [List.length_append] at cost
  cases budget with
  | zero => omega
  | succ budget =>
      rcases more budget middle listed readsMore (by omega) ends.1 ends.2 with
        ⟨endsFirst, runsMore⟩
      rw [expressionList, peek_bind, if_neg goes, advance_bind,
        bind_ok (first.delimited readsFirst (by omega) endsFirst),
        bind_ok runsMore, bind_ok (expect_ok found)]
      rfl

theorem EntriesComplete.none : EntriesComplete [] [] := by
  intro budget closing parser after reads cost
  rcases Parser.Reads.single reads with ⟨found, -, rfl⟩
  cases budget with
  | zero => omega
  | succ budget =>
      rw [hashEntries, peek_bind, if_pos found]
      rfl

/-- A key and its value are read, whatever follows them. -/
theorem hashEntries_entry
    {keyPhrase valuePhrase : List Lexeme} {keyTree valueTree : Expr}
    {colon : String} {budget : Nat} {parser after : Parser}
    (starts : ∃ first rest, keyPhrase = first :: rest ∧ first.kind.Starts)
    (key : ExpressionComplete .equality keyPhrase keyTree)
    (value : ExpressionComplete .equality valuePhrase valueTree)
    (reads : parser.Reads
      (keyPhrase ++ ⟨.symbol .colon, colon⟩ :: valuePhrase) after)
    (cost : 8 * (keyPhrase.length + valuePhrase.length) ≤ budget)
    (ends : EndsBefore 0 after.peek) :
    hashEntries (budget + 1) parser =
      (do
        if (← peek) ≠ Kind.symbol .rightBrace then
          expect (.symbol .comma)
        let entries ← hashEntries budget
        pure ((keyTree, valueTree) :: entries)) after := by
  rcases reads.split with ⟨keyed, readsKey, reads⟩
  rcases reads.uncons with ⟨found, -, readsValue⟩
  have goes : parser.peek ≠ .symbol .rightBrace :=
    peek_ne_of_starts starts readsKey (by decide)
  rw [hashEntries, peek_bind, if_neg goes, advance_bind,
    bind_ok (key.delimited readsKey (by omega)
      (.of_eq found rfl nofun)),
    bind_ok (expect_ok found), advance_bind,
    bind_ok (value.delimited readsValue (by omega) ends)]

theorem EntriesComplete.last
    {keyPhrase valuePhrase : List Lexeme} {keyTree valueTree : Expr}
    {colon : String}
    (starts : ∃ first rest, keyPhrase = first :: rest ∧ first.kind.Starts)
    (key : ExpressionComplete .equality keyPhrase keyTree)
    (value : ExpressionComplete .equality valuePhrase valueTree) :
    EntriesComplete (keyPhrase ++ ⟨.symbol .colon, colon⟩ :: valuePhrase)
      [(keyTree, valueTree)] := by
  intro budget closing parser after reads cost
  rcases reads.split with ⟨listed, readsEntry, readsClosing⟩
  rcases readsClosing.single with ⟨found, -, -⟩
  simp only [List.length_append, List.length_cons] at cost
  cases budget with
  | zero => omega
  | succ budget =>
      rw [hashEntries_entry starts key value readsEntry (by omega)
        (.of_eq found rfl nofun), peek_bind,
        if_neg (not_not_intro found)]
      show (hashEntries budget >>= _) listed = _
      rw [bind_ok (EntriesComplete.none budget closing _ _ readsClosing
        (by simp; omega))]
      rfl

theorem EntriesComplete.some
    {keyPhrase valuePhrase rest : List Lexeme} {keyTree valueTree : Expr}
    {pairs : List (Expr × Expr)} {colon comma : String}
    (starts : ∃ first rest, keyPhrase = first :: rest ∧ first.kind.Starts)
    (key : ExpressionComplete .equality keyPhrase keyTree)
    (value : ExpressionComplete .equality valuePhrase valueTree)
    (more : EntriesComplete rest pairs) :
    EntriesComplete
      (keyPhrase ++ ⟨.symbol .colon, colon⟩ ::
        (valuePhrase ++ ⟨.symbol .comma, comma⟩ :: rest))
      ((keyTree, valueTree) :: pairs) := by
  intro budget closing parser after reads cost
  have regrouped :
      keyPhrase ++ ⟨.symbol .colon, colon⟩ ::
          (valuePhrase ++ ⟨.symbol .comma, comma⟩ :: rest) ++
          [⟨.symbol .rightBrace, closing⟩] =
        (keyPhrase ++ ⟨.symbol .colon, colon⟩ :: valuePhrase) ++
          ⟨.symbol .comma, comma⟩ ::
            (rest ++ [⟨.symbol .rightBrace, closing⟩]) := by
    simp
  rw [regrouped] at reads
  rcases reads.split with ⟨listed, readsEntry, readsMore⟩
  rcases readsMore.uncons with ⟨found, -, readsMore⟩
  simp only [List.length_append, List.length_cons] at cost
  cases budget with
  | zero => omega
  | succ budget =>
      rw [hashEntries_entry starts key value readsEntry (by omega)
        (.of_eq found rfl nofun), peek_bind,
        if_pos (by rw [found]; decide), bind_ok (expect_ok found)]
      show (hashEntries budget >>= _) listed.advance = _
      rw [bind_ok (more budget closing _ _ readsMore (by omega))]
      rfl

/-! ## Statements -/

/--
Reading a statement gives its tree and moves over the semicolon that may close
it.  No construct is closed in front of a statement.
-/
def StatementComplete (phrase : List Lexeme) (tree : Stmt) : Prop :=
  ∀ (budget : Nat) (parser after : Parser),
    parser.Reads phrase after →
    8 * phrase.length + 2 ≤ budget →
    EndsBefore 0 after.peek →
    parser.peek ∉ closers ∧
      statement budget parser.advance = (some tree, after.skipSemicolon)

theorem attempt_ok
    {α : Type} {step : ParseM α} {parser after : Parser} {value : α}
    (outcome : step parser = .ok value after) :
    attempt step parser = (some value, after) := by
  rw [attempt, outcome]

theorem definition_complete
    {phrase : List Lexeme} {tree : Expr} {name mark : String}
    {budget : Nat} {parser after : Parser}
    (value : ExpressionComplete .equality phrase tree)
    (reads : parser.Reads
      (⟨.identifier, name⟩ :: ⟨.symbol .assign, mark⟩ :: phrase) after)
    (cost : 8 * phrase.length ≤ budget)
    (ends : EndsBefore 0 after.peek) :
    definition (budget + 1) parser =
      .ok (.define name tree) after.skipSemicolon := by
  rcases reads.uncons with ⟨named, isName, reads⟩
  rcases reads.uncons with ⟨assigned, -, reads⟩
  rw [definition, bind_ok (expect_ok named), current_bind,
    bind_ok (expect_ok assigned), advance_bind,
    bind_ok (value.delimited reads cost ends), skipSemicolon_bind, isName]
  rfl

theorem StatementComplete.define
    {phrase : List Lexeme} {tree : Expr} {word name mark : String}
    {keyword : Keyword}
    (defines : keyword = .binding ∨ keyword = .number)
    (value : ExpressionComplete .equality phrase tree) :
    StatementComplete
      (⟨.keyword keyword, word⟩ :: ⟨.identifier, name⟩ ::
        ⟨.symbol .assign, mark⟩ :: phrase)
      (.define name tree) := by
  intro budget parser after reads cost ends
  rcases reads.uncons with ⟨found, isWord, reads⟩
  simp only [List.length_cons] at cost
  rcases Nat.exists_eq_add_of_le' (show 2 ≤ budget by omega) with ⟨budget, rfl⟩
  have runs :
      definition (budget + 1) parser.advance =
        .ok (.define name tree) after.skipSemicolon :=
    definition_complete value reads (by omega) ends
  rcases defines with rfl | rfl
  · refine ⟨by rw [found]; decide, ?_⟩
    rw [statement, isWord]
    exact attempt_ok runs
  · refine ⟨by rw [found]; decide, ?_⟩
    rw [statement, isWord]
    exact attempt_ok runs

theorem StatementComplete.result
    {phrase : List Lexeme} {tree : Expr} {word : String}
    (value : ExpressionComplete .equality phrase tree) :
    StatementComplete (⟨.keyword .result, word⟩ :: phrase)
      (.result tree) := by
  intro budget parser after reads cost ends
  rcases reads.uncons with ⟨found, isWord, reads⟩
  simp only [List.length_cons] at cost
  refine ⟨by rw [found]; decide, ?_⟩
  rcases Nat.exists_eq_add_of_le' (show 2 ≤ budget by omega) with ⟨budget, rfl⟩
  rw [statement, isWord]
  apply attempt_ok
  rw [Grammar.result, advance_bind,
    bind_ok (value.delimited reads (by omega) ends), skipSemicolon_bind]
  rfl

/-- A statement that starts like an expression is read as one. -/
theorem statement_of_starts
    {budget : Nat} {parser : Parser}
    (starts : parser.current.kind.Starts) :
    statement (budget + 1) parser =
      attempt (expressionStatement budget) parser := by
  rw [statement]
  cases starts' : parser.current.kind with
  | keyword keyword =>
      rw [starts'] at starts
      cases starts <;> rfl
  | symbol symbol =>
      rw [starts'] at starts
      cases symbol with
      | semicolon =>
          exact absurd (by decide) (not_mem_closers_of_starts starts)
      | _ => rfl
  | _ => rfl

theorem StatementComplete.expression
    {phrase : List Lexeme} {tree : Expr}
    (starts : ∃ first rest, phrase = first :: rest ∧ first.kind.Starts)
    (value : ExpressionComplete .equality phrase tree) :
    StatementComplete phrase (.expression tree) := by
  intro budget parser after reads cost ends
  have isStart := starts_of_reads starts reads
  refine ⟨not_mem_closers_of_starts isStart, ?_⟩
  have isCurrent : parser.advance.current.kind.Starts := by
    rcases starts with ⟨⟨kind, literal⟩, rest, rfl, starts⟩
    rcases reads.uncons with ⟨-, isFirst, -⟩
    rw [isFirst]
    exact starts
  rcases Nat.exists_eq_add_of_le' (show 2 ≤ budget by omega) with ⟨budget, rfl⟩
  rw [statement_of_starts isCurrent]
  apply attempt_ok
  rw [expressionStatement,
    bind_ok (value.delimited reads (by omega) ends), skipSemicolon_bind]
  rfl

/-! ## Sequences of statements -/

/--
A relation that holds of a sequence once it holds after its first statement.
The loop of a block and the loop of a program both give such a relation, and
they differ only in how they end.
-/
def Repeats (runs : Nat → Parser → List Stmt → Prop) : Prop :=
  ∀ (budget : Nat) (parser after : Parser) (first : Option Stmt)
    (rest : List Stmt),
    parser.current.kind ≠ .symbol .rightBrace →
    parser.current.kind ≠ .endOfInput →
    statement budget parser = (first, after) →
    runs budget after.advance rest →
    runs (budget + 1) parser (first.toList ++ rest)

/--
Reading a sequence gives its statements, if the loop can end behind it.  The
lexeme in front of the sequence may have been a statement that was not closed,
in which case a semicolon at its start is already skipped.
-/
def SequenceComplete (phrase : List Lexeme) (body : List Stmt) : Prop :=
  ∀ (runs : Nat → Parser → List Stmt → Prop), Repeats runs →
    ∀ (budget : Nat) (parser last : Parser),
      parser.Reads phrase last →
      8 * phrase.length + 3 ≤ budget →
      EndsBefore 0 last.peek →
      last.peek ≠ .symbol .semicolon →
      (∀ left, 0 < left → runs left last.advance []) →
      parser.peek ≠ .keyword .alternative ∧
        runs budget parser.advance body ∧
        runs budget parser.skipSemicolon.advance body

theorem current_advance (parser : Parser) :
    parser.advance.current.kind = parser.peek := by
  rw [Parser.advance, Parser.peek]
  cases parser.upcoming <;> rfl

theorem skipSemicolon_of_ne
    {parser : Parser}
    (other : parser.peek ≠ .symbol .semicolon) :
    parser.skipSemicolon = parser :=
  if_neg other

theorem skipSemicolon_of_eq
    {parser : Parser}
    (found : parser.peek = .symbol .semicolon) :
    parser.skipSemicolon = parser.advance :=
  if_pos found

theorem SequenceComplete.empty : SequenceComplete [] [] := by
  intro runs _ budget parser last reads cost ends other atEnd
  cases reads
  rw [skipSemicolon_of_ne other]
  have done : runs budget parser.advance [] := atEnd budget (by omega)
  exact ⟨ends.other, done, done⟩

theorem SequenceComplete.semicolon
    {mark : String} {rest : List Lexeme} {body : List Stmt}
    (more : SequenceComplete rest body) :
    SequenceComplete (⟨.symbol .semicolon, mark⟩ :: rest) body := by
  intro runs repeats budget parser last reads cost ends other atEnd
  rcases reads.uncons with ⟨found, isMark, reads⟩
  rw [List.length_cons] at cost
  rw [skipSemicolon_of_eq found]
  rcases Nat.exists_eq_add_of_le' (show 2 ≤ budget by omega) with ⟨budget, rfl⟩
  have step :
      statement (budget + 1) parser.advance = (none, parser.advance) := by
    rw [statement, isMark]
  rcases more runs repeats (budget + 1) _ _ reads (by omega) ends other
    atEnd with ⟨-, inner, -⟩
  rcases more runs repeats (budget + 2) _ _ reads (by omega) ends other
    atEnd with ⟨-, skipped, -⟩
  refine ⟨by rw [found]; decide, ?_, skipped⟩
  exact repeats (budget + 1) _ _ none body (by rw [isMark]; nofun)
    (by rw [isMark]; nofun) step inner

/-- A statement in front of a sequence that is read is read with it. -/
theorem StatementComplete.sequence
    {phrase : List Lexeme} {tree : Stmt} {body : List Stmt}
    {runs : Nat → Parser → List Stmt → Prop}
    {budget : Nat} {parser middle : Parser}
    (complete : StatementComplete phrase tree)
    (repeats : Repeats runs)
    (reads : parser.Reads phrase middle)
    (cost : 8 * phrase.length + 2 ≤ budget)
    (ends : EndsBefore 0 middle.peek)
    (more : runs budget middle.skipSemicolon.advance body) :
    parser.peek ≠ .keyword .alternative ∧
      runs (budget + 1) parser.advance (tree :: body) ∧
      runs (budget + 1) parser.skipSemicolon.advance (tree :: body) := by
  rcases complete budget parser middle reads cost ends with ⟨opens, step⟩
  have differs : ∀ close ∈ closers, parser.peek ≠ close := by
    intro close member equal
    rw [equal] at opens
    exact opens member
  have whole : runs (budget + 1) parser.advance (tree :: body) :=
    repeats budget _ _ (some tree) body
      (by rw [current_advance]; exact differs _ (by decide))
      (by rw [current_advance]; exact differs _ (by decide)) step more
  rw [skipSemicolon_of_ne (differs _ (by decide))]
  exact ⟨differs _ (by decide), whole, whole⟩

theorem SequenceComplete.closed
    {mark : String} {phrase rest : List Lexeme}
    {tree : Stmt} {body : List Stmt}
    (first : StatementComplete phrase tree)
    (more : SequenceComplete rest body) :
    SequenceComplete (phrase ++ ⟨.symbol .semicolon, mark⟩ :: rest)
      (tree :: body) := by
  intro runs repeats budget parser last reads cost ends other atEnd
  rcases reads.split with ⟨middle, readsFirst, readsMore⟩
  rcases readsMore.uncons with ⟨found, -, readsMore⟩
  simp only [List.length_append, List.length_cons] at cost
  rcases Nat.exists_eq_add_of_le' (show 1 ≤ budget by omega) with ⟨budget, rfl⟩
  rcases more runs repeats budget _ _ readsMore (by omega) ends other
    atEnd with ⟨-, inner, -⟩
  refine first.sequence repeats readsFirst (by omega)
    (.of_eq found rfl nofun) ?_
  rw [skipSemicolon_of_eq found]
  exact inner

theorem SequenceComplete.unclosed
    {phrase rest : List Lexeme} {tree : Stmt} {body : List Stmt}
    (first : StatementComplete phrase tree)
    (nonempty : 0 < phrase.length)
    (stops : ∀ next ∈ rest.head?, ¬ next.kind.Continues)
    (more : SequenceComplete rest body) :
    SequenceComplete (phrase ++ rest) (tree :: body) := by
  intro runs repeats budget parser last reads cost ends other atEnd
  rcases reads.split with ⟨middle, readsFirst, readsMore⟩
  rw [List.length_append] at cost
  rcases Nat.exists_eq_add_of_le' (show 1 ≤ budget by omega) with ⟨budget, rfl⟩
  rcases more runs repeats budget _ _ readsMore (by omega) ends other
    atEnd with ⟨notBranch, -, inner⟩
  refine first.sequence repeats readsFirst (by omega)
    ⟨?_, notBranch⟩ inner
  cases rest with
  | nil =>
      cases readsMore
      exact ends.loose
  | cons next rest =>
      rcases readsMore.uncons with ⟨found, -, -⟩
      have loose := stops next rfl
      rw [Precedence.continues_iff, Nat.not_lt] at loose
      rw [found]
      exact loose

/-- The loop of a block reads a sequence up to the closing brace. -/
theorem SequenceComplete.block
    {opening closing : String} {phrase : List Lexeme} {body : List Stmt}
    (complete : SequenceComplete phrase body) :
    BlockComplete
      (⟨.symbol .leftBrace, opening⟩ ::
        (phrase ++ [⟨.symbol .rightBrace, closing⟩]))
      body := by
  intro budget parser after reads cost
  rcases reads.uncons with ⟨found, -, reads⟩
  rcases reads.split with ⟨last, readsBody, readsClosing⟩
  rcases readsClosing.single with ⟨closes, isClosing, rfl⟩
  simp only [List.length_cons, List.length_append] at cost
  refine ⟨found, ?_⟩
  rcases Nat.exists_eq_add_of_le' (show 1 ≤ budget by omega) with ⟨budget, rfl⟩
  have repeats :
      Repeats fun budget parser body =>
        blockStatements budget parser = .ok body last.advance := by
    intro budget parser after first rest inside goes step more
    rw [blockStatements, current_bind, if_neg inside, if_neg goes,
      modifyGet_bind, step, advance_bind, bind_ok more]
    rfl
  have atEnd :
      ∀ left, 0 < left →
        blockStatements left last.advance = .ok [] last.advance := by
    intro left positive
    match left, positive with
    | left + 1, _ =>
      rw [blockStatements, current_bind, isClosing, if_pos rfl]
      rfl
  rcases complete _ repeats budget _ _ readsBody (by omega)
    (.of_eq closes rfl nofun) (by rw [closes]; decide) atEnd with
    ⟨-, runs, -⟩
  rw [Grammar.block, advance_bind, runs]

/-! ## Derivations -/

mutual

theorem expression_complete
    {stratum : Stratum} {phrase : List Lexeme} {tree : Expr} :
    Phrase.Expression stratum phrase tree →
      ExpressionComplete stratum phrase tree
  | .tighter order inner => (expression_complete inner).tighter order
  | .binary order left right =>
    .binary order (expression_complete left) (expression_complete right)
  | .unary operand => .unary (expression_complete operand)
  | .call callee arguments =>
    .call (expression_complete callee) (items_complete arguments)
  | .index collection position =>
    .index (expression_complete collection) (expression_complete position)
  | .name => .name
  | .print => .print
  | .integer denotes => .integer denotes
  | .string => .string
  | .truth => .truth
  | .falsehood => .falsehood
  | .grouped inner => .grouped (expression_complete inner)
  | .array items => .array (items_complete items)
  | .hash entries => .hash (entries_complete entries)
  | .conditional condition consequence alternative =>
    .conditional (expression_complete condition)
      (block_complete consequence) (alternative_complete alternative)
  | .function parameters body => .function parameters (block_complete body)

theorem items_complete
    {phrase : List Lexeme} {trees : List Expr} :
    Phrase.Items phrase trees → ItemsComplete phrase trees
  | .none => .none
  | .some first more =>
    .some first.starts (expression_complete first) (moreItems_complete more)

theorem moreItems_complete
    {phrase : List Lexeme} {trees : List Expr} :
    Phrase.MoreItems phrase trees → MoreItemsComplete phrase trees
  | .none => .none
  | .some first more =>
    .some (expression_complete first) (moreItems_complete more)

theorem entries_complete
    {phrase : List Lexeme} {pairs : List (Expr × Expr)} :
    Phrase.Entries phrase pairs → EntriesComplete phrase pairs
  | .none => .none
  | .last key value =>
    .last key.starts (expression_complete key) (expression_complete value)
  | .some key value more =>
    .some key.starts (expression_complete key) (expression_complete value)
      (entries_complete more)

theorem block_complete
    {phrase : List Lexeme} {body : List Stmt} :
    Phrase.Block phrase body → BlockComplete phrase body
  | .braces statements => (sequence_complete statements).block

theorem alternative_complete
    {phrase : List Lexeme} {other : Option (List Stmt)} :
    Phrase.Alternative phrase other → AlternativeComplete phrase other
  | .none => .none
  | .some body => .some (block_complete body)

theorem statement_complete
    {phrase : List Lexeme} {tree : Stmt} :
    Phrase.Statement phrase tree → StatementComplete phrase tree
  | .binding value => .define (.inl rfl) (expression_complete value)
  | .number value => .define (.inr rfl) (expression_complete value)
  | .result value => .result (expression_complete value)
  | .expression value =>
    .expression value.starts (expression_complete value)

theorem sequence_complete
    {phrase : List Lexeme} {body : List Stmt} :
    Phrase.Sequence phrase body → SequenceComplete phrase body
  | .empty => .empty
  | .semicolon more => (sequence_complete more).semicolon
  | .closed first more =>
    .closed (statement_complete first) (sequence_complete more)
  | .unclosed first stops more =>
    .unclosed (statement_complete first) first.length_pos stops
      (sequence_complete more)

end

/-! ## Whole inputs -/

/-- Lexemes that derive some statements are read as them. -/
theorem statements_complete
    {budget : Nat} {parser : Parser} {program : Program}
    (derives : Phrase.Sequence parser.upcoming program)
    (cost : 8 * parser.upcoming.length + 3 ≤ budget) :
    (statements budget parser.advance).1 = program ∧
      (statements budget parser.advance).2.diagnostics =
        parser.diagnostics := by
  rcases Parser.exists_reads parser.current parser.upcoming []
    parser.diagnostics with ⟨last, reads, nothing⟩
  rw [List.append_nil] at reads
  have ended : last.peek = .endOfInput := by
    rw [Parser.peek, nothing]
  have repeats :
      Repeats fun budget place body =>
        (statements budget place).1 = body ∧
          (statements budget place).2.diagnostics = parser.diagnostics := by
    intro budget place after first rest _ goes step more
    rw [statements_succ goes, step, more.1]
    exact ⟨rfl, more.2⟩
  have atEnd :
      ∀ left, 0 < left →
        (statements left last.advance).1 = [] ∧
          (statements left last.advance).2.diagnostics =
            parser.diagnostics := by
    intro left _
    rw [statements_endOfInput ((current_advance last).trans ended)]
    refine ⟨rfl, ?_⟩
    rw [Parser.advance, nothing]
    exact reads.diagnostics_eq
  rcases sequence_complete derives _ repeats budget _ _ reads cost
    (.of_eq ended rfl nofun) (by rw [ended]; decide) atEnd with
    ⟨-, runs, -⟩
  exact runs

end Grammar

end Bhasha
