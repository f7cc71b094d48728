import Bhasha.Proofs.Numeral
import Bhasha.Proofs.Parser.Reading

/-!
# Soundness of the parser

What a step gives without any diagnostic is derived by the grammar from the
lexemes that the step reads.  Each step has enough budget for the lexemes that
are left: a nested step costs one unit and a lexeme pays for eight, so a step
without budget is never reached.

The loop over the operators carries the invariant of precedence climbing.  The
expression so far belongs to a stratum that is tight enough for the place where
it stands, and what comes next binds no tighter than this stratum.
-/

namespace Bhasha

namespace Grammar

open ParseM Step

/--
Within its budget, a step that gives a value without any diagnostic has read a
phrase that derives the value.  The relation also sees the lexeme on which the
step starts and the kind that comes next.
-/
def SoundWithin {α : Type} (cost budget : Nat) (step : ParseM α)
    (derives : Lexeme → List Lexeme → α → Kind → Prop) : Prop :=
  ∀ (parser after : Parser) (value : α),
    cost + 8 * parser.upcoming.length ≤ budget →
    step parser = .ok value after →
    after.diagnostics = #[] →
    ∃ phrase, parser.Reads phrase after ∧
      derives parser.current phrase value after.peek

/-! ## Parameters -/

theorem moreParameters_sound (budget : Nat) :
    SoundWithin 1 budget (moreParameters budget)
      (fun _ phrase names _ => Phrase.MoreParameters phrase names) := by
  induction budget with
  | zero =>
      intro parser after names cost
      omega
  | succ budget induction =>
      intro parser after names cost outcome clean
      rw [moreParameters, peek_bind] at outcome
      split at outcome
      · next found =>
        rw [advance_bind] at outcome
        rcases bind_eq_ok outcome with ⟨_, named, expected, outcome⟩
        rw [current_bind] at outcome
        rcases bind_eq_ok outcome with ⟨more, last, rest, outcome⟩
        cases outcome
        rcases Parser.exists_of_peek found (by decide) with
          ⟨comma, -, readsComma⟩
        rcases reads_of_expect (by decide) expected with
          ⟨name, isName, readsName⟩
        have reads := readsComma.trans readsName
        have length := reads.length_eq
        simp only [List.length_append, List.length_singleton] at length
        rcases induction named after more (by omega) rest clean with
          ⟨phrase, readsRest, derives⟩
        refine ⟨_, reads.trans readsRest, ?_⟩
        rw [isName]
        exact .some derives
      · cases outcome
        exact ⟨[], .done, .none⟩

/-- The parameters are read up to the closing parenthesis. -/
theorem parameters_sound (budget : Nat) :
    SoundWithin 1 budget (parameters budget)
      (fun _ phrase names _ => ∃ inner closing,
        phrase = inner ++ [⟨.symbol .rightParen, closing⟩] ∧
          Phrase.Parameters inner names) := by
  intro parser after names cost outcome clean
  rw [parameters, peek_bind] at outcome
  split at outcome
  · next found =>
    cases outcome
    rcases Parser.exists_of_peek found (by decide) with ⟨closing, -, reads⟩
    exact ⟨_, reads, [], closing, rfl, .none⟩
  · rcases bind_eq_ok outcome with ⟨_, named, expected, outcome⟩
    rw [current_bind] at outcome
    rcases bind_eq_ok outcome with ⟨more, middle, rest, outcome⟩
    rcases bind_eq_ok outcome with ⟨_, last, closed, outcome⟩
    cases outcome
    rcases reads_of_expect (by decide) expected with ⟨name, isName, readsName⟩
    rcases reads_of_expect (by decide) closed with ⟨closing, -, readsClosing⟩
    have length := readsName.length_eq
    have cleanMiddle := ((Advances.expect _).reaches closed).clean clean
    rcases moreParameters_sound budget named middle more (by omega) rest
        cleanMiddle with
      ⟨phrase, readsRest, derives⟩
    refine ⟨_, (readsName.trans readsRest).trans readsClosing,
      ⟨.identifier, name⟩ :: phrase, closing, by simp, ?_⟩
    rw [isName]
    exact .some derives

/-! ## Expressions after a lexeme -/

theorem operand_ne_ok_of_endOfInput
    {budget : Nat} {parser after : Parser} {tree : Expr}
    (atEnd : parser.current.kind = .endOfInput) :
    operand budget parser ≠ .ok tree after := by
  cases budget with
  | zero => exact noOperand_ne_ok
  | succ budget =>
      rw [operand, current_bind, atEnd]
      exact noOperand_ne_ok

/-- No expression starts after the last lexeme. -/
theorem upcoming_ne_nil_of_expression
    {budget : Nat} {level : Precedence} {parser after : Parser} {tree : Expr}
    (outcome : expression budget level parser.advance = .ok tree after) :
    parser.upcoming ≠ [] := by
  intro nothing
  have atEnd : parser.advance.current.kind = .endOfInput := by
    rw [Parser.advance, nothing]
    rfl
  cases budget with
  | zero => exact noOperand_ne_ok outcome
  | succ budget =>
      rw [expression] at outcome
      rcases bind_eq_ok outcome with ⟨left, middle, first, -⟩
      exact operand_ne_ok_of_endOfInput atEnd first

/-- Expressions that are read with a budget are derived. -/
def ExpressionSound (budget : Nat) : Prop :=
  ∀ level : Precedence,
    SoundWithin 5 budget (expression budget level)
      (fun first phrase tree next =>
        Phrase.Expression level.stratum (first :: phrase) tree ∧
          (Precedence.ofKind next).rank ≤ level.rank)

/-- An expression that starts after the current lexeme. -/
theorem ExpressionSound.next
    {budget : Nat} {level : Precedence} {parser after : Parser} {tree : Expr}
    (sound : ExpressionSound budget)
    (cost : 8 * parser.upcoming.length ≤ budget + 3)
    (outcome : expression budget level parser.advance = .ok tree after)
    (clean : after.diagnostics = #[]) :
    ∃ phrase, parser.Reads phrase after ∧
      Phrase.Expression level.stratum phrase tree ∧
        (Precedence.ofKind after.peek).rank ≤ level.rank := by
  rcases List.exists_cons_of_ne_nil (upcoming_ne_nil_of_expression outcome) with
    ⟨first, rest, upcoming⟩
  rcases Parser.reads_advance upcoming with ⟨isFirst, reads⟩
  have length := reads.length_eq
  rw [List.length_singleton] at length
  rcases sound level parser.advance after tree (by omega) outcome clean with
    ⟨phrase, readsRest, derives, stops⟩
  rw [isFirst] at derives
  exact ⟨first :: phrase, reads.trans readsRest, derives, stops⟩

/-! ## The ends of statements -/

/--
A statement up to its last lexeme: a semicolon, or the end of its expression
if this does not go on with what comes next.
-/
inductive Ended : List Lexeme → Stmt → Kind → Prop where
  | closed (inner : Phrase.Statement phrase tree) :
      Ended (phrase ++ [⟨.symbol .semicolon, mark⟩]) tree next
  | unclosed
      (inner : Phrase.Statement phrase tree)
      (stops : ¬ next.Continues) :
      Ended phrase tree next

/-- A statement in front of a sequence that starts with the next kind. -/
theorem Ended.sequence
    {phrase rest : List Lexeme} {statement : Stmt} {statements : List Stmt}
    {next : Kind}
    (ended : Ended phrase statement next)
    (isNext : ∀ first ∈ rest.head?, first.kind = next)
    (more : Phrase.Sequence rest statements) :
    Phrase.Sequence (phrase ++ rest) (statement :: statements) := by
  cases ended with
  | closed inner =>
      rw [List.append_assoc]
      exact .closed inner more
  | unclosed inner stops =>
      refine .unclosed inner ?_ more
      intro first member
      rw [isNext first member]
      exact stops

/-- A statement ends after the semicolon that may follow its expression. -/
theorem ended_skipSemicolon
    {parser middle : Parser} {phrase : List Lexeme}
    (reads : parser.Reads phrase middle)
    (stops : (Precedence.ofKind middle.peek).rank ≤ Precedence.lowest.rank) :
    ∃ whole, parser.Reads whole middle.skipSemicolon ∧
      ∀ {first : Lexeme} {tree : Stmt},
        Phrase.Statement (first :: phrase) tree →
        Ended (first :: whole) tree middle.skipSemicolon.peek := by
  rw [Parser.skipSemicolon]
  split
  · next found =>
    rcases Parser.exists_of_peek found (by decide) with ⟨mark, -, readsMark⟩
    exact ⟨_, reads.trans readsMark, fun derives => .closed derives⟩
  · refine ⟨phrase, reads, fun derives => .unclosed derives ?_⟩
    rw [Precedence.continues_iff]
    exact Nat.not_lt.2 stops

/-! ## Expressions and statements -/

theorem attempt_clean
    {α : Type} {step : ParseM α} {parser : Parser}
    (clean : (attempt step parser).2.diagnostics = #[]) :
    ∃ value, step parser = .ok value (attempt step parser).2 ∧
      (attempt step parser).1 = some value := by
  rw [attempt] at clean ⊢
  cases outcome : step parser with
  | ok value after => exact ⟨value, rfl, rfl⟩
  | error diagnostic after =>
      rw [outcome] at clean
      simp [Parser.record] at clean

theorem Precedence.stratum_rank_le (level : Precedence) :
    level.stratum.rank ≤ Stratum.signed.rank := by
  cases level <;> decide

theorem Precedence.stratum_rank_le_of_lt
    {level : Precedence} {rank : Nat}
    (above : level.rank < rank) :
    level.stratum.rank ≤ rank := by
  have bound : level.stratum.rank ≤ level.rank + 1 := by
    cases level <;> decide
  omega

theorem stratum_eq_applied
    {stratum : Stratum}
    (tight : Stratum.applied.rank ≤ stratum.rank) :
    stratum = .applied := by
  cases stratum
  case applied => rfl
  all_goals exact absurd tight (by decide)

/-- Blocks that are read with a budget are derived. -/
def BlockSound (budget : Nat) : Prop :=
  SoundWithin 1 budget (block budget)
    (fun _ phrase body _ => ∀ {opening},
      Phrase.Block (⟨.symbol .leftBrace, opening⟩ :: phrase) body)

/-- A block that starts after the current lexeme. -/
theorem BlockSound.braces
    {budget : Nat} {parser opened after : Parser} {body : List Stmt}
    (sound : BlockSound budget)
    (cost : 8 * parser.upcoming.length ≤ budget + 7)
    (opens : expect (.symbol .leftBrace) parser = .ok () opened)
    (outcome : block budget opened = .ok body after)
    (clean : after.diagnostics = #[]) :
    ∃ phrase, parser.Reads phrase after ∧ Phrase.Block phrase body := by
  rcases reads_of_expect (by decide) opens with ⟨opening, -, readsOpening⟩
  have length := readsOpening.length_eq
  rw [List.length_singleton] at length
  rcases sound opened after body (by omega) outcome clean with
    ⟨phrase, reads, derives⟩
  exact ⟨_, readsOpening.trans reads, derives⟩

/-- Nothing is read in front of the closing brace of a hash. -/
theorem hashEntries_of_rightBrace
    {budget : Nat} {parser after : Parser} {pairs : List (Expr × Expr)}
    (found : parser.peek = .symbol .rightBrace)
    (outcome : hashEntries budget parser = .ok pairs after) :
    pairs = [] ∧ after = parser.advance := by
  cases budget with
  | zero => exact (noOperand_ne_ok outcome).elim
  | succ budget =>
      rw [hashEntries, peek_bind, if_pos found] at outcome
      cases outcome
      exact ⟨rfl, rfl⟩

/-- No block goes on after the last lexeme. -/
theorem upcoming_ne_nil_of_blockStatements
    {budget : Nat} {parser after : Parser} {body : List Stmt}
    (outcome : blockStatements budget parser.advance = .ok body after) :
    parser.upcoming ≠ [] := by
  intro nothing
  have atEnd : parser.advance.current = .endOfInput := by
    rw [Parser.advance, nothing]
  cases budget with
  | zero => exact noOperand_ne_ok outcome
  | succ budget =>
      rw [blockStatements, current_bind, atEnd] at outcome
      cases outcome

/-- Statements that are read with a budget up to a closing brace are derived. -/
def BlockStatementsSound (budget : Nat) : Prop :=
  SoundWithin 8 budget (blockStatements budget)
    (fun first phrase body _ => ∃ inner closing,
      first :: phrase = inner ++ [⟨.symbol .rightBrace, closing⟩] ∧
        Phrase.Sequence inner body)

/-- The statements of a block after the current lexeme. -/
theorem BlockStatementsSound.next
    {budget : Nat} {parser after : Parser} {body : List Stmt}
    (sound : BlockStatementsSound budget)
    (cost : 8 * parser.upcoming.length ≤ budget)
    (outcome : blockStatements budget parser.advance = .ok body after)
    (clean : after.diagnostics = #[]) :
    ∃ inner closing,
      parser.Reads (inner ++ [⟨.symbol .rightBrace, closing⟩]) after ∧
        Phrase.Sequence inner body := by
  rcases List.exists_cons_of_ne_nil
      (upcoming_ne_nil_of_blockStatements outcome) with
    ⟨first, rest, upcoming⟩
  rcases Parser.reads_advance upcoming with ⟨isFirst, reads⟩
  have length := reads.length_eq
  rw [List.length_singleton] at length
  rcases sound parser.advance after body (by omega) outcome clean with
    ⟨phrase, readsRest, inner, closing, isInner, statements⟩
  refine ⟨inner, closing, ?_, statements⟩
  rw [← isInner, isFirst]
  exact reads.trans readsRest

mutual

theorem expression_sound : ∀ budget : Nat, ExpressionSound budget
  | 0 => by
    intro level parser after tree cost
    omega
  | budget + 1 => by
    intro level parser after tree cost outcome clean
    rw [expression] at outcome
    rcases bind_eq_ok outcome with ⟨left, middle, first, rest⟩
    have cleanMiddle :=
      ((operators_advances budget level left).reaches rest).clean clean
    rcases operand_sound budget parser middle left (by omega) first
        cleanMiddle with
      ⟨leftPhrase, readsLeft, stratum, derives, tight, stops⟩
    have length := readsLeft.length_eq
    rcases operators_sound budget derives
        ((Precedence.stratum_rank_le level).trans tight)
        middle after tree stops (by omega) rest clean with
      ⟨phrase, reads, whole, stop⟩
    exact ⟨_, readsLeft.trans reads, whole, stop⟩

theorem operators_sound :
    ∀ (budget : Nat) {level : Precedence} {stratum : Stratum}
      {leftPhrase : List Lexeme} {left : Expr},
      Phrase.Expression stratum leftPhrase left →
      level.stratum.rank ≤ stratum.rank →
      ∀ (parser after : Parser) (tree : Expr),
        (Precedence.ofKind parser.peek).rank ≤ stratum.rank →
        1 + 8 * parser.upcoming.length ≤ budget →
        operators budget level left parser = .ok tree after →
        after.diagnostics = #[] →
        ∃ phrase, parser.Reads phrase after ∧
          Phrase.Expression level.stratum (leftPhrase ++ phrase) tree ∧
            (Precedence.ofKind after.peek).rank ≤ level.rank
  | 0, _, _, _, _, _, _ => by
    intro parser after tree stops cost
    omega
  | budget + 1, level, stratum, leftPhrase, left, derives, tight => by
    intro parser after tree stops cost outcome clean
    rw [operators, peek_bind] at outcome
    split at outcome
    · next above =>
      rw [advance_bind] at outcome
      rcases bind_eq_ok outcome with ⟨larger, middle, first, rest⟩
      have inside : parser.peek ≠ .endOfInput := by
        intro atEnd
        rw [atEnd] at above
        exact absurd above (Nat.not_lt_zero _)
      rcases Parser.exists_of_peek rfl inside with ⟨mark, isMark, readsMark⟩
      have length := readsMark.length_eq
      rw [List.length_singleton] at length
      have cleanMiddle :=
        ((operators_advances budget level larger).reaches rest).clean clean
      have kindMark : parser.advance.current.kind = parser.peek := by
        rw [isMark]
      rcases extend_sound budget derives parser.advance middle larger
          (by rw [kindMark]; omega) (by rw [kindMark]; exact stops)
          (by omega) first cleanMiddle with
        ⟨rightPhrase, outer, readsRight, derivesLarger, rank, stop⟩
      rw [isMark] at derivesLarger rank
      have length' := readsRight.length_eq
      rcases operators_sound budget derivesLarger
          (by rw [rank]; exact Precedence.stratum_rank_le_of_lt above)
          middle after tree stop (by omega) rest clean with
        ⟨phrase, reads, whole, stop'⟩
      refine ⟨_, (readsMark.trans readsRight).trans reads, ?_, stop'⟩
      simpa using whole
    · next below =>
      cases outcome
      refine ⟨[], .done, ?_, Nat.not_lt.1 below⟩
      rw [List.append_nil]
      exact .tighter tight derives

theorem extend_sound :
    ∀ (budget : Nat) {stratum : Stratum}
      {leftPhrase : List Lexeme} {left : Expr},
      Phrase.Expression stratum leftPhrase left →
      ∀ (parser after : Parser) (tree : Expr),
        0 < (Precedence.ofKind parser.current.kind).rank →
        (Precedence.ofKind parser.current.kind).rank ≤ stratum.rank →
        3 + 8 * parser.upcoming.length ≤ budget →
        extend budget left parser = .ok tree after →
        after.diagnostics = #[] →
        ∃ phrase outer, parser.Reads phrase after ∧
          Phrase.Expression outer (leftPhrase ++ parser.current :: phrase)
            tree ∧
          outer.rank = (Precedence.ofKind parser.current.kind).rank ∧
          (Precedence.ofKind after.peek).rank ≤ outer.rank
  | 0, _, _, _, _ => by
    intro parser after tree above stops cost
    omega
  | budget + 1, stratum, leftPhrase, left, derives => by
    intro parser after tree above stops cost outcome clean
    rw [extend, current_bind] at outcome
    rcases mark : parser.current with ⟨kind, literal⟩
    rw [mark] at outcome above stops
    cases (Precedence.continues_iff kind).2 above with
    | call =>
        cases stratum_eq_applied stops
        rcases call_sound budget left parser after tree (by omega) outcome
            clean with
          ⟨phrase, reads, whole⟩
        exact ⟨phrase, .applied, reads, whole derives, rfl,
          Precedence.rank_ofKind_le _⟩
    | index =>
        cases stratum_eq_applied stops
        rcases index_sound budget left parser after tree (by omega) outcome
            clean with
          ⟨phrase, reads, whole⟩
        exact ⟨phrase, .applied, reads, whole derives, rfl,
          Precedence.rank_ofKind_le _⟩
    | binary operator =>
        have outcome :
            binary budget operator (Precedence.ofSymbol operator.symbol) left
              parser = .ok tree after := by
          cases operator <;> exact outcome
        have rank :
            (Precedence.ofKind (.symbol operator.symbol)).rank =
              operator.stratum.rank :=
          Precedence.rank_ofSymbol operator
        rcases binary_sound budget operator left parser after tree (by omega)
            outcome clean with
          ⟨phrase, reads, whole, stop⟩
        rw [rank] at stops
        exact ⟨phrase, operator.stratum, reads,
          whole (.tighter stops derives), rank.symm, stop⟩

theorem binary_sound :
    ∀ (budget : Nat) (operator : BinaryOp) (left : Expr),
      SoundWithin 2 budget
        (binary budget operator (Precedence.ofSymbol operator.symbol) left)
        (fun _ phrase tree next =>
          (∀ {leftPhrase mark},
            Phrase.Expression operator.stratum leftPhrase left →
            Phrase.Expression operator.stratum
              (leftPhrase ++ ⟨.symbol operator.symbol, mark⟩ :: phrase)
              tree) ∧
          (Precedence.ofKind next).rank ≤ operator.stratum.rank)
  | 0, _, _ => by
    intro parser after tree cost
    omega
  | budget + 1, operator, left => by
    intro parser after tree cost outcome clean
    rw [binary, advance_bind] at outcome
    rcases bind_eq_ok outcome with ⟨right, middle, first, outcome⟩
    cases outcome
    rcases (expression_sound budget).next (by omega) first clean with
      ⟨phrase, reads, derives, stops⟩
    have order :
        operator.stratum.rank <
          (Precedence.ofSymbol operator.symbol).stratum.rank := by
      cases operator <;> decide
    rw [Precedence.rank_ofSymbol] at stops
    exact ⟨phrase, reads, fun derivesLeft => .binary order derivesLeft derives,
      stops⟩

theorem call_sound :
    ∀ (budget : Nat) (callee : Expr),
      SoundWithin 2 budget (call budget callee)
        (fun _ phrase tree _ => ∀ {calleePhrase opening},
          Phrase.Expression .applied calleePhrase callee →
          Phrase.Expression .applied
            (calleePhrase ++ ⟨.symbol .leftParen, opening⟩ :: phrase) tree)
  | 0, _ => by
    intro parser after tree cost
    omega
  | budget + 1, callee => by
    intro parser after tree cost outcome clean
    rw [call] at outcome
    rcases bind_eq_ok outcome with ⟨trees, middle, first, outcome⟩
    cases outcome
    rcases expressionList_sound budget (by decide) parser after trees (by omega)
        first clean with
      ⟨phrase, reads, inner, closing, rfl, items⟩
    exact ⟨_, reads, fun derives => .call derives items⟩

theorem index_sound :
    ∀ (budget : Nat) (collection : Expr),
      SoundWithin 2 budget (index budget collection)
        (fun _ phrase tree _ => ∀ {collectionPhrase opening},
          Phrase.Expression .applied collectionPhrase collection →
          Phrase.Expression .applied
            (collectionPhrase ++ ⟨.symbol .leftBracket, opening⟩ :: phrase)
            tree)
  | 0, _ => by
    intro parser after tree cost
    omega
  | budget + 1, collection => by
    intro parser after tree cost outcome clean
    rw [index, advance_bind] at outcome
    rcases bind_eq_ok outcome with ⟨position, middle, first, outcome⟩
    rcases bind_eq_ok outcome with ⟨_, last, closed, outcome⟩
    cases outcome
    have cleanMiddle := ((Advances.expect _).reaches closed).clean clean
    rcases (expression_sound budget).next (by omega) first cleanMiddle with
      ⟨phrase, reads, derives, -⟩
    rcases reads_of_expect (by decide) closed with ⟨closing, -, readsClosing⟩
    exact ⟨_, reads.trans readsClosing,
      fun derivesLeft => .index derivesLeft derives⟩

theorem operand_sound :
    ∀ budget : Nat,
      SoundWithin 4 budget (operand budget)
        (fun first phrase tree next => ∃ stratum,
          Phrase.Expression stratum (first :: phrase) tree ∧
            Stratum.signed.rank ≤ stratum.rank ∧
            (Precedence.ofKind next).rank ≤ stratum.rank)
  | 0 => by
    intro parser after tree cost
    omega
  | budget + 1 => by
    intro parser after tree cost outcome clean
    have applied : ∀ {phrase : List Lexeme},
        parser.Reads phrase after →
        Phrase.Expression .applied (parser.current :: phrase) tree →
        ∃ phrase, parser.Reads phrase after ∧ ∃ stratum,
          Phrase.Expression stratum (parser.current :: phrase) tree ∧
            Stratum.signed.rank ≤ stratum.rank ∧
            (Precedence.ofKind after.peek).rank ≤ stratum.rank :=
      fun reads derives => ⟨_, reads, .applied, derives, by decide,
        Precedence.rank_ofKind_le _⟩
    rw [operand, current_bind] at outcome
    rcases start : parser.current with ⟨kind, literal⟩
    rw [start] at outcome applied
    dsimp only at outcome
    split at outcome
    · cases outcome
      exact applied .done .name
    · cases outcome
      exact applied .done .print
    · cases found : Numeral.read? literal with
      | none =>
          rw [found] at outcome
          cases outcome
      | some value =>
          rw [found] at outcome
          cases outcome
          exact applied .done
            (.integer ((Numeral.read?_eq_some_iff literal value).1 found))
    · cases outcome
      exact applied .done .string
    · cases outcome
      exact applied .done .truth
    · cases outcome
      exact applied .done .falsehood
    · rcases
          unary_sound budget .not parser after tree (by omega) outcome clean with
        ⟨phrase, reads, derives, stops⟩
      exact ⟨phrase, reads, .signed, derives, Nat.le_refl _, stops⟩
    · rcases
          unary_sound budget .negate parser after tree (by omega) outcome clean with
        ⟨phrase, reads, derives, stops⟩
      exact ⟨phrase, reads, .signed, derives, Nat.le_refl _, stops⟩
    · rcases
          grouped_sound budget parser after tree (by omega) outcome clean with
        ⟨phrase, reads, derives⟩
      exact applied reads derives
    · rcases
          conditional_sound budget parser after tree (by omega) outcome clean with
        ⟨phrase, reads, derives⟩
      exact applied reads derives
    · rcases
          function_sound budget parser after tree (by omega) outcome clean with
        ⟨phrase, reads, derives⟩
      exact applied reads derives
    · rcases array_sound budget parser after tree (by omega) outcome clean with
        ⟨phrase, reads, derives⟩
      exact applied reads derives
    · rcases hash_sound budget parser after tree (by omega) outcome clean with
        ⟨phrase, reads, derives⟩
      exact applied reads derives
    · exact (noOperand_ne_ok outcome).elim

theorem unary_sound :
    ∀ (budget : Nat) (operator : UnaryOp),
      SoundWithin 3 budget (unary budget operator)
        (fun _ phrase tree next =>
          (∀ {mark}, Phrase.Expression .signed
            (⟨.symbol operator.symbol, mark⟩ :: phrase) tree) ∧
          (Precedence.ofKind next).rank ≤ Stratum.signed.rank)
  | 0, _ => by
    intro parser after tree cost
    omega
  | budget + 1, operator => by
    intro parser after tree cost outcome clean
    rw [unary, advance_bind] at outcome
    rcases bind_eq_ok outcome with ⟨operand, middle, first, outcome⟩
    cases outcome
    rcases (expression_sound budget).next (by omega) first clean with
      ⟨phrase, reads, derives, stops⟩
    exact ⟨phrase, reads, .unary derives, stops⟩

theorem grouped_sound :
    ∀ budget : Nat,
      SoundWithin 3 budget (grouped budget)
        (fun _ phrase tree _ => ∀ {opening}, Phrase.Expression .applied
          (⟨.symbol .leftParen, opening⟩ :: phrase) tree)
  | 0 => by
    intro parser after tree cost
    omega
  | budget + 1 => by
    intro parser after tree cost outcome clean
    rw [grouped, advance_bind] at outcome
    rcases bind_eq_ok outcome with ⟨inner, middle, first, outcome⟩
    rcases bind_eq_ok outcome with ⟨_, last, closed, outcome⟩
    cases outcome
    have cleanMiddle := ((Advances.expect _).reaches closed).clean clean
    rcases (expression_sound budget).next (by omega) first cleanMiddle with
      ⟨phrase, reads, derives, -⟩
    rcases reads_of_expect (by decide) closed with ⟨closing, -, readsClosing⟩
    exact ⟨_, reads.trans readsClosing, .grouped derives⟩

theorem conditional_sound :
    ∀ budget : Nat,
      SoundWithin 3 budget (conditional budget)
        (fun _ phrase tree _ => ∀ {word}, Phrase.Expression .applied
          (⟨.keyword .conditional, word⟩ :: phrase) tree)
  | 0 => by
    intro parser after tree cost
    omega
  | budget + 1 => by
    intro parser after tree cost outcome clean
    rw [conditional, advance_bind] at outcome
    rcases bind_eq_ok outcome with ⟨condition, tested, first, outcome⟩
    rcases bind_eq_ok outcome with ⟨_, opened, opens, outcome⟩
    rcases bind_eq_ok outcome with ⟨consequence, ended, body, outcome⟩
    rw [peek_bind] at outcome
    have lengthTested := ((Advances.advance.bind fun _ =>
      expression_advances budget .lowest).reaches first).length_le
    have lengthEnded := (((Advances.expect _).reaches opens).trans
      ((block_advances budget).reaches body)).length_le
    -- The part up to the end of the first branch is read alike in both cases.
    have start : ended.diagnostics = #[] →
        ∃ phrase, parser.Reads phrase ended ∧
          ∀ {word alternativePhrase alternative},
            Phrase.Alternative alternativePhrase alternative →
            Phrase.Expression .applied
              (⟨.keyword .conditional, word⟩ :: (phrase ++ alternativePhrase))
              (.conditional condition consequence alternative) := by
      intro cleanEnded
      rcases (block_sound budget).braces (by omega) opens body cleanEnded with
        ⟨bodyPhrase, readsBody, derivesBody⟩
      rcases (expression_sound budget).next (by omega) first
          (readsBody.diagnostics_eq ▸ cleanEnded) with
        ⟨phrase, reads, derives, -⟩
      refine ⟨_, reads.trans readsBody, fun alternative => ?_⟩
      rw [List.append_assoc]
      exact .conditional derives derivesBody alternative
    split at outcome
    · next found =>
      rw [advance_bind] at outcome
      rcases bind_eq_ok outcome with ⟨_, reopened, reopens, outcome⟩
      rcases bind_eq_ok outcome with ⟨alternative, last, other, outcome⟩
      cases outcome
      rcases Parser.exists_of_peek found (by decide) with ⟨word, -, readsWord⟩
      have lengthWord := readsWord.length_eq
      rcases (block_sound budget).braces (by omega) reopens other clean with
        ⟨otherPhrase, readsOther, derivesOther⟩
      have readsRest := readsWord.trans readsOther
      rcases start (readsRest.diagnostics_eq ▸ clean) with
        ⟨phrase, reads, whole⟩
      exact ⟨_, reads.trans readsRest, whole (.some derivesOther)⟩
    · cases outcome
      rcases start clean with ⟨phrase, reads, whole⟩
      refine ⟨phrase, reads, ?_⟩
      intro word
      simpa using whole .none

theorem function_sound :
    ∀ budget : Nat,
      SoundWithin 3 budget (function budget)
        (fun _ phrase tree _ => ∀ {word}, Phrase.Expression .applied
          (⟨.keyword .function, word⟩ :: phrase) tree)
  | 0 => by
    intro parser after tree cost
    omega
  | budget + 1 => by
    intro parser after tree cost outcome clean
    rw [function] at outcome
    rcases bind_eq_ok outcome with ⟨_, opened, opens, outcome⟩
    rcases bind_eq_ok outcome with ⟨names, closed, listed, outcome⟩
    rcases bind_eq_ok outcome with ⟨_, braced, braces, outcome⟩
    rcases bind_eq_ok outcome with ⟨statements, last, body, outcome⟩
    cases outcome
    rcases reads_of_expect (by decide) opens with ⟨opening, -, readsOpening⟩
    have lengthOpening := readsOpening.length_eq
    rw [List.length_singleton] at lengthOpening
    have lengthNames :=
      ((parameters_advances budget).reaches listed).length_le
    rcases (block_sound budget).braces (by omega) braces body clean with
      ⟨bodyPhrase, readsBody, derivesBody⟩
    rcases parameters_sound budget opened closed names (by omega) listed
        (readsBody.diagnostics_eq ▸ clean) with
      ⟨phrase, readsNames, inner, closing, rfl, derivesNames⟩
    refine ⟨_, (readsOpening.trans readsNames).trans readsBody, ?_⟩
    intro word
    simpa using Phrase.Expression.function derivesNames derivesBody

theorem array_sound :
    ∀ budget : Nat,
      SoundWithin 3 budget (array budget)
        (fun _ phrase tree _ => ∀ {opening}, Phrase.Expression .applied
          (⟨.symbol .leftBracket, opening⟩ :: phrase) tree)
  | 0 => by
    intro parser after tree cost
    omega
  | budget + 1 => by
    intro parser after tree cost outcome clean
    rw [array] at outcome
    rcases bind_eq_ok outcome with ⟨trees, middle, first, outcome⟩
    cases outcome
    rcases expressionList_sound budget (by decide) parser after trees (by omega)
        first clean with
      ⟨phrase, reads, inner, closing, rfl, items⟩
    exact ⟨_, reads, .array items⟩

theorem hash_sound :
    ∀ budget : Nat,
      SoundWithin 3 budget (hash budget)
        (fun _ phrase tree _ => ∀ {opening}, Phrase.Expression .applied
          (⟨.symbol .leftBrace, opening⟩ :: phrase) tree)
  | 0 => by
    intro parser after tree cost
    omega
  | budget + 1 => by
    intro parser after tree cost outcome clean
    rw [hash] at outcome
    rcases bind_eq_ok outcome with ⟨pairs, middle, first, outcome⟩
    cases outcome
    rcases
        hashEntries_sound budget parser after pairs (by omega) first clean with
      ⟨phrase, reads, inner, closing, rfl, entries⟩
    exact ⟨_, reads, .hash entries⟩

theorem expressionList_sound :
    ∀ (budget : Nat) {close : Kind}, close ≠ .endOfInput →
      SoundWithin 1 budget (expressionList budget close)
        (fun _ phrase trees _ => ∃ inner closing,
          phrase = inner ++ [⟨close, closing⟩] ∧ Phrase.Items inner trees)
  | 0, _, _ => by
    intro parser after trees cost
    omega
  | budget + 1, close, inside => by
    intro parser after trees cost outcome clean
    rw [expressionList, peek_bind] at outcome
    split at outcome
    · next found =>
      cases outcome
      rcases Parser.exists_of_peek found inside with ⟨closing, -, reads⟩
      exact ⟨_, reads, [], closing, rfl, .none⟩
    · rw [advance_bind] at outcome
      rcases bind_eq_ok outcome with ⟨tree, middle, first, outcome⟩
      rcases bind_eq_ok outcome with ⟨more, closed, rest, outcome⟩
      rcases bind_eq_ok outcome with ⟨_, last, closes, outcome⟩
      cases outcome
      rcases reads_of_expect inside closes with ⟨closing, -, readsClosing⟩
      have cleanClosed : closed.diagnostics = #[] :=
        readsClosing.diagnostics_eq ▸ clean
      have cleanMiddle :=
        ((moreExpressions_advances budget).reaches rest).clean cleanClosed
      rcases (expression_sound budget).next (by omega) first cleanMiddle with
        ⟨phrase, reads, derives, -⟩
      have length := reads.length_eq
      have nonempty := derives.length_pos
      rcases moreExpressions_sound budget middle closed more (by omega) rest
          cleanClosed with
        ⟨restPhrase, readsRest, items⟩
      exact ⟨_, (reads.trans readsRest).trans readsClosing, _, closing, rfl,
        .some derives items⟩

theorem moreExpressions_sound :
    ∀ budget : Nat,
      SoundWithin 1 budget (moreExpressions budget)
        (fun _ phrase trees _ => Phrase.MoreItems phrase trees)
  | 0 => by
    intro parser after trees cost
    omega
  | budget + 1 => by
    intro parser after trees cost outcome clean
    rw [moreExpressions, peek_bind] at outcome
    split at outcome
    · next found =>
      rw [advance_bind, advance_bind] at outcome
      rcases bind_eq_ok outcome with ⟨tree, middle, first, outcome⟩
      rcases bind_eq_ok outcome with ⟨more, last, rest, outcome⟩
      cases outcome
      rcases Parser.exists_of_peek found (by decide) with
        ⟨comma, -, readsComma⟩
      have lengthComma := readsComma.length_eq
      rw [List.length_singleton] at lengthComma
      have cleanMiddle :=
        ((moreExpressions_advances budget).reaches rest).clean clean
      rcases (expression_sound budget).next (by omega) first cleanMiddle with
        ⟨phrase, reads, derives, -⟩
      have length := reads.length_eq
      rcases moreExpressions_sound budget middle after more (by omega) rest
          clean with
        ⟨restPhrase, readsRest, items⟩
      refine ⟨_, (readsComma.trans reads).trans readsRest, ?_⟩
      simpa using Phrase.MoreItems.some derives items
    · cases outcome
      exact ⟨[], .done, .none⟩

theorem hashEntries_sound :
    ∀ budget : Nat,
      SoundWithin 1 budget (hashEntries budget)
        (fun _ phrase pairs _ => ∃ inner closing,
          phrase = inner ++ [⟨.symbol .rightBrace, closing⟩] ∧
            Phrase.Entries inner pairs)
  | 0 => by
    intro parser after pairs cost
    omega
  | budget + 1 => by
    intro parser after pairs cost outcome clean
    rw [hashEntries, peek_bind] at outcome
    split at outcome
    · next found =>
      cases outcome
      rcases Parser.exists_of_peek found (by decide) with ⟨closing, -, reads⟩
      exact ⟨_, reads, [], closing, rfl, .none⟩
    · rw [advance_bind] at outcome
      rcases bind_eq_ok outcome with ⟨key, keyed, first, outcome⟩
      rcases bind_eq_ok outcome with ⟨_, colon, separates, outcome⟩
      rw [advance_bind] at outcome
      rcases bind_eq_ok outcome with ⟨value, valued, second, outcome⟩
      rw [peek_bind] at outcome
      dsimp only at outcome
      have reachesKeyed := (Advances.advance.bind fun _ =>
        expression_advances budget .lowest).reaches first
      rcases reads_of_expect (by decide) separates with ⟨mark, -, readsColon⟩
      have lengthColon := readsColon.length_eq
      rw [List.length_singleton] at lengthColon
      have lengthKeyed := reachesKeyed.length_le
      -- The first key and value are read alike whatever comes after them.
      have start : valued.diagnostics = #[] →
          ∃ keyPhrase valuePhrase,
            parser.Reads
              (keyPhrase ++ ⟨.symbol .colon, mark⟩ :: valuePhrase) valued ∧
            Phrase.Expression .equality keyPhrase key ∧
            Phrase.Expression .equality valuePhrase value := by
        intro cleanValued
        rcases (expression_sound budget).next (by omega) second cleanValued with
          ⟨valuePhrase, readsValue, derivesValue, -⟩
        have readsRest := readsColon.trans readsValue
        rcases (expression_sound budget).next (by omega) first
            (readsRest.diagnostics_eq ▸ cleanValued) with
          ⟨keyPhrase, readsKey, derivesKey, -⟩
        exact ⟨keyPhrase, valuePhrase, readsKey.trans readsRest, derivesKey,
          derivesValue⟩
      split at outcome
      · rcases bind_eq_ok outcome with ⟨_, comma, continues, outcome⟩
        rcases bind_eq_ok outcome with ⟨more, last, rest, outcome⟩
        cases outcome
        rcases reads_of_expect (by decide) continues with
          ⟨commaMark, -, readsComma⟩
        have cleanComma :=
          ((hashEntries_advances budget).reaches rest).clean clean
        rcases start (readsComma.diagnostics_eq ▸ cleanComma) with
          ⟨keyPhrase, valuePhrase, reads, derivesKey, derivesValue⟩
        have length := (reads.trans readsComma).length_eq
        simp only [List.length_append, List.length_cons] at length
        rcases
            hashEntries_sound budget comma after more (by omega) rest clean with
          ⟨phrase, readsRest, inner, closing, rfl, entries⟩
        refine ⟨_, (reads.trans readsComma).trans readsRest,
          keyPhrase ++ ⟨.symbol .colon, mark⟩ ::
            (valuePhrase ++ ⟨.symbol .comma, commaMark⟩ :: inner),
          closing, ?_, .some derivesKey derivesValue entries⟩
        simp
      · next found =>
        rcases bind_eq_ok outcome with ⟨more, last, rest, outcome⟩
        cases outcome
        have found : valued.peek = .symbol .rightBrace :=
          Classical.not_not.1 found
        rcases hashEntries_of_rightBrace found rest with ⟨rfl, rfl⟩
        rcases Parser.exists_of_peek found (by decide) with
          ⟨closing, -, readsClosing⟩
        rcases start (readsClosing.diagnostics_eq ▸ clean) with
          ⟨keyPhrase, valuePhrase, reads, derivesKey, derivesValue⟩
        exact ⟨_, reads.trans readsClosing, _, closing, rfl,
          .last derivesKey derivesValue⟩

theorem block_sound : ∀ budget : Nat, BlockSound budget
  | 0 => by
    intro parser after body cost
    omega
  | budget + 1 => by
    intro parser after body cost outcome clean
    rw [block, advance_bind] at outcome
    rcases (blockStatements_sound budget).next (by omega) outcome clean with
      ⟨inner, closing, reads, statements⟩
    exact ⟨_, reads, .braces statements⟩

theorem blockStatements_sound :
    ∀ budget : Nat, BlockStatementsSound budget
  | 0 => by
    intro parser after body cost
    omega
  | budget + 1 => by
    intro parser after body cost outcome clean
    rw [blockStatements, current_bind] at outcome
    split at outcome
    · next found =>
      cases outcome
      rw [Lexeme.eq_mk found]
      exact ⟨[], .done, [], parser.current.literal, rfl, .empty⟩
    · split at outcome
      · cases outcome
      · rw [modifyGet_bind, advance_bind] at outcome
        rcases bind_eq_ok outcome with ⟨more, last, rest, outcome⟩
        cases outcome
        have length := (statement_reaches budget parser).length_le
        rcases (blockStatements_sound budget).next (by omega) rest clean with
          ⟨inner, closing, reads, statements⟩
        have cleanFirst :
            (statement budget parser).2.diagnostics = #[] :=
          reads.diagnostics_eq ▸ clean
        rcases statement_sound budget parser (by omega) cleanFirst with
          ⟨found, mark, isMark, same⟩ | ⟨tree, phrase, found, readsFirst, ended⟩
        · rw [same] at reads
          rw [found, isMark]
          exact ⟨_, reads, _ :: inner, closing, rfl, .semicolon statements⟩
        · rw [found]
          refine ⟨_, readsFirst.trans reads, _ ++ inner, closing, ?_,
            ended.sequence ?_ statements⟩
          · simp
          · intro first member
            rcases List.head?_eq_some_iff.1 member with ⟨rest, rfl⟩
            exact reads.uncons.1.symm

theorem statement_sound :
    ∀ (budget : Nat) (parser : Parser),
      7 + 8 * parser.upcoming.length ≤ budget →
      (statement budget parser).2.diagnostics = #[] →
      ((statement budget parser).1 = none ∧
        ∃ mark, parser.current = ⟨.symbol .semicolon, mark⟩ ∧
          (statement budget parser).2 = parser) ∨
      ∃ tree phrase, (statement budget parser).1 = some tree ∧
        parser.Reads phrase (statement budget parser).2 ∧
        Ended (parser.current :: phrase) tree (statement budget parser).2.peek
  | 0 => by
    intro parser cost
    omega
  | budget + 1 => by
    intro parser cost
    rw [statement]
    split
    · next start =>
      intro clean
      rcases attempt_clean clean with ⟨tree, outcome, found⟩
      rcases definition_sound budget _ _ _ (by omega) outcome clean with
        ⟨phrase, reads, ended⟩
      exact .inr ⟨tree, phrase, found, reads, ended (.inl start)⟩
    · next start =>
      intro clean
      rcases attempt_clean clean with ⟨tree, outcome, found⟩
      rcases definition_sound budget _ _ _ (by omega) outcome clean with
        ⟨phrase, reads, ended⟩
      exact .inr ⟨tree, phrase, found, reads, ended (.inr start)⟩
    · next start =>
      intro clean
      rcases attempt_clean clean with ⟨tree, outcome, found⟩
      rcases result_sound budget _ _ _ (by omega) outcome clean with
        ⟨phrase, reads, ended⟩
      exact .inr ⟨tree, phrase, found, reads, ended start⟩
    · next start =>
      intro clean
      exact .inl ⟨rfl, parser.current.literal, Lexeme.eq_mk start, rfl⟩
    · intro clean
      rcases attempt_clean clean with ⟨tree, outcome, found⟩
      rcases
          expressionStatement_sound budget _ _ _ (by omega) outcome clean with
        ⟨phrase, reads, ended⟩
      exact .inr ⟨tree, phrase, found, reads, ended⟩

theorem definition_sound :
    ∀ budget : Nat,
      SoundWithin 6 budget (definition budget)
        (fun first phrase tree next =>
          first.kind = .keyword .binding ∨ first.kind = .keyword .number →
          Ended (first :: phrase) tree next)
  | 0 => by
    intro parser after tree cost
    omega
  | budget + 1 => by
    intro parser after tree cost outcome clean
    rw [definition] at outcome
    rcases bind_eq_ok outcome with ⟨_, named, names, outcome⟩
    rw [current_bind] at outcome
    rcases bind_eq_ok outcome with ⟨_, assigned, assigns, outcome⟩
    rw [advance_bind] at outcome
    rcases bind_eq_ok outcome with ⟨value, valued, first, outcome⟩
    rw [skipSemicolon_bind] at outcome
    cases outcome
    rcases reads_of_expect (by decide) names with ⟨name, isName, readsName⟩
    rcases reads_of_expect (by decide) assigns with ⟨mark, -, readsMark⟩
    have readsStart := readsName.trans readsMark
    have length := readsStart.length_eq
    have cleanValued := (Parser.Reaches.skipSemicolon valued).clean clean
    rcases (expression_sound budget).next (by omega) first cleanValued with
      ⟨phrase, readsValue, derives, stops⟩
    rcases ended_skipSemicolon (readsStart.trans readsValue) stops with
      ⟨whole, reads, ended⟩
    refine ⟨whole, reads, fun start => ended ?_⟩
    rw [isName]
    rcases start with start | start
    · rw [Lexeme.eq_mk start]
      exact .binding derives
    · rw [Lexeme.eq_mk start]
      exact .number derives

theorem result_sound :
    ∀ budget : Nat,
      SoundWithin 6 budget (result budget)
        (fun first phrase tree next =>
          first.kind = .keyword .result → Ended (first :: phrase) tree next)
  | 0 => by
    intro parser after tree cost
    omega
  | budget + 1 => by
    intro parser after tree cost outcome clean
    rw [result, advance_bind] at outcome
    rcases bind_eq_ok outcome with ⟨value, valued, first, outcome⟩
    rw [skipSemicolon_bind] at outcome
    cases outcome
    have cleanValued := (Parser.Reaches.skipSemicolon valued).clean clean
    rcases (expression_sound budget).next (by omega) first cleanValued with
      ⟨phrase, readsValue, derives, stops⟩
    rcases ended_skipSemicolon readsValue stops with ⟨whole, reads, ended⟩
    refine ⟨whole, reads, fun start => ended ?_⟩
    rw [Lexeme.eq_mk start]
    exact .result derives

theorem expressionStatement_sound :
    ∀ budget : Nat,
      SoundWithin 6 budget (expressionStatement budget)
        (fun first phrase tree next => Ended (first :: phrase) tree next)
  | 0 => by
    intro parser after tree cost
    omega
  | budget + 1 => by
    intro parser after tree cost outcome clean
    rw [expressionStatement] at outcome
    rcases bind_eq_ok outcome with ⟨value, valued, first, outcome⟩
    rw [skipSemicolon_bind] at outcome
    cases outcome
    have cleanValued := (Parser.Reaches.skipSemicolon valued).clean clean
    rcases expression_sound budget .lowest parser valued value (by omega) first
        cleanValued with
      ⟨phrase, reads, derives, stops⟩
    rcases ended_skipSemicolon reads stops with ⟨whole, readsWhole, ended⟩
    exact ⟨whole, readsWhole, ended (.expression derives)⟩

end

/-! ## Whole inputs -/

/-- The statements after the current lexeme are derived from the later ones. -/
theorem statements_sound :
    ∀ (budget : Nat) (parser : Parser),
      8 * parser.upcoming.length ≤ budget →
      (∀ lexeme ∈ parser.upcoming, lexeme.kind ≠ .endOfInput) →
      (statements budget parser.advance).2.diagnostics = #[] →
      Phrase.Sequence parser.upcoming (statements budget parser.advance).1 := by
  intro budget
  induction budget with
  | zero =>
      intro parser cost _ _
      have nothing : parser.upcoming = [] :=
        List.length_eq_zero_iff.1 (by omega)
      rw [nothing]
      exact .empty
  | succ budget induction =>
      intro parser cost inside
      cases upcoming : parser.upcoming with
      | nil =>
          intro _
          have atEnd : parser.advance.current.kind = .endOfInput := by
            rw [Parser.advance, upcoming]
            rfl
          rw [statements_endOfInput atEnd]
          exact .empty
      | cons first rest =>
          rw [upcoming] at cost inside
          rcases Parser.reads_advance upcoming with ⟨isFirst, reads⟩
          have later : parser.advance.upcoming = rest := by
            rw [Parser.advance, upcoming]
          have goes : parser.advance.current.kind ≠ .endOfInput := by
            rw [isFirst]
            exact inside first List.mem_cons_self
          rw [List.length_cons] at cost
          rw [statements_succ goes]
          intro clean
          have cleanFirst :
              (statement budget parser.advance).2.diagnostics = #[] :=
            ((Parser.Reaches.advance _).trans
              (statements_reaches budget _)).clean clean
          rcases statement_sound budget parser.advance (by rw [later]; omega)
              cleanFirst with
            ⟨found, mark, isMark, same⟩ |
            ⟨tree, phrase, found, readsFirst, ended⟩
          · rw [same] at clean ⊢
            have more := induction parser.advance (by rw [later]; omega)
              (by rw [later]; exact fun lexeme member =>
                inside lexeme (List.mem_cons_of_mem first member)) clean
            rw [later] at more
            rw [found, ← isFirst, isMark]
            exact .semicolon more
          · have whole := readsFirst.upcoming_eq
            rw [later] at whole
            rw [whole, List.length_append] at cost
            have more := induction (statement budget parser.advance).2
              (by omega)
              (fun lexeme member => inside lexeme (by simp [whole, member]))
              clean
            rw [found, ← isFirst, whole]
            refine ended.sequence ?_ more
            intro next member
            rcases List.head?_eq_some_iff.1 member with ⟨tail, isNext⟩
            rw [Parser.peek, isNext]

end Grammar

end Bhasha
