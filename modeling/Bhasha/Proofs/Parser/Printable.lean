import Bhasha.Proofs.Program.RoundTrip
import Bhasha.Proofs.Token.Separation

/-!
# Parsed programs can be written

Whatever the source, the program that the parser gives can be written: its
names are names, its integers are not negative, its strings hold no quotation
mark and no block is nested as a statement.  This does not depend on the source
being well formed.  A tree holds only literals of lexemes that were in hand, and
a statement that stops with a diagnostic leaves no tree, so the steps of the
grammar keep one invariant on the lexemes and one on the trees, whether they
give a result or stop.
-/

namespace Bhasha

/-! ## Lexemes of a source -/

/-- The literal of a lexeme can stand in a program at the place of its kind. -/
structure Lexeme.Writable (lexeme : Lexeme) : Prop where
  name : lexeme.kind = .identifier → IsName lexeme.literal
  print : lexeme.kind = .keyword .print →
    lexeme.literal = Keyword.print.spelling
  string : lexeme.kind = .string → '"' ∉ lexeme.literal.toList

theorem Lexeme.writable_of_ne
    {lexeme : Lexeme}
    (notName : lexeme.kind ≠ .identifier)
    (notPrint : lexeme.kind ≠ .keyword .print)
    (notString : lexeme.kind ≠ .string) :
    lexeme.Writable :=
  ⟨(absurd · notName), (absurd · notPrint), (absurd · notString)⟩

theorem Lexeme.writable_endOfInput : Lexeme.endOfInput.Writable :=
  writable_of_ne (by decide) (by decide) (by decide)

theorem Keyword.eq_spelling_of_print
    {word : String}
    (reserved : ofWord? word = some .print) :
    word = print.spelling := by
  have listed : (word, print) ∈ spellings := by
    rcases List.lookup_eq_some_iff.1 reserved with ⟨front, rest, isList, -⟩
    simp [isList]
  have unique : ∀ entry ∈ spellings,
      entry.2 = print → entry.1 = print.spelling := by
    decide
  exact unique _ listed rfl

theorem Lexeme.writable_word
    {word : String}
    (whole : isWord word = true) :
    Writable ⟨.ofWord word, word⟩ := by
  rw [Kind.ofWord]
  cases reserved : Keyword.ofWord? word with
  | none =>
      refine ⟨fun _ => (isName_iff word).2 ⟨whole, reserved⟩, ?_, ?_⟩
      · rintro ⟨⟩
      · rintro ⟨⟩
  | some keyword =>
      refine ⟨?_, ?_, ?_⟩
      · rintro ⟨⟩
      · rintro ⟨⟩
        exact Keyword.eq_spelling_of_print reserved
      · rintro ⟨⟩

theorem Piece.read_writable (first : Char) (rest : List Char) :
    (read first rest).lexeme.Writable := by
  rw [read]
  split
  · exact Lexeme.writable_of_ne (by rintro ⟨⟩) (by rintro ⟨⟩) (by rintro ⟨⟩)
  · split
    · have isString : (quoted rest).lexeme.kind = .string := by
        rw [quoted]
        split <;> rfl
      refine ⟨?_, ?_, fun _ => quotation_not_mem rest⟩
      · rw [isString]
        rintro ⟨⟩
      · rw [isString]
        rintro ⟨⟩
    · split
      · next starts =>
        exact Lexeme.writable_word (by simp [isWord, starts])
      · split <;>
          exact Lexeme.writable_of_ne (by rintro ⟨⟩) (by rintro ⟨⟩)
            (by rintro ⟨⟩)

/-- The lexemes of a text can be written. -/
theorem writable_of_mem_scan
    {input : List Char} {lexeme : Lexeme}
    (member : lexeme ∈ scan input) :
    lexeme.Writable := by
  fun_induction scan input with
  | case1 => cases member
  | case2 first rest blank induction => exact induction member
  | case3 first rest visible induction =>
      rcases List.mem_cons.1 member with rfl | later
      · exact Piece.read_writable first rest
      · exact induction later

/-! ## The lexemes of a parser -/

/-- The lexeme in hand and all later ones can be written. -/
structure Parser.Writable (parser : Parser) : Prop where
  current : parser.current.Writable
  upcoming : ∀ lexeme ∈ parser.upcoming, lexeme.Writable

namespace Parser.Writable

variable {parser : Parser}

theorem advance
    (writable : parser.Writable) :
    parser.advance.Writable := by
  rcases parser with ⟨current, upcoming, diagnostics⟩
  cases upcoming with
  | nil => exact ⟨Lexeme.writable_endOfInput, writable.upcoming⟩
  | cons next rest =>
      rcases List.forall_mem_cons.1 writable.upcoming with ⟨here, later⟩
      exact ⟨here, later⟩

theorem skipSemicolon
    (writable : parser.Writable) :
    parser.skipSemicolon.Writable := by
  rw [Parser.skipSemicolon]
  split
  · exact writable.advance
  · exact writable

theorem ofLexemes
    {input : List Lexeme}
    (writable : ∀ lexeme ∈ input, lexeme.Writable) :
    (Parser.ofLexemes input).Writable := by
  cases input with
  | nil => exact ⟨Lexeme.writable_endOfInput, writable⟩
  | cons first rest =>
      rcases List.forall_mem_cons.1 writable with ⟨here, later⟩
      exact ⟨here, later⟩

end Parser.Writable

/-! ## Steps -/

namespace ParseM

/-- On lexemes that can be written, a step gives only values that fit. -/
def Gives {α : Type} (fits : α → Prop) (step : ParseM α) : Prop :=
  ∀ parser : Parser, parser.Writable →
    (Step.final step parser).Writable ∧
      ∀ value after, step parser = .ok value after → fits value

namespace Gives

variable {α β : Type} {fits : α → Prop} {wanted : β → Prop}

theorem pure
    {value : α}
    (good : fits value) :
    Gives fits (pure value) := by
  intro parser writable
  refine ⟨writable, ?_⟩
  rintro _ _ ⟨⟩
  exact good

theorem throw (diagnostic : Diagnostic) :
    Gives fits (throw diagnostic) :=
  fun _ writable => ⟨writable, nofun⟩

theorem noOperand : Gives fits noOperand :=
  fun _ writable => ⟨writable, nofun⟩

theorem bind
    {step : ParseM α} {next : α → ParseM β}
    (first : Gives fits step)
    (second : ∀ value, fits value → Gives wanted (next value)) :
    Gives wanted (step >>= next) := by
  intro parser writable
  rcases first parser writable with ⟨kept, good⟩
  cases outcome : step parser with
  | ok value middle =>
      rw [Step.final_of_ok outcome] at kept
      rw [Step.final, Step.bind_ok outcome]
      exact second value (good value middle outcome) middle kept
  | error reason middle =>
      rw [Step.final_of_error outcome] at kept
      rw [Step.final, Step.bind_error outcome]
      refine ⟨kept, ?_⟩
      rintro _ _ ⟨⟩

theorem peek : Gives (fun _ => True) peek :=
  fun _ writable => ⟨writable, fun _ _ _ => trivial⟩

theorem current : Gives Lexeme.Writable current := by
  intro parser writable
  refine ⟨writable, ?_⟩
  rintro _ _ ⟨⟩
  exact writable.current

theorem advance : Gives (fun _ => True) advance :=
  fun _ writable => ⟨writable.advance, fun _ _ _ => trivial⟩

theorem skipSemicolon : Gives (fun _ => True) skipSemicolon :=
  fun _ writable => ⟨writable.skipSemicolon, fun _ _ _ => trivial⟩

theorem expect (wanted : Kind) : Gives (fun _ => True) (expect wanted) := by
  refine peek.bind fun found _ => ?_
  split
  · exact advance
  · exact throw _

/-- An identifier that was expected is a name. -/
theorem name
    {next : Lexeme → ParseM β}
    (second : ∀ lexeme : Lexeme,
      IsName lexeme.literal → Gives wanted (next lexeme)) :
    Gives wanted (do
      ParseM.expect .identifier
      next (← ParseM.current)) := by
  intro parser writable
  by_cases found : parser.peek = .identifier
  · rcases Parser.exists_of_peek found (by decide) with ⟨literal, isName, -⟩
    have named : IsName parser.advance.current.literal :=
      writable.advance.current.name (by rw [isName])
    rw [Step.final, Step.bind_ok (expect_ok found), current_bind]
    exact second _ named _ writable.advance
  · have stops : ParseM.expect .identifier parser =
        .error (.expected .identifier parser.peek) parser := by
      rw [ParseM.expect, peek_bind, if_neg found]
      rfl
    rw [Step.final, Step.bind_error stops]
    refine ⟨writable, ?_⟩
    rintro _ _ ⟨⟩

/-- An attempt gives what fits, or it gives nothing. -/
theorem attempt
    {step : ParseM α}
    (gives : Gives fits step)
    {parser : Parser}
    (writable : parser.Writable) :
    (∀ value ∈ (ParseM.attempt step parser).1, fits value) ∧
      (ParseM.attempt step parser).2.Writable := by
  rcases gives parser writable with ⟨kept, good⟩
  rw [ParseM.attempt]
  cases outcome : step parser with
  | ok value after =>
      rw [Step.final_of_ok outcome] at kept
      refine ⟨?_, kept⟩
      rintro _ ⟨⟩
      exact good value after outcome
  | error diagnostic after =>
      rw [Step.final_of_error outcome] at kept
      refine ⟨?_, kept.current, kept.upcoming⟩
      rintro _ ⟨⟩

end Gives

end ParseM

/-! ## The steps of the grammar -/

theorem Stmt.printableList_append
    {first second : List Stmt}
    (left : Stmt.PrintableList first)
    (right : Stmt.PrintableList second) :
    Stmt.PrintableList (first ++ second) := by
  induction first with
  | nil => exact right
  | cons statement rest induction => exact ⟨left.1, induction left.2⟩

theorem Stmt.printableList_toList
    {statement : Option Stmt}
    (printable : ∀ value ∈ statement, Stmt.Printable value) :
    Stmt.PrintableList statement.toList := by
  cases statement with
  | none => trivial
  | some statement => exact ⟨printable statement rfl, trivial⟩

theorem Numeral.nonneg_of_read?
    {literal : String} {value : Int64}
    (found : read? literal = some value) :
    0 ≤ value := by
  rcases (read?_eq_some_iff literal value).1 found with ⟨digits, -, isValue⟩
  rw [Int64.le_iff_toInt_le, isValue, Int64.toInt_zero]
  exact Int.natCast_nonneg _

namespace Grammar

open ParseM

theorem moreParameters_gives (budget : Nat) :
    (moreParameters budget).Gives fun names => ∀ name ∈ names, IsName name := by
  induction budget with
  | zero => exact .pure (List.forall_mem_nil _)
  | succ budget induction =>
      rw [moreParameters]
      refine Gives.peek.bind fun next _ => ?_
      split
      · exact Gives.advance.bind fun _ _ =>
          Gives.name fun _ isName =>
            induction.bind fun names areNames =>
              .pure (List.forall_mem_cons.2 ⟨isName, areNames⟩)
      · exact .pure (List.forall_mem_nil _)

theorem parameters_gives (budget : Nat) :
    (parameters budget).Gives fun names => ∀ name ∈ names, IsName name := by
  rw [parameters]
  refine Gives.peek.bind fun next _ => ?_
  split
  · exact Gives.advance.bind fun _ _ => .pure (List.forall_mem_nil _)
  · exact Gives.name fun _ isName =>
      (moreParameters_gives budget).bind fun names areNames =>
        (Gives.expect _).bind fun _ _ =>
          .pure (List.forall_mem_cons.2 ⟨isName, areNames⟩)

mutual

theorem expression_gives :
    ∀ (budget : Nat) (level : Precedence),
      (expression budget level).Gives Expr.Printable
  | 0, _ => .noOperand
  | budget + 1, level => by
    rw [expression]
    exact (operand_gives budget).bind fun left printable =>
      operators_gives budget level printable

theorem operators_gives :
    ∀ (budget : Nat) (level : Precedence) {left : Expr}, left.Printable →
      (operators budget level left).Gives Expr.Printable
  | 0, _, _, printable => .pure printable
  | budget + 1, level, left, printable => by
    rw [operators]
    refine Gives.peek.bind fun next _ => ?_
    split
    · exact Gives.advance.bind fun _ _ =>
        (extend_gives budget printable).bind fun larger printableLarger =>
          operators_gives budget level printableLarger
    · exact .pure printable

theorem extend_gives :
    ∀ (budget : Nat) {left : Expr}, left.Printable →
      (extend budget left).Gives Expr.Printable
  | 0, _, printable => .pure printable
  | budget + 1, left, printable => by
    rw [extend]
    refine Gives.current.bind fun lexeme _ => ?_
    split
    · exact call_gives budget printable
    · exact index_gives budget printable
    · split
      · exact binary_gives budget _ _ printable
      · exact .pure printable
    · exact .pure printable

theorem binary_gives :
    ∀ (budget : Nat) (operator : BinaryOp) (level : Precedence) {left : Expr},
      left.Printable →
      (binary budget operator level left).Gives Expr.Printable
  | 0, _, _, _, _ => .noOperand
  | budget + 1, operator, level, left, printable => by
    rw [binary]
    exact Gives.advance.bind fun _ _ =>
      (expression_gives budget level).bind fun _ right =>
        .pure ⟨printable, right⟩

theorem call_gives :
    ∀ (budget : Nat) {callee : Expr}, callee.Printable →
      (call budget callee).Gives Expr.Printable
  | 0, _, _ => .noOperand
  | budget + 1, callee, printable => by
    rw [call]
    exact (expressionList_gives budget _).bind fun _ arguments =>
      .pure ⟨printable, arguments⟩

theorem index_gives :
    ∀ (budget : Nat) {collection : Expr}, collection.Printable →
      (index budget collection).Gives Expr.Printable
  | 0, _, _ => .noOperand
  | budget + 1, collection, printable => by
    rw [index]
    exact Gives.advance.bind fun _ _ =>
      (expression_gives budget .lowest).bind fun _ position =>
        (Gives.expect _).bind fun _ _ => .pure ⟨printable, position⟩

theorem operand_gives :
    ∀ budget : Nat, (operand budget).Gives Expr.Printable
  | 0 => .noOperand
  | budget + 1 => by
    rw [operand]
    refine Gives.current.bind fun lexeme writable => ?_
    split
    · next isName => exact .pure (.inl (writable.name isName))
    · next isPrint => exact .pure (.inr (writable.print isPrint))
    · split
      · next found => exact .pure (Numeral.nonneg_of_read? found)
      · exact .throw _
    · next isString => exact .pure (writable.string isString)
    · exact .pure trivial
    · exact .pure trivial
    · exact unary_gives budget .not
    · exact unary_gives budget .negate
    · exact grouped_gives budget
    · exact conditional_gives budget
    · exact function_gives budget
    · exact array_gives budget
    · exact hash_gives budget
    · exact .noOperand

theorem unary_gives :
    ∀ (budget : Nat) (operator : UnaryOp),
      (unary budget operator).Gives Expr.Printable
  | 0, _ => .noOperand
  | budget + 1, operator => by
    rw [unary]
    exact Gives.advance.bind fun _ _ =>
      (expression_gives budget .unary).bind fun _ operand => .pure operand

theorem grouped_gives :
    ∀ budget : Nat, (grouped budget).Gives Expr.Printable
  | 0 => .noOperand
  | budget + 1 => by
    rw [grouped]
    exact Gives.advance.bind fun _ _ =>
      (expression_gives budget .lowest).bind fun _ inner =>
        (Gives.expect _).bind fun _ _ => .pure inner

theorem conditional_gives :
    ∀ budget : Nat, (conditional budget).Gives Expr.Printable
  | 0 => .noOperand
  | budget + 1 => by
    rw [conditional]
    refine Gives.advance.bind fun _ _ =>
      (expression_gives budget .lowest).bind fun _ condition =>
        (Gives.expect _).bind fun _ _ =>
          (block_gives budget).bind fun _ consequence =>
            Gives.peek.bind fun _ _ => ?_
    split
    · exact Gives.advance.bind fun _ _ =>
        (Gives.expect _).bind fun _ _ =>
          (block_gives budget).bind fun _ alternative =>
            .pure ⟨condition, consequence, alternative⟩
    · exact .pure ⟨condition, consequence, trivial⟩

theorem function_gives :
    ∀ budget : Nat, (function budget).Gives Expr.Printable
  | 0 => .noOperand
  | budget + 1 => by
    rw [function]
    exact (Gives.expect _).bind fun _ _ =>
      (parameters_gives budget).bind fun _ names =>
        (Gives.expect _).bind fun _ _ =>
          (block_gives budget).bind fun _ body => .pure ⟨names, body⟩

theorem array_gives :
    ∀ budget : Nat, (array budget).Gives Expr.Printable
  | 0 => .noOperand
  | budget + 1 => by
    rw [array]
    exact (expressionList_gives budget _).bind fun _ items => .pure items

theorem hash_gives :
    ∀ budget : Nat, (hash budget).Gives Expr.Printable
  | 0 => .noOperand
  | budget + 1 => by
    rw [hash]
    exact (hashEntries_gives budget).bind fun _ entries => .pure entries

theorem expressionList_gives :
    ∀ (budget : Nat) (close : Kind),
      (expressionList budget close).Gives Expr.PrintableList
  | 0, _ => .noOperand
  | budget + 1, close => by
    rw [expressionList]
    refine Gives.peek.bind fun next _ => ?_
    split
    · exact Gives.advance.bind fun _ _ => .pure trivial
    · exact Gives.advance.bind fun _ _ =>
        (expression_gives budget .lowest).bind fun _ first =>
          (moreExpressions_gives budget).bind fun _ rest =>
            (Gives.expect _).bind fun _ _ => .pure ⟨first, rest⟩

theorem moreExpressions_gives :
    ∀ budget : Nat, (moreExpressions budget).Gives Expr.PrintableList
  | 0 => .pure trivial
  | budget + 1 => by
    rw [moreExpressions]
    refine Gives.peek.bind fun next _ => ?_
    split
    · exact Gives.advance.bind fun _ _ =>
        Gives.advance.bind fun _ _ =>
          (expression_gives budget .lowest).bind fun _ first =>
            (moreExpressions_gives budget).bind fun _ rest =>
              .pure ⟨first, rest⟩
    · exact .pure trivial

theorem hashEntries_gives :
    ∀ budget : Nat, (hashEntries budget).Gives Expr.PrintablePairs
  | 0 => .noOperand
  | budget + 1 => by
    have entries : ∀ {key value : Expr}, key.Printable → value.Printable →
        (do return (key, value) :: (← hashEntries budget) :
          ParseM (List (Expr × Expr))).Gives Expr.PrintablePairs :=
      fun key value => (hashEntries_gives budget).bind fun _ rest =>
        .pure ⟨key, value, rest⟩
    rw [hashEntries]
    refine Gives.peek.bind fun next _ => ?_
    split
    · exact Gives.advance.bind fun _ _ => .pure trivial
    · refine Gives.advance.bind fun _ _ =>
        (expression_gives budget .lowest).bind fun _ key =>
          (Gives.expect _).bind fun _ _ =>
            Gives.advance.bind fun _ _ =>
              (expression_gives budget .lowest).bind fun _ value =>
                Gives.peek.bind fun _ _ => ?_
      split
      · exact (Gives.expect _).bind fun _ _ => entries key value
      · exact entries key value

theorem block_gives :
    ∀ budget : Nat, (block budget).Gives Stmt.PrintableList
  | 0 => .noOperand
  | budget + 1 => by
    rw [block]
    exact Gives.advance.bind fun _ _ => blockStatements_gives budget

theorem blockStatements_gives :
    ∀ budget : Nat, (blockStatements budget).Gives Stmt.PrintableList
  | 0 => .noOperand
  | budget + 1 => by
    have first : (modifyGet (statement budget) :
        ParseM (Option Stmt)).Gives
          fun statement => ∀ value ∈ statement, Stmt.Printable value := by
      intro parser writable
      rcases statement_gives budget writable with ⟨printable, kept⟩
      refine ⟨kept, ?_⟩
      rintro _ _ ⟨⟩
      exact printable
    rw [blockStatements]
    refine Gives.current.bind fun lexeme _ => ?_
    dsimp only
    split
    · exact .pure trivial
    · split
      · exact .throw _
      · exact first.bind fun _ printable =>
          Gives.advance.bind fun _ _ =>
            (blockStatements_gives budget).bind fun _ rest =>
              .pure (Stmt.printableList_append
                (Stmt.printableList_toList printable) rest)

theorem statement_gives :
    ∀ (budget : Nat) {parser : Parser}, parser.Writable →
      (∀ value ∈ (statement budget parser).1, Stmt.Printable value) ∧
        (statement budget parser).2.Writable
  | 0, _, writable => ⟨nofun, writable⟩
  | budget + 1, parser, writable => by
    rw [statement]
    split
    · exact (definition_gives budget).attempt writable
    · exact (definition_gives budget).attempt writable
    · exact (result_gives budget).attempt writable
    · exact ⟨nofun, writable⟩
    · exact (expressionStatement_gives budget).attempt writable

theorem definition_gives :
    ∀ budget : Nat, (definition budget).Gives Stmt.Printable
  | 0 => .noOperand
  | budget + 1 => by
    rw [definition]
    exact Gives.name fun _ isName =>
      (Gives.expect _).bind fun _ _ =>
        Gives.advance.bind fun _ _ =>
          (expression_gives budget .lowest).bind fun _ value =>
            Gives.skipSemicolon.bind fun _ _ => .pure ⟨isName, value⟩

theorem result_gives :
    ∀ budget : Nat, (result budget).Gives Stmt.Printable
  | 0 => .noOperand
  | budget + 1 => by
    rw [result]
    exact Gives.advance.bind fun _ _ =>
      (expression_gives budget .lowest).bind fun _ value =>
        Gives.skipSemicolon.bind fun _ _ => .pure value

theorem expressionStatement_gives :
    ∀ budget : Nat, (expressionStatement budget).Gives Stmt.Printable
  | 0 => .noOperand
  | budget + 1 => by
    rw [expressionStatement]
    exact (expression_gives budget .lowest).bind fun _ value =>
      Gives.skipSemicolon.bind fun _ _ => .pure value

end

theorem statements_printable
    (budget : Nat) {parser : Parser}
    (writable : parser.Writable) :
    Stmt.PrintableList (statements budget parser).1 := by
  induction budget generalizing parser with
  | zero => trivial
  | succ budget induction =>
      by_cases atEnd : parser.current.kind = .endOfInput
      · rw [statements_endOfInput atEnd]
        trivial
      · rw [statements_succ atEnd]
        rcases statement_gives budget writable with ⟨printable, kept⟩
        exact Stmt.printableList_append (Stmt.printableList_toList printable)
          (induction kept.advance)

end Grammar

theorem printable_of_source (source : String) :
    (parse source).program.Printable := by
  rw [parse, parseLexemes, Parser.program]
  refine Grammar.statements_printable _ (.ofLexemes fun lexeme member => ?_)
  rw [lexemes_eq_scan] at member
  exact writable_of_mem_scan member

/--
The program that is read from a source can be written, with or without
diagnostics, and it is read back from its text without any.
-/
theorem parse_printable (source : String) :
    (parse source).program.Printable ∧
      parse (parse source).program.print = ⟨(parse source).program, []⟩ := by
  have printable := printable_of_source source
  refine ⟨printable, ?_⟩
  rw [parse.eq_def (parse source).program.print]
  exact parseLexemes_of_derives printable.derives

end Bhasha
