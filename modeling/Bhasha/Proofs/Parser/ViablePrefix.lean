import Bhasha.Proofs.Parser.Lookahead
import Bhasha.Proofs.Parser.Soundness

/-!
# Phrases that the parser has begun

Every step of the grammar decides by what it has seen.  When it stops, the
lexemes in front of the wrong one are the start of a phrase of the grammar: each
open construct is completed by a name, where an operand is missing, and by the
marks that close it.  The completed parts of the phrase are derived because the
parser is sound.

A step that starts on the lexeme in hand may find that this lexeme is the wrong
one, so the steps for expressions and statements are looked at from the lexeme
before.
-/

namespace Bhasha

namespace Grammar

open ParseM

/-! ## Parameters -/

theorem moreParameters_incremental
    (budget : Nat) {parser : Parser}
    (cost : 1 + 8 * parser.upcoming.length ≤ budget) :
    Incremental 1 budget moreParameters parser Phrase.MoreParameters := by
  induction budget generalizing parser with
  | zero => omega
  | succ budget induction =>
      refine .succ ?_
      simp only [moreParameters]
      refine .peek (.branch (fun found => ?_) fun _ => .pure [])
      refine .behind found (by decide) fun _ lengthComma => ?_
      refine .expect (by decide) ⟨[.name], _, .some .none⟩
        fun isName lengthName => ?_
      refine .current ?_
      rw [isName]
      exact ((induction (by omega)).mono (by omega)).map fun more => .some more

/-- The parameters of a function and the parenthesis that closes them. -/
def ClosedParameters (phrase : List Lexeme) (names : List String) : Prop :=
  ∃ inner closing, phrase = inner ++ [⟨.symbol .rightParen, closing⟩] ∧
    Phrase.Parameters inner names

theorem parameters_incremental
    (budget : Nat) {parser : Parser}
    (cost : 1 + 8 * parser.upcoming.length ≤ budget) :
    Incremental 1 budget parameters parser ClosedParameters := by
  unfold parameters
  refine .peek (.branch (fun found => .advance_pure []) fun _ => ?_)
  refine .expect (by decide)
    ⟨[.name, .symbol .rightParen], _, [_], _, rfl, .some .none⟩
    fun {name} isName length => ?_
  refine .current ?_
  rw [isName]
  refine ((moreParameters_incremental budget (by omega)).mono
    (by omega)).seq (fun phrase names _ => Phrase.MoreParameters phrase names)
    (fun outcome clean =>
      moreParameters_sound budget _ _ _ (by omega) outcome clean)
    (fun _ _ => (Advances.expect _).bind fun _ => .pure _)
    (fun {phrase _} more => ⟨[.symbol .rightParen], _,
      ⟨.identifier, name⟩ :: phrase, _, rfl, .some more⟩) ?_
  intro phrase names after reads more
  exact .expect (by decide)
    ⟨[.symbol .rightParen], _, ⟨.identifier, name⟩ :: phrase, _, rfl,
      .some more⟩ fun _ _ => .pure _

/-! ## Expressions after a lexeme -/

/-- What holds behind the lexeme in hand holds from the lexeme before. -/
theorem SoundWithin.next
    {α : Type} {cost budget : Nat} {step : ParseM α}
    {derives : Lexeme → List Lexeme → α → Kind → Prop}
    {parser after : Parser} {value : α}
    (sound : SoundWithin cost budget step derives)
    (nonempty : parser.upcoming ≠ [])
    (enough : cost + 8 * parser.upcoming.length ≤ budget + 8)
    (outcome : step parser.advance = .ok value after)
    (clean : after.diagnostics = #[]) :
    ∃ first phrase, parser.Reads (first :: phrase) after ∧
      derives first phrase value after.peek := by
  rcases List.exists_cons_of_ne_nil nonempty with ⟨first, rest, upcoming⟩
  rcases Parser.reads_advance upcoming with ⟨isFirst, reads⟩
  have length := reads.length_eq
  rw [List.length_singleton] at length
  rcases sound parser.advance after value (by omega) outcome clean with
    ⟨phrase, readsRest, derived⟩
  rw [isFirst] at derived
  exact ⟨first, phrase, reads.trans readsRest, derived⟩

section Parts

variable {β : Type} {cost budget : Nat} {parser : Parser}
variable {target : List Lexeme → β → Prop}

/-- An expression from the next lexeme on, and what goes on behind it. -/
theorem expression_then
    {level : Precedence} {next : Nat → Expr → ParseM β}
    (start : Incremental 2 budget
      (fun left => advance >>= fun _ => expression left level) parser
      (Phrase.Expression level.stratum))
    (order : 2 ≤ cost)
    (enough : 8 * parser.upcoming.length ≤ budget)
    (goes : ∀ budget tree, (next budget tree).Advances)
    (complete : ∀ {phrase tree},
      Phrase.Expression level.stratum phrase tree → Begins target phrase)
    (second : ∀ {phrase tree after},
      Phrase.Expression level.stratum phrase tree →
      parser.upcoming.length = phrase.length + after.upcoming.length →
      0 < phrase.length →
      Incremental (cost + 8 * phrase.length) budget
        (fun left => next left tree) after
        (fun rest result => target (phrase ++ rest) result)) :
    Incremental cost budget
      (fun left => advance >>= fun _ => expression left level >>= next left)
      parser target := by
  refine ((start.mono order).seq
    (fun phrase tree _ => Phrase.Expression level.stratum phrase tree) ?_ goes
    complete fun reads derives =>
      second derives reads.length_eq derives.length_pos).congr
    fun _ _ _ => rfl
  intro tree after outcome clean
  rcases (expression_sound budget).next (by omega) outcome clean with
    ⟨phrase, reads, derives, -⟩
  exact ⟨phrase, reads, derives⟩

/-- A block from its opening brace on, and what goes on behind it. -/
theorem braces_then
    {next : Nat → List Stmt → ParseM β}
    (start : ∀ {place : Parser},
      place.upcoming.length < parser.upcoming.length →
      Incremental 6 budget block place
        (fun phrase body => ∀ {opening},
          Phrase.Block (⟨.symbol .leftBrace, opening⟩ :: phrase) body))
    (enough : 8 * parser.upcoming.length ≤ budget)
    (goes : ∀ budget body, (next budget body).Advances)
    (complete : ∀ {phrase body}, Phrase.Block phrase body →
      Begins target phrase)
    (second : ∀ {phrase body after}, Phrase.Block phrase body →
      parser.upcoming.length = phrase.length + after.upcoming.length →
      Incremental (cost + 8 * phrase.length) budget
        (fun left => next left body) after
        (fun rest result => target (phrase ++ rest) result)) :
    Incremental cost budget
      (fun left => expect (.symbol .leftBrace) >>= fun _ =>
        block left >>= next left)
      parser target := by
  have empty : Begins target
      ([] ++ [Closer.symbol .leftBrace, .symbol .rightBrace].map
        Closer.lexeme) :=
    complete (.braces .empty)
  refine .expect (by decide) empty.of_append fun {opening} _ length => ?_
  refine ((start (by omega)).mono (by omega)).seq
    (fun phrase body _ => ∀ {opening},
      Phrase.Block (⟨.symbol .leftBrace, opening⟩ :: phrase) body)
    (fun outcome clean =>
      block_sound budget _ _ _ (by omega) outcome clean)
    goes (fun derives => complete derives) fun reads derives => ?_
  have lengthBody := reads.length_eq
  refine (second derives ?_).mono ?_
  · rw [List.length_cons]
    omega
  · rw [List.length_cons]
    omega

/-- In front of the closing brace of a hash there are no more entries. -/
theorem hashEntries_then
    {build : List (Expr × Expr) → β}
    (found : parser.peek = .symbol .rightBrace)
    (enough : 0 < budget)
    (positive : 0 < cost) :
    Incremental cost budget
      (fun left => hashEntries left >>= fun entries => pure (build entries))
      parser target := by
  rcases Nat.exists_eq_add_of_le' enough with ⟨budget, rfl⟩
  rcases Nat.exists_eq_add_of_le' positive with ⟨cost, rfl⟩
  refine .succ ((Incremental.advance_pure (build [])).congr ?_)
  intro left place alike
  have nothing : hashEntries (left + 1) place = .ok [] place.advance := by
    rw [hashEntries, peek_bind, if_pos (alike.peek.trans found)]
    rfl
  rw [Step.bind_ok nothing]
  rfl

end Parts

/-! ## Statements of a sequence -/

/-- A statement without its semicolon, or a semicolon alone. -/
inductive Clause : List Lexeme → Option Stmt → Prop where
  | semicolon : Clause [⟨.symbol .semicolon, mark⟩] none
  | statement (inner : Phrase.Statement phrase tree) :
      Clause phrase (some tree)

theorem Clause.sequence
    {phrase : List Lexeme} {result : Option Stmt}
    (clause : Clause phrase result) :
    Phrase.Sequence phrase result.toList := by
  cases clause with
  | semicolon => exact .semicolon .empty
  | statement inner =>
      have stops : ∀ next ∈ ([] : List Lexeme).head?,
          ¬ next.kind.Continues :=
        nofun
      simpa using Phrase.Sequence.unclosed inner stops .empty

/--
The rest of a sequence in front of a parser, up to its end.  Its first lexeme
is the one that comes next, so it may stand behind what was read.
-/
def Remainder (ends : List Lexeme → Prop) (parser : Parser)
    (phrase : List Lexeme) (body : List Stmt) : Prop :=
  ∃ inner last, phrase = inner ++ last ∧ ends last ∧
    Phrase.Sequence inner body ∧
    ∀ first ∈ inner.head?, first.kind = parser.peek

/-- A statement that is read stands in front of what comes next. -/
theorem statement_next
    {budget : Nat} {parser : Parser}
    (nonempty : parser.upcoming ≠ [])
    (enough : 8 * parser.upcoming.length ≤ budget + 1)
    (clean : (statement budget parser.advance).2.diagnostics = #[]) :
    ∃ first phrase,
      parser.Reads (first :: phrase) (statement budget parser.advance).2 ∧
      ∀ {inner body},
        (∀ next ∈ inner.head?,
          next.kind = (statement budget parser.advance).2.peek) →
        Phrase.Sequence inner body →
        Phrase.Sequence (first :: phrase ++ inner)
          ((statement budget parser.advance).1.toList ++ body) := by
  rcases List.exists_cons_of_ne_nil nonempty with ⟨first, rest, upcoming⟩
  rcases Parser.reads_advance upcoming with ⟨isFirst, reads⟩
  have length := reads.length_eq
  rw [List.length_singleton] at length
  rcases statement_sound budget parser.advance (by omega) clean with
    ⟨found, mark, isMark, same⟩ | ⟨tree, phrase, found, readsRest, ended⟩
  · refine ⟨first, [], by rwa [same], fun _ more => ?_⟩
    rw [found, ← isFirst, isMark]
    exact .semicolon more
  · refine ⟨first, phrase, reads.trans readsRest, fun isNext more => ?_⟩
    rw [isFirst] at ended
    rw [found]
    exact ended.sequence isNext more

/-- The first statement of a sequence, and then the others. -/
theorem statement_then
    {cost budget : Nat} {parser : Parser}
    {more : Nat → ParseM (List Stmt)} {ends : List Lexeme → Prop}
    {closing : List Closer}
    (start : Incremental cost budget
      (fun left => advance >>= fun _ => modifyGet (statement left)) parser
      Clause)
    (nonempty : parser.upcoming ≠ [])
    (enough : 8 * parser.upcoming.length ≤ budget + 1)
    (isEnd : ends (closing.map Closer.lexeme))
    (goes : ∀ budget, (more budget).Advances)
    (rest : ∀ {after : Parser},
      after.upcoming.length < parser.upcoming.length →
      Incremental 5 budget (fun left => advance >>= fun _ => more left) after
        (Remainder ends after)) :
    Incremental cost budget
      (fun left => advance >>= fun _ =>
        modifyGet (statement left) >>= fun first =>
          advance >>= fun _ => more left >>= fun body =>
            pure (first.toList ++ body))
      parser (Remainder ends parser) := by
  have isPeek : ∀ {first phrase}, first :: phrase <+: parser.upcoming →
      first.kind = parser.peek := by
    rintro first phrase ⟨tail, whole⟩
    rw [Parser.peek, ← whole]
    rfl
  have goesOn : ∀ left (first : Option Stmt),
      (advance >>= fun _ => more left >>= fun body =>
        pure (first.toList ++ body) : ParseM (List Stmt)).Advances :=
    fun left _ => Advances.advance.bind fun _ =>
      (goes left).bind fun _ => .pure _
  refine (start.bind goesOn ?_ ?_).congr fun _ _ _ => rfl
  · rintro phrase initial ⟨closers, result, clause⟩
    -- If nothing of the statement was read, the sequence ends in front of it:
    -- another statement there could go on with the one before.
    cases phrase with
    | nil =>
        refine ⟨closing, [], [], _, rfl, isEnd, .empty, ?_⟩
        rintro _ ⟨⟩
    | cons first phrase =>
        refine ⟨closers ++ closing, result.toList, _, _, ?_, isEnd,
          clause.sequence, ?_⟩
        · rw [List.map_append, List.append_assoc]
        · rintro _ ⟨⟩
          exact isPeek initial
  · rintro first after ⟨⟩ clean
    rcases statement_next nonempty enough clean with
      ⟨first, phrase, reads, derives⟩
    have length := reads.length_eq
    rw [List.length_cons] at length
    refine ⟨first :: phrase, reads.upcoming_eq, ?_⟩
    refine (((rest (by omega)).mono (by rw [List.length_cons]; omega)).map
      ?_).congr fun _ _ _ => rfl
    rintro _ body ⟨inner, last, rfl, isLast, sequence, isNext⟩
    refine ⟨first :: phrase ++ inner, last, ?_, isLast,
      derives isNext sequence, ?_⟩
    · rw [List.append_assoc]
    · rintro _ ⟨⟩
      exact isPeek (reads.upcoming_eq ▸ List.prefix_append _ _)

/-- A statement is told by its first lexeme. -/
theorem modifyGet_statement (budget : Nat) :
    (modifyGet (statement (budget + 1)) : ParseM (Option Stmt)) =
      current >>= fun lexeme =>
        match lexeme.kind with
        | .keyword .binding => modifyGet (attempt (definition budget))
        | .keyword .number => modifyGet (attempt (definition budget))
        | .keyword .result => modifyGet (attempt (Grammar.result budget))
        | .symbol .semicolon => pure none
        | _ => modifyGet (attempt (expressionStatement budget)) := by
  funext place
  rcases place with ⟨⟨kind, literal⟩, upcoming, diagnostics⟩
  show EStateM.Result.ok (statement (budget + 1) _).1
    (statement (budget + 1) _).2 = _
  rw [statement, current_bind]
  cases kind with
  | keyword word => cases word <;> rfl
  | symbol mark => cases mark <;> rfl
  | _ => rfl

/-! ## The steps of the grammar -/

/-- A phrase that is read as one operand. -/
def IsOperand (phrase : List Lexeme) (tree : Expr) : Prop :=
  ∃ stratum, Phrase.Expression stratum phrase tree ∧
    Stratum.signed.rank ≤ stratum.rank

theorem IsOperand.applied
    {phrase : List Lexeme} {tree : Expr}
    (derives : Phrase.Expression .applied phrase tree) :
    IsOperand phrase tree :=
  ⟨.applied, derives, by decide⟩

/-- A phrase that makes an expression larger by the mark in front of it. -/
def Extends (leftPhrase : List Lexeme) (mark : Lexeme) (phrase : List Lexeme)
    (tree : Expr) : Prop :=
  ∃ outer, Phrase.Expression outer (leftPhrase ++ mark :: phrase) tree ∧
    outer.rank = (Precedence.ofKind mark.kind).rank

/-- Items and the mark that closes them. -/
def ClosedItems (mark : Symbol) (phrase : List Lexeme)
    (trees : List Expr) : Prop :=
  ∃ inner closing, phrase = inner ++ [⟨.symbol mark, closing⟩] ∧
    Phrase.Items inner trees

theorem ClosedItems.some
    {mark : Symbol} {phrase rest : List Lexeme} {tree : Expr}
    {trees : List Expr} {closing : String}
    (first : Phrase.Expression .equality phrase tree)
    (more : Phrase.MoreItems rest trees) :
    ClosedItems mark (phrase ++ (rest ++ [⟨.symbol mark, closing⟩]))
      (tree :: trees) :=
  ⟨phrase ++ rest, closing, (List.append_assoc ..).symm, .some first more⟩

/-- Entries and the brace that closes them. -/
def ClosedEntries (phrase : List Lexeme)
    (pairs : List (Expr × Expr)) : Prop :=
  ∃ inner closing, phrase = inner ++ [⟨.symbol .rightBrace, closing⟩] ∧
    Phrase.Entries inner pairs

theorem ClosedEntries.last
    {keyPhrase valuePhrase : List Lexeme} {key value : Expr}
    {colon closing : String}
    (derivesKey : Phrase.Expression .equality keyPhrase key)
    (derivesValue : Phrase.Expression .equality valuePhrase value) :
    ClosedEntries
      (keyPhrase ++ ⟨.symbol .colon, colon⟩ ::
        (valuePhrase ++ [⟨.symbol .rightBrace, closing⟩]))
      [(key, value)] :=
  ⟨keyPhrase ++ ⟨.symbol .colon, colon⟩ :: valuePhrase, closing, by simp,
    .last derivesKey derivesValue⟩

theorem ClosedEntries.some
    {keyPhrase valuePhrase rest : List Lexeme} {key value : Expr}
    {pairs : List (Expr × Expr)} {colon comma : String}
    (derivesKey : Phrase.Expression .equality keyPhrase key)
    (derivesValue : Phrase.Expression .equality valuePhrase value)
    (more : ClosedEntries rest pairs) :
    ClosedEntries
      (keyPhrase ++ ⟨.symbol .colon, colon⟩ ::
        (valuePhrase ++ ⟨.symbol .comma, comma⟩ :: rest))
      ((key, value) :: pairs) := by
  rcases more with ⟨inner, closing, rfl, entries⟩
  exact ⟨keyPhrase ++ ⟨.symbol .colon, colon⟩ ::
      (valuePhrase ++ ⟨.symbol .comma, comma⟩ :: inner), closing, by simp,
    .some derivesKey derivesValue entries⟩

/-- A block ends with a closing brace. -/
def IsClosingBrace (last : List Lexeme) : Prop :=
  ∃ closing, last = [⟨.symbol .rightBrace, closing⟩]

/-- The definition of a name, with either of the keywords for it. -/
theorem statement_define
    {first : Lexeme} {name mark : String} {phrase : List Lexeme} {tree : Expr}
    (start : first.kind = .keyword .binding ∨ first.kind = .keyword .number)
    (value : Phrase.Expression .equality phrase tree) :
    Phrase.Statement
      (first :: ⟨.identifier, name⟩ :: ⟨.symbol .assign, mark⟩ :: phrase)
      (.define name tree) := by
  rcases start with start | start
  · rw [Lexeme.eq_mk start]
    exact .binding value
  · rw [Lexeme.eq_mk start]
    exact .number value

mutual

theorem expression_incremental :
    ∀ (budget : Nat) (level : Precedence) {parser : Parser},
      2 + 8 * parser.upcoming.length ≤ budget →
      Incremental 2 budget
        (fun left => advance >>= fun _ => expression left level) parser
        (Phrase.Expression level.stratum)
  | 0, _, _, cost => by omega
  | budget + 1, level, parser, cost => by
    refine .succ ?_
    simp only [expression]
    refine ((operand_incremental budget (by omega)).seq
      (fun phrase tree after => ∃ stratum,
        Phrase.Expression stratum phrase tree ∧
          Stratum.signed.rank ≤ stratum.rank ∧
          (Precedence.ofKind after.peek).rank ≤ stratum.rank)
      ?_ (fun left tree => operators_advances left level tree) ?_ ?_).congr
      fun _ _ _ => rfl
    · intro tree after outcome clean
      have nonempty : parser.upcoming ≠ [] := by
        intro nothing
        refine operand_ne_ok_of_endOfInput ?_ outcome
        rw [Parser.advance, nothing]
        rfl
      rcases SoundWithin.next (operand_sound budget) nonempty (by omega)
          outcome clean with
        ⟨first, phrase, reads, derives⟩
      exact ⟨first :: phrase, reads, derives⟩
    · rintro phrase tree ⟨stratum, derives, tight⟩
      exact .done
        (.tighter ((Precedence.stratum_rank_le level).trans tight) derives)
    · rintro phrase tree after reads ⟨stratum, derives, tight, stops⟩
      have length := reads.length_eq
      have positive := derives.length_pos
      exact (operators_incremental budget derives
        ((Precedence.stratum_rank_le level).trans tight) stops
        (by omega)).mono (by omega)

theorem operators_incremental :
    ∀ (budget : Nat) {level : Precedence} {stratum : Stratum}
      {leftPhrase : List Lexeme} {left : Expr} {parser : Parser},
      Phrase.Expression stratum leftPhrase left →
      level.stratum.rank ≤ stratum.rank →
      (Precedence.ofKind parser.peek).rank ≤ stratum.rank →
      1 + 8 * parser.upcoming.length ≤ budget →
      Incremental 1 budget (fun units => operators units level left) parser
        (fun phrase tree =>
          Phrase.Expression level.stratum (leftPhrase ++ phrase) tree)
  | 0, _, _, _, _, _, _, _, _, cost => by omega
  | budget + 1, level, stratum, leftPhrase, left, parser, derives, tight,
      stops, cost => by
    refine .succ ?_
    simp only [operators]
    refine .peek (.branch (fun above => ?_) fun _ => .pure left)
    have inside : parser.peek ≠ .endOfInput := by
      intro atEnd
      rw [atEnd] at above
      exact absurd above (Nat.not_lt_zero _)
    refine .behind rfl inside fun {mark} isMark length => ?_
    have larger : ∀ {phrase tree},
        Extends leftPhrase ⟨parser.peek, mark⟩ phrase tree →
        Phrase.Expression level.stratum
          (leftPhrase ++ ⟨parser.peek, mark⟩ :: phrase) tree := by
      rintro phrase tree ⟨outer, derives, rank⟩
      refine .tighter ?_ derives
      rw [rank]
      exact Precedence.stratum_rank_le_of_lt above
    refine ((extend_incremental budget derives isMark
      (Nat.zero_lt_of_lt above) stops (by omega)).mono (by omega)).seq
      (fun phrase tree after => ∃ outer,
        Phrase.Expression outer
          (leftPhrase ++ ⟨parser.peek, mark⟩ :: phrase) tree ∧
        outer.rank = (Precedence.ofKind parser.peek).rank ∧
        (Precedence.ofKind after.peek).rank ≤ outer.rank)
      ?_ (fun units tree => operators_advances units level tree)
      (fun extended => .done (larger extended)) ?_
    · intro tree after outcome clean
      have kindMark : parser.advance.current.kind = parser.peek := by
        rw [isMark]
      rcases extend_sound budget derives parser.advance after tree
          (by rw [kindMark]; omega) (by rw [kindMark]; exact stops)
          (by omega) outcome clean with
        ⟨phrase, outer, reads, extended, rank, stop⟩
      rw [isMark] at extended rank
      exact ⟨phrase, reads, outer, extended, rank, stop⟩
    · rintro phrase tree after reads ⟨outer, extended, rank, stop⟩
      have lengthRest := reads.length_eq
      refine ((operators_incremental budget extended
        (by rw [rank]; exact Precedence.stratum_rank_le_of_lt above) stop
        (by omega)).mono (by omega)).imp ?_
      intro rest whole derived
      simpa using derived

theorem extend_incremental :
    ∀ (budget : Nat) {stratum : Stratum} {leftPhrase : List Lexeme}
      {left : Expr} {parser : Parser} {mark : Lexeme},
      Phrase.Expression stratum leftPhrase left →
      parser.current = mark →
      0 < (Precedence.ofKind mark.kind).rank →
      (Precedence.ofKind mark.kind).rank ≤ stratum.rank →
      5 + 8 * parser.upcoming.length ≤ budget →
      Incremental 5 budget (fun units => extend units left) parser
        (Extends leftPhrase mark)
  | 0, _, _, _, _, _, _, _, _, _, cost => by omega
  | budget + 1, stratum, leftPhrase, left, parser, ⟨kind, literal⟩, derives,
      isMark, above, stops, cost => by
    refine .succ ?_
    simp only [extend]
    refine .current ?_
    rw [isMark]
    cases (Precedence.continues_iff kind).2 above with
    | call =>
        cases stratum_eq_applied stops
        exact (call_incremental budget derives (by omega)).imp
          fun whole => ⟨.applied, whole, rfl⟩
    | index =>
        cases stratum_eq_applied stops
        exact ((index_incremental budget derives (by omega)).mono
          (by omega)).imp fun whole => ⟨.applied, whole, rfl⟩
    | binary operator =>
        have rank :
            (Precedence.ofKind (.symbol operator.symbol)).rank =
              operator.stratum.rank :=
          Precedence.rank_ofSymbol operator
        have inner : Incremental 4 budget
            (fun units => binary units operator
              (Precedence.ofSymbol operator.symbol) left) parser
            (Extends leftPhrase ⟨.symbol operator.symbol, literal⟩) :=
          ((binary_incremental budget operator
            (.tighter (rank ▸ stops) derives) (by omega)).mono
              (by omega)).imp fun whole => ⟨_, whole, rank.symm⟩
        cases operator <;> exact inner

theorem binary_incremental :
    ∀ (budget : Nat) (operator : BinaryOp) {leftPhrase : List Lexeme}
      {left : Expr} {parser : Parser} {mark : String},
      Phrase.Expression operator.stratum leftPhrase left →
      3 + 8 * parser.upcoming.length ≤ budget →
      Incremental 3 budget
        (fun units => binary units operator
          (Precedence.ofSymbol operator.symbol) left)
        parser
        (fun phrase tree => Phrase.Expression operator.stratum
          (leftPhrase ++ ⟨.symbol operator.symbol, mark⟩ :: phrase) tree)
  | 0, _, _, _, _, _, _, cost => by omega
  | budget + 1, operator, leftPhrase, left, parser, mark, derives, cost => by
    have order :
        operator.stratum.rank <
          (Precedence.ofSymbol operator.symbol).stratum.rank := by
      cases operator <;> decide
    refine .succ ?_
    simp only [binary]
    exact expression_then (expression_incremental budget _ (by omega))
      (by omega) (by omega) (fun _ _ => .pure _)
      (fun right => .done (.binary order derives right))
      fun _ _ _ => .pure _

theorem call_incremental :
    ∀ (budget : Nat) {calleePhrase : List Lexeme} {callee : Expr}
      {parser : Parser} {opening : String},
      Phrase.Expression .applied calleePhrase callee →
      4 + 8 * parser.upcoming.length ≤ budget →
      Incremental 4 budget (fun units => call units callee) parser
        (fun phrase tree => Phrase.Expression .applied
          (calleePhrase ++ ⟨.symbol .leftParen, opening⟩ :: phrase) tree)
  | 0, _, _, _, _, _, cost => by omega
  | budget + 1, calleePhrase, callee, parser, opening, derives, cost => by
    refine .succ ?_
    simp only [call]
    refine (expressionList_incremental budget .rightParen (by omega)).map ?_
    rintro _ trees ⟨inner, closing, rfl, items⟩
    exact .call derives items

theorem index_incremental :
    ∀ (budget : Nat) {collectionPhrase : List Lexeme} {collection : Expr}
      {parser : Parser} {opening : String},
      Phrase.Expression .applied collectionPhrase collection →
      3 + 8 * parser.upcoming.length ≤ budget →
      Incremental 3 budget (fun units => index units collection) parser
        (fun phrase tree => Phrase.Expression .applied
          (collectionPhrase ++ ⟨.symbol .leftBracket, opening⟩ :: phrase) tree)
  | 0, _, _, _, _, _, cost => by omega
  | budget + 1, collectionPhrase, collection, parser, opening, derives,
      cost => by
    refine .succ ?_
    simp only [index]
    exact expression_then (expression_incremental budget _ (by omega))
      (by omega) (by omega) (fun _ _ => (Advances.expect _).bind fun _ => .pure _)
      (fun position => ⟨[.symbol .rightBracket], _, .index derives position⟩)
      fun position _ _ => .expect (by decide)
        ⟨[.symbol .rightBracket], _, .index derives position⟩
        fun _ _ => .pure _

theorem operand_incremental :
    ∀ (budget : Nat) {parser : Parser},
      1 + 8 * parser.upcoming.length ≤ budget →
      Incremental 1 budget (fun left => advance >>= fun _ => operand left)
        parser IsOperand
  | 0, _, cost => by omega
  | budget + 1, parser, cost => by
    have missing : Begins IsOperand [] := ⟨[.name], _, .applied .name⟩
    refine .succ ?_
    simp only [operand]
    refine .look ?_
    cases upcoming : parser.upcoming with
    | nil =>
        have atEnd : parser.advance.current = .endOfInput := by
          rw [Parser.advance, upcoming]
        rw [atEnd]
        exact .noOperand missing
    | cons first rest =>
        rcases Parser.reads_advance upcoming with ⟨isFirst, reads⟩
        have length := reads.length_eq
        rw [List.length_singleton] at length
        rw [isFirst]
        rcases first with ⟨kind, literal⟩
        have applied : ∀ {step : Nat → ParseM Expr},
            Incremental 4 budget step parser.advance
              (fun phrase tree => Phrase.Expression .applied
                (⟨kind, literal⟩ :: phrase) tree) →
            Incremental 0 budget
              (fun left => advance >>= fun _ => step left) parser IsOperand :=
          fun inner => .advance upcoming
            ((inner.mono (by omega)).imp fun derives => .applied derives)
        have signed : ∀ {step : Nat → ParseM Expr},
            Incremental 4 budget step parser.advance
              (fun phrase tree => Phrase.Expression .signed
                (⟨kind, literal⟩ :: phrase) tree) →
            Incremental 0 budget
              (fun left => advance >>= fun _ => step left) parser IsOperand :=
          fun inner => .advance upcoming
            ((inner.mono (by omega)).imp fun derives =>
              ⟨.signed, derives, Nat.le_refl _⟩)
        cases kind with
        | identifier => exact .advance_pure _
        | string => exact .advance_pure _
        | integer =>
            dsimp only
            cases Numeral.read? literal with
            | some value => exact .advance_pure _
            | none => exact .throw missing
        | keyword word =>
            cases word with
            | print => exact .advance_pure _
            | truth => exact .advance_pure _
            | falsehood => exact .advance_pure _
            | conditional =>
                exact applied (conditional_incremental budget (by omega))
            | function =>
                exact applied (function_incremental budget (by omega))
            | _ => exact .noOperand missing
        | symbol mark =>
            cases mark with
            | bang => exact signed (unary_incremental budget .not (by omega))
            | minus =>
                exact signed (unary_incremental budget .negate (by omega))
            | leftParen => exact applied (grouped_incremental budget (by omega))
            | leftBracket => exact applied (array_incremental budget (by omega))
            | leftBrace => exact applied (hash_incremental budget (by omega))
            | _ => exact .noOperand missing
        | _ => exact .noOperand missing

theorem unary_incremental :
    ∀ (budget : Nat) (operator : UnaryOp) {parser : Parser} {mark : String},
      4 + 8 * parser.upcoming.length ≤ budget →
      Incremental 4 budget (fun units => unary units operator) parser
        (fun phrase tree => Phrase.Expression .signed
          (⟨.symbol operator.symbol, mark⟩ :: phrase) tree)
  | 0, _, _, _, cost => by omega
  | budget + 1, operator, parser, mark, cost => by
    refine .succ ?_
    simp only [unary]
    exact expression_then (expression_incremental budget _ (by omega))
      (by omega) (by omega)
      (fun _ _ => .pure _) (fun operand => .done (.unary operand))
      fun _ _ _ => .pure _

theorem grouped_incremental :
    ∀ (budget : Nat) {parser : Parser} {opening : String},
      4 + 8 * parser.upcoming.length ≤ budget →
      Incremental 4 budget grouped parser
        (fun phrase tree => Phrase.Expression .applied
          (⟨.symbol .leftParen, opening⟩ :: phrase) tree)
  | 0, _, _, cost => by omega
  | budget + 1, parser, opening, cost => by
    refine .succ ?_
    simp only [grouped]
    exact expression_then (expression_incremental budget _ (by omega))
      (by omega) (by omega)
      (fun _ _ => (Advances.expect _).bind fun _ => .pure _)
      (fun inner => ⟨[.symbol .rightParen], _, .grouped inner⟩)
      fun inner _ _ => .expect (by decide)
        ⟨[.symbol .rightParen], _, .grouped inner⟩ fun _ _ => .pure _

theorem conditional_incremental :
    ∀ (budget : Nat) {parser : Parser} {word : String},
      4 + 8 * parser.upcoming.length ≤ budget →
      Incremental 4 budget conditional parser
        (fun phrase tree => Phrase.Expression .applied
          (⟨.keyword .conditional, word⟩ :: phrase) tree)
  | 0, _, _, cost => by omega
  | budget + 1, parser, word, cost => by
    have branches : ∀ left condition consequence,
        (do
          if (← peek) = .keyword .alternative then
            advance
            expect (.symbol .leftBrace)
            let alternative ← block left
            pure (.conditional condition consequence (some alternative))
          else
            pure (.conditional condition consequence none) :
          ParseM Expr).Advances := by
      intro left condition consequence
      refine Advances.peek.bind fun _ => ?_
      split
      · exact Advances.advance.bind fun _ =>
          (Advances.expect _).bind fun _ =>
            (block_advances left).bind fun _ => .pure _
      · exact .pure _
    refine .succ ?_
    simp only [conditional]
    refine expression_then (expression_incremental budget _ (by omega))
      (by omega) (by omega)
      (fun left _ => (Advances.expect _).bind fun _ =>
        (block_advances left).bind fun _ => branches left _ _)
      (fun condition => ⟨[.symbol .leftBrace, .symbol .rightBrace], _,
        .conditional condition (.braces .empty) .none⟩)
      fun condition lengthCondition _ => ?_
    refine braces_then (fun _ => block_incremental budget (by omega)) (by omega)
      (fun left _ => branches left _ _)
      (fun consequence => ⟨[], _, .conditional condition consequence .none⟩)
      fun consequence lengthBody => ?_
    refine .peek (.branch (fun found => ?_) fun _ => .pure _)
    refine .behind found (by decide) fun _ lengthWord => ?_
    exact braces_then (fun _ => block_incremental budget (by omega)) (by omega)
      (fun _ _ => .pure _)
      (fun alternative =>
        .done (.conditional condition consequence (.some alternative)))
      fun _ _ => .pure _

theorem function_incremental :
    ∀ (budget : Nat) {parser : Parser} {word : String},
      4 + 8 * parser.upcoming.length ≤ budget →
      Incremental 4 budget function parser
        (fun phrase tree => Phrase.Expression .applied
          (⟨.keyword .function, word⟩ :: phrase) tree)
  | 0, _, _, cost => by omega
  | budget + 1, parser, word, cost => by
    refine .succ ?_
    simp only [function]
    refine .expect (by decide)
      ⟨[.symbol .leftParen, .symbol .rightParen, .symbol .leftBrace,
        .symbol .rightBrace], _, .function .none (.braces .empty)⟩
      fun {opening} _ length => ?_
    have whole : ∀ {phrase bodyPhrase names body},
        ClosedParameters phrase names → Phrase.Block bodyPhrase body →
        Phrase.Expression .applied
          (⟨.keyword .function, word⟩ :: ⟨.symbol .leftParen, opening⟩ ::
            (phrase ++ bodyPhrase))
          (.function names body) := by
      rintro _ _ _ _ ⟨inner, closing, rfl, names⟩ body
      rw [List.append_assoc]
      exact .function names body
    refine ((parameters_incremental budget (by omega)).mono (by omega)).seq
      (fun phrase names _ => ClosedParameters phrase names)
      (fun outcome clean =>
        parameters_sound budget _ _ _ (by omega) outcome clean)
      (fun left _ => (Advances.expect _).bind fun _ =>
        (block_advances left).bind fun _ => .pure _)
      (fun names => ⟨[.symbol .leftBrace, .symbol .rightBrace], _,
        whole names (.braces .empty)⟩) ?_
    intro phrase _ after reads names
    have lengthNames := reads.length_eq
    exact braces_then (fun _ => block_incremental budget (by omega)) (by omega)
      (fun _ _ => .pure _) (fun body => .done (whole names body))
      fun _ _ => .pure _

theorem array_incremental :
    ∀ (budget : Nat) {parser : Parser} {opening : String},
      4 + 8 * parser.upcoming.length ≤ budget →
      Incremental 4 budget array parser
        (fun phrase tree => Phrase.Expression .applied
          (⟨.symbol .leftBracket, opening⟩ :: phrase) tree)
  | 0, _, _, cost => by omega
  | budget + 1, parser, opening, cost => by
    refine .succ ?_
    simp only [array]
    refine (expressionList_incremental budget .rightBracket (by omega)).map ?_
    rintro _ trees ⟨inner, closing, rfl, items⟩
    exact .array items

theorem hash_incremental :
    ∀ (budget : Nat) {parser : Parser} {opening : String},
      4 + 8 * parser.upcoming.length ≤ budget →
      Incremental 4 budget hash parser
        (fun phrase tree => Phrase.Expression .applied
          (⟨.symbol .leftBrace, opening⟩ :: phrase) tree)
  | 0, _, _, cost => by omega
  | budget + 1, parser, opening, cost => by
    refine .succ ?_
    simp only [hash]
    refine (hashEntries_incremental budget (by omega)).map ?_
    rintro _ pairs ⟨inner, closing, rfl, entries⟩
    exact .hash entries

theorem expressionList_incremental :
    ∀ (budget : Nat) (mark : Symbol) {parser : Parser},
      3 + 8 * parser.upcoming.length ≤ budget →
      Incremental 3 budget
        (fun units => expressionList units (.symbol mark)) parser
        (ClosedItems mark)
  | 0, _, _, cost => by omega
  | budget + 1, mark, parser, cost => by
    refine .succ ?_
    simp only [expressionList]
    refine .peek (.branch (fun _ => .advance_pure []) fun _ => ?_)
    refine expression_then (expression_incremental budget _ (by omega))
      (by omega) (by omega)
      (fun left _ => (moreExpressions_advances left).bind fun _ =>
        (Advances.expect _).bind fun _ => .pure _)
      (fun first => ⟨[.symbol mark], _, .some first .none⟩)
      fun {phrase _ _} first length positive => ?_
    refine ((moreExpressions_incremental budget (by omega)).mono
      (by omega)).seq (fun rest trees _ => Phrase.MoreItems rest trees)
      (fun outcome clean =>
        moreExpressions_sound budget _ _ _ (by omega) outcome clean)
      (fun _ _ => (Advances.expect _).bind fun _ => .pure _)
      (fun more => ⟨[.symbol mark], _, .some first more⟩) ?_
    intro rest trees after reads more
    exact .expect nofun ⟨[.symbol mark], _, .some first more⟩
      fun _ _ => .pure _

theorem moreExpressions_incremental :
    ∀ (budget : Nat) {parser : Parser},
      1 + 8 * parser.upcoming.length ≤ budget →
      Incremental 1 budget moreExpressions parser Phrase.MoreItems
  | 0, _, cost => by omega
  | budget + 1, parser, cost => by
    refine .succ ?_
    simp only [moreExpressions]
    refine .peek (.branch (fun found => ?_) fun _ => .pure [])
    refine .behind found (by decide) fun _ lengthComma => ?_
    refine expression_then (expression_incremental budget _ (by omega))
      (by omega) (by omega)
      (fun left _ => (moreExpressions_advances left).bind fun _ => .pure _)
      (fun first => ⟨[], _, .some first .none⟩)
      fun first lengthFirst _ => ?_
    exact ((moreExpressions_incremental budget (by omega)).mono
      (by omega)).map fun more => .some first more

theorem hashEntries_incremental :
    ∀ (budget : Nat) {parser : Parser},
      3 + 8 * parser.upcoming.length ≤ budget →
      Incremental 3 budget hashEntries parser ClosedEntries
  | 0, _, cost => by omega
  | budget + 1, parser, cost => by
    refine .succ ?_
    simp only [hashEntries]
    refine .peek (.branch (fun _ => .advance_pure []) fun _ => ?_)
    have entries : ∀ left (key value : Expr),
        (hashEntries left >>= fun rest => pure ((key, value) :: rest) :
          ParseM (List (Expr × Expr))).Advances :=
      fun left _ _ => (hashEntries_advances left).bind fun _ => .pure _
    have closes : ∀ left (key value : Expr),
        (peek >>= fun found =>
          if found ≠ .symbol .rightBrace then
            expect (.symbol .comma) >>= fun _ =>
              hashEntries left >>= fun rest => pure ((key, value) :: rest)
          else
            hashEntries left >>= fun rest => pure ((key, value) :: rest) :
          ParseM (List (Expr × Expr))).Advances := by
      intro left key value
      refine Advances.peek.bind fun found => ?_
      split
      · exact (Advances.expect _).bind fun _ => entries left key value
      · exact entries left key value
    refine expression_then (expression_incremental budget _ (by omega))
      (by omega) (by omega)
      (fun left _ => (Advances.expect _).bind fun _ =>
        Advances.advance.bind fun _ =>
          (expression_advances left _).bind fun _ => closes left _ _)
      (fun key => ⟨[.symbol .colon, .name, .symbol .rightBrace], _,
        .last key (.loosest .name)⟩)
      fun key lengthKey _ => ?_
    refine .expect (by decide)
      ⟨[.symbol .colon, .name, .symbol .rightBrace], _,
        .last key (.loosest .name)⟩
      fun _ lengthColon => ?_
    refine expression_then (expression_incremental budget _ (by omega))
      (by omega) (by omega)
      (fun left _ => closes left _ _)
      (fun value => ⟨[.symbol .rightBrace], _, .last key value⟩)
      fun value lengthValue _ => ?_
    refine .peek (.branch (fun _ => ?_) fun found => ?_)
    · refine .expect (by decide) ⟨[.symbol .rightBrace], _, .last key value⟩
        fun _ lengthComma => ?_
      exact ((hashEntries_incremental budget (by omega)).mono (by omega)).map
        fun more => .some key value more
    · -- Without a comma no entry follows, and none has to be completed.
      exact hashEntries_then (Classical.not_not.1 found) (by omega) (by omega)

theorem block_incremental :
    ∀ (budget : Nat) {parser : Parser},
      6 + 8 * parser.upcoming.length ≤ budget →
      Incremental 6 budget block parser
        (fun phrase body => ∀ {opening},
          Phrase.Block (⟨.symbol .leftBrace, opening⟩ :: phrase) body)
  | 0, _, cost => by omega
  | budget + 1, parser, cost => by
    refine .succ ?_
    simp only [block]
    refine (blockStatements_incremental budget (by omega)).imp ?_
    rintro _ body ⟨inner, _, rfl, ⟨closing, rfl⟩, statements, -⟩ opening
    exact .braces statements

theorem blockStatements_incremental :
    ∀ (budget : Nat) {parser : Parser},
      5 + 8 * parser.upcoming.length ≤ budget →
      Incremental 5 budget
        (fun left => advance >>= fun _ => blockStatements left) parser
        (Remainder IsClosingBrace parser)
  | 0, _, cost => by omega
  | budget + 1, parser, cost => by
    refine .succ ?_
    simp only [blockStatements]
    refine .look ?_
    by_cases closes : parser.advance.current.kind = .symbol .rightBrace
    · simp only [if_pos closes]
      exact .advance_pure []
    · simp only [if_neg closes]
      by_cases atEnd : parser.advance.current.kind = .endOfInput
      · simp only [if_pos atEnd]
        exact .throw ⟨[.symbol .rightBrace], [], [], _, rfl, ⟨_, rfl⟩, .empty,
          nofun⟩
      · simp only [if_neg atEnd]
        have nonempty : parser.upcoming ≠ [] := by
          intro nothing
          rw [Parser.advance, nothing] at atEnd
          exact atEnd rfl
        have isEnd : IsClosingBrace
            ([Closer.symbol .rightBrace].map Closer.lexeme) :=
          ⟨_, rfl⟩
        exact statement_then (statement_incremental budget (by omega)) nonempty
          (by omega) isEnd blockStatements_advances
          fun _ => blockStatements_incremental budget (by omega)

theorem statement_incremental :
    ∀ (budget : Nat) {parser : Parser},
      4 + 8 * parser.upcoming.length ≤ budget →
      Incremental 4 budget
        (fun left => advance >>= fun _ => modifyGet (statement left)) parser
        Clause
  | 0, _, cost => by omega
  | budget + 1, parser, cost => by
    refine .succ ?_
    simp only [modifyGet_statement]
    refine .look ?_
    have other : Incremental 3 budget
        (fun left => advance >>= fun _ =>
          modifyGet (attempt (expressionStatement left))) parser Clause :=
      ((expressionStatement_incremental budget (by omega)).attempt
        .statement).congr fun _ _ _ => rfl
    cases upcoming : parser.upcoming with
    | nil =>
        have atEnd : parser.advance.current = .endOfInput := by
          rw [Parser.advance, upcoming]
        rw [atEnd]
        exact other
    | cons first rest =>
        rcases Parser.reads_advance upcoming with ⟨isFirst, reads⟩
        have length := reads.length_eq
        rw [List.length_singleton] at length
        rw [isFirst]
        rcases first with ⟨kind, literal⟩
        cases kind with
        | keyword word =>
            cases word with
            | binding =>
                exact .advance upcoming
                  (((definition_incremental budget (.inl rfl) (by omega)).mono
                    (by omega)).attempt .statement)
            | number =>
                exact .advance upcoming
                  (((definition_incremental budget (.inr rfl) (by omega)).mono
                    (by omega)).attempt .statement)
            | result =>
                exact .advance upcoming
                  (((result_incremental budget (by omega)).mono
                    (by omega)).attempt .statement)
            | _ => exact other
        | symbol mark =>
            cases mark with
            | semicolon => exact .advance_pure none
            | _ => exact other
        | _ => exact other

theorem definition_incremental :
    ∀ (budget : Nat) {parser : Parser} {first : Lexeme},
      first.kind = .keyword .binding ∨ first.kind = .keyword .number →
      4 + 8 * parser.upcoming.length ≤ budget →
      Incremental 4 budget definition parser
        (fun phrase tree => Phrase.Statement (first :: phrase) tree)
  | 0, _, _, _, cost => by omega
  | budget + 1, parser, first, start, cost => by
    refine .succ ?_
    simp only [definition]
    refine .expect (by decide)
      ⟨[.name, .symbol .assign, .name], _, statement_define start
        (Phrase.Expression.loosest .name)⟩ fun isName lengthName => ?_
    refine .current ?_
    rw [isName]
    refine .expect (by decide)
      ⟨[.symbol .assign, .name], _, statement_define start
        (Phrase.Expression.loosest .name)⟩ fun _ lengthMark => ?_
    exact expression_then (expression_incremental budget _ (by omega))
      (by omega) (by omega)
      (fun _ _ => Advances.skipSemicolon.bind fun _ => .pure _)
      (fun value => .done (statement_define start value))
      fun _ _ _ => .skipSemicolon _

theorem result_incremental :
    ∀ (budget : Nat) {parser : Parser} {word : String},
      4 + 8 * parser.upcoming.length ≤ budget →
      Incremental 4 budget result parser
        (fun phrase tree =>
          Phrase.Statement (⟨.keyword .result, word⟩ :: phrase) tree)
  | 0, _, _, cost => by omega
  | budget + 1, parser, word, cost => by
    refine .succ ?_
    simp only [result]
    exact expression_then (expression_incremental budget _ (by omega))
      (by omega) (by omega)
      (fun _ _ => Advances.skipSemicolon.bind fun _ => .pure _)
      (fun value => .done (.result value)) fun _ _ _ => .skipSemicolon _

theorem expressionStatement_incremental :
    ∀ (budget : Nat) {parser : Parser},
      3 + 8 * parser.upcoming.length ≤ budget →
      Incremental 3 budget
        (fun left => advance >>= fun _ => expressionStatement left) parser
        Phrase.Statement
  | 0, _, cost => by omega
  | budget + 1, parser, cost => by
    refine .succ ?_
    simp only [expressionStatement]
    exact expression_then (expression_incremental budget _ (by omega))
      (by omega) (by omega) (fun _ _ => Advances.skipSemicolon.bind fun _ => .pure _)
      (fun value => .done (.expression value)) fun _ _ _ => .skipSemicolon _

end

/-! ## Whole inputs -/

/-- Statements are read one after the other up to the end of the input. -/
theorem modifyGet_statements (budget : Nat) :
    (modifyGet (statements (budget + 1)) : ParseM Program) =
      current >>= fun lexeme =>
        if lexeme.kind = .endOfInput then
          pure []
        else
          modifyGet (statement budget) >>= fun first =>
            advance >>= fun _ => modifyGet (statements budget) >>= fun body =>
              pure (first.toList ++ body) := by
  funext place
  show EStateM.Result.ok (statements (budget + 1) place).1
    (statements (budget + 1) place).2 = _
  rw [current_bind]
  by_cases atEnd : place.current.kind = .endOfInput
  · rw [statements_endOfInput atEnd, if_pos atEnd]
    rfl
  · rw [statements_succ atEnd, if_neg atEnd]
    rfl

theorem statements_incremental
    (budget : Nat) {parser : Parser}
    (cost : 5 + 8 * parser.upcoming.length ≤ budget) :
    Incremental 5 budget
      (fun left => advance >>= fun _ => modifyGet (statements left)) parser
      (Remainder (fun last => last = []) parser) := by
  induction budget generalizing parser with
  | zero => omega
  | succ budget induction =>
      refine .succ ?_
      simp only [modifyGet_statements]
      refine .look ?_
      by_cases atEnd : parser.advance.current.kind = .endOfInput
      · simp only [if_pos atEnd]
        exact .advance_pure []
      · simp only [if_neg atEnd]
        have nonempty : parser.upcoming ≠ [] := by
          intro nothing
          rw [Parser.advance, nothing] at atEnd
          exact atEnd rfl
        have isEnd : ([] : List Closer).map Closer.lexeme = [] := rfl
        exact statement_then (statement_incremental budget (by omega)) nonempty
          (by omega) isEnd (fun left place => statements_reaches left place)
          fun _ => induction (by omega)

end Grammar

end Bhasha
