import Bhasha.Program.Equality
import Bhasha.Proofs.Evaluation.Termination
import Bhasha.Proofs.Parser.Acceptance
import Bhasha.Proofs.Token.Separation

/-!
# Running sources one by one or joined

Sources that are joined by semicolons are read as the statements of the sources
in order, and running them joined comes to the same as running them one by one.
A semicolon joins no two lexemes; it closes the last statement of a source like
the end of the input does; and a program that runs to its end leaves the machine
in which the statement after it would have started.
-/

namespace Bhasha

open Step

/-! ## Lexemes and derivations -/

/-- The lexemes of two sources with a semicolon between them. -/
theorem lexemes_semicolon
    {first : String}
    (closed : ¬ EndsInString first.toList)
    (second : String) :
    lexemes (first ++ ";" ++ second) =
      lexemes first ++ .ofSymbol .semicolon :: lexemes second := by
  have mark : Delimits ";" [.ofSymbol .semicolon] := delimits_punctuation rfl
  have separated : Separated (";".toList ++ second.toList) :=
    separated_append rfl _
  rw [lexemes_eq_scan, lexemes_eq_scan, lexemes_eq_scan, String.toList_append,
    String.toList_append, List.append_assoc, scan_append closed separated,
    mark, List.singleton_append]

/-- No expression goes on with a semicolon. -/
theorem not_continues_semicolon
    {mark : String} {rest second : List Lexeme}
    (stops : ∀ next ∈ rest.head?, ¬ next.kind.Continues) :
    ∀ next ∈ (rest ++ ⟨.symbol .semicolon, mark⟩ :: second).head?,
      ¬ next.kind.Continues := by
  cases rest with
  | nil =>
      rintro next ⟨⟩
      rw [Precedence.continues_iff]
      exact Nat.lt_irrefl 0
  | cons next rest => exact stops

/-- A semicolon stands between two sequences of statements. -/
theorem Phrase.Sequence.join
    {mark : String} {first second : List Lexeme} {body statements : List Stmt}
    (derives : Sequence first body)
    (more : Sequence second statements) :
    Sequence (first ++ ⟨.symbol .semicolon, mark⟩ :: second)
      (body ++ statements) := by
  -- A derivation is one of several mutual relations, so the induction is on
  -- the length of its phrase.
  induction count : first.length using Nat.strong_induction_on
    generalizing first body with
  | h count induction =>
      subst count
      cases derives with
      | empty => exact .semicolon more
      | semicolon rest =>
          exact .semicolon (induction _ (by simp) rest rfl)
      | closed statement rest =>
          rw [List.append_assoc]
          refine .closed statement (induction _ ?_ rest rfl)
          simp only [List.length_append, List.length_cons]
          omega
      | unclosed statement stops rest =>
          have positive := statement.length_pos
          rw [List.append_assoc]
          refine .unclosed statement (not_continues_semicolon stops)
            (induction _ ?_ rest rfl)
          simp only [List.length_append]
          omega

/-- Sources that have no diagnostic are joined to one that has none. -/
theorem derives_intercalate
    {pieces : List String} {last : String}
    (accepted : ∀ source ∈ pieces ++ [last], (parse source).diagnostics = [])
    (closed : ∀ source ∈ pieces, ¬ EndsInString source.toList) :
    Phrase.Sequence (lexemes (";".intercalate (pieces ++ [last])))
      ((pieces ++ [last]).map fun source => (parse source).program).flatten := by
  induction pieces with
  | nil =>
      have derives := derives_of_accepted (accepted last (by simp))
      simpa using derives
  | cons first pieces induction =>
      rcases List.forall_mem_cons.1 closed with ⟨closedFirst, closed⟩
      rcases List.forall_mem_cons.1 accepted with ⟨acceptedFirst, accepted⟩
      have more := induction accepted closed
      have joined : ";".intercalate (first :: pieces ++ [last]) =
          first ++ ";" ++ ";".intercalate (pieces ++ [last]) := by
        cases pieces with
        | nil => exact String.intercalate_cons_cons
        | cons second pieces => exact String.intercalate_cons_cons
      rw [joined, lexemes_semicolon closedFirst]
      exact (derives_of_accepted acceptedFirst).join more

/-! ## Evaluation -/

/-- Statements behind others start with what these leave. -/
theorem Evaluation.stmts_append
    (apply : Application) (scope : ScopeId) (last : Option Value)
    (first second : List Stmt) :
    stmts apply scope last (first ++ second) =
      stmts apply scope last first >>= fun value =>
        stmts apply scope value second := by
  induction first generalizing last with
  | nil =>
      rw [List.nil_append, stmts, pure_bind]
  | cons statement rest induction =>
      rw [List.cons_append, stmts, stmts, bind_assoc]
      congr 1
      funext value
      exact induction value

/-- What the statements before have left is not seen by a later one. -/
theorem Evaluation.stmts_last
    (apply : Application) (scope : ScopeId) (last : Option Value)
    {statements : List Stmt}
    (nonempty : statements ≠ []) :
    stmts apply scope last statements = stmts apply scope none statements := by
  cases statements with
  | nil => exact absurd rfl nonempty
  | cons statement rest => rw [stmts, stmts]

namespace Program

/--
Programs that are run in turn, in one scope and from one machine to the next,
each to its end: none is stopped by a failure or by a return.
-/
inductive RunsThrough (config : Config) (scope : ScopeId) :
    List Program → Machine → Machine → Prop where
  | nil : RunsThrough config scope [] machine machine
  | cons
      (ends : steps config program scope machine = .ok value middle)
      (more : RunsThrough config scope programs middle after) :
      RunsThrough config scope (program :: programs) machine after

/-- A program behind others starts with the machine that these leave. -/
theorem steps_flatten
    {config : Config} {scope : ScopeId} {programs : List Program}
    {machine after : Machine} {last : Program}
    (runs : RunsThrough config scope programs machine after)
    (nonempty : last ≠ []) :
    steps config (programs.flatten ++ last) scope machine =
      steps config last scope after := by
  induction runs with
  | nil => rfl
  | @cons program machine value middle programs after ends more induction =>
      have longer : programs.flatten ++ last ≠ [] :=
        List.append_ne_nil_of_right_ne_nil _ nonempty
      have first : Evaluation.stmts config.apply scope none program machine =
          .ok value middle := by
        rw [← ends]
        exact (Evaluation.stmts_apply config scope program machine).symm
      calc steps config ((program :: programs).flatten ++ last) scope machine
        _ = Evaluation.stmts config.apply scope none
              (program ++ (programs.flatten ++ last)) machine := by
            rw [List.flatten_cons, List.append_assoc]
            exact Evaluation.stmts_apply config scope _ machine
        _ = Evaluation.stmts config.apply scope none
              (programs.flatten ++ last) middle := by
            rw [Evaluation.stmts_append, bind_ok first,
              Evaluation.stmts_last config.apply scope value longer]
        _ = steps config (programs.flatten ++ last) scope middle :=
            (Evaluation.stmts_apply config scope _ middle).symm
        _ = steps config last scope after := induction

end Program

/--
Sources without diagnostics, of which only the last may end inside a string, are
joined by semicolons to a source without diagnostics, which is read as their
statements in order.  If all but the last run through, then the last one has the
same outcome as the joined program, and leaves the same machine: the same
bindings and the same output in all.  This holds in every scope, and for the
values of programs in the global one.
-/
theorem eval_intercalate
    (pieces : List String) (last : String)
    (accepted : ∀ source ∈ pieces ++ [last], (parse source).diagnostics = [])
    (closed : ∀ source ∈ pieces, ¬ EndsInString source.toList)
    (nonempty : (parse last).program ≠ []) :
    let programs := pieces.map fun source => (parse source).program
    let joined := parse (";".intercalate (pieces ++ [last]))
    joined = ⟨programs.flatten ++ (parse last).program, []⟩ ∧
    (∀ config scope machine after,
      Program.RunsThrough config scope programs machine after →
        joined.program.steps config scope machine =
          (parse last).program.steps config scope after) ∧
    ∀ config machine after,
      Program.RunsThrough config Scopes.global programs machine after →
        joined.program.eval config machine =
          (parse last).program.eval config after := by
  intro programs joined
  have derives := derives_intercalate accepted closed
  have isJoined : joined = ⟨programs.flatten ++ (parse last).program, []⟩ := by
    have whole : ((pieces ++ [last]).map
        fun source => (parse source).program).flatten =
          programs.flatten ++ (parse last).program := by
      simp [programs]
    rw [whole] at derives
    exact parseLexemes_of_derives derives
  have same : ∀ config scope machine after,
      Program.RunsThrough config scope programs machine after →
        joined.program.steps config scope machine =
          (parse last).program.steps config scope after := by
    intro config scope machine after runs
    rw [isJoined]
    exact Program.steps_flatten runs nonempty
  refine ⟨isJoined, same, ?_⟩
  intro config machine after runs
  rw [Program.eval_eq, Program.eval_eq, same config _ machine after runs]

/--
A definition, a source with a semicolon inside a string, and a last source that
ends inside a string.
-/
theorem eval_intercalate_strings :
    let pieces := ["लेट x = 7", "\"a;\"; फन() \x7b x \x7d"]
    let last := "x + \"b"
    let joined := parse (";".intercalate (pieces ++ [last]))
    (∀ source ∈ pieces ++ [last], (parse source).diagnostics = []) ∧
      (∀ source ∈ pieces, ¬ EndsInString source.toList) ∧
      EndsInString last.toList ∧
      joined.diagnostics = [] ∧
      ∃ after,
        Program.RunsThrough {} Scopes.global
            (pieces.map fun source => (parse source).program) .initial after ∧
          joined.program.eval {} .initial =
            (parse last).program.eval {} after := by
  intro pieces last joined
  have accepted :
      ∀ source ∈ pieces ++ [last], (parse source).diagnostics = [] := by
    decide +kernel
  have closed : ∀ source ∈ pieces, ¬ EndsInString source.toList := by
    simp only [endsInString_iff]
    decide +kernel
  have first : (parse "लेट x = 7").program = [.define "x" (.integer 7)] :=
    (Program.same_iff _ _).1 (by decide +kernel)
  have second : (parse "\"a;\"; फन() \x7b x \x7d").program =
      [.expression (.string "a;"),
        .expression (.function [] [.expression (.name "x")])] :=
    (Program.same_iff _ _).1 (by decide +kernel)
  have nonempty : (parse last).program ≠ [] := by
    rw [← List.isEmpty_eq_false_iff]
    decide +kernel
  have runs : ∃ after, Program.RunsThrough {} Scopes.global
      (pieces.map fun source => (parse source).program) .initial after := by
    rw [List.map_cons, List.map_cons, List.map_nil, first, second]
    exact ⟨_, .cons rfl (.cons rfl .nil)⟩
  rcases runs with ⟨after, runs⟩
  rcases eval_intercalate pieces last accepted closed nonempty with
    ⟨isJoined, -, same⟩
  exact ⟨accepted, closed, (endsInString_iff _).2 (by decide +kernel),
    congrArg Parsed.diagnostics isJoined, after, runs,
    same {} .initial after runs⟩

end Bhasha
