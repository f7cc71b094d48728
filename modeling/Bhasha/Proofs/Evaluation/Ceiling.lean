import Bhasha.Proofs.Evaluation.Output

/-!
# Raising the limit of nested calls

Two runs of a program that differ only in how deeply calls may nest go in step
until the lower limit is reached.  There the run with the lower limit fails,
and nothing in the language catches a failure, so it ends.  The other run goes
on and can only add to the output.  So either the lower limit plays no part and
both runs are the same, or the run with the lower limit ends with the failure
that names this limit.
-/

namespace Bhasha

open Step

/-! ## Runs with a lower and a higher limit -/

/--
A step under a limit is the same as another one, unless it fails because of the
limit; the other one has then printed what it has, and maybe more.
-/
structure Refines (limit : Nat) {α : Type} (low high : EvalM α) : Prop where
  prints : Within Machine.Prints high
  agrees (machine : Machine) :
    high machine = low machine ∨
      ∃ after,
        low machine = .error (.failed (.stackExhausted limit)) after ∧
          after.Prints (final high machine)

namespace Refines

variable {limit : Nat} {α β : Type}

/-- A step that does not depend on the limit. -/
theorem refl
    {step : EvalM α}
    (prints : Within Machine.Prints step) :
    Refines limit step step :=
  ⟨prints, fun _ => .inl rfl⟩

theorem bind
    {low high : EvalM α} {next other : α → EvalM β}
    (first : Refines limit low high)
    (second : ∀ value, Refines limit (next value) (other value)) :
    Refines limit (low >>= next) (high >>= other) := by
  have later : ∀ value, Within Machine.Prints (other value) :=
    fun value => (second value).prints
  refine ⟨first.prints.bind Sink.Extends.trans later, fun machine => ?_⟩
  rcases first.agrees machine with same | ⟨after, exhausted, printed⟩
  · cases outcome : low machine with
    | ok value middle =>
        rw [outcome] at same
        rw [final, bind_ok outcome, bind_ok same]
        exact (second value).agrees middle
    | error reason middle =>
        rw [outcome] at same
        rw [bind_error outcome, bind_error same]
        exact .inl rfl
  · refine .inr ⟨after, bind_error exhausted, ?_⟩
    cases outcome : high machine with
    | ok value middle =>
        rw [final_of_ok outcome] at printed
        rw [final, bind_ok outcome]
        exact printed.trans (later value middle)
    | error reason middle =>
        rw [final_of_error outcome] at printed
        rw [final_of_error (bind_error outcome)]
        exact printed

/-- A call fails because of the limit when its body does. -/
theorem withinCall
    {low high : EvalM (Option Value)}
    (body : Refines limit low high) :
    Refines limit (EvalM.withinCall low) (EvalM.withinCall high) := by
  refine ⟨fun machine => ?_, fun machine => ?_⟩
  · rw [EvalM.final_withinCall]
    exact body.prints { machine with depth := machine.depth + 1 }
  · rw [EvalM.final_withinCall, EvalM.withinCall, EvalM.withinCall]
    rcases body.agrees { machine with depth := machine.depth + 1 } with
      same | ⟨after, exhausted, printed⟩
    · rw [same]
      exact .inl rfl
    · rw [exhausted]
      exact .inr ⟨after.left, rfl, printed⟩

end Refines

namespace Evaluation

theorem respects_refines (limit : Nat) (scope : ScopeId) :
    Respects scope (Refines limit) where
  pure value := .refl ((kept_prints scope).respects.pure value)
  throw reason := .refl ((kept_prints scope).respects.throw reason)
  bind := .bind
  name name := .refl ((kept_prints scope).respects.name name)
  fresh := .refl (kept_prints scope).respects.fresh
  define name value := .refl ((kept_prints scope).respects.define name value)

/-- Only the call of a function that fits its arguments counts calls. -/
theorem applyWithin_eq
    {limit remaining higher more : Nat} {callee : Value}
    {arguments : List Value}
    (other : ∀ identity closure, callee = .function identity closure →
      arguments.length ≠ closure.parameters.length) :
    applyWithin higher more callee arguments =
      applyWithin limit remaining callee arguments := by
  cases callee with
  | function identity closure =>
      have differs := other identity closure rfl
      rw [applyWithin_mismatch differs, applyWithin_mismatch differs]
  | _ => cases remaining <;> cases more <;> rfl

/-- It is enough to look at the calls of functions that fit. -/
theorem refines_of_calls
    {limit remaining higher more : Nat} {callee : Value}
    {arguments : List Value}
    (calls : ∀ identity closure, callee = .function identity closure →
      arguments.length = closure.parameters.length →
      ∀ machine,
        applyWithin higher more callee arguments machine =
            applyWithin limit remaining callee arguments machine ∨
          ∃ after,
            applyWithin limit remaining callee arguments machine =
                .error (.failed (.stackExhausted limit)) after ∧
              after.Prints
                (final (applyWithin higher more callee arguments) machine)) :
    Refines limit (applyWithin limit remaining callee arguments)
      (applyWithin higher more callee arguments) := by
  refine ⟨applyWithin_prints higher more callee arguments,
    fun machine => ?_⟩
  by_cases enters : ∃ identity closure,
      callee = .function identity closure ∧
        arguments.length = closure.parameters.length
  · rcases enters with ⟨identity, closure, isFunction, fits⟩
    exact calls identity closure isFunction fits machine
  · refine .inl (congrFun (applyWithin_eq ?_) machine)
    intro identity closure isFunction fits
    exact enters ⟨identity, closure, isFunction, fits⟩

/-- Applying a value under a lower limit refines applying it under a higher. -/
theorem applyWithin_refines
    (limit higher : Nat) {remaining more : Nat}
    (order : remaining ≤ more)
    (callee : Value) (arguments : List Value) :
    Refines limit (applyWithin limit remaining callee arguments)
      (applyWithin higher more callee arguments) := by
  induction remaining generalizing more callee arguments with
  | zero =>
      apply refines_of_calls
      rintro identity closure rfl fits machine
      refine .inr ⟨machine, ?_, applyWithin_prints higher more _ _ machine⟩
      rw [applyWithin, if_neg (not_not_intro fits)]
      rfl
  | succ remaining induction =>
      apply refines_of_calls
      rintro identity closure rfl fits machine
      cases more with
      | zero => omega
      | succ more =>
          have body :=
            stmts_related (respects_refines limit machine.scopes.size)
              (induction (Nat.le_of_succ_le_succ order)) none closure.body
          rw [final, applyWithin_function fits, applyWithin_function fits]
          exact body.withinCall.agrees _

end Evaluation

/-! ## Programs -/

namespace Program

open Evaluation

theorem steps_refines
    {low high : Nat}
    (order : low ≤ high)
    (program : Program) (scope : ScopeId) :
    Refines low (program.steps ⟨low⟩ scope) (program.steps ⟨high⟩ scope) := by
  have agrees : ∀ machine : Machine,
      Refines low
        (stmts (applyWithin low (low - machine.depth)) scope none program)
        (stmts (applyWithin high (high - machine.depth)) scope none program) :=
    fun machine =>
      stmts_related (respects_refines low scope)
        (applyWithin_refines low high (Nat.sub_le_sub_right order _))
        none program
  exact ⟨fun machine => (agrees machine).prints machine,
    fun machine => (agrees machine).agrees machine⟩

/-- A program leaves the machine that its steps leave. -/
theorem eval_machine (config : Config) (program : Program)
    (machine : Machine) :
    (program.eval config machine).2 =
      final (program.steps config Scopes.global) machine := by
  rw [eval, final]
  cases program.steps config Scopes.global machine with
  | ok value after => rfl
  | error reason after => cases reason <;> rfl

/--
Under a higher limit a program has the same outcome and leaves the same machine,
unless it ends because of the lower limit; it has then printed, under the lower
limit, an initial part of what it prints under the higher one.  The first part
is about the values of programs, the second about their steps in any scope.
-/
theorem eval_of_higher_limit
    (program : Program) (machine : Machine) (low high : Nat)
    (order : low ≤ high) :
    ((program.eval ⟨low⟩ machine).1 ≠ some (.error (.stackExhausted low)) →
        program.eval ⟨high⟩ machine = program.eval ⟨low⟩ machine) ∧
      ((program.eval ⟨low⟩ machine).1 = some (.error (.stackExhausted low)) →
        ∃ more, (program.eval ⟨high⟩ machine).2.sink.written =
          (program.eval ⟨low⟩ machine).2.sink.written ++ more) ∧
      ∀ scope : ScopeId,
        program.steps ⟨high⟩ scope machine =
            program.steps ⟨low⟩ scope machine ∨
          ∃ after more,
            program.steps ⟨low⟩ scope machine =
                .error (.failed (.stackExhausted low)) after ∧
              (final (program.steps ⟨high⟩ scope) machine).sink.written =
                after.sink.written ++ more := by
  have refines := fun scope =>
    (steps_refines order program scope).agrees machine
  refine ⟨?_, ?_, ?_⟩
  · intro ends
    rcases refines Scopes.global with same | ⟨after, exhausted, -⟩
    · rw [eval, eval, same]
    · rw [eval, exhausted] at ends
      exact (ends rfl).elim
  · intro _
    rw [eval_machine, eval_machine]
    rcases refines Scopes.global with same | ⟨after, exhausted, printed⟩
    · rw [final, final, same]
      exact Sink.Extends.refl _
    · rw [final_of_error exhausted]
      exact printed
  · intro scope
    rcases refines scope with same | ⟨after, exhausted, more, printed⟩
    · exact .inl same
    · exact .inr ⟨after, more, exhausted, printed⟩

/--
A function that calls another one fails under the limit one, and under the limit
two it ends as it does under every higher limit.
-/
theorem eval_of_higher_limit_nested :
    let program : Program :=
      [.expression (.call (.function []
        [.expression (.call (.function [] [.result (.integer 7)]) [])]) [])]
    ((program.eval ⟨1⟩ .initial).1 = some (.error (.stackExhausted 1)) ∧
        ∃ more, (program.eval ⟨2⟩ .initial).2.sink.written =
          (program.eval ⟨1⟩ .initial).2.sink.written ++ more) ∧
      (program.eval ⟨2⟩ .initial).1 = some (.integer 7) ∧
        program.eval ⟨2000⟩ .initial = program.eval ⟨2⟩ .initial := by
  intro program
  have exhausted :
      (program.eval ⟨1⟩ .initial).1 = some (.error (.stackExhausted 1)) :=
    rfl
  have ends : (program.eval ⟨2⟩ .initial).1 = some (.integer 7) :=
    rfl
  have differs :
      (program.eval ⟨2⟩ .initial).1 ≠ some (.error (.stackExhausted 2)) := by
    rw [ends]
    nofun
  have prints := eval_of_higher_limit program .initial 1 2 (by decide)
  have same := eval_of_higher_limit program .initial 2 2000 (by decide)
  exact ⟨⟨exhausted, prints.2.1 exhausted⟩, ends, same.1 differs⟩

end Program

end Bhasha
