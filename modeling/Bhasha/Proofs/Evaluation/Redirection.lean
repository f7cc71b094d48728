import Bhasha.Proofs.Evaluation.Course

/-!
# Another sink

An evaluation hands its sink on to the builtins and never looks at it.  So if
every builtin goes along with a change of sinks, giving the same result and
leaving the changed sink, then every evaluation does.  The change may be one
that only some sinks admit, as long as builtins leave such sinks behind.
-/

namespace Bhasha

open Step

/-- A change of the sinks of some kind with which every builtin goes along. -/
structure Sink.Redirects (admits : Sink → Prop) (change : Sink → Sink) :
    Prop where
  admits_call {sink : Sink} (builtin : Builtin) (arguments : List Value) :
    admits sink → admits (builtin.call arguments sink).2
  call_eq {sink : Sink} (builtin : Builtin) (arguments : List Value) :
    admits sink →
    builtin.call arguments (change sink) =
      ((builtin.call arguments sink).1, change (builtin.call arguments sink).2)

/-- A machine whose sink is changed. -/
def Machine.redirect (change : Sink → Sink) (machine : Machine) : Machine :=
  { machine with sink := change machine.sink }

/-- An ending in a machine whose sink is changed. -/
def Ending.redirect {α : Type} (change : Sink → Sink) : Ending α → Ending α
  | .ok value after => .ok value (after.redirect change)
  | .error reason after => .error reason (after.redirect change)

/-! ## Steps -/

variable {admits : Sink → Prop} {change : Sink → Sink}

/-- A step ends with the changed sink if it starts with it. -/
def GoesAlong {α : Type} (admits : Sink → Prop) (change : Sink → Sink)
    (step : EvalM α) : Prop :=
  ∀ machine, admits machine.sink →
    admits (final step machine).sink ∧
      step (machine.redirect change) = Ending.redirect change (step machine)

namespace GoesAlong

theorem bind
    {α β : Type} {step : EvalM α} {next : α → EvalM β}
    (first : GoesAlong admits change step)
    (second : ∀ value, GoesAlong admits change (next value)) :
    GoesAlong admits change (step >>= next) := by
  intro machine admitted
  rcases first machine admitted with ⟨kept, start⟩
  cases outcome : step machine with
  | ok value after =>
      rw [final_of_ok outcome] at kept
      rw [outcome] at start
      rw [final, bind_ok outcome, ← final, bind_ok start]
      exact second value after kept
  | error reason after =>
      rw [final_of_error outcome] at kept
      rw [outcome] at start
      rw [final, bind_error outcome, bind_error start]
      exact ⟨kept, rfl⟩

theorem name (scope : ScopeId) (identifier : String) :
    GoesAlong admits change (Evaluation.name scope identifier) := by
  intro machine admitted
  rw [Evaluation.final_name]
  refine ⟨admitted, ?_⟩
  have same : (machine.redirect change).scopes = machine.scopes := rfl
  rw [Evaluation.name_eq, Evaluation.name_eq, same]
  cases (machine.scopes.lookup scope identifier).or
    ((Builtin.ofName? identifier).map Value.builtin) with
  | some value => rfl
  | none => rfl

theorem run
    (redirects : Sink.Redirects admits change)
    (builtin : Builtin) (arguments : List Value) :
    GoesAlong admits change (builtin.run arguments) := by
  intro machine admitted
  have kept := redirects.admits_call builtin arguments admitted
  have call := redirects.call_eq builtin arguments admitted
  rw [final, Builtin.run_eq, Builtin.run_eq, Machine.redirect, call]
  cases (builtin.call arguments machine.sink).1 with
  | ok value => exact ⟨kept, rfl⟩
  | error failure => exact ⟨kept, rfl⟩

theorem withinCall
    {body : EvalM (Option Value)}
    (along : GoesAlong admits change body) :
    GoesAlong admits change (EvalM.withinCall body) := by
  intro machine admitted
  rcases along { machine with depth := machine.depth + 1 } admitted with
    ⟨kept, inside⟩
  rw [EvalM.final_withinCall]
  refine ⟨kept, ?_⟩
  rw [EvalM.withinCall_eq, EvalM.withinCall_eq]
  refine (congrArg Ending.leaveCall inside).trans ?_
  cases body { machine with depth := machine.depth + 1 } with
  | ok value after => rfl
  | error reason after => cases reason <;> rfl

end GoesAlong

/-! ## Evaluations -/

namespace Evaluation

theorem respects_goesAlong (scope : ScopeId) :
    Respects scope fun step _ => GoesAlong admits change step where
  pure _ _ admitted := ⟨admitted, rfl⟩
  throw _ _ admitted := ⟨admitted, rfl⟩
  bind := .bind
  name := .name scope
  fresh _ admitted := ⟨admitted, rfl⟩
  define _ _ _ admitted := ⟨admitted, rfl⟩

theorem stmts_goesAlong
    {apply : Application}
    (applies : ∀ callee arguments,
      GoesAlong admits change (apply callee arguments))
    (scope : ScopeId) (statements : List Stmt) :
    GoesAlong admits change (stmts apply scope none statements) :=
  @stmts_related scope _ apply apply (respects_goesAlong scope) applies none
    statements

end Evaluation

namespace Sink.Redirects

variable (redirects : Sink.Redirects admits change)
include redirects

theorem applyWithin
    (limit remaining : Nat) (callee : Value) (arguments : List Value) :
    GoesAlong admits change
      (applyWithin limit remaining callee arguments) := by
  induction remaining generalizing callee arguments with
  | zero =>
      cases callee with
      | function identity closure =>
          intro machine admitted
          rw [Bhasha.applyWithin]
          split <;> exact ⟨admitted, rfl⟩
      | builtin builtin => exact .run redirects builtin arguments
      | _ => exact fun _ admitted => ⟨admitted, rfl⟩
  | succ remaining induction =>
      cases callee with
      | function identity closure =>
          by_cases fits : arguments.length = closure.parameters.length
          · intro machine admitted
            have body := Evaluation.stmts_goesAlong induction
              machine.scopes.size closure.body
            rw [final, applyWithin_function fits, ← final,
              applyWithin_function fits]
            exact body.withinCall
              { machine with
                scopes := machine.scopes.enclose closure.scope
                  (closure.bind arguments) } admitted
          · rw [applyWithin_mismatch fits]
            exact fun _ admitted => ⟨admitted, rfl⟩
      | builtin builtin => exact .run redirects builtin arguments
      | _ => exact fun _ admitted => ⟨admitted, rfl⟩

theorem steps (config : Config) (program : Program) (scope : ScopeId) :
    GoesAlong admits change (program.steps config scope) := by
  intro machine admitted
  have applies := redirects.applyWithin config.maxDepth
    (config.maxDepth - machine.depth)
  exact Evaluation.stmts_goesAlong applies scope program machine admitted

/-- A program gives the same with the changed sink, and leaves it changed. -/
theorem eval
    {machine : Machine}
    (admitted : admits machine.sink)
    (config : Config) (program : Program) :
    program.eval config (machine.redirect change) =
      ((program.eval config machine).1,
        (program.eval config machine).2.redirect change) := by
  have steps := redirects.steps config program Scopes.global machine admitted
  rw [Program.eval_eq, Program.eval_eq, steps.2]
  cases program.steps config Scopes.global machine with
  | ok value after => rfl
  | error reason after => cases reason <;> rfl

end Sink.Redirects

end Bhasha
