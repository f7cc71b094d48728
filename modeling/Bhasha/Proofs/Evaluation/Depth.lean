import Bhasha.Proofs.Evaluation.PriorOutput
import Bhasha.Proofs.Evaluation.Termination

/-!
# The depth of calls along a run

A machine counts the calls that are under way.  A request is made at the depth
of the request around it, or one deeper when it is the body of a called
function, and it leaves the depth at which it was made, whether it gives a
value, returns or fails.  So at every point of a run the depth lies between the
depth at its start and the limit.

An evaluator that has run some programs is therefore like a new one: what it
gives for the next program, what it prints and the scopes that it leaves are
those of an evaluator that starts at depth zero on the same scopes.
-/

namespace Bhasha

open Step

/-! ## One request -/

/-- A depth is between the one at the start of a run and the limit. -/
def Machine.DepthWithin (lowest highest : Nat) (machine : Machine) : Prop :=
  lowest ≤ machine.depth ∧ machine.depth ≤ highest

/--
The requests of a task start at its own depth, and the body of a function at a
depth that is one higher and within the limit.
-/
theorem Request.task_depth
    {config : Config} {lowest : Nat} {machine : Machine}
    (within : machine.DepthWithin lowest config.maxDepth)
    (request : Request) :
    (request.task config machine).Asks config fun _ start =>
      start.DepthWithin lowest config.maxDepth := by
  cases request with
  | eval scope code =>
      have descends : Task.Descends config machine.depth code.size _ :=
        .code scope code
      refine (descends machine rfl).1.mono fun _ start same => ?_
      rw [Machine.DepthWithin, same.1]
      exact within
  | apply callee arguments =>
      cases callee with
      | function identity closure =>
          by_cases fits : arguments.length = closure.parameters.length
          · by_cases below : machine.depth < config.maxDepth
            · rw [task, Task.apply_function fits below]
              exact ⟨⟨Nat.le_succ_of_le within.1, below⟩, trivial⟩
            · rw [task, Task.apply_exhausted fits (Nat.le_of_not_lt below)]
              trivial
          · rw [task, Task.apply, if_pos fits]
            trivial
      | _ => trivial

/-- The ending of an answer is at the depth at which the request was made. -/
theorem Request.answer_machine_depth
    (config : Config) (request : Request) (machine : Machine) :
    (Ending.machine (request.answer config machine)).depth =
      machine.depth := by
  rw [Ending.machine_step]
  exact request.answer_depth config machine

/-! ## Whole runs -/

/-- A plan whose requests start within the limit stays within it. -/
theorem Plan.Runs.depth_within
    {config : Config} {lowest : Nat} {α : Type} {plan : Plan α}
    {history : List Event} {ending : Ending α}
    (runs : plan.Runs config history ending)
    (asks : plan.Asks config fun _ start =>
      start.DepthWithin lowest config.maxDepth) :
    ∀ event ∈ history,
      event.machine.DepthWithin lowest config.maxDepth := by
  induction runs with
  | done ending =>
      intro event member
      cases member
  | @ask α request machine next inner outer answer ending runs _ inside later =>
      have within := asks.1
      have isAnswer := Request.answer_of_runs runs
      subst isAnswer
      intro event member
      rcases List.mem_append.1 member with early | late
      · rcases List.mem_cons.1 early with rfl | between
        · exact within
        · exact inside (request.task_depth within) event between
      · rcases List.mem_cons.1 late with rfl | behind
        · rw [Event.machine, Machine.DepthWithin,
            request.answer_machine_depth]
          exact within
        · exact later asks.2 event behind

/-- At every point of a request the depth is within the limit. -/
theorem Request.Runs.depth_within
    {config : Config} {request : Request} {machine : Machine}
    {history : List Event} {answer : Ending request.Answer}
    (runs : request.Runs config machine history answer)
    (start : machine.depth ≤ config.maxDepth) :
    ∀ event ∈ history,
      event.machine.DepthWithin machine.depth config.maxDepth :=
  Plan.Runs.depth_within runs ⟨⟨Nat.le_refl _, start⟩, trivial⟩

/-! ## Programs in turn -/

namespace Machine

/-- The machine of a new evaluator on the scopes and the sink of another. -/
def anew (machine : Machine) : Machine :=
  { machine with depth := 0 }

/-- The machine of a new evaluator on the scopes of another, with a new sink. -/
def apart (machine : Machine) : Machine :=
  { machine with depth := 0, sink := .unbounded }

theorem anew_eq_self
    {machine : Machine}
    (idle : machine.depth = 0) :
    machine.anew = machine := by
  rcases machine with ⟨scopes, supply, depth, sink⟩
  cases idle
  rfl

/-- A new sink is an unlimited one without what was printed before. -/
theorem behind_apart
    {machine : Machine}
    (idle : machine.depth = 0)
    (unbounded : machine.Unbounded) :
    machine.apart.behind machine.sink.written = machine := by
  rcases machine with ⟨scopes, supply, depth, ⟨written, room⟩⟩
  cases idle
  cases unbounded
  show Machine.mk scopes supply 0 ⟨written ++ .empty, none⟩ = _
  rw [ByteArray.append_empty]

end Machine

namespace Program

theorem eval_depth (config : Config) (program : Program)
    (machine : Machine) :
    (program.eval config machine).2.depth = machine.depth := by
  rw [eval_eq, conclude_machine, steps_eq]
  exact program.request.answer_machine_depth config machine

/-- What one evaluator gives for programs in turn, with the machines after. -/
def evalInTurn (config : Config) :
    List Program → Machine → List (Option Value × Machine)
  | [], _ => []
  | program :: rest, machine =>
    let answer := program.eval config machine
    answer :: evalInTurn config rest answer.2

/-- The same with a new evaluator for each program, all on one sink. -/
def evalAnew (config : Config) :
    List Program → Machine → List (Option Value × Machine)
  | [], _ => []
  | program :: rest, machine =>
    let answer := program.eval config machine.anew
    answer :: evalAnew config rest answer.2

/-- The same with a new evaluator and a new sink for each program. -/
def evalApart (config : Config) :
    List Program → Machine → List (Option Value × Machine)
  | [], _ => []
  | program :: rest, machine =>
    let answer := program.eval config machine.apart
    answer :: evalApart config rest answer.2

/-- Answers on sinks of their own, with the output put together. -/
def onOneSink (earlier : ByteArray) :
    List (Option Value × Machine) → List (Option Value × Machine)
  | [] => []
  | (value, machine) :: rest =>
    (value, machine.behind earlier) ::
      onOneSink (earlier ++ machine.sink.written) rest

theorem evalInTurn_eq_evalAnew
    (config : Config) (programs : List Program)
    {machine : Machine}
    (idle : machine.depth = 0) :
    evalInTurn config programs machine =
      evalAnew config programs machine := by
  induction programs generalizing machine with
  | nil => rfl
  | cons program rest induction =>
      have idleAfter := (program.eval_depth config machine).trans idle
      rw [evalInTurn, evalAnew, Machine.anew_eq_self idle]
      exact congrArg (_ :: ·) (induction idleAfter)

/--
A new sink for each program changes neither values nor scopes, so that the
machine before a program may have any sink.
-/
theorem evalApart_behind
    (config : Config) (programs : List Program) (earlier : ByteArray)
    (machine : Machine) :
    evalApart config programs (machine.behind earlier) =
      evalApart config programs machine := by
  cases programs with
  | nil => rfl
  | cons program rest => rfl

theorem evalInTurn_eq_onOneSink
    (config : Config) (programs : List Program)
    {machine : Machine}
    (idle : machine.depth = 0)
    (unbounded : machine.Unbounded) :
    evalInTurn config programs machine =
      onOneSink machine.sink.written (evalApart config programs machine) := by
  induction programs generalizing machine with
  | nil => rfl
  | cons program rest induction =>
      have idleAfter := (program.eval_depth config machine).trans idle
      have unboundedAfter := eval_unbounded unbounded config program
      have answer := program.eval_behind config machine.sink.written
        machine.apart
      rw [Machine.behind_apart idle unbounded] at answer
      have more := induction idleAfter unboundedAfter
      rw [answer, evalApart_behind] at more
      rw [evalInTurn, evalApart, onOneSink, answer]
      exact congrArg (_ :: ·) more

end Program

/--
Whatever is evaluated or called at a depth within the limit, and however it
ends, leaves the depth as it was, and at every point of the run the depth is
between that one and the limit.  So one evaluator gives for programs in turn the
same values and leaves the same scopes and the same output as a new evaluator
for each of them, on the same sink, or on unlimited sinks of their own whose
output is put together.
-/
theorem Evaluation.depth_restored (config : Config) :
    (∀ (request : Request) (machine : Machine),
      machine.depth ≤ config.maxDepth →
      (∃ history,
        request.Runs config machine history
          (request.answer config machine)) ∧
      ∀ history answer, request.Runs config machine history answer →
        (Ending.machine answer).depth = machine.depth ∧
        ∀ event ∈ history,
          machine.depth ≤ event.machine.depth ∧
            event.machine.depth ≤ config.maxDepth) ∧
    ∀ (programs : List Program) (machine : Machine),
      machine.depth = 0 →
      Program.evalInTurn config programs machine =
          Program.evalAnew config programs machine ∧
        (machine.Unbounded →
          Program.evalInTurn config programs machine =
            Program.onOneSink machine.sink.written
              (Program.evalApart config programs machine)) := by
  refine ⟨fun request machine start => ?_, fun programs machine idle => ?_⟩
  · rcases request.exists_runs config machine with ⟨inner, runs⟩
    refine ⟨⟨_, Request.runs_iff.2 ⟨inner, runs, rfl⟩⟩,
      fun history answer whole => ?_⟩
    rcases Request.runs_iff.1 whole with ⟨inside, runsInside, -⟩
    rw [Request.answer_of_runs runsInside]
    exact ⟨request.answer_machine_depth config machine,
      whole.depth_within start⟩
  · exact ⟨Program.evalInTurn_eq_evalAnew config programs idle,
      Program.evalInTurn_eq_onOneSink config programs idle⟩

/--
A function that calls itself without an end is stopped at the limit.  A program
that needs all the calls up to the limit runs after it.
-/
theorem Evaluation.depth_restored_exhausted :
    let config : Config := ⟨2⟩
    let call : Expr := .call (.name "f") []
    let runaway : Program :=
      [.define "f" (.function [] [.expression call]), .expression call]
    let nested : Program :=
      [.expression (.call (.function []
        [.expression (.call (.function [] [.expression (.integer 7)]) [])]) [])]
    let programs := [runaway, nested]
    ((Program.evalInTurn config programs .initial).map fun answer =>
        answer.1.map Value.inspect) =
        [some (Value.error (.stackExhausted 2)).inspect, some "7"] ∧
      ((∃ history,
        runaway.request.Runs config .initial history
          (runaway.request.answer config .initial)) ∧
      ∀ history answer,
        runaway.request.Runs config .initial history answer →
        (Ending.machine answer).depth = 0 ∧
          ∀ event ∈ history,
            0 ≤ event.machine.depth ∧ event.machine.depth ≤ 2) ∧
      Program.evalInTurn config programs .initial =
        Program.evalAnew config programs .initial ∧
      Program.evalInTurn config programs .initial =
        Program.onOneSink .empty
          (Program.evalApart config programs .initial) := by
  intro config call runaway nested programs
  rcases depth_restored config with ⟨requests, series⟩
  rcases series programs .initial rfl with ⟨anew, apart⟩
  exact ⟨by decide +kernel, requests runaway.request .initial (by decide),
    anew, apart rfl⟩

end Bhasha
