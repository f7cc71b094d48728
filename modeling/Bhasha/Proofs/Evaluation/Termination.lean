import Bhasha.Proofs.Evaluation.Course

/-!
# Every evaluation ends

The recursion of the evaluator is bounded by two things only: the code that is
evaluated gets smaller, until a function is called; and a called function, whose
body may be of any size, is called one level deeper, until the limit is reached.
So every request leads to requests that are smaller in the lexicographic order
of the calls that may still nest and the size of the code, and the plan of every
request runs.  It ends as the evaluator says, so the evaluator solves the
equations of the recursion.
-/

namespace Bhasha

open Step

/-! ## The depth of a machine -/

/-- As many calls are under way as before. -/
def Machine.SameDepth (before after : Machine) : Prop :=
  after.depth = before.depth

namespace Evaluation

theorem kept_depth (scope : ScopeId) : Kept scope Machine.SameDepth where
  refl _ := rfl
  trans first second := Eq.trans second first
  fresh _ := rfl
  define _ _ _ := rfl

theorem keptByCalls_depth :
    KeptByCalls Machine.SameDepth fun _ => Machine.SameDepth where
  refl _ := rfl
  body := kept_depth
  weaken _ same := same
  print _ _ _ := rfl
  call closure arguments same := by
    unfold Machine.SameDepth at same
    rw [Machine.SameDepth, Machine.left, same]
    rfl

theorem applyWithin_depth
    (limit remaining : Nat) (callee : Value) (arguments : List Value) :
    Within Machine.SameDepth (applyWithin limit remaining callee arguments) :=
  keptByCalls_depth.applyWithin limit remaining callee arguments

theorem apply_depth
    (config : Config) (callee : Value) (arguments : List Value) :
    Within Machine.SameDepth (config.apply callee arguments) :=
  fun machine => applyWithin_depth _ _ callee arguments machine

/-- Two steps are the same in machines of a depth, which they leave as it is. -/
def AgreeAt (depth : Nat) {α : Type} (first second : EvalM α) : Prop :=
  ∀ machine : Machine, machine.depth = depth →
    first machine = second machine ∧ (final first machine).depth = depth

theorem AgreeAt.refl
    {depth : Nat} {α : Type} {step : EvalM α}
    (kept : Within Machine.SameDepth step) :
    AgreeAt depth step step :=
  fun machine start => ⟨rfl, (kept machine).trans start⟩

theorem respects_agreeAt (scope : ScopeId) (depth : Nat) :
    Respects scope (AgreeAt depth) where
  pure value := .refl ((kept_depth scope).respects.pure value)
  throw reason := .refl ((kept_depth scope).respects.throw reason)
  bind {α β first second next other} agree continues := by
    intro machine start
    rcases agree machine start with ⟨same, kept⟩
    cases outcome : first machine with
    | ok value middle =>
        rw [final_of_ok outcome] at kept
        rw [outcome] at same
        rw [final, bind_ok outcome, bind_ok same.symm]
        exact continues value middle kept
    | error reason middle =>
        rw [final_of_error outcome] at kept
        rw [outcome] at same
        rw [final, bind_error outcome, bind_error same.symm]
        exact ⟨rfl, kept⟩
  name name := .refl ((kept_depth scope).respects.name name)
  fresh := .refl (kept_depth scope).respects.fresh
  define name value := .refl ((kept_depth scope).respects.define name value)

/-- Counting the calls that are left is the same as looking at the depth. -/
theorem stmts_apply
    (config : Config) (scope : ScopeId) (statements : List Stmt)
    (machine : Machine) :
    stmts (applyWithin config.maxDepth (config.maxDepth - machine.depth))
        scope none statements machine =
      stmts config.apply scope none statements machine := by
  have applies : ∀ callee arguments,
      AgreeAt machine.depth
        (applyWithin config.maxDepth (config.maxDepth - machine.depth)
          callee arguments)
        (config.apply callee arguments) := by
    intro callee arguments other start
    refine ⟨?_, (applyWithin_depth _ _ callee arguments other).trans start⟩
    rw [← start]
    rfl
  have agree := stmts_related (respects_agreeAt scope machine.depth)
    applies none statements
  exact (agree machine rfl).1

end Evaluation

/-! ## The evaluator as the answer to all requests -/

/-- What the evaluator gives for a request. -/
def Request.answer (config : Config) :
    (request : Request) → EvalM request.Answer
  | .eval scope (.expr tree) => Evaluation.expr config.apply scope tree
  | .eval scope (.exprs trees) => Evaluation.exprs config.apply scope trees
  | .eval scope (.stmt statement) =>
    Evaluation.stmt config.apply scope statement
  | .eval scope (.stmts statements) =>
    Evaluation.stmts config.apply scope none statements
  | .apply callee arguments => config.apply callee arguments

/-- The ending of a plan whose requests are answered by the evaluator. -/
def Plan.result (config : Config) {α : Type} : Plan α → Ending α
  | .done ending => ending
  | .ask request machine next =>
    (next (request.answer config machine)).result config

theorem Plan.result_andThen
    (config : Config) {α β : Type} (next : Ending α → Plan β)
    (plan : Plan α) :
    (plan.andThen next).result config =
      (next (plan.result config)).result config := by
  induction plan with
  | done ending => rfl
  | ask request machine later induction =>
      exact induction (request.answer config machine)

namespace Task

variable {α β : Type}

/-- A task whose requests are answered by the evaluator, as a step. -/
def result (config : Config) (task : Task α) : EvalM α := fun machine =>
  (task machine).result config

@[simp]
theorem result_step (config : Config) (step : EvalM α) :
    (Task.step step).result config = step :=
  rfl

@[simp]
theorem result_pure (config : Config) (value : α) :
    (pure value : Task α).result config = pure value :=
  rfl

@[simp]
theorem result_bind
    (config : Config) (task : Task α) (next : α → Task β) :
    (task >>= next).result config =
      task.result config >>= fun value => (next value).result config := by
  funext machine
  show ((task machine).andThen (resume next)).result config = _
  rw [Plan.result_andThen]
  cases outcome : task.result config machine with
  | ok value after =>
      rw [bind_ok outcome, show (task machine).result config = _ from outcome]
      rfl
  | error reason after =>
      rw [bind_error outcome,
        show (task machine).result config = _ from outcome]
      rfl

@[simp]
theorem result_ite
    (config : Config) (condition : Prop) [Decidable condition]
    (first second : Task α) :
    (if condition then first else second).result config =
      if condition then first.result config else second.result config := by
  split
  · rfl
  · rfl

theorem result_branch (config : Config) (scope : ScopeId)
    (body : List Stmt) :
    (branch scope body).result config =
      (return (← Evaluation.stmts config.apply scope none body).getD
        .null) := by
  rw [branch, result_bind]
  rfl

theorem result_exprs (config : Config) (scope : ScopeId)
    (trees : List Expr) :
    (exprs scope trees).result config =
      Evaluation.exprs config.apply scope trees := by
  induction trees with
  | nil =>
      rw [Evaluation.exprs]
      rfl
  | cons first rest induction =>
      rw [Evaluation.exprs, exprs]
      simp only [result_bind, result_pure, induction]
      rfl

theorem result_entries (config : Config) (scope : ScopeId)
    (pairs : List (Expr × Expr)) (done : Entries) :
    (entries scope done pairs).result config =
      Evaluation.entries config.apply scope done pairs := by
  induction pairs generalizing done with
  | nil =>
      rw [Evaluation.entries]
      rfl
  | cons pair rest induction =>
      rcases pair with ⟨key, value⟩
      rw [Evaluation.entries, entries]
      simp only [result_bind, result_step, induction]
      rfl

theorem result_stmts (config : Config) (scope : ScopeId)
    (statements : List Stmt) (last : Option Value) :
    (stmts scope last statements).result config =
      Evaluation.stmts config.apply scope last statements := by
  induction statements generalizing last with
  | nil =>
      rw [Evaluation.stmts]
      rfl
  | cons first rest induction =>
      rw [Evaluation.stmts, stmts]
      simp only [result_bind, induction]
      rfl

theorem result_expr (config : Config) (scope : ScopeId) (tree : Expr) :
    (expr scope tree).result config =
      Evaluation.expr config.apply scope tree := by
  rw [Evaluation.expr.eq_def]
  cases tree with
  | hash pairs =>
      simp only [expr, result_bind, result_entries]
      rfl
  | conditional condition consequence alternative =>
      simp only [expr, result_bind, result_ite, result_branch]
      refine congrArg _ (funext fun value => ?_)
      split
      · rfl
      · cases alternative with
        | none =>
            rw [Evaluation.branch]
            rfl
        | some body =>
            rw [Evaluation.branch]
            exact result_branch config scope body
  | _ =>
      simp only [expr, result_bind]
      rfl

theorem result_stmt (config : Config) (scope : ScopeId)
    (statement : Stmt) :
    (stmt scope statement).result config =
      Evaluation.stmt config.apply scope statement := by
  rw [Evaluation.stmt.eq_def]
  cases statement with
  | _ =>
      simp only [stmt, result_bind]
      rfl

/-- Below the limit, a function that fits its arguments asks for its body. -/
theorem apply_function
    {config : Config} {identity : Identity} {closure : Closure}
    {arguments : List Value} {machine : Machine}
    (fits : arguments.length = closure.parameters.length)
    (below : machine.depth < config.maxDepth) :
    apply config (.function identity closure) arguments machine =
      .ask (.eval machine.scopes.size (.stmts closure.body))
        (machine.entered closure arguments)
        fun ending => .done (Ending.leaveCall ending) := by
  rw [apply, if_neg (not_not_intro fits)]
  show (if config.maxDepth ≤ machine.depth then _ else _ : Task Value)
    machine = _
  rw [if_neg (Nat.not_le_of_lt below)]
  rfl

/-- At the limit, a function that fits its arguments fails. -/
theorem apply_exhausted
    {config : Config} {identity : Identity} {closure : Closure}
    {arguments : List Value} {machine : Machine}
    (fits : arguments.length = closure.parameters.length)
    (reached : config.maxDepth ≤ machine.depth) :
    apply config (.function identity closure) arguments machine =
      .done (.error (.failed (.stackExhausted config.maxDepth)) machine) := by
  rw [apply, if_neg (not_not_intro fits)]
  show (if config.maxDepth ≤ machine.depth then _ else _ : Task Value)
    machine = _
  rw [if_pos reached]
  rfl

theorem result_apply (config : Config) (callee : Value)
    (arguments : List Value) :
    (apply config callee arguments).result config =
      config.apply callee arguments := by
  funext machine
  show ((apply config callee arguments machine).result config) =
    applyWithin config.maxDepth (config.maxDepth - machine.depth)
      callee arguments machine
  cases callee with
  | function identity closure =>
      by_cases fits : arguments.length = closure.parameters.length
      · by_cases below : machine.depth < config.maxDepth
        · have left : config.maxDepth - machine.depth =
              config.maxDepth - (machine.depth + 1) + 1 := by
            omega
          have body := Evaluation.stmts_apply config machine.scopes.size
            closure.body (machine.entered closure arguments)
          rw [apply_function fits below, left, applyWithin_function fits,
            EvalM.withinCall_eq]
          exact congrArg Ending.leaveCall body.symm
        · have none : config.maxDepth - machine.depth = 0 := by
            omega
          rw [none, applyWithin, if_neg (not_not_intro fits),
            apply_exhausted fits (Nat.le_of_not_lt below)]
          rfl
      · rw [applyWithin_mismatch fits, apply, if_pos fits]
        rfl
  | _ => cases config.maxDepth - machine.depth <;> rfl

end Task

/-- The evaluator solves the equations of its recursion. -/
theorem Request.result_task (config : Config) (request : Request) :
    (request.task config).result config = request.answer config := by
  cases request with
  | apply callee arguments => exact Task.result_apply config callee arguments
  | eval scope code =>
      cases code with
      | expr tree => exact Task.result_expr config scope tree
      | exprs trees => exact Task.result_exprs config scope trees
      | stmt statement => exact Task.result_stmt config scope statement
      | stmts statements => exact Task.result_stmts config scope statements none

/-- An answer leaves the depth as it is. -/
theorem Request.answer_depth (config : Config) (request : Request) :
    Within Machine.SameDepth (request.answer config) := by
  have applies := Evaluation.apply_depth config
  cases request with
  | apply callee arguments => exact applies callee arguments
  | eval scope code =>
      have kept := Evaluation.kept_depth scope
      cases code with
      | expr tree => exact kept.expr applies tree
      | exprs trees =>
          exact @Evaluation.exprs_related scope _ _ config.apply
            kept.respects applies trees
      | stmt statement => exact kept.stmt applies statement
      | stmts statements => exact kept.stmts applies none statements

/-! ## What a plan asks for -/

/-- The size of code. -/
noncomputable def Code.size : Code → Nat
  | .expr tree => sizeOf tree
  | .exprs trees => sizeOf trees
  | .stmt statement => sizeOf statement
  | .stmts statements => sizeOf statements

theorem Code.size_pos (code : Code) : 0 < code.size := by
  cases code with
  | expr tree => cases tree <;> simp +arith [size]
  | exprs trees => cases trees <;> simp +arith [size]
  | stmt statement => cases statement <;> simp +arith [size]
  | stmts statements => cases statements <;> simp +arith [size]

/-- The size of the code that a request is about. -/
noncomputable def Request.size : Request → Nat
  | .eval _ code => code.size
  | .apply _ _ => 0

/-- The calls that may still nest, and the size of the code. -/
noncomputable def Request.measure (config : Config) (request : Request)
    (machine : Machine) : Nat × Nat :=
  (config.maxDepth - machine.depth, request.size)

/-- Code is larger than what it contains. -/
theorem Code.Contains.size_lt
    {code inner : Code}
    (contains : code.Contains inner) :
    inner.size < code.size := by
  cases contains with
  | @key pairs pair inside =>
      have smaller := List.sizeOf_lt_of_mem inside
      rcases pair with ⟨key, value⟩
      simp only [size, Expr.hash.sizeOf_spec, Prod.mk.sizeOf_spec] at *
      omega
  | @value pairs pair inside =>
      have smaller := List.sizeOf_lt_of_mem inside
      rcases pair with ⟨key, value⟩
      simp only [size, Expr.hash.sizeOf_spec, Prod.mk.sizeOf_spec] at *
      omega
  | tree inside => exact List.sizeOf_lt_of_mem inside
  | statement inside => exact List.sizeOf_lt_of_mem inside
  | _ =>
      simp only [size, Expr.array.sizeOf_spec, Expr.unary.sizeOf_spec,
        Expr.binary.sizeOf_spec, Expr.conditional.sizeOf_spec,
        Expr.call.sizeOf_spec, Expr.index.sizeOf_spec,
        Stmt.define.sizeOf_spec, Stmt.result.sizeOf_spec,
        Stmt.expression.sizeOf_spec, Stmt.block.sizeOf_spec,
        Option.some.sizeOf_spec]
      omega

/-- The requests of a plan whose earlier requests the evaluator answered. -/
def Plan.Asks (config : Config) (allowed : Request → Machine → Prop)
    {α : Type} : Plan α → Prop
  | .done _ => True
  | .ask request machine next =>
    allowed request machine ∧
      (next (request.answer config machine)).Asks config allowed

theorem Plan.Asks.mono
    {config : Config} {allowed other : Request → Machine → Prop}
    {α : Type} {plan : Plan α}
    (implies : ∀ request machine,
      allowed request machine → other request machine)
    (asks : plan.Asks config allowed) :
    plan.Asks config other := by
  induction plan with
  | done ending => trivial
  | ask request machine next induction =>
      exact ⟨implies _ _ asks.1, induction _ asks.2⟩

theorem Plan.Asks.andThen
    {config : Config} {allowed : Request → Machine → Prop}
    {α β : Type} {plan : Plan α} {next : Ending α → Plan β}
    (first : plan.Asks config allowed)
    (second : (next (plan.result config)).Asks config allowed) :
    (plan.andThen next).Asks config allowed := by
  induction plan with
  | done ending => exact second
  | ask request machine later induction =>
      exact ⟨first.1, induction _ first.2 second⟩

/-- A plan runs if the plans of all its requests do. -/
theorem Plan.Asks.exists_runs
    {config : Config} {allowed : Request → Machine → Prop}
    {α : Type} {plan : Plan α}
    (asks : plan.Asks config allowed)
    (answers : ∀ request machine, allowed request machine →
      ∃ history, Plan.Runs config (request.task config machine) history
        (request.answer config machine)) :
    ∃ history, plan.Runs config history (plan.result config) := by
  induction plan with
  | done ending => exact ⟨[], .done ending⟩
  | ask request machine next induction =>
      rcases answers request machine asks.1 with ⟨inner, runs⟩
      rcases induction _ asks.2 with ⟨outer, continues⟩
      exact ⟨_, .ask runs continues⟩

/--
The requests of a task that starts at a depth are made at this depth and about
smaller code, and the task ends at the depth.
-/
def Task.Descends (config : Config) (depth size : Nat) {α : Type}
    (task : Task α) : Prop :=
  ∀ machine : Machine, machine.depth = depth →
    (task machine).Asks config
        (fun request start => start.depth = depth ∧ request.size < size) ∧
      (Ending.machine ((task machine).result config)).depth = depth

namespace Task.Descends

variable {config : Config} {depth size : Nat} {α β : Type}

theorem step
    {step : EvalM α}
    (kept : Within Machine.SameDepth step) :
    Descends config depth size (Task.step step) := by
  intro machine start
  refine ⟨trivial, ?_⟩
  show (Ending.machine (step machine)).depth = depth
  rw [Ending.machine_step]
  exact (kept machine).trans start

theorem pure (value : α) :
    Descends config depth size (pure value : Task α) :=
  step fun _ => rfl

theorem ofExcept (outcome : Except Failure α) :
    Descends config depth size (Task.step (EvalM.ofExcept outcome)) := by
  apply step
  cases outcome with
  | ok value => exact fun _ => rfl
  | error failure => exact fun _ => rfl

theorem ask
    {request : Request}
    (smaller : request.size < size) :
    Descends config depth size (Task.ask request) := by
  intro machine start
  refine ⟨⟨⟨start, smaller⟩, trivial⟩, ?_⟩
  show (Ending.machine (request.answer config machine)).depth = depth
  rw [Ending.machine_step]
  exact (request.answer_depth config machine).trans start

theorem eval
    {scope : ScopeId} {code : Code}
    (smaller : code.size < size) :
    Descends config depth size (Task.eval scope code) :=
  ask smaller

theorem bind
    {task : Task α} {next : α → Task β}
    (first : Descends config depth size task)
    (second : ∀ value, Descends config depth size (next value)) :
    Descends config depth size (task >>= next) := by
  intro machine start
  rcases first machine start with ⟨asks, kept⟩
  have goesOn :
      (resume next ((task machine).result config)).Asks config
          (fun request start => start.depth = depth ∧ request.size < size) ∧
        (Ending.machine
          ((resume next ((task machine).result config)).result
            config)).depth = depth := by
    cases outcome : (task machine).result config with
    | ok value after =>
        rw [outcome] at kept
        exact second value after kept
    | error reason after =>
        rw [outcome] at kept
        exact ⟨trivial, kept⟩
  refine ⟨asks.andThen goesOn.1, ?_⟩
  show (Ending.machine
    (((task machine).andThen (resume next)).result config)).depth = depth
  rw [Plan.result_andThen]
  exact goesOn.2

theorem fresh :
    Descends config depth size (Task.step EvalM.fresh) :=
  step fun _ => rfl

/-- The parts of the plan of code ask for smaller code, or for a call. -/
theorem closed (scope : ScopeId) (code : Code) :
    Task.Closed scope code (Descends config depth code.size) where
  pure := pure
  bind := bind
  ofExcept := ofExcept
  fresh := fresh
  name name := by
    refine step fun machine => ?_
    rw [Evaluation.final_name]
    rfl
  eval contains := eval contains.size_lt
  apply _ _ := ask code.size_pos

theorem stmt (scope : ScopeId) (statement : Stmt) :
    Descends config depth (Code.stmt statement).size
      (Task.stmt scope statement) := by
  cases statement with
  | define name value =>
      refine (eval Code.Contains.definition.size_lt).bind fun found => ?_
      have defines : Descends config depth (Code.stmt (.define name value)).size
          (Task.step (EvalM.define scope name found)) :=
        step fun _ => rfl
      exact defines.bind fun _ => pure _
  | result value =>
      exact (eval Code.Contains.result.size_lt).bind fun _ =>
        step fun _ => rfl
  | expression value => exact (closed scope _).expression
  | block body => exact eval Code.Contains.block.size_lt

/-- The evaluation of code asks for smaller code at the same depth. -/
theorem code (scope : ScopeId) (code : Code) :
    Descends config depth code.size
      ((Request.eval scope code).task config) := by
  cases code with
  | expr tree => exact (closed scope _).expr
  | exprs trees => exact (closed scope _).exprs fun _ => .tree
  | stmt statement => exact stmt scope statement
  | stmts statements =>
      exact (closed scope _).stmts (fun _ => .statement) none

end Task.Descends

/-! ## Every request is answered -/

/--
A request leads to requests with fewer calls left, or with as many calls left
and smaller code.
-/
theorem Request.task_asks (config : Config) (request : Request)
    (machine : Machine) :
    (request.task config machine).Asks config fun inner start =>
      Prod.Lex (· < ·) (· < ·) (inner.measure config start)
        (request.measure config machine) := by
  cases request with
  | eval scope code =>
      have descends : Task.Descends config machine.depth code.size _ :=
        .code scope code
      refine (descends machine rfl).1.mono fun inner start smaller => ?_
      rw [measure, measure, smaller.1]
      exact .right _ smaller.2
  | apply callee arguments =>
      cases callee with
      | function identity closure =>
          by_cases fits : arguments.length = closure.parameters.length
          · by_cases below : machine.depth < config.maxDepth
            · rw [task, Task.apply_function fits below]
              have deeper : config.maxDepth - (machine.depth + 1) <
                  config.maxDepth - machine.depth := by
                omega
              exact ⟨.left _ _ deeper, trivial⟩
            · rw [task, Task.apply_exhausted fits (Nat.le_of_not_lt below)]
              trivial
          · rw [task, Task.apply, if_pos fits]
            trivial
      | _ => trivial

/-- The plan of every request runs, and it ends as the evaluator says. -/
theorem Request.exists_runs (config : Config) (request : Request)
    (machine : Machine) :
    ∃ history, Plan.Runs config (request.task config machine) history
      (request.answer config machine) := by
  have asks := request.task_asks config machine
  have runs := asks.exists_runs fun inner start smaller =>
    exists_runs config inner start
  have same := congrFun (request.result_task config) machine
  rw [← same]
  exact runs
termination_by request.measure config machine
decreasing_by exact smaller

/-- A request that runs is answered by the evaluator. -/
theorem Request.answer_of_runs
    {config : Config} {request : Request} {machine : Machine}
    {history : List Event} {answer : Ending request.Answer}
    (runs : Plan.Runs config (request.task config machine) history answer) :
    answer = request.answer config machine := by
  rcases request.exists_runs config machine with ⟨other, same⟩
  exact (runs.unique same).2

/-- What a plan asks for is what it comes to as it runs. -/
theorem Plan.Asks.of_issues
    {config : Config} {allowed : Request → Machine → Prop}
    {α : Type} {plan : Plan α} {request : Request} {machine : Machine}
    (asks : plan.Asks config allowed)
    (issues : plan.Issues config request machine) :
    allowed request machine := by
  induction issues with
  | here => exact asks.1
  | later runs issues induction =>
      rw [Request.answer_of_runs runs] at induction
      exact induction asks.2

/-- The events of a request stand between its beginning and its end. -/
theorem Request.runs_iff
    {config : Config} {request : Request} {machine : Machine}
    {history : List Event} {answer : Ending request.Answer} :
    request.Runs config machine history answer ↔
      ∃ inner, Plan.Runs config (request.task config machine) inner answer ∧
        history =
          .enter request machine :: inner ++ [.leave request answer] := by
  constructor
  · intro runs
    cases runs with
    | ask inner outer =>
        cases outer
        exact ⟨_, inner, rfl⟩
  · rintro ⟨inner, runs, rfl⟩
    exact .ask runs (.done answer)

/-! ## Calls and returns -/

namespace Evaluation

theorem ofExcept_ne_returned
    {α : Type} (outcome : Except Failure α) (machine after : Machine)
    (value : Value) :
    EvalM.ofExcept outcome machine ≠ .error (.returned value) after := by
  intro same
  cases outcome with
  | ok result => cases same
  | error failure => cases same

theorem leaveCall_ne_returned
    (ending : Ending (Option Value)) (value : Value) (after : Machine) :
    Ending.leaveCall ending ≠ .error (.returned value) after := by
  intro same
  cases ending with
  | ok result machine => cases same
  | error reason machine =>
      cases reason with
      | returned result => cases same
      | failed failure => cases same

/-- A call does not return from the code around it. -/
theorem apply_ne_returned
    (config : Config) (callee : Value) (arguments : List Value)
    (machine after : Machine) (value : Value) :
    config.apply callee arguments machine ≠
      .error (.returned value) after := by
  rw [← Task.result_apply]
  intro same
  cases callee with
  | function identity closure =>
      by_cases fits : arguments.length = closure.parameters.length
      · by_cases below : machine.depth < config.maxDepth
        · rw [Task.result, Task.apply_function fits below] at same
          exact leaveCall_ne_returned _ value after same
        · have reached := Nat.le_of_not_lt below
          rw [Task.result, Task.apply_exhausted fits reached] at same
          cases same
      · rw [Task.apply, if_pos fits] at same
        cases same
  | builtin called => exact ofExcept_ne_returned _ _ after value same
  | _ => cases same

end Evaluation

/-! ## Programs -/

namespace Program

theorem steps_eq (config : Config) (program : Program) (machine : Machine) :
    program.steps config Scopes.global machine =
      (request program).answer config machine :=
  Evaluation.stmts_apply config Scopes.global program machine

/-- The statements of a program end as its plan does. -/
theorem steps_of_runs
    {config : Config} {program : Program} {machine : Machine}
    {history : List Event} {ending : Ending (Option Value)}
    (runs : (request program).Runs config machine history ending) :
    program.steps config Scopes.global machine = ending := by
  rcases Request.runs_iff.1 runs with ⟨inner, runs, -⟩
  rw [steps_eq, ← Request.answer_of_runs runs]

/-- Every series of programs runs to its end. -/
theorem exists_series (config : Config) (programs : List Program)
    (machine : Machine) :
    ∃ history after, Series config programs machine history after := by
  induction programs generalizing machine with
  | nil => exact ⟨[], machine, .nil⟩
  | cons program rest induction =>
      rcases (request program).exists_runs config machine with ⟨inner, runs⟩
      rcases induction (program.eval config machine).2 with
        ⟨later, after, series⟩
      exact ⟨_, after,
        .cons (Request.runs_iff.2 ⟨inner, runs, rfl⟩) series⟩

end Program

/--
Every request is answered in every machine, after finitely many events, and in
one way only: as the evaluator answers it.  While a request is answered, each
request that comes up has fewer calls left, or as many and smaller code.  So a
program always has a result, which is the one that the evaluator gives, and
every series of programs comes to its end.
-/
theorem Evaluation.terminates (config : Config) :
    (∀ (request : Request) (machine : Machine),
      ∃ history,
        request.Runs config machine history (request.answer config machine) ∧
        ∀ (other : List Event) (answer : Ending request.Answer),
          request.Runs config machine other answer →
            other = history ∧ answer = request.answer config machine) ∧
    (∀ (request inner : Request) (machine start : Machine),
      (request.task config machine).Issues config inner start →
        Prod.Lex (· < ·) (· < ·) (inner.measure config start)
          (request.measure config machine)) ∧
    (∀ (program : Program) (machine : Machine),
      ∃ history ending,
        program.request.Runs config machine history ending ∧
          program.eval config machine = Program.conclude ending) ∧
    ∀ (programs : List Program) (machine : Machine),
      ∃ history after,
        Program.Series config programs machine history after := by
  refine ⟨?_, ?_, ?_, Program.exists_series config⟩
  · intro request machine
    rcases request.exists_runs config machine with ⟨inner, runs⟩
    refine ⟨_, Request.runs_iff.2 ⟨inner, runs, rfl⟩, ?_⟩
    intro other answer again
    exact Plan.Runs.unique again (Request.runs_iff.2 ⟨inner, runs, rfl⟩)
  · intro request inner machine start issues
    exact (request.task_asks config machine).of_issues issues
  · intro program machine
    rcases program.request.exists_runs config machine with ⟨inner, runs⟩
    have whole := Request.runs_iff.2 ⟨inner, runs, rfl⟩
    refine ⟨_, _, whole, ?_⟩
    rw [Program.eval_eq, Program.steps_of_runs whole]

end Bhasha
