import Bhasha.Proofs.Evaluation.Traversal

/-!
# The course of an evaluation

The functions that evaluate statements and expressions call each other, and a
call of a function of the language calls them again with a body that is no part
of the call.  Here their recursion is laid open.  Each of them has a plan: what
it does itself, and the requests that it makes of the others, with the machine
at the time of the request.  The only limit of a plan is the depth that the
machine counts.

A plan runs when all requests that it makes are answered by running the plans of
the requests.  So a plan runs exactly if the recursion comes to an end, and the
requests and their answers, in the order of time, are the points through which
an evaluation passes.
-/

namespace Bhasha

open Step

/-! ## Requests -/

/-- How a step ends: with a result or early, in some machine. -/
abbrev Ending (α : Type) := EStateM.Result Unwind Machine α

/-- The machine in which a step ends. -/
def Ending.machine {α : Type} : Ending α → Machine
  | .ok _ after => after
  | .error _ after => after

theorem Ending.machine_step {α : Type} (step : EvalM α)
    (machine : Machine) :
    Ending.machine (step machine) = final step machine := by
  rw [final]
  cases step machine with
  | ok value after => rfl
  | error reason after => rfl

/-- A call ends with a value unless its body fails. -/
def Ending.leaveCall : Ending (Option Value) → Ending Value
  | .ok value after => .ok (value.getD .null) after.left
  | .error (.returned value) after => .ok value after.left
  | .error (.failed failure) after => .error (.failed failure) after.left

theorem EvalM.withinCall_eq (body : EvalM (Option Value))
    (machine : Machine) :
    EvalM.withinCall body machine =
      Ending.leaveCall
        (body { machine with depth := machine.depth + 1 }) := by
  rw [EvalM.withinCall]
  cases body { machine with depth := machine.depth + 1 } with
  | ok value after => rfl
  | error reason after => cases reason <;> rfl

/-- What can be evaluated in a scope. -/
inductive Code where
  | expr (tree : Expr)
  | exprs (trees : List Expr)
  | stmt (statement : Stmt)
  | stmts (statements : List Stmt)

/-- What the evaluation of code gives. -/
abbrev Code.Answer : Code → Type
  | .expr _ => Value
  | .exprs _ => List Value
  | .stmt _ => Option Value
  | .stmts _ => Option Value

/--
Code that is evaluated as a part of other code, one step down.  The body of a
function literal is not: it is evaluated when the function is called.
-/
inductive Code.Contains : Code → Code → Prop
  | items {items : List Expr} :
      Contains (.expr (.array items)) (.exprs items)
  | key {pairs : List (Expr × Expr)} {pair : Expr × Expr} :
      pair ∈ pairs → Contains (.expr (.hash pairs)) (.expr pair.1)
  | value {pairs : List (Expr × Expr)} {pair : Expr × Expr} :
      pair ∈ pairs → Contains (.expr (.hash pairs)) (.expr pair.2)
  | operand {operator : UnaryOp} {operand : Expr} :
      Contains (.expr (.unary operator operand)) (.expr operand)
  | left {operator : BinaryOp} {left right : Expr} :
      Contains (.expr (.binary operator left right)) (.expr left)
  | right {operator : BinaryOp} {left right : Expr} :
      Contains (.expr (.binary operator left right)) (.expr right)
  | condition {condition : Expr} {consequence : List Stmt}
      {alternative : Option (List Stmt)} :
      Contains (.expr (.conditional condition consequence alternative))
        (.expr condition)
  | consequence {condition : Expr} {consequence : List Stmt}
      {alternative : Option (List Stmt)} :
      Contains (.expr (.conditional condition consequence alternative))
        (.stmts consequence)
  | alternative {condition : Expr} {consequence alternative : List Stmt} :
      Contains (.expr (.conditional condition consequence (some alternative)))
        (.stmts alternative)
  | callee {callee : Expr} {arguments : List Expr} :
      Contains (.expr (.call callee arguments)) (.expr callee)
  | arguments {callee : Expr} {arguments : List Expr} :
      Contains (.expr (.call callee arguments)) (.exprs arguments)
  | collection {collection position : Expr} :
      Contains (.expr (.index collection position)) (.expr collection)
  | position {collection position : Expr} :
      Contains (.expr (.index collection position)) (.expr position)
  | tree {trees : List Expr} {tree : Expr} :
      tree ∈ trees → Contains (.exprs trees) (.expr tree)
  | definition {name : String} {value : Expr} :
      Contains (.stmt (.define name value)) (.expr value)
  | result {value : Expr} :
      Contains (.stmt (.result value)) (.expr value)
  | expression {value : Expr} :
      Contains (.stmt (.expression value)) (.expr value)
  | block {body : List Stmt} :
      Contains (.stmt (.block body)) (.stmts body)
  | statement {statements : List Stmt} {statement : Stmt} :
      statement ∈ statements → Contains (.stmts statements) (.stmt statement)

/-- What a function of the evaluator is called for. -/
inductive Request where
  | eval (scope : ScopeId) (code : Code)
  | apply (callee : Value) (arguments : List Value)

/-- What a request gives. -/
abbrev Request.Answer : Request → Type
  | .eval _ code => code.Answer
  | .apply _ _ => Value

/-! ## Plans -/

/-- A computation that ends, or goes on when a request of it is answered. -/
inductive Plan (α : Type) where
  | done (ending : Ending α)
  | ask (request : Request) (machine : Machine)
      (next : Ending request.Answer → Plan α)

/-- Go on with the ending of a plan. -/
def Plan.andThen {α β : Type} (next : Ending α → Plan β) : Plan α → Plan β
  | .done ending => next ending
  | .ask request machine later =>
    .ask request machine fun answer => (later answer).andThen next

/-- A computation that starts in a machine. -/
def Task (α : Type) := Machine → Plan α

namespace Task

variable {α β : Type}

/-- A step that makes no requests. -/
def step (step : EvalM α) : Task α := fun machine =>
  .done (step machine)

/-- A request. -/
def ask (request : Request) : Task request.Answer := fun machine =>
  .ask request machine .done

/-- The request to evaluate code in a scope. -/
def eval (scope : ScopeId) (code : Code) : Task code.Answer :=
  ask (.eval scope code)

/-- Go on after an ending unless it is an early one. -/
def resume (next : α → Task β) : Ending α → Plan β
  | .ok value after => next value after
  | .error reason after => .done (.error reason after)

instance : Monad Task where
  pure value := step (pure value)
  bind task next := fun machine => (task machine).andThen (resume next)

/-- Run the body of a function: one call deeper, and up to its return. -/
def withinCall (body : Task (Option Value)) : Task Value := fun machine =>
  (body { machine with depth := machine.depth + 1 }).andThen fun ending =>
    .done (Ending.leaveCall ending)

/-! ## The plans of the evaluator -/

/-- Evaluate expressions from left to right. -/
def exprs (scope : ScopeId) : List Expr → Task (List Value)
  | [] => pure []
  | first :: rest => do
    let value ← eval scope (.expr first)
    let values ← exprs scope rest
    return value :: values

/-- Evaluate keys and values in order, adding to the entries so far. -/
def entries (scope : ScopeId) (done : Entries) :
    List (Expr × Expr) → Task Entries
  | [] => pure done
  | (key, value) :: rest => do
    let key ← eval scope (.expr key)
    let value ← eval scope (.expr value)
    let done ← step (EvalM.ofExcept (done.insert key value))
    entries scope done rest

/-- Evaluate the statements of a branch. -/
def branch (scope : ScopeId) (body : List Stmt) : Task Value := do
  return (← eval scope (.stmts body)).getD .null

/-- Evaluate an expression. -/
def expr (scope : ScopeId) : Expr → Task Value
  | .name identifier => step (Evaluation.name scope identifier)
  | .integer value => pure (.integer value)
  | .string text => pure (.string text)
  | .boolean value => pure (.boolean value)
  | .array items => do
    let items ← eval scope (.exprs items)
    return .array (← step EvalM.fresh) items
  | .hash pairs => do
    let entries ← entries scope [] pairs
    return .hash (← step EvalM.fresh) entries
  | .unary operator operand => do
    let operand ← eval scope (.expr operand)
    step (EvalM.ofExcept (operator.apply operand))
  | .binary operator left right => do
    let left ← eval scope (.expr left)
    let right ← eval scope (.expr right)
    step (EvalM.ofExcept (operator.apply left right))
  | .conditional condition consequence alternative => do
    let condition ← eval scope (.expr condition)
    if condition.isTruthy then
      branch scope consequence
    else
      match alternative with
      | none => pure .null
      | some body => branch scope body
  | .function parameters body => do
    return .function (← step EvalM.fresh) ⟨parameters, body, scope⟩
  | .call callee arguments => do
    let callee ← eval scope (.expr callee)
    let arguments ← eval scope (.exprs arguments)
    ask (.apply callee arguments)
  | .index collection position => do
    let collection ← eval scope (.expr collection)
    let position ← eval scope (.expr position)
    step (EvalM.ofExcept (collection.index position))

/-- Evaluate statements in order; the last one gives the value. -/
def stmts (scope : ScopeId) (last : Option Value) :
    List Stmt → Task (Option Value)
  | [] => pure last
  | first :: rest => do
    let value ← eval scope (.stmt first)
    stmts scope value rest

/-- Evaluate a statement. -/
def stmt (scope : ScopeId) : Stmt → Task (Option Value)
  | .define name value => do
    let value ← eval scope (.expr value)
    step (EvalM.define scope name value)
    return none
  | .result value => do
    let value ← eval scope (.expr value)
    step (throw (.returned value))
  | .expression value => do
    return some (← eval scope (.expr value))
  | .block body => eval scope (.stmts body)

/-- Apply a value to arguments, unless too many calls are under way. -/
def apply (config : Config) : Value → List Value → Task Value
  | .function _ closure, arguments =>
    if arguments.length ≠ closure.parameters.length then
      step (EvalM.fail
        (.wrongArgumentCount arguments.length closure.parameters.length))
    else do
      if config.maxDepth ≤ (← step get).depth then
        step (EvalM.fail (.stackExhausted config.maxDepth))
      else
        let scope ←
          step (EvalM.enclose closure.scope (closure.bind arguments))
        withinCall (eval scope (.stmts closure.body))
  | .builtin builtin, arguments => step (builtin.run arguments)
  | callee, _ => step (EvalM.fail (.notAFunction callee.kind))

end Task

/-- What is done for a request. -/
def Request.task (config : Config) : (request : Request) → Task request.Answer
  | .eval scope (.expr tree) => Task.expr scope tree
  | .eval scope (.exprs trees) => Task.exprs scope trees
  | .eval scope (.stmt statement) => Task.stmt scope statement
  | .eval scope (.stmts statements) => Task.stmts scope none statements
  | .apply callee arguments => Task.apply config callee arguments

/-! ## What holds of all plans of code -/

/--
A property of tasks that holds of what the plan of some code is made of: of its
steps, of the requests for code in it, and of a sequence if it holds of the
parts.
-/
structure Task.Closed (scope : ScopeId) (code : Code)
    (holds : ∀ {α : Type}, Task α → Prop) : Prop where
  pure {α : Type} (value : α) : holds (pure value)
  bind {α β : Type} {task : Task α} {next : α → Task β} :
    holds task → (∀ value, holds (next value)) → holds (task >>= next)
  ofExcept {α : Type} (outcome : Except Failure α) :
    holds (Task.step (EvalM.ofExcept outcome))
  fresh : holds (Task.step EvalM.fresh)
  name (name : String) : holds (Task.step (Evaluation.name scope name))
  eval {inner : Code} : code.Contains inner → holds (Task.eval scope inner)
  apply (callee : Value) (arguments : List Value) :
    holds (Task.ask (.apply callee arguments))

namespace Task.Closed

variable {scope : ScopeId} {code : Code}
variable {holds : ∀ {α : Type}, Task α → Prop}

theorem branch
    {body : List Stmt}
    (closed : Closed scope code holds)
    (contains : code.Contains (.stmts body)) :
    holds (Task.branch scope body) :=
  closed.bind (closed.eval contains) fun _ => closed.pure _

theorem exprs
    {trees : List Expr}
    (closed : Closed scope code holds)
    (contains : ∀ tree ∈ trees, code.Contains (.expr tree)) :
    holds (Task.exprs scope trees) := by
  induction trees with
  | nil => exact closed.pure _
  | cons first rest induction =>
      rcases List.forall_mem_cons.1 contains with ⟨here, behind⟩
      refine closed.bind (closed.eval here) fun _ => ?_
      exact closed.bind (induction behind) fun _ => closed.pure _

theorem entries
    {pairs : List (Expr × Expr)}
    (closed : Closed scope code holds)
    (keys : ∀ pair ∈ pairs, code.Contains (.expr pair.1))
    (values : ∀ pair ∈ pairs, code.Contains (.expr pair.2))
    (done : Entries) :
    holds (Task.entries scope done pairs) := by
  induction pairs generalizing done with
  | nil => exact closed.pure _
  | cons pair rest induction =>
      rcases List.forall_mem_cons.1 keys with ⟨key, laterKeys⟩
      rcases List.forall_mem_cons.1 values with ⟨value, laterValues⟩
      refine closed.bind (closed.eval key) fun _ => ?_
      refine closed.bind (closed.eval value) fun _ => ?_
      exact closed.bind (closed.ofExcept _) (induction laterKeys laterValues)

theorem stmts
    {statements : List Stmt}
    (closed : Closed scope code holds)
    (contains : ∀ each ∈ statements, code.Contains (.stmt each))
    (last : Option Value) :
    holds (Task.stmts scope last statements) := by
  induction statements generalizing last with
  | nil => exact closed.pure _
  | cons first rest induction =>
      rcases List.forall_mem_cons.1 contains with ⟨here, behind⟩
      exact closed.bind (closed.eval here) (induction behind)

theorem expr
    {tree : Expr}
    (closed : Closed scope (.expr tree) holds) :
    holds (Task.expr scope tree) := by
  cases tree with
  | name identifier => exact closed.name identifier
  | integer value => exact closed.pure _
  | string text => exact closed.pure _
  | boolean value => exact closed.pure _
  | array items =>
      refine closed.bind (closed.eval .items) fun _ => ?_
      exact closed.bind closed.fresh fun _ => closed.pure _
  | hash pairs =>
      refine closed.bind
        (closed.entries (fun _ => .key) (fun _ => .value) []) fun _ => ?_
      exact closed.bind closed.fresh fun _ => closed.pure _
  | unary operator operand =>
      exact closed.bind (closed.eval .operand) fun _ => closed.ofExcept _
  | binary operator left right =>
      refine closed.bind (closed.eval .left) fun _ => ?_
      exact closed.bind (closed.eval .right) fun _ => closed.ofExcept _
  | conditional condition consequence alternative =>
      refine closed.bind (closed.eval .condition) fun value => ?_
      split
      · exact closed.branch .consequence
      · cases alternative with
        | none => exact closed.pure _
        | some body => exact closed.branch .alternative
  | function parameters body =>
      exact closed.bind closed.fresh fun _ => closed.pure _
  | call callee arguments =>
      refine closed.bind (closed.eval .callee) fun _ => ?_
      exact closed.bind (closed.eval .arguments) fun _ => closed.apply _ _
  | index collection position =>
      refine closed.bind (closed.eval .collection) fun _ => ?_
      exact closed.bind (closed.eval .position) fun _ => closed.ofExcept _

theorem expression
    {tree : Expr}
    (closed : Closed scope (.stmt (.expression tree)) holds) :
    holds (Task.stmt scope (.expression tree)) :=
  closed.bind (closed.eval .expression) fun _ => closed.pure _

end Task.Closed

/-! ## Runs of plans -/

/-- A point of an evaluation: a request is made, or it is answered. -/
inductive Event where
  | enter (request : Request) (machine : Machine)
  | leave (request : Request) (answer : Ending request.Answer)

/-- The values that the evaluation of code gives. -/
def Code.values : (code : Code) → code.Answer → List Value
  | .expr _, value => [value]
  | .exprs _, values => values
  | .stmt _, value => value.toList
  | .stmts _, value => value.toList

namespace Event

/-- The machine at a point. -/
def machine : Event → Machine
  | .enter _ machine => machine
  | .leave _ answer => Ending.machine answer

/-- The values that are handed over at a point. -/
def values : Event → List Value
  | .enter (.eval _ _) _ => []
  | .enter (.apply callee arguments) _ => callee :: arguments
  | .leave (.eval _ code) (.ok answer _) => code.values answer
  | .leave (.apply _ _) (.ok answer _) => [answer]
  | .leave _ (.error (.returned value) _) => [value]
  | .leave _ (.error (.failed _) _) => []

end Event

/--
A plan runs through some events to an ending: each request is answered as the
plan of the request ends.
-/
inductive Plan.Runs (config : Config) :
    {α : Type} → Plan α → List Event → Ending α → Prop
  | done {α : Type} (ending : Ending α) :
      Runs config (.done ending) [] ending
  | ask {α : Type} {request : Request} {machine : Machine}
      {next : Ending request.Answer → Plan α}
      {inner outer : List Event}
      {answer : Ending request.Answer} {ending : Ending α} :
      Runs config (request.task config machine) inner answer →
      Runs config (next answer) outer ending →
      Runs config (.ask request machine next)
        (.enter request machine :: inner ++ .leave request answer :: outer)
        ending

/-- A request is made in a machine and answered. -/
def Request.Runs (config : Config) (request : Request) (machine : Machine)
    (history : List Event) (answer : Ending request.Answer) : Prop :=
  Plan.Runs config (.ask request machine .done) history answer

/-- A plan comes to a request in some machine. -/
inductive Plan.Issues (config : Config) {α : Type} :
    Plan α → Request → Machine → Prop
  | here {request : Request} {machine : Machine}
      {next : Ending request.Answer → Plan α} :
      Issues config (.ask request machine next) request machine
  | later {request other : Request} {machine start : Machine}
      {next : Ending request.Answer → Plan α}
      {inner : List Event} {answer : Ending request.Answer} :
      Plan.Runs config (request.task config machine) inner answer →
      Issues config (next answer) other start →
      Issues config (.ask request machine next) other start

/-- A plan runs in one way only. -/
theorem Plan.Runs.unique
    {config : Config} {α : Type} {plan : Plan α}
    {first second : List Event} {ending other : Ending α}
    (runs : plan.Runs config first ending)
    (again : plan.Runs config second other) :
    first = second ∧ ending = other := by
  induction runs generalizing second with
  | done ending =>
      cases again
      exact ⟨rfl, rfl⟩
  | ask inner outer innerUnique outerUnique =>
      cases again with
      | ask innerAgain outerAgain =>
          rcases innerUnique innerAgain with ⟨rfl, rfl⟩
          rcases outerUnique outerAgain with ⟨rfl, rfl⟩
          exact ⟨rfl, rfl⟩

/-! ## Programs -/

namespace Program

/-- What a program gives when its statements end. -/
def conclude : Ending (Option Value) → Option Value × Machine
  | .ok value after => (value, after)
  | .error (.returned value) after => (some value, after)
  | .error (.failed failure) after => (some (.error failure), after)

theorem eval_eq (config : Config) (program : Program) (machine : Machine) :
    program.eval config machine =
      conclude (program.steps config Scopes.global machine) := by
  rw [eval]
  cases program.steps config Scopes.global machine with
  | ok value after => rfl
  | error reason after => cases reason <;> rfl

/-- The machine of a program's answer is the one in which its statements end. -/
theorem conclude_machine (ending : Ending (Option Value)) :
    (conclude ending).2 = Ending.machine ending := by
  cases ending with
  | ok value after => rfl
  | error reason after => cases reason <;> rfl

section

variable {config : Config} {machine after : Machine} {tree : Expr}

/-- A program of one expression gives its value. -/
theorem eval_expression
    {value : Value}
    (evaluates : Evaluation.expr
      (applyWithin config.maxDepth (config.maxDepth - machine.depth))
      Scopes.global tree machine = .ok value after) :
    eval config [.expression tree] machine = (some value, after) := by
  have ends : steps config [.expression tree] Scopes.global machine =
      .ok (some value) after := by
    show Evaluation.stmts _ _ none [.expression tree] machine = _
    rw [Evaluation.stmts, Evaluation.stmt, bind_assoc, bind_ok evaluates]
    rfl
  rw [eval_eq, ends]
  rfl

/-- A program of one expression that fails gives the failure. -/
theorem eval_expression_failed
    {failure : Failure}
    (fails : Evaluation.expr
      (applyWithin config.maxDepth (config.maxDepth - machine.depth))
      Scopes.global tree machine = .error (.failed failure) after) :
    eval config [.expression tree] machine =
      (some (.error failure), after) := by
  have ends : steps config [.expression tree] Scopes.global machine =
      .error (.failed failure) after := by
    show Evaluation.stmts _ _ none [.expression tree] machine = _
    rw [Evaluation.stmts, Evaluation.stmt, bind_assoc, bind_error fails]
  rw [eval_eq, ends]
  rfl

end

/-- The request to evaluate a program. -/
abbrev request (program : Program) : Request :=
  .eval Scopes.global (.stmts program)

/--
Programs that run one after another, each in the machine that the one before it
leaves, with all events and the machine after the last program.
-/
inductive Series (config : Config) :
    List Program → Machine → List Event → Machine → Prop
  | nil {machine : Machine} :
      Series config [] machine [] machine
  | cons {program : Program} {rest : List Program}
      {machine after : Machine} {history later : List Event}
      {ending : Ending (Option Value)} :
      (request program).Runs config machine history ending →
      Series config rest (program.eval config machine).2 later after →
      Series config (program :: rest) machine (history ++ later) after

end Program

end Bhasha
