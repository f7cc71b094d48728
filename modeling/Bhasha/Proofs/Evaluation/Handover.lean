import Bhasha.Proofs.Evaluation.Bindings

/-!
# What a call gives

A return ends the statements around it, blocks and branches too, and no more
than the body of one function: the value leaves the body as it is.  So what a
call gives was the value of an expression in the body, evaluated in the scope of
the call: of a return, or of the expression with which the body ends.

With this, the way of every value through a run is known.  What constructs hand
on, they hand on as it is.
-/

namespace Bhasha

/-! ## Returns end the code around them -/

/-- Where a return comes from that ends a request. -/
inductive Request.Unwinds (config : Config) (history : List Event) :
    Request → Value → Machine → Prop
  | result {scope : ScopeId} {tree : Expr} {machine after : Machine}
      {value : Value} :
      (Request.eval scope (.expr tree)).Served config history machine
        (.ok value after) →
      Unwinds config history (.eval scope (.stmt (.result tree))) value after
  | inner {scope : ScopeId} {code inner : Code} {machine after : Machine}
      {value : Value} :
      code.Contains inner →
      (Request.eval scope inner).Served config history machine
        (.error (.returned value) after) →
      Unwinds config history (.eval scope code) value after

/-- A task that ends with a return only if a part of some code does. -/
def Task.ReturnsWithin (scope : ScopeId) (code : Code) {α : Type}
    (task : Task α) : Prop :=
  ∀ (config : Config) (machine after : Machine) (history : List Event)
    (value : Value),
    (task machine).Runs config history (.error (.returned value) after) →
    ∃ inner start, code.Contains inner ∧
      (Request.eval scope inner).Served config history start
        (.error (.returned value) after)

namespace Task.ReturnsWithin

variable {scope : ScopeId} {code : Code} {α β : Type}

theorem step
    {step : EvalM α}
    (stays : ∀ machine value after,
      step machine ≠ .error (.returned value) after) :
    (Task.step step).ReturnsWithin scope code := by
  intro config machine after history value runs
  exact absurd (Plan.Runs.of_done runs).2 (stays machine value after)

theorem pure (result : α) :
    (pure result : Task α).ReturnsWithin scope code := by
  apply step
  intro machine value after ends
  cases ends

theorem fresh : (Task.step EvalM.fresh).ReturnsWithin scope code := by
  apply step
  intro machine value after ends
  cases ends

theorem ofExcept (outcome : Except Failure α) :
    (Task.step (EvalM.ofExcept outcome)).ReturnsWithin scope code := by
  apply step
  intro machine value after
  exact Evaluation.ofExcept_ne_returned outcome machine after value

theorem name (name : String) :
    (Task.step (Evaluation.name scope name)).ReturnsWithin scope code := by
  apply step
  intro machine value after ends
  rw [Evaluation.name_eq] at ends
  generalize (machine.scopes.lookup scope name).or
    ((Builtin.ofName? name).map Value.builtin) = found at ends
  cases found with
  | some value => cases ends
  | none => cases ends

theorem eval
    {inner : Code}
    (contains : code.Contains inner) :
    (Task.eval scope inner).ReturnsWithin scope code := by
  intro config machine after history value runs
  exact ⟨inner, machine, contains, Task.served_of_ask runs⟩

/-- A call does not return from the code around it. -/
theorem apply (callee : Value) (arguments : List Value) :
    (Task.ask (.apply callee arguments)).ReturnsWithin scope code := by
  intro config machine after history value runs
  rcases (Task.served_of_ask runs).task with ⟨inner, -, planned⟩
  exact absurd (Request.answer_of_runs planned).symm
    (Evaluation.apply_ne_returned config callee arguments machine after value)

theorem bind
    {task : Task α} {next : α → Task β}
    (first : task.ReturnsWithin scope code)
    (second : ∀ value, (next value).ReturnsWithin scope code) :
    (task >>= next).ReturnsWithin scope code := by
  intro config machine after history value runs
  rcases Plan.Runs.of_andThen runs with
    ⟨front, back, middle, rfl, runsFirst, runsSecond⟩
  cases middle with
  | ok result between =>
      rcases second result config _ _ _ _ runsSecond with
        ⟨inner, start, contains, served⟩
      exact ⟨inner, start, contains, served.within List.infix_append_right⟩
  | error reason between =>
      cases runsSecond
      rcases first config _ _ _ _ runsFirst with
        ⟨inner, start, contains, served⟩
      exact ⟨inner, start, contains, served.within List.infix_append_left⟩

theorem closed (scope : ScopeId) (code : Code) :
    Task.Closed scope code (ReturnsWithin scope code) where
  pure := pure
  bind := bind
  ofExcept := ofExcept
  fresh := fresh
  name := name
  eval := eval
  apply := apply

theorem define (name : String) (tree : Expr) :
    (Task.stmt scope (.define name tree)).ReturnsWithin scope
      (.stmt (.define name tree)) := by
  refine (eval .definition).bind fun value => bind (step ?_) fun _ => pure _
  intro machine result after ends
  cases ends

end Task.ReturnsWithin

section

variable {config : Config} {history : List Event} {scope : ScopeId}
variable {machine after : Machine} {value : Value}

theorem Task.ReturnsWithin.unwinds
    {code : Code}
    (returns : ((Request.eval scope code).task config).ReturnsWithin scope
      code)
    (served : (Request.eval scope code).Served config history machine
      (.error (.returned value) after)) :
    (Request.eval scope code).Unwinds config history value after := by
  rcases served.task with ⟨events, part, runs⟩
  rcases returns config _ _ _ _ runs with ⟨inner, start, contains, ended⟩
  exact .inner contains (ended.within part)

/-- A return comes from the statement itself or from within the code. -/
theorem Request.Served.unwinds
    {request : Request}
    (served : request.Served config history machine
      (.error (.returned value) after)) :
    request.Unwinds config history value after := by
  cases request with
  | apply callee arguments =>
      rcases served.task with ⟨inner, -, runs⟩
      exact absurd (Request.answer_of_runs runs).symm
        (Evaluation.apply_ne_returned config callee arguments machine after
          value)
  | eval scope code =>
      cases code with
      | expr tree =>
          have returns := (Task.ReturnsWithin.closed scope (.expr tree)).expr
          exact returns.unwinds served
      | exprs trees =>
          have returns :=
            (Task.ReturnsWithin.closed scope (.exprs trees)).exprs
              fun _ => .tree
          exact returns.unwinds served
      | stmts statements =>
          have returns :=
            (Task.ReturnsWithin.closed scope (.stmts statements)).stmts
              (fun _ => .statement) none
          exact returns.unwinds served
      | stmt statement =>
          cases statement with
          | result tree =>
              rcases served.result with
                ⟨result, between, evaluated, ends⟩ |
                  ⟨reason, between, evaluated, ends⟩
              · cases ends
                exact .result evaluated
              · cases ends
                exact .inner .result evaluated
          | block body => exact .inner .block served.block
          | define name tree =>
              exact (Task.ReturnsWithin.define name tree).unwinds served
          | expression tree =>
              have returns := Task.Closed.expression
                (Task.ReturnsWithin.closed scope (.stmt (.expression tree)))
              exact returns.unwinds served

/-! ## The value of a call -/

/-- Code with a return of an expression, outside of the functions in it. -/
inductive Code.Returns : Code → Expr → Prop
  | result {tree : Expr} : Returns (.stmt (.result tree)) tree
  | inner {code inner : Code} {tree : Expr} :
      code.Contains inner → Returns inner tree → Returns code tree

/-- Statements that end with an expression, which may stand in a block. -/
inductive Code.EndsWith : Code → Expr → Prop
  | expression {tree : Expr} : EndsWith (.stmt (.expression tree)) tree
  | block {body : List Stmt} {tree : Expr} :
      EndsWith (.stmts body) tree → EndsWith (.stmt (.block body)) tree
  | last {front : List Stmt} {statement : Stmt} {tree : Expr} :
      EndsWith (.stmt statement) tree →
      EndsWith (.stmts (front ++ [statement])) tree

/--
The value that code returns is that of the expression of a return in it.  The
return is found by going down to smaller and smaller code.
-/
theorem Request.Served.of_returned
    {code : Code} {machine : Machine}
    (served : (Request.eval scope code).Served config history machine
      (.error (.returned value) after)) :
    ∃ tree before, code.Returns tree ∧
      (Request.eval scope (.expr tree)).Served config history before
        (.ok value after) := by
  cases served.unwinds with
  | result evaluated => exact ⟨_, _, .result, evaluated⟩
  | inner contains ended =>
      rcases of_returned ended with ⟨tree, before, returns, evaluated⟩
      exact ⟨tree, before, .inner contains returns, evaluated⟩
termination_by code.size
decreasing_by exact contains.size_lt

/-- A result of statements in turn is that of the last of them. -/
theorem Stmt.InTurn.last
    {statements : List Stmt} {given : Option Value}
    (turns : InTurn config history scope given statements machine
      (.ok (some value) after)) :
    statements = [] ∧ given = some value ∧ machine = after ∨
      ∃ front statement before, statements = front ++ [statement] ∧
        (Request.eval scope (.stmt statement)).Served config history before
          (.ok (some value) after) := by
  generalize same : EStateM.Result.ok (some value) after = ending at turns
  induction turns with
  | nil =>
      cases same
      exact .inl ⟨rfl, rfl, rfl⟩
  | @cons given result statement statements machine between ending served _
      induction =>
      -- If nothing stands behind the statement, it is itself the last one.
      rcases induction same with
        ⟨rfl, rfl, rfl⟩ | ⟨front, last, before, rfl, ended⟩
      · exact .inr ⟨[], statement, machine, rfl, served⟩
      · exact .inr ⟨statement :: front, last, before, rfl, ended⟩
  | stop served => cases same

/-- The result of statements is the value of the expression at their end. -/
theorem Request.Served.of_result
    {statements : List Stmt} {machine : Machine}
    (served : (Request.eval scope (.stmts statements)).Served config history
      machine (.ok (some value) after)) :
    ∃ tree before, (Code.stmts statements).EndsWith tree ∧
      (Request.eval scope (.expr tree)).Served config history before
        (.ok value after) := by
  rcases served.stmts.last with
    ⟨-, missing, -⟩ | ⟨front, statement, before, same, ended⟩
  · cases missing
  · cases statement with
    | define name tree =>
        rcases ended.define with ⟨bound, between, -, missing, -⟩
        cases missing
    | result tree =>
        rcases ended.result with
          ⟨result, between, -, ends⟩ | ⟨reason, between, -, ends⟩
        · cases ends
        · cases ends
    | expression tree =>
        rcases ended.expression with ⟨result, given, evaluated⟩
        cases given
        exact ⟨tree, before, same ▸ .last .expression, evaluated⟩
    | block body =>
        rcases of_result ended.block with ⟨tree, start, ends, evaluated⟩
        exact ⟨tree, start, same ▸ .last (.block ends), evaluated⟩
termination_by (Code.stmts statements).size
decreasing_by
  have inside : Stmt.block body ∈ statements :=
    same ▸ List.mem_append_right front List.mem_cons_self
  exact Code.Contains.block.size_lt.trans
    (Code.Contains.statement inside).size_lt

/--
A call gives null, or the value of an expression that was evaluated in the scope
of the call: one with which the body ends, or that of a return.
-/
theorem Request.Served.of_call
    {identity : Identity} {closure : Closure} {arguments : List Value}
    (served : (Request.apply (.function identity closure) arguments).Served
      config history machine (.ok value after)) :
    value = .null ∨
      ∃ tree before last,
        ((Code.stmts closure.body).EndsWith tree ∨
          (Code.stmts closure.body).Returns tree) ∧
        (Request.eval machine.scopes.size (.expr tree)).Served config history
          before (.ok value last) ∧
        after = last.left := by
  rcases served.apply.2 with
    ⟨ending, last, evaluated, left, rfl | rfl | ⟨rfl, missing⟩⟩
  · rcases evaluated.of_result with ⟨tree, before, ends, given⟩
    exact .inr ⟨tree, before, last, .inl ends, given, left⟩
  · rcases evaluated.of_returned with ⟨tree, before, returns, given⟩
    exact .inr ⟨tree, before, last, .inr returns, given, left⟩
  · exact .inl missing

end

/-! ## Whole runs -/

/--
Values pass through a run as they are.  There is a rule for every construct: for
those that hand a value on, for those that make one, and for the rest, whose
values are plain.  Each rule tells the machines too, so that nothing else can
come between what it names.
-/
structure Evaluation.PassesOn (config : Config) (history : List Event) :
    Prop where
  /-- A definition binds the value of its expression. -/
  bound {scope : ScopeId} {name : String} {tree : Expr}
    {machine after : Machine} {result : Option Value} :
    (Request.eval scope (.stmt (.define name tree))).Served config history
      machine (.ok result after) →
    ∃ value between,
      (Request.eval scope (.expr tree)).Served config history machine
        (.ok value between) ∧
      result = none ∧
      after =
        { between with
          scopes := between.scopes.define scope name value } ∧
      after.scopes.Binds scope name value
  /-- Scopes change by definitions and calls only. -/
  changed : history.IsChain Event.KeepsBindings
  /-- A scope keeps what it binds until it binds the name again. -/
  kept {first : Event} {events : List Event} {scope : ScopeId}
    {name : String} {value : Value} :
    first :: events <:+: history →
    first.machine.scopes.Binds scope name value →
    (∀ event ∈ events, ¬ event.Defines scope name) →
    ∀ event ∈ events, event.machine.scopes.Binds scope name value
  /-- A name gives the value that its own scope bound to it last. -/
  recalled {first : Event} {events : List Event} {scope : ScopeId}
    {name : String} {value given : Value} {after : Machine} :
    first :: events <:+: history →
    first.machine.scopes.Binds scope name value →
    (∀ event ∈ events, ¬ event.Defines scope name) →
    .leave (.eval scope (.expr (.name name))) (.ok given after) ∈ events →
    given = value
  /-- A name gives what it is bound to, from the inside outward. -/
  named {scope : ScopeId} {name : String} {machine after : Machine}
    {value : Value} :
    (Request.eval scope (.expr (.name name))).Served config history machine
      (.ok value after) →
    after = machine ∧
      (machine.scopes.lookup scope name = some value ∨
        machine.scopes.lookup scope name = none ∧
          ∃ builtin, Builtin.ofName? name = some builtin ∧
            value = .builtin builtin)
  /-- A call applies the value of its callee to those of its arguments. -/
  called {scope : ScopeId} {callee : Expr} {trees : List Expr}
    {machine after : Machine} {value : Value} :
    (Request.eval scope (.expr (.call callee trees))).Served config history
      machine (.ok value after) →
    ∃ function arguments between last,
      (Request.eval scope (.expr callee)).Served config history machine
        (.ok function between) ∧
      (Request.eval scope (.exprs trees)).Served config history between
        (.ok arguments last) ∧
      (Request.apply function arguments).Served config history last
        (.ok value after)
  /-- The values of expressions are those of the single ones in turn. -/
  listed {scope : ScopeId} {trees : List Expr} {machine after : Machine}
    {values : List Value} :
    (Request.eval scope (.exprs trees)).Served config history machine
      (.ok values after) →
    Expr.InTurn config history scope trees machine values after
  /-- Only functions and builtins can be called; builtins give plain values. -/
  callable {callee : Value} {arguments : List Value}
    {machine after : Machine} {value : Value} :
    (Request.apply callee arguments).Served config history machine
      (.ok value after) →
    (∃ identity closure, callee = .function identity closure) ∨
      (∃ builtin, callee = .builtin builtin) ∧ value.IsPlain
  /--
  A function runs its body with its parameters bound to the arguments, of equal
  names the last.  The call gives the value that the body ends with, early or at
  its end, or null if it ends with none.
  -/
  passed {identity : Identity} {closure : Closure} {arguments : List Value}
    {machine after : Machine} {value : Value} :
    (Request.apply (.function identity closure) arguments).Served config
      history machine (.ok value after) →
    (arguments.length = closure.parameters.length ∧
      ∃ ending last,
        (Request.eval machine.scopes.size (.stmts closure.body)).Served config
          history (machine.entered closure arguments) ending ∧
        after = last.left ∧
        (ending = .ok (some value) last ∨
          ending = .error (.returned value) last ∨
          ending = .ok none last ∧ value = .null)) ∧
      ∀ name argument,
        (closure.parameters.zip arguments).reverse.lookup name =
          some argument →
        (machine.entered closure arguments).scopes.Binds machine.scopes.size
          name argument
  /-- Statements are evaluated in turn, up to the first that ends early. -/
  sequenced {scope : ScopeId} {statements : List Stmt} {machine : Machine}
    {answer : Ending (Option Value)} :
    (Request.eval scope (.stmts statements)).Served config history machine
      answer →
    Stmt.InTurn config history scope none statements machine answer
  /-- A statement that is an expression gives its value. -/
  evaluated {scope : ScopeId} {tree : Expr} {machine after : Machine}
    {result : Option Value} :
    (Request.eval scope (.stmt (.expression tree))).Served config history
      machine (.ok result after) →
    ∃ value, result = some value ∧
      (Request.eval scope (.expr tree)).Served config history machine
        (.ok value after)
  /-- A block ends as its statements do. -/
  enclosed {scope : ScopeId} {body : List Stmt} {machine : Machine}
    {answer : Ending (Option Value)} :
    (Request.eval scope (.stmt (.block body))).Served config history machine
      answer →
    (Request.eval scope (.stmts body)).Served config history machine answer
  /-- A return ends early with the value of its expression. -/
  returned {scope : ScopeId} {tree : Expr} {machine : Machine}
    {answer : Ending (Option Value)} :
    (Request.eval scope (.stmt (.result tree))).Served config history machine
      answer →
    (∃ value between,
      (Request.eval scope (.expr tree)).Served config history machine
        (.ok value between) ∧
      answer = .error (.returned value) between) ∨
    ∃ reason between,
      (Request.eval scope (.expr tree)).Served config history machine
        (.error reason between) ∧
      answer = .error reason between
  /-- What ends with a return does so as the return in it does; no call does. -/
  unwound {request : Request} {machine after : Machine} {value : Value} :
    request.Served config history machine (.error (.returned value) after) →
    request.Unwinds config history value after
  /--
  A call of a function gives null, or the value of an expression that was
  evaluated in the scope of the call: one with which the body ends, or that of a
  return.
  -/
  given {identity : Identity} {closure : Closure} {arguments : List Value}
    {machine after : Machine} {value : Value} :
    (Request.apply (.function identity closure) arguments).Served config
      history machine (.ok value after) →
    value = .null ∨
      ∃ tree before last,
        ((Code.stmts closure.body).EndsWith tree ∨
          (Code.stmts closure.body).Returns tree) ∧
        (Request.eval machine.scopes.size (.expr tree)).Served config history
          before (.ok value last) ∧
        after = last.left
  /-- A conditional gives what the branch gives that its condition selects. -/
  selected {scope : ScopeId} {condition : Expr} {consequence : List Stmt}
    {alternative : Option (List Stmt)} {machine after : Machine}
    {value : Value} :
    (Request.eval scope
        (.expr (.conditional condition consequence alternative))).Served
      config history machine (.ok value after) →
    ∃ test between,
      (Request.eval scope (.expr condition)).Served config history machine
        (.ok test between) ∧
      Stmt.Taken config history scope
        (if test.isTruthy then some consequence else alternative)
        between value after
  /-- An array holds the values of its items. -/
  items {scope : ScopeId} {trees : List Expr} {machine after : Machine}
    {value : Value} :
    (Request.eval scope (.expr (.array trees))).Served config history machine
      (.ok value after) →
    ∃ items between,
      (Request.eval scope (.exprs trees)).Served config history machine
        (.ok items between) ∧
      value = .array between.supply items ∧
      after = { between with supply := between.supply + 1 }
  /-- A hash holds the values of its entries, of equal keys the last. -/
  entries {scope : ScopeId} {pairs : List (Expr × Expr)}
    {machine after : Machine} {value : Value} :
    (Request.eval scope (.expr (.hash pairs))).Served config history machine
      (.ok value after) →
    ∃ entries stored between,
      Expr.PairsInTurn config history scope pairs machine stored between ∧
      (∀ key, Entries.get? entries key = List.lookup key stored.reverse) ∧
      value = .hash between.supply entries ∧
      after = { between with supply := between.supply + 1 }
  /-- A function literal captures the scope in which it stands. -/
  captured {scope : ScopeId} {parameters : List String} {body : List Stmt}
    {machine after : Machine} {value : Value} :
    (Request.eval scope (.expr (.function parameters body))).Served config
      history machine (.ok value after) →
    value = .function machine.supply ⟨parameters, body, scope⟩ ∧
      after = { machine with supply := machine.supply + 1 }
  /-- An index gives what was stored in the collection. -/
  fetched {scope : ScopeId} {collection position : Expr}
    {machine after : Machine} {value : Value} :
    (Request.eval scope (.expr (.index collection position))).Served config
      history machine (.ok value after) →
    ∃ whole place between,
      (Request.eval scope (.expr collection)).Served config history machine
        (.ok whole between) ∧
      (Request.eval scope (.expr position)).Served config history between
        (.ok place after) ∧
      whole.Fetches place value
  /-- Literals of plain values and operators give plain values. -/
  computed {scope : ScopeId} {tree : Expr} {machine after : Machine}
    {value : Value} :
    tree.computes = true →
    (Request.eval scope (.expr tree)).Served config history machine
      (.ok value after) →
    value.IsPlain
  /-- A program gives what its statements end with. -/
  concluded {program : Program} {machine : Machine}
    {ending : Ending (Option Value)} :
    program.request.Served config history machine ending →
    program.eval config machine = Program.conclude ending

/-- The binding of a definition, in a scope that is there. -/
theorem Request.Served.binds
    {config : Config} {history : List Event} {scope : ScopeId}
    {name : String} {tree : Expr} {machine after : Machine}
    {result : Option Value}
    (live : scope < machine.scopes.size)
    (served : (Request.eval scope (.stmt (.define name tree))).Served config
      history machine (.ok result after)) :
    ∃ value between,
      (Request.eval scope (.expr tree)).Served config history machine
        (.ok value between) ∧
      result = none ∧
      after =
        { between with
          scopes := between.scopes.define scope name value } ∧
      after.scopes.Binds scope name value := by
  rcases served.define with ⟨value, between, evaluated, none, rfl⟩
  rcases evaluated.get?_after (Array.getElem?_eq_getElem live) with
    ⟨each, found⟩
  exact ⟨value, between, evaluated, none, rfl,
    Scopes.binds_define found name value⟩

/-- A name that was bound and not defined again gives what it was bound to. -/
theorem Program.Series.recalled
    {config : Config} {programs : List Program} {start after last : Machine}
    {history events : List Event} {first : Event} {scope : ScopeId}
    {name : String} {value given : Value}
    (series : Program.Series config programs start history last)
    (part : first :: events <:+: history)
    (binds : first.machine.scopes.Binds scope name value)
    (undefined : ∀ event ∈ events, ¬ event.Defines scope name)
    (answered : .leave (.eval scope (.expr (.name name))) (.ok given after) ∈
      events) :
    given = value := by
  have chain := List.IsChain.infix series.isChain part
  have bound : after.scopes.Binds scope name value :=
    Event.binds_of_isChain chain binds undefined _ answered
  rcases series.served (part.subset (List.mem_cons_of_mem _ answered)) with
    ⟨machine, served⟩
  rcases served.name with ⟨rfl, found | ⟨missing, -⟩⟩
  · rw [bound.lookup] at found
    exact (Option.some.inj found).symm
  · rw [bound.lookup] at missing
    cases missing

/-- A program is answered by what its statements end with. -/
theorem Program.conclude_of_served
    {config : Config} {history : List Event} {program : Program}
    {machine : Machine} {ending : Ending (Option Value)}
    (served : program.request.Served config history machine ending) :
    program.eval config machine = conclude ending := by
  rcases served with ⟨events, runs, -⟩
  rw [eval_eq, steps_of_runs runs]

/-- Values pass through a series of programs whose scopes are all there. -/
theorem Evaluation.passesOn
    {config : Config} {programs : List Program} {start after : Machine}
    {history : List Event}
    (series : Program.Series config programs start history after)
    (live : ∀ scope code machine,
      .enter (.eval scope code) machine ∈ history →
      scope < machine.scopes.size) :
    PassesOn config history where
  bound served := served.binds (live _ _ _ served.enter_mem)
  changed := series.isChain
  kept part binds undefined := by
    have chain := List.IsChain.infix series.isChain part
    exact Event.binds_of_isChain chain binds undefined
  recalled := series.recalled
  named served := served.name
  called served := served.call
  listed served := served.exprs
  callable served := served.callable
  passed {_ _ _ machine _ _} served :=
    ⟨served.apply, fun _ _ bound => Scopes.binds_enclose bound machine.scopes⟩
  sequenced served := served.stmts
  evaluated served := served.expression
  enclosed served := served.block
  returned served := served.result
  unwound served := served.unwinds
  given served := served.of_call
  selected served := served.conditional
  items served := served.array
  entries served := served.hash
  captured served := served.function
  fetched served := served.index
  computed computes served := served.computed computes
  concluded served := Program.conclude_of_served served

end Bhasha
