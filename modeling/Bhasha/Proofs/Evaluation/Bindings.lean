import Bhasha.Proofs.Evaluation.Flow
import Mathlib.Data.List.Chain

/-!
# Bindings along a run

Between two events that follow one another the scopes stay as they are, but for
two cases: a definition binds the value of its expression when it ends, and a
function has a new scope when its body begins.  So the scopes of a run are known
at each event from those at the event before, and a binding that a scope has
stays until the same name is defined in the same scope again.
-/

namespace Bhasha

/-! ## Neighbouring events -/

/-- How the scopes at an event come from those at the event before. -/
inductive Event.KeepsBindings : Event → Event → Prop
  | kept {first second : Event} :
      second.machine.scopes = first.machine.scopes →
      KeepsBindings first second
  | defined {scope : ScopeId} {name : String} {tree : Expr} {value : Value}
      {between after : Machine} :
      after.scopes = between.scopes.define scope name value →
      KeepsBindings (.leave (.eval scope (.expr tree)) (.ok value between))
        (.leave (.eval scope (.stmt (.define name tree))) (.ok none after))
  | entered {identity : Identity} {closure : Closure}
      {arguments : List Value} {machine : Machine} :
      KeepsBindings
        (.enter (.apply (.function identity closure) arguments) machine)
        (.enter (.eval machine.scopes.size (.stmts closure.body))
          (machine.entered closure arguments))

/--
A plan that follows an event: its first request does, each of its requests
follows the answer to the one before, and so does its ending.
-/
inductive Plan.Follows {α : Type} (ends : Ending α → Event) :
    Event → Plan α → Prop
  | done {event : Event} {ending : Ending α} :
      event.KeepsBindings (ends ending) →
      Follows ends event (.done ending)
  | ask {event : Event} {request : Request} {machine : Machine}
      {next : Ending request.Answer → Plan α} :
      event.KeepsBindings (.enter request machine) →
      (∀ answer, Follows ends (.leave request answer) (next answer)) →
      Follows ends event (.ask request machine next)

/-! ## Plans that leave the scopes alone -/

/--
A plan that leaves the scopes as it finds them, at its start and in each answer
to a request.
-/
inductive Plan.Steady {α : Type} : Scopes → Plan α → Prop
  | done {scopes : Scopes} {ending : Ending α} :
      (Ending.machine ending).scopes = scopes →
      Steady scopes (.done ending)
  | ask {request : Request} {machine : Machine}
      {next : Ending request.Answer → Plan α} :
      (∀ answer, Steady (Ending.machine answer).scopes (next answer)) →
      Steady machine.scopes (.ask request machine next)

theorem Plan.Steady.andThen
    {α β : Type} {scopes : Scopes} {plan : Plan α} {next : Ending α → Plan β}
    (first : plan.Steady scopes)
    (second : ∀ ending, (next ending).Steady (Ending.machine ending).scopes) :
    (plan.andThen next).Steady scopes := by
  induction first with
  | done same =>
      subst same
      exact second _
  | ask _ induction => exact .ask induction

/-- A steady plan follows each event that has the scopes of its start. -/
theorem Plan.Steady.follows
    {α : Type} {scopes : Scopes} {plan : Plan α} {ends : Ending α → Event}
    {event : Event}
    (steady : plan.Steady scopes)
    (same : ∀ ending, (ends ending).machine = Ending.machine ending)
    (start : event.machine.scopes = scopes) :
    plan.Follows ends event := by
  induction steady generalizing event with
  | done kept =>
      refine .done (.kept ?_)
      rw [same, kept, start]
  | ask _ induction =>
      exact .ask (.kept start.symm) fun answer => induction answer rfl

/-- A task that leaves the scopes alone. -/
def Task.Steady {α : Type} (task : Task α) : Prop :=
  ∀ machine : Machine, (task machine).Steady machine.scopes

namespace Task.Steady

variable {α β : Type}

theorem step
    {step : EvalM α}
    (kept : ∀ machine : Machine,
      (Ending.machine (step machine)).scopes = machine.scopes) :
    (Task.step step).Steady :=
  fun machine => .done (kept machine)

theorem pure (value : α) : (pure value : Task α).Steady :=
  step fun _ => rfl

theorem fresh : (Task.step EvalM.fresh).Steady :=
  step fun _ => rfl

theorem ofExcept (outcome : Except Failure α) :
    (Task.step (EvalM.ofExcept outcome)).Steady := by
  apply step
  intro machine
  cases outcome with
  | ok value => rfl
  | error failure => rfl

theorem ask (request : Request) : (Task.ask request).Steady :=
  fun _ => .ask fun _ => .done rfl

theorem bind
    {task : Task α} {next : α → Task β}
    (first : task.Steady)
    (second : ∀ value, (next value).Steady) :
    (task >>= next).Steady := by
  intro machine
  refine (first machine).andThen fun ending => ?_
  cases ending with
  | ok value after => exact second value after
  | error reason after => exact .done rfl

theorem name (scope : ScopeId) (name : String) :
    (Task.step (Evaluation.name scope name)).Steady := by
  apply step
  intro machine
  rw [Ending.machine_step, Evaluation.final_name]

theorem closed (scope : ScopeId) (code : Code) :
    Task.Closed scope code Task.Steady where
  pure := pure
  bind := bind
  ofExcept := ofExcept
  fresh := fresh
  name := name scope
  eval _ := ask _
  apply _ _ := ask _

end Task.Steady

/-! ## The plans of all requests -/

theorem Task.Steady.follows
    {request : Request} {task : Task request.Answer}
    (steady : task.Steady) (machine : Machine) :
    (task machine).Follows (.leave request) (.enter request machine) :=
  (steady machine).follows (fun _ => rfl) rfl

/-- A definition binds its value right behind the evaluation of the value. -/
theorem Task.define_follows
    (scope : ScopeId) (name : String) (tree : Expr) (machine : Machine) :
    (Task.stmt scope (.define name tree) machine).Follows
      (.leave (.eval scope (.stmt (.define name tree))))
      (.enter (.eval scope (.stmt (.define name tree))) machine) := by
  refine .ask (.kept rfl) fun answer => ?_
  cases answer with
  | ok value between => exact .done (.defined rfl)
  | error reason between => exact .done (.kept rfl)

theorem Builtin.run_steady (builtin : Builtin) (arguments : List Value) :
    (Task.step (builtin.run arguments)).Steady := by
  apply Task.Steady.step
  intro machine
  rw [builtin.run_eq]
  cases (builtin.call arguments machine.sink).1 with
  | ok value => rfl
  | error failure => rfl

theorem Ending.machine_leaveCall (ending : Ending (Option Value)) :
    (Ending.leaveCall ending).machine = ending.machine.left := by
  cases ending with
  | ok value after => rfl
  | error reason after => cases reason <;> rfl

/-- A call makes a scope when the body of the function begins. -/
theorem Task.apply_follows
    (config : Config) (callee : Value) (arguments : List Value)
    (machine : Machine) :
    (Task.apply config callee arguments machine).Follows
      (.leave (.apply callee arguments))
      (.enter (.apply callee arguments) machine) := by
  cases callee with
  | function identity closure =>
      by_cases fits : arguments.length = closure.parameters.length
      · by_cases below : machine.depth < config.maxDepth
        · rw [apply_function fits below]
          refine .ask .entered fun answer => .done (.kept ?_)
          show (Ending.machine (Ending.leaveCall answer)).scopes = _
          rw [Ending.machine_leaveCall]
          rfl
        · rw [apply_exhausted fits (Nat.le_of_not_lt below)]
          exact .done (.kept rfl)
      · rw [apply, if_pos fits]
        exact .done (.kept rfl)
  | builtin builtin => exact (builtin.run_steady arguments).follows machine
  | _ => exact .done (.kept rfl)

/-- What is done for a request follows the event that it is made. -/
theorem Request.task_follows
    (config : Config) (request : Request) (machine : Machine) :
    (request.task config machine).Follows (.leave request)
      (.enter request machine) := by
  cases request with
  | apply callee arguments =>
      exact Task.apply_follows config callee arguments machine
  | eval scope code =>
      cases code with
      | expr tree => exact (Task.Steady.closed scope _).expr.follows machine
      | exprs trees =>
          have steady :=
            (Task.Steady.closed scope (.exprs trees)).exprs fun _ => .tree
          exact steady.follows machine
      | stmts statements =>
          have steady := (Task.Steady.closed scope (.stmts statements)).stmts
            (fun _ => .statement) none
          exact steady.follows machine
      | stmt statement =>
          cases statement with
          | define name tree =>
              exact Task.define_follows scope name tree machine
          | result tree =>
              have steady : (Task.stmt scope (.result tree)).Steady :=
                (Task.Steady.ask _).bind fun _ => .step fun _ => rfl
              exact steady.follows machine
          | expression tree =>
              exact (Task.Steady.closed scope _).expression.follows machine
          | block body =>
              exact .ask (.kept rfl) fun answer => .done (.kept rfl)

/-! ## Bindings of one scope -/

/-- A scope itself, and not one around it, binds a name to a value. -/
def Scopes.Binds (scopes : Scopes) (scope : ScopeId) (name : String)
    (value : Value) : Prop :=
  ∃ each, scopes.get? scope = some each ∧
    each.bindings.lookup name = some value

/-- A definition of a name in a scope has ended. -/
inductive Event.Defines (scope : ScopeId) (name : String) : Event → Prop
  | intro {tree : Expr} {after : Machine} :
      Defines scope name
        (.leave (.eval scope (.stmt (.define name tree))) (.ok none after))

section

variable {scopes : Scopes} {scope : ScopeId} {name : String} {value : Value}

/-- What a scope binds itself is found from there. -/
theorem Scopes.Binds.lookup
    (binds : scopes.Binds scope name value) :
    scopes.lookup scope name = some value := by
  rcases binds with ⟨each, found, bound⟩
  rw [Scopes.lookup, chain, found, List.findSome?_cons, bound]

theorem Scopes.binds_define
    {each : Scope}
    (found : scopes.get? scope = some each)
    (name : String) (value : Value) :
    (scopes.define scope name value).Binds scope name value := by
  refine ⟨⟨each.bindings.insert name value, each.outer⟩, ?_, ?_⟩
  · rw [get?_define, if_pos rfl, found, Option.map_some]
  · rw [Sorted.lookup_insert, List.lookup_cons_self, Option.some_or]

/-- Of parameters of one name, the last is bound. -/
theorem Scopes.binds_enclose
    {closure : Closure} {arguments : List Value}
    (bound : (closure.parameters.zip arguments).reverse.lookup name =
      some value)
    (scopes : Scopes) :
    (scopes.enclose closure.scope (closure.bind arguments)).Binds
      scopes.size name value := by
  refine ⟨⟨closure.bind arguments, some closure.scope⟩, ?_, ?_⟩
  · rw [get?_enclose, if_pos rfl]
  · have last := Sorted.lookup_foldl_insert name
      (closure.parameters.zip arguments) []
    rw [bound, Option.some_or] at last
    exact last

theorem Scopes.Binds.define
    {target : ScopeId} {other : String}
    (binds : scopes.Binds scope name value)
    (differs : ¬ (target = scope ∧ other = name))
    (bound : Value) :
    (scopes.define target other bound).Binds scope name value := by
  rcases binds with ⟨each, found, same⟩
  by_cases here : target = scope
  · have unlike : (name == other) = false :=
      beq_eq_false_iff_ne.2 fun equal => differs ⟨here, equal.symm⟩
    refine ⟨⟨each.bindings.insert other bound, each.outer⟩, ?_, ?_⟩
    · rw [get?_define, if_pos here, found, Option.map_some]
    · rw [Sorted.lookup_insert, List.lookup_cons, unlike, same]
      rfl
  · refine ⟨each, ?_, same⟩
    rw [get?_define, if_neg here, found]

theorem Scopes.Binds.enclose
    (binds : scopes.Binds scope name value)
    (outer : ScopeId) (bindings : Sorted String Value) :
    (scopes.enclose outer bindings).Binds scope name value := by
  rcases binds with ⟨each, found, same⟩
  refine ⟨each, ?_, same⟩
  rw [get?_enclose, if_neg (Nat.ne_of_lt (lt_size_of_get? found)), found]

/-- A binding stays at the next event if the name is not defined there. -/
theorem Event.KeepsBindings.binds
    {first second : Event}
    (keeps : first.KeepsBindings second)
    (binds : first.machine.scopes.Binds scope name value)
    (undefined : ¬ second.Defines scope name) :
    second.machine.scopes.Binds scope name value := by
  cases keeps with
  | kept same => exact same ▸ binds
  | @defined target other tree bound between after same =>
      show after.scopes.Binds scope name value
      rw [same]
      refine Scopes.Binds.define binds ?_ bound
      rintro ⟨rfl, rfl⟩
      exact undefined .intro
  | entered => exact binds.enclose _ _

/-- A binding stays along events that do not define the name again. -/
theorem Event.binds_of_isChain
    {first : Event} {events : List Event}
    (chain : (first :: events).IsChain Event.KeepsBindings)
    (binds : first.machine.scopes.Binds scope name value)
    (undefined : ∀ event ∈ events, ¬ event.Defines scope name) :
    ∀ event ∈ events, event.machine.scopes.Binds scope name value := by
  induction events generalizing first with
  | nil => exact fun event member => absurd member List.not_mem_nil
  | cons second events induction =>
      rcases List.isChain_cons_cons.1 chain with ⟨keeps, rest⟩
      rcases List.forall_mem_cons.1 undefined with ⟨here, behind⟩
      have next := keeps.binds binds here
      exact List.forall_mem_cons.2 ⟨next, induction rest next behind⟩

end

/-! ## Whole runs -/

/-- The events of a plan that follows an event, and its ending, are a chain. -/
theorem Plan.Runs.isChain
    {config : Config} {α : Type} {plan : Plan α} {history : List Event}
    {ending : Ending α} {ends : Ending α → Event} {event : Event}
    (runs : plan.Runs config history ending)
    (follows : plan.Follows ends event) :
    (event :: history ++ [ends ending]).IsChain Event.KeepsBindings := by
  induction runs generalizing event with
  | done ending =>
      cases follows with
      | done last => exact .cons_cons last (.singleton _)
  | @ask α request machine next inner outer answer ending _ _ first second =>
      cases follows with
      | ask start later =>
          -- The plan of the request follows its beginning, and the rest of the
          -- plan follows the answer.
          have within := first (request.task_follows config machine)
          have behind := second (later answer)
          rw [List.cons_append, List.append_assoc, List.cons_append,
            List.cons_append]
          exact .cons_cons start (List.isChain_split.2 ⟨within, behind⟩)

/-- A series of programs goes on where the event before it stands. -/
theorem Program.Series.isChain_cons
    {config : Config} {programs : List Program} {start after : Machine}
    {history : List Event}
    (series : Program.Series config programs start history after)
    (event : Event)
    (here : event.machine.scopes = start.scopes) :
    (event :: history).IsChain Event.KeepsBindings := by
  induction series generalizing event with
  | nil => exact .singleton event
  | @cons program rest machine after history later ending runs _ induction =>
      have concludes : (program.eval config machine).2 =
          Ending.machine ending := by
        rw [eval_eq, steps_of_runs runs, conclude_machine]
      rcases Request.runs_iff.1 runs with ⟨inner, planned, rfl⟩
      have within :=
        planned.isChain (program.request.task_follows config machine)
      have behind := induction (.leave program.request ending)
        (congrArg Machine.scopes concludes.symm)
      have front : Event.KeepsBindings event (.enter program.request machine) :=
        .kept here.symm
      rw [List.append_assoc, List.cons_append]
      exact .cons_cons front (List.isChain_split.2 ⟨within, behind⟩)

/-- In a series of programs the scopes change by definitions and calls only. -/
theorem Program.Series.isChain
    {config : Config} {programs : List Program} {start after : Machine}
    {history : List Event}
    (series : Program.Series config programs start history after) :
    history.IsChain Event.KeepsBindings := by
  have begins := series.isChain_cons (.enter (Program.request []) start) rfl
  exact begins.of_cons

end Bhasha
