import Bhasha.Proofs.Evaluation.Frame
import Bhasha.Proofs.Evaluation.Invariant

/-!
# The way of values through a run

While a request is answered, other requests are made and answered.  What a
construct gives can be told from the answers to the requests that it makes: a
name stands for the value that its definition had, a parameter for the argument,
a call for what the body of the function ends with, statements for what the last
of them gives, and an item of an array or a hash for the value that was put
there.  It is the value itself that is handed on, and never one made like it.
Each construct has a rule of its own that says so.
-/

namespace Bhasha

open Step

/-! ## Requests within a run -/

/-- A request is made in the course of some events, and answered. -/
def Request.Served (config : Config) (history : List Event)
    (request : Request) (machine : Machine)
    (answer : Ending request.Answer) : Prop :=
  ∃ events, request.Runs config machine events answer ∧ events <:+: history

section

variable {config : Config} {α β : Type}

theorem Request.Served.within
    {events history : List Event} {request : Request} {machine : Machine}
    {answer : Ending request.Answer}
    (served : request.Served config events machine answer)
    (part : events <:+: history) :
    request.Served config history machine answer := by
  rcases served with ⟨own, runs, inside⟩
  exact ⟨own, runs, inside.trans part⟩

/-- A request is served by its own plan. -/
theorem Request.Served.task
    {history : List Event} {request : Request} {machine : Machine}
    {answer : Ending request.Answer}
    (served : request.Served config history machine answer) :
    ∃ inner, inner <:+: history ∧
      Plan.Runs config (request.task config machine) inner answer := by
  rcases served with ⟨events, runs, part⟩
  rcases Request.runs_iff.1 runs with ⟨inner, planned, rfl⟩
  refine ⟨inner, List.IsInfix.trans ?_ part, planned⟩
  exact ⟨[.enter request machine], [.leave request answer], rfl⟩

theorem Plan.Runs.of_done
    {given ending : Ending α} {history : List Event}
    (runs : (Plan.done given).Runs config history ending) :
    history = [] ∧ given = ending := by
  cases runs
  exact ⟨rfl, rfl⟩

theorem Plan.Runs.of_andThen
    {plan : Plan α} {next : Ending α → Plan β} {history : List Event}
    {ending : Ending β}
    (runs : (plan.andThen next).Runs config history ending) :
    ∃ first second middle, history = first ++ second ∧
      plan.Runs config first middle ∧
      (next middle).Runs config second ending := by
  induction plan generalizing history with
  | done middle => exact ⟨[], history, middle, rfl, .done middle, runs⟩
  | ask request machine later induction =>
      cases runs with
      | ask inner outer =>
          rcases induction _ outer with
            ⟨first, second, middle, rfl, runsFirst, runsSecond⟩
          refine ⟨_, second, middle, ?_, .ask inner runsFirst, runsSecond⟩
          rw [List.append_assoc]
          rfl

/-- An element of two lists one after the other is in one of them. -/
theorem append_eq_split
    {first second front back : List α} {element : α}
    (same : first ++ second = front ++ element :: back) :
    (∃ rest, first = front ++ element :: rest) ∨
      ∃ rest, front = first ++ rest ∧ second = rest ++ element :: back := by
  rcases List.append_eq_append_iff.1 same with
    ⟨rest, inFront, split⟩ | ⟨rest, inFirst, split⟩
  · exact .inr ⟨rest, inFront, split⟩
  · rcases List.cons_eq_append_iff.1 split with
      ⟨nothing, behind⟩ | ⟨more, inRest, -⟩
    · subst nothing
      refine .inr ⟨[], ?_, behind⟩
      rw [inFirst, List.append_nil, List.append_nil]
    · exact .inl ⟨more, by rw [inFirst, inRest]⟩

/-- Whatever is answered in a run was asked before, and then its plan ran. -/
theorem Plan.Runs.asked
    {plan : Plan α} {ending : Ending α} {front back : List Event}
    {request : Request} {answer : Ending request.Answer}
    (runs : plan.Runs config (front ++ .leave request answer :: back)
      ending) :
    ∃ machine inner, .enter request machine :: inner <:+ front ∧
      Plan.Runs config (request.task config machine) inner answer := by
  generalize same : front ++ .leave request answer :: back = history at runs
  induction runs generalizing front back with
  | done ending => cases (List.append_eq_nil_iff.1 same).2
  | ask runsInner runsOuter inner outer =>
      -- The answer comes within the first request, ends it, or comes later.
      rcases append_eq_split same.symm with
        ⟨rest, inInner⟩ | ⟨rest, rfl, inOuter⟩
      · rcases List.cons_eq_append_iff.1 inInner with
          ⟨-, first⟩ | ⟨behind, rfl, split⟩
        · cases first
        · rcases inner split.symm with ⟨machine, part, last, runs⟩
          exact ⟨machine, part, last.trans (List.suffix_cons _ _), runs⟩
      · rcases List.cons_eq_append_iff.1 inOuter with
          ⟨rfl, last⟩ | ⟨behind, rfl, split⟩
        · cases last
          exact ⟨_, _, List.append_nil _ ▸ List.suffix_refl _, runsInner⟩
        · rcases outer split.symm with ⟨machine, part, last, runs⟩
          exact ⟨machine, part, (last.trans (List.suffix_cons _ _)).trans
            (List.suffix_append _ _), runs⟩

namespace Task

theorem served_of_ask
    {request : Request} {machine : Machine} {history : List Event}
    {ending : Ending request.Answer}
    (runs : (ask request machine).Runs config history ending) :
    request.Served config history machine ending :=
  ⟨history, runs, List.infix_refl history⟩

/-- A sequence that ends with a result has a first and a second part. -/
theorem parts_of_bind
    {task : Task α} {next : α → Task β} {machine after : Machine}
    {history : List Event} {result : β}
    (runs : ((task >>= next) machine).Runs config history
      (.ok result after)) :
    ∃ first second value between, history = first ++ second ∧
      (task machine).Runs config first (.ok value between) ∧
      (next value between).Runs config second (.ok result after) := by
  rcases Plan.Runs.of_andThen runs with
    ⟨first, second, middle, parts, runsFirst, runsSecond⟩
  cases middle with
  | ok value between =>
      exact ⟨first, second, value, between, parts, runsFirst, runsSecond⟩
  | error reason between => cases runsSecond

/-- A request and then a task, as a sequence that ends with a result. -/
theorem parts_of_ask_bind
    {request : Request} {next : request.Answer → Task β}
    {machine after : Machine} {history : List Event} {result : β}
    (runs : ((ask request >>= next) machine).Runs config history
      (.ok result after)) :
    ∃ rest value between, rest <:+: history ∧
      request.Served config history machine (.ok value between) ∧
      (next value between).Runs config rest (.ok result after) := by
  rcases parts_of_bind runs with
    ⟨first, second, value, between, rfl, asked, later⟩
  exact ⟨second, value, between, List.infix_append_right,
    (served_of_ask asked).within List.infix_append_left, later⟩

end Task

end

theorem Program.Series.asked
    {config : Config} {programs : List Program} {start after : Machine}
    {front back : List Event} {request : Request}
    {answer : Ending request.Answer}
    (series : Program.Series config programs start
      (front ++ .leave request answer :: back) after) :
    ∃ machine inner, .enter request machine :: inner <:+ front ∧
      Plan.Runs config (request.task config machine) inner answer := by
  generalize same : front ++ .leave request answer :: back = history at series
  induction series generalizing front back with
  | nil => cases (List.append_eq_nil_iff.1 same).2
  | cons runs series induction =>
      rcases append_eq_split same.symm with
        ⟨rest, rfl⟩ | ⟨rest, rfl, split⟩
      · exact Plan.Runs.asked runs
      · rcases induction split.symm with ⟨machine, inner, last, runs⟩
        exact ⟨machine, inner, last.trans (List.suffix_append _ _), runs⟩

/-- Whatever is answered in a series of programs was asked and served. -/
theorem Program.Series.served
    {config : Config} {programs : List Program} {start after : Machine}
    {history : List Event} {request : Request}
    {answer : Ending request.Answer}
    (series : Program.Series config programs start history after)
    (answered : .leave request answer ∈ history) :
    ∃ machine, request.Served config history machine answer := by
  rcases List.append_of_mem answered with ⟨front, back, rfl⟩
  rcases series.asked with ⟨machine, inner, ⟨before, rfl⟩, runs⟩
  refine ⟨machine, _, Request.runs_iff.2 ⟨inner, runs, rfl⟩, before, back, ?_⟩
  simp only [List.append_assoc, List.cons_append, List.nil_append]

/-! ## What constructs hand on -/

/--
What indexing finds: an item or an entry of the collection, or null where there
is none.
-/
inductive Value.Fetches : Value → Value → Value → Prop
  | item {identity : Identity} {items : List Value} {position : Int64}
      {index : Nat} {value : Value} :
      position.toInt = index → items[index]? = some value →
      Fetches (.array identity items) (.integer position) value
  | noItem {identity : Identity} {items : List Value} {position : Int64} :
      (∀ index : Nat, position.toInt = index → items.length ≤ index) →
      Fetches (.array identity items) (.integer position) .null
  | entry {identity : Identity} {entries : Entries} {position value : Value}
      {key : Key} :
      position.toKey = .ok key → Entries.get? entries key = some value →
      Fetches (.hash identity entries) position value
  | noEntry {identity : Identity} {entries : Entries} {position : Value}
      {key : Key} :
      position.toKey = .ok key → Entries.get? entries key = none →
      Fetches (.hash identity entries) position .null

theorem fetches_itemAt (identity : Identity) (items : List Value)
    (position : Int64) :
    (Value.array identity items).Fetches (.integer position)
      (itemAt items position) := by
  rw [itemAt]
  split
  · next negative =>
    refine .noItem ?_
    intro index here
    have below : position.toInt < 0 := Int64.lt_iff_toInt_lt.1 negative
    omega
  · next notNegative =>
    have above : ¬ position.toInt < 0 := fun below =>
      notNegative (Int64.lt_iff_toInt_lt.2 below)
    have place : position.toInt = position.toInt.toNat := by
      omega
    rw [List.getD_eq_getElem?_getD]
    cases found : items[position.toInt.toNat]? with
    | some value => exact .item place found
    | none =>
        refine .noItem ?_
        intro index here
        have outside := List.getElem?_eq_none_iff.1 found
        omega

theorem Value.fetches_of_index
    {collection position value : Value}
    (found : collection.index position = .ok value) :
    collection.Fetches position value := by
  cases collection with
  | array identity items =>
      cases position with
      | integer place =>
          cases found
          exact fetches_itemAt identity items place
      | _ => cases found
  | hash identity entries =>
      rw [index] at found
      cases made : position.toKey with
      | error failure =>
          rw [made] at found
          cases found
      | ok key =>
          rw [made] at found
          cases found
          cases present : Entries.get? entries key with
          | some value => exact .entry made present
          | none => exact .noEntry made present
  | _ => cases found

theorem EvalM.ofExcept_eq_ok
    {α : Type} {outcome : Except Failure α} {value : α}
    {machine after : Machine}
    (given : EvalM.ofExcept outcome machine = .ok value after) :
    outcome = .ok value ∧ machine = after := by
  cases outcome with
  | ok result =>
      cases given
      exact ⟨rfl, rfl⟩
  | error failure => cases given

theorem Entries.insert_eq_ok
    {entries inserted : Entries} {position value : Value}
    (given : entries.insert position value = .ok inserted) :
    ∃ key, position.toKey = .ok key ∧
      inserted = Sorted.insert key value entries := by
  rw [insert] at given
  cases made : position.toKey with
  | error failure =>
      rw [made] at given
      cases given
  | ok key =>
      rw [made] at given
      cases given
      exact ⟨key, rfl, rfl⟩

/-! ## Code that is evaluated in turn -/

section

variable (config : Config) (history : List Event) (scope : ScopeId)

/--
Expressions are evaluated one after another, each in the machine that the one
before it leaves.
-/
inductive Expr.InTurn : List Expr → Machine → List Value → Machine → Prop
  | nil {machine : Machine} : InTurn [] machine [] machine
  | cons {tree : Expr} {trees : List Expr} {value : Value}
      {values : List Value} {machine between after : Machine} :
      (Request.eval scope (.expr tree)).Served config history machine
        (.ok value between) →
      InTurn trees between values after →
      InTurn (tree :: trees) machine (value :: values) after

/--
Keys and values are evaluated one after another, and each key and its value
make an entry.
-/
inductive Expr.PairsInTurn :
    List (Expr × Expr) → Machine → List (Key × Value) → Machine → Prop
  | nil {machine : Machine} : PairsInTurn [] machine [] machine
  | cons {first second : Expr} {pairs : List (Expr × Expr)} {key : Key}
      {position value : Value} {stored : List (Key × Value)}
      {machine before between after : Machine} :
      (Request.eval scope (.expr first)).Served config history machine
        (.ok position before) →
      (Request.eval scope (.expr second)).Served config history before
        (.ok value between) →
      position.toKey = .ok key →
      PairsInTurn pairs between stored after →
      PairsInTurn ((first, second) :: pairs) machine ((key, value) :: stored)
        after

/--
Statements are evaluated one after another.  The last of them gives the result,
unless one of them ends early: then all of them end as this one does.
-/
inductive Stmt.InTurn :
    Option Value → List Stmt → Machine → Ending (Option Value) → Prop
  | nil {last : Option Value} {machine : Machine} :
      InTurn last [] machine (.ok last machine)
  | cons {last result : Option Value} {statement : Stmt}
      {statements : List Stmt} {machine between : Machine}
      {ending : Ending (Option Value)} :
      (Request.eval scope (.stmt statement)).Served config history machine
        (.ok result between) →
      InTurn result statements between ending →
      InTurn last (statement :: statements) machine ending
  | stop {last : Option Value} {statement : Stmt} {statements : List Stmt}
      {machine after : Machine} {reason : Unwind} :
      (Request.eval scope (.stmt statement)).Served config history machine
        (.error reason after) →
      InTurn last (statement :: statements) machine (.error reason after)

/--
The branch of a conditional that is taken gives the result of its statements, or
null if they have none or the branch is missing.
-/
inductive Stmt.Taken : Option (List Stmt) → Machine → Value → Machine → Prop
  | missing {machine : Machine} : Taken none machine .null machine
  | body {statements : List Stmt} {result : Option Value}
      {machine after : Machine} :
      (Request.eval scope (.stmts statements)).Served config history machine
        (.ok result after) →
      Taken (some statements) machine (result.getD .null) after

end

section

variable {config : Config} {events history : List Event} {scope : ScopeId}
variable {machine after : Machine}

theorem Expr.InTurn.within
    {trees : List Expr} {values : List Value}
    (turns : InTurn config events scope trees machine values after)
    (part : events <:+: history) :
    InTurn config history scope trees machine values after := by
  induction turns with
  | nil => exact .nil
  | cons served _ induction => exact .cons (served.within part) induction

theorem Expr.PairsInTurn.within
    {pairs : List (Expr × Expr)} {stored : List (Key × Value)}
    (turns : PairsInTurn config events scope pairs machine stored after)
    (part : events <:+: history) :
    PairsInTurn config history scope pairs machine stored after := by
  induction turns with
  | nil => exact .nil
  | cons first second made _ induction =>
      exact .cons (first.within part) (second.within part) made induction

theorem Stmt.InTurn.within
    {last : Option Value} {statements : List Stmt}
    {ending : Ending (Option Value)}
    (turns : InTurn config events scope last statements machine ending)
    (part : events <:+: history) :
    InTurn config history scope last statements machine ending := by
  induction turns with
  | nil => exact .nil
  | cons served _ induction => exact .cons (served.within part) induction
  | stop served => exact .stop (served.within part)

theorem Stmt.Taken.within
    {branch : Option (List Stmt)} {value : Value}
    (taken : Taken config events scope branch machine value after)
    (part : events <:+: history) :
    Taken config history scope branch machine value after := by
  cases taken with
  | missing => exact .missing
  | body served => exact .body (served.within part)

namespace Task

theorem exprs_inTurn
    {trees : List Expr} {values : List Value}
    (runs : (exprs scope trees machine).Runs config history
      (.ok values after)) :
    Expr.InTurn config history scope trees machine values after := by
  induction trees generalizing machine history values with
  | nil =>
      cases runs
      exact .nil
  | cons tree trees induction =>
      rcases parts_of_ask_bind runs with
        ⟨rest, value, between, within, asked, runs⟩
      rcases parts_of_bind runs with
        ⟨first, second, others, last, rfl, runs, done⟩
      cases done
      have behind := List.infix_append_left.trans within
      exact .cons asked ((induction runs).within behind)

/-- The entries of a hash are those that its keys and values make in turn. -/
theorem entries_inTurn
    {pairs : List (Expr × Expr)} {done entries : Entries}
    (runs : (Task.entries scope done pairs machine).Runs config history
      (.ok entries after)) :
    ∃ stored,
      Expr.PairsInTurn config history scope pairs machine stored after ∧
      entries =
        stored.foldl
          (fun done entry => Sorted.insert entry.1 entry.2 done) done := by
  induction pairs generalizing machine history done with
  | nil =>
      cases runs
      exact ⟨[], .nil, rfl⟩
  | cons pair pairs induction =>
      rcases parts_of_ask_bind runs with
        ⟨rest, key, between, within, first, runs⟩
      rcases parts_of_ask_bind runs with
        ⟨others, value, before, withinRest, second, runs⟩
      rcases parts_of_bind runs with
        ⟨nothing, last, inserted, start, rfl, insert, runs⟩
      rcases EvalM.ofExcept_eq_ok (Plan.Runs.of_done insert).2 with
        ⟨added, rfl⟩
      rcases Entries.insert_eq_ok added with ⟨entry, made, rfl⟩
      rcases induction runs with ⟨stored, turns, rfl⟩
      have behind := (List.infix_append_right.trans withinRest).trans within
      exact ⟨(entry, value) :: stored,
        .cons first (second.within within) made (turns.within behind), rfl⟩

theorem stmts_inTurn
    {last : Option Value} {statements : List Stmt}
    {ending : Ending (Option Value)}
    (runs : (stmts scope last statements machine).Runs config history
      ending) :
    Stmt.InTurn config history scope last statements machine ending := by
  induction statements generalizing last machine history with
  | nil =>
      cases runs
      exact .nil
  | cons statement statements induction =>
      rcases Plan.Runs.of_andThen runs with
        ⟨first, second, middle, rfl, asked, runs⟩
      have front : first <:+: first ++ second := List.infix_append_left
      have served := (served_of_ask asked).within front
      cases middle with
      | ok result between =>
          exact .cons served ((induction runs).within List.infix_append_right)
      | error reason between =>
          cases runs
          exact .stop served

theorem branch_taken
    {body : List Stmt} {value : Value}
    (runs : (branch scope body machine).Runs config history
      (.ok value after)) :
    Stmt.Taken config history scope (some body) machine value after := by
  rcases parts_of_ask_bind runs with
    ⟨rest, result, between, -, asked, later⟩
  cases later
  exact .body asked

end Task

end

/-! ## The single constructs -/

/-- If a sequence of outcomes gives a value, its first outcome has a value. -/
theorem exists_of_bind_eq_ok
    {α β : Type} {outcome : Except Failure α} {next : α → Except Failure β}
    {value : β}
    (given : (outcome >>= next) = .ok value) :
    ∃ first, outcome = .ok first ∧ next first = .ok value := by
  cases outcome with
  | ok first => exact ⟨first, rfl, given⟩
  | error failure => cases given

/-- What a builtin gives is no array, no hash and no function literal. -/
theorem Builtin.isPlain_of_call
    {builtin : Builtin} {arguments : List Value} {sink : Sink} {value : Value}
    (outcome : (builtin.call arguments sink).1 = .ok value) :
    value.IsPlain := by
  cases builtin with
  | length =>
      rcases exists_of_bind_eq_ok outcome with ⟨argument, -, measured⟩
      rcases exists_of_bind_eq_ok measured with ⟨size, -, given⟩
      cases given
      trivial
  | typeName =>
      rcases exists_of_bind_eq_ok outcome with ⟨argument, -, given⟩
      cases given
      trivial
  | text =>
      rcases exists_of_bind_eq_ok outcome with ⟨argument, -, given⟩
      cases given
      trivial
  | _ =>
      cases outcome
      trivial

/-- An expression whose value is computed and has no parts. -/
def Expr.computes : Expr → Bool
  | .integer _ => true
  | .string _ => true
  | .boolean _ => true
  | .unary _ _ => true
  | .binary _ _ _ => true
  | _ => false

/-- A call that gives a value has a body that ends with it or gives nothing. -/
theorem Ending.of_leaveCall_eq_ok
    {ending : Ending (Option Value)} {value : Value} {after : Machine}
    (left : Ending.leaveCall ending = .ok value after) :
    ∃ last, after = last.left ∧
      (ending = .ok (some value) last ∨
        ending = .error (.returned value) last ∨
        ending = .ok none last ∧ value = .null) := by
  cases ending with
  | ok result last =>
      cases left
      cases result with
      | some value => exact ⟨last, rfl, .inl rfl⟩
      | none => exact ⟨last, rfl, .inr (.inr ⟨rfl, rfl⟩)⟩
  | error reason last =>
      cases reason with
      | returned result =>
          cases left
          exact ⟨last, rfl, .inr (.inl rfl)⟩
      | failed failure => cases left

namespace Request.Served

section

variable {config : Config} {history : List Event} {scope : ScopeId}
variable {machine after : Machine} {value : Value}

theorem enter_mem
    {request : Request} {answer : Ending request.Answer}
    (served : request.Served config history machine answer) :
    .enter request machine ∈ history := by
  rcases served with ⟨events, runs, part⟩
  rcases Request.runs_iff.1 runs with ⟨inner, -, rfl⟩
  exact part.subset List.mem_cons_self

/-- An expression leaves the scope in which it is evaluated in its place. -/
theorem get?_after
    {tree : Expr} {each : Scope}
    (served : (Request.eval scope (.expr tree)).Served config history machine
      (.ok value after))
    (found : machine.scopes.get? scope = some each) :
    ∃ later, after.scopes.get? scope = some later := by
  rcases served.task with ⟨inner, -, runs⟩
  have answer : Evaluation.expr config.apply scope tree machine =
      .ok value after :=
    (Request.answer_of_runs runs).symm
  have applies :
      ∀ callee arguments,
        Within
          (fun before after => before.scopes.KeepsAround scope after.scopes)
          (config.apply callee arguments) := by
    intro callee arguments before
    exact (Evaluation.applyWithin_keeps config.maxDepth
      (config.maxDepth - before.depth) callee arguments before).around
  have kept := (Evaluation.kept_around scope).expr applies tree machine
  rw [final_of_ok answer] at kept
  rcases kept.own found with ⟨later, present, -⟩
  exact ⟨later, present⟩

/-- A definition binds the value of its expression in its scope. -/
theorem define
    {name : String} {tree : Expr} {result : Option Value}
    (served : (Request.eval scope (.stmt (.define name tree))).Served config
      history machine (.ok result after)) :
    ∃ value between,
      (Request.eval scope (.expr tree)).Served config history machine
        (.ok value between) ∧
      result = none ∧
      after =
        { between with scopes := between.scopes.define scope name value } := by
  rcases served.task with ⟨inner, part, runs⟩
  rcases Task.parts_of_ask_bind runs with
    ⟨rest, value, between, -, asked, later⟩
  cases later
  exact ⟨value, between, asked.within part, rfl, rfl⟩

/-- A return ends early with the value of its expression. -/
theorem result
    {tree : Expr} {answer : Ending (Option Value)}
    (served : (Request.eval scope (.stmt (.result tree))).Served config
      history machine answer) :
    (∃ value between,
      (Request.eval scope (.expr tree)).Served config history machine
        (.ok value between) ∧
      answer = .error (.returned value) between) ∨
    ∃ reason between,
      (Request.eval scope (.expr tree)).Served config history machine
        (.error reason between) ∧
      answer = .error reason between := by
  rcases served.task with ⟨inner, part, runs⟩
  rcases Plan.Runs.of_andThen runs with
    ⟨first, second, ending, rfl, asked, later⟩
  have evaluated := (Task.served_of_ask asked).within
    (List.infix_append_left.trans part)
  cases ending with
  | ok value between =>
      cases later
      exact .inl ⟨value, between, evaluated, rfl⟩
  | error reason between =>
      cases later
      exact .inr ⟨reason, between, evaluated, rfl⟩

/-- A statement that is an expression gives its value. -/
theorem expression
    {tree : Expr} {result : Option Value}
    (served : (Request.eval scope (.stmt (.expression tree))).Served config
      history machine (.ok result after)) :
    ∃ value, result = some value ∧
      (Request.eval scope (.expr tree)).Served config history machine
        (.ok value after) := by
  rcases served.task with ⟨inner, part, runs⟩
  rcases Task.parts_of_ask_bind runs with
    ⟨rest, value, between, -, asked, later⟩
  cases later
  exact ⟨value, rfl, asked.within part⟩

/-- A block ends as its statements do. -/
theorem block
    {body : List Stmt} {answer : Ending (Option Value)}
    (served : (Request.eval scope (.stmt (.block body))).Served config
      history machine answer) :
    (Request.eval scope (.stmts body)).Served config history machine
      answer := by
  rcases served.task with ⟨inner, part, runs⟩
  exact (Task.served_of_ask runs).within part

/-- Statements are evaluated in turn. -/
theorem stmts
    {statements : List Stmt} {answer : Ending (Option Value)}
    (served : (Request.eval scope (.stmts statements)).Served config history
      machine answer) :
    Stmt.InTurn config history scope none statements machine answer := by
  rcases served.task with ⟨inner, part, runs⟩
  exact (Task.stmts_inTurn runs).within part

/-- Expressions are evaluated in turn. -/
theorem exprs
    {trees : List Expr} {values : List Value}
    (served : (Request.eval scope (.exprs trees)).Served config history
      machine (.ok values after)) :
    Expr.InTurn config history scope trees machine values after := by
  rcases served.task with ⟨inner, part, runs⟩
  exact (Task.exprs_inTurn runs).within part

/-- A name gives what it is bound to, or else a builtin. -/
theorem name
    {name : String}
    (served : (Request.eval scope (.expr (.name name))).Served config history
      machine (.ok value after)) :
    after = machine ∧
      (machine.scopes.lookup scope name = some value ∨
        machine.scopes.lookup scope name = none ∧
          ∃ builtin, Builtin.ofName? name = some builtin ∧
            value = .builtin builtin) := by
  rcases served.task with ⟨inner, -, runs⟩
  have given : Evaluation.name scope name machine = .ok value after :=
    (Plan.Runs.of_done runs).2
  rw [Evaluation.name_eq] at given
  cases found : machine.scopes.lookup scope name with
  | some present =>
      rw [found] at given
      cases given
      exact ⟨rfl, .inl rfl⟩
  | none =>
      rw [found] at given
      cases called : Builtin.ofName? name with
      | some builtin =>
          rw [called] at given
          cases given
          exact ⟨rfl, .inr ⟨rfl, builtin, rfl, rfl⟩⟩
      | none =>
          rw [called] at given
          cases given

/-- Literals of plain values and operators give plain values. -/
theorem computed
    {tree : Expr}
    (computes : tree.computes = true)
    (served : (Request.eval scope (.expr tree)).Served config history machine
      (.ok value after)) :
    value.IsPlain := by
  rcases served.task with ⟨inner, -, runs⟩
  cases tree with
  | integer number =>
      cases runs
      trivial
  | string text =>
      cases runs
      trivial
  | boolean truth =>
      cases runs
      trivial
  | unary operator operand =>
      rcases Task.parts_of_ask_bind runs with
        ⟨rest, argument, between, -, -, later⟩
      exact UnaryOp.isPlain_of_apply
        (EvalM.ofExcept_eq_ok (Plan.Runs.of_done later).2).1
  | binary operator left right =>
      rcases Task.parts_of_ask_bind runs with
        ⟨rest, first, between, -, -, runs⟩
      rcases Task.parts_of_ask_bind runs with
        ⟨nothing, second, last, -, -, later⟩
      exact BinaryOp.isPlain_of_apply
        (EvalM.ofExcept_eq_ok (Plan.Runs.of_done later).2).1
  | _ => cases computes

/-- An array is a new value that holds the values of its items. -/
theorem array
    {trees : List Expr}
    (served : (Request.eval scope (.expr (.array trees))).Served config
      history machine (.ok value after)) :
    ∃ items between,
      (Request.eval scope (.exprs trees)).Served config history machine
        (.ok items between) ∧
      value = .array between.supply items ∧
      after = { between with supply := between.supply + 1 } := by
  rcases served.task with ⟨inner, part, runs⟩
  rcases Task.parts_of_ask_bind runs with
    ⟨rest, items, between, -, asked, later⟩
  cases later
  exact ⟨items, between, asked.within part, rfl, rfl⟩

/-- A hash is a new value that holds, of the entries of a key, the last. -/
theorem hash
    {pairs : List (Expr × Expr)}
    (served : (Request.eval scope (.expr (.hash pairs))).Served config
      history machine (.ok value after)) :
    ∃ entries stored between,
      Expr.PairsInTurn config history scope pairs machine stored between ∧
      (∀ key, Entries.get? entries key = List.lookup key stored.reverse) ∧
      value = .hash between.supply entries ∧
      after = { between with supply := between.supply + 1 } := by
  rcases served.task with ⟨inner, part, runs⟩
  rcases Task.parts_of_bind runs with
    ⟨first, second, entries, between, rfl, filled, later⟩
  cases later
  rcases Task.entries_inTurn filled with ⟨stored, turns, rfl⟩
  refine ⟨_, stored, between,
    turns.within (List.infix_append_left.trans part), ?_, rfl, rfl⟩
  intro key
  rw [Entries.get?, Sorted.lookup_foldl_insert, List.lookup_nil,
    Option.or_none]

/-- A function literal is a new value that captures its scope. -/
theorem function
    {parameters : List String} {body : List Stmt}
    (served : (Request.eval scope (.expr (.function parameters body))).Served
      config history machine (.ok value after)) :
    value = .function machine.supply ⟨parameters, body, scope⟩ ∧
      after = { machine with supply := machine.supply + 1 } := by
  rcases served.task with ⟨inner, -, runs⟩
  cases runs
  exact ⟨rfl, rfl⟩

/-- An index gives what was stored in the collection. -/
theorem index
    {collection position : Expr}
    (served : (Request.eval scope (.expr (.index collection position))).Served
      config history machine (.ok value after)) :
    ∃ whole place between,
      (Request.eval scope (.expr collection)).Served config history machine
        (.ok whole between) ∧
      (Request.eval scope (.expr position)).Served config history between
        (.ok place after) ∧
      whole.Fetches place value := by
  rcases served.task with ⟨inner, part, runs⟩
  rcases Task.parts_of_ask_bind runs with
    ⟨rest, whole, between, within, first, runs⟩
  rcases Task.parts_of_ask_bind runs with
    ⟨nothing, place, last, -, second, later⟩
  rcases EvalM.ofExcept_eq_ok (Plan.Runs.of_done later).2 with ⟨found, rfl⟩
  exact ⟨whole, place, between, first.within part,
    second.within (within.trans part), Value.fetches_of_index found⟩

/-- A conditional gives what the branch gives that its condition selects. -/
theorem conditional
    {condition : Expr} {consequence : List Stmt}
    {alternative : Option (List Stmt)}
    (served : (Request.eval scope
        (.expr (.conditional condition consequence alternative))).Served
      config history machine (.ok value after)) :
    ∃ test between,
      (Request.eval scope (.expr condition)).Served config history machine
        (.ok test between) ∧
      Stmt.Taken config history scope
        (if test.isTruthy then some consequence else alternative)
        between value after := by
  rcases served.task with ⟨inner, part, runs⟩
  rcases Task.parts_of_ask_bind runs with
    ⟨rest, test, between, within, asked, later⟩
  refine ⟨test, between, asked.within part, ?_⟩
  have here := within.trans part
  cases truth : test.isTruthy with
  | true =>
      rw [truth, if_pos rfl] at later
      exact (Task.branch_taken later).within here
  | false =>
      rw [truth, if_neg Bool.false_ne_true] at later
      cases alternative with
      | none =>
          cases later
          exact .missing
      | some body => exact (Task.branch_taken later).within here

/-- A call applies the value of its callee to those of its arguments. -/
theorem call
    {callee : Expr} {trees : List Expr}
    (served : (Request.eval scope (.expr (.call callee trees))).Served config
      history machine (.ok value after)) :
    ∃ function arguments between last,
      (Request.eval scope (.expr callee)).Served config history machine
        (.ok function between) ∧
      (Request.eval scope (.exprs trees)).Served config history between
        (.ok arguments last) ∧
      (Request.apply function arguments).Served config history last
        (.ok value after) := by
  rcases served.task with ⟨inner, part, runs⟩
  rcases Task.parts_of_ask_bind runs with
    ⟨rest, function, between, within, first, runs⟩
  rcases Task.parts_of_ask_bind runs with
    ⟨last, values, before, withinRest, second, runs⟩
  have inRest := withinRest.trans (within.trans part)
  exact ⟨function, values, between, before, first.within part,
    second.within (within.trans part),
    (Task.served_of_ask runs).within inRest⟩

/--
A function runs its body in a new scope, one level deeper, and gives what the
body ends with, up to a return.
-/
theorem apply
    {identity : Identity} {closure : Closure} {arguments : List Value}
    (served : (Request.apply (.function identity closure) arguments).Served
      config history machine (.ok value after)) :
    arguments.length = closure.parameters.length ∧
    ∃ ending last,
      (Request.eval machine.scopes.size (.stmts closure.body)).Served config
        history (machine.entered closure arguments) ending ∧
      after = last.left ∧
      (ending = .ok (some value) last ∨
        ending = .error (.returned value) last ∨
        ending = .ok none last ∧ value = .null) := by
  rcases served.task with ⟨inner, part, runs⟩
  rw [Request.task] at runs
  by_cases fits : arguments.length = closure.parameters.length
  · by_cases below : machine.depth < config.maxDepth
    · rw [Task.apply_function fits below] at runs
      cases runs with
      | @ask _ _ _ _ _ _ ending _ body outer =>
          rcases Plan.Runs.of_done outer with ⟨rfl, left⟩
          have evaluated : (Request.eval machine.scopes.size
              (.stmts closure.body)).Served config history
                (machine.entered closure arguments) ending :=
            ⟨_, Request.runs_iff.2 ⟨_, body, rfl⟩, part⟩
          rcases Ending.of_leaveCall_eq_ok left with ⟨last, ends⟩
          exact ⟨fits, ending, last, evaluated, ends⟩
    · rw [Task.apply_exhausted fits (Nat.le_of_not_lt below)] at runs
      cases runs
  · rw [Task.apply, if_pos fits] at runs
    cases runs

/-- Only functions and builtins can be called; builtins give plain values. -/
theorem callable
    {callee : Value} {arguments : List Value}
    (served : (Request.apply callee arguments).Served config history machine
      (.ok value after)) :
    (∃ identity closure, callee = .function identity closure) ∨
      (∃ builtin, callee = .builtin builtin) ∧ value.IsPlain := by
  rcases served.task with ⟨inner, -, runs⟩
  cases callee with
  | function identity closure => exact .inl ⟨identity, closure, rfl⟩
  | builtin builtin =>
      have given : builtin.run arguments machine = .ok value after :=
        (Plan.Runs.of_done runs).2
      exact .inr ⟨⟨builtin, rfl⟩,
        Builtin.isPlain_of_call (EvalM.ofExcept_eq_ok given).1⟩
  | _ => cases runs

end

end Request.Served

end Bhasha
