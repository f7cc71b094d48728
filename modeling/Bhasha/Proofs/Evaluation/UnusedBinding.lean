import Bhasha.Proofs.Evaluation.ErrorFree

/-!
# Unused bindings

A name that occurs neither in a program nor in a function that the program can
come to may be bound in the global scope or not.  The program gives the same
result, prints the same, and leaves the same bindings of all other names.

The evaluation with the binding is in step with the evaluation without it.  At
every point the one machine is the other machine with the binding added: no code
looks for the name, and every operation on machines can be done before or after
the binding is added.
-/

namespace Bhasha

/-! ## Names in a source -/

mutual

/--
The names in an expression: those that are looked up or defined in it and the
parameters of its functions, also inside of function literals.
-/
def Expr.names : Expr → List String
  | .name name => [name]
  | .integer _ => []
  | .string _ => []
  | .boolean _ => []
  | .array items => Expr.namesList items
  | .hash pairs => Expr.namesPairs pairs
  | .unary _ operand => operand.names
  | .binary _ left right => left.names ++ right.names
  | .conditional condition consequence alternative =>
    condition.names ++ Stmt.namesList consequence ++
      Stmt.namesOption alternative
  | .function parameters body => parameters ++ Stmt.namesList body
  | .call callee arguments => callee.names ++ Expr.namesList arguments
  | .index collection position => collection.names ++ position.names

/-- The names in expressions. -/
def Expr.namesList : List Expr → List String
  | [] => []
  | tree :: trees => tree.names ++ Expr.namesList trees

/-- The names in pairs of expressions. -/
def Expr.namesPairs : List (Expr × Expr) → List String
  | [] => []
  | (key, value) :: pairs => key.names ++ value.names ++ Expr.namesPairs pairs

/-- The names in a statement. -/
def Stmt.names : Stmt → List String
  | .define name value => name :: value.names
  | .result value => value.names
  | .expression value => value.names
  | .block body => Stmt.namesList body

/-- The names in statements. -/
def Stmt.namesList : List Stmt → List String
  | [] => []
  | statement :: statements => statement.names ++ Stmt.namesList statements

/-- The names in statements that may be missing. -/
def Stmt.namesOption : Option (List Stmt) → List String
  | none => []
  | some statements => Stmt.namesList statements

end

theorem Expr.names_subset_list
    {tree : Expr} {trees : List Expr}
    (member : tree ∈ trees) :
    tree.names ⊆ Expr.namesList trees := by
  induction member with
  | head => exact List.subset_append_left _ _
  | tail _ _ induction => exact List.subset_append_of_subset_right _ induction

theorem Expr.names_subset_pairs
    {pair : Expr × Expr} {pairs : List (Expr × Expr)}
    (member : pair ∈ pairs) :
    pair.1.names ++ pair.2.names ⊆ Expr.namesPairs pairs := by
  induction member with
  | head => exact List.subset_append_left _ _
  | tail _ _ induction => exact List.subset_append_of_subset_right _ induction

theorem Stmt.names_subset_list
    {statement : Stmt} {statements : List Stmt}
    (member : statement ∈ statements) :
    statement.names ⊆ Stmt.namesList statements := by
  induction member with
  | head => exact List.subset_append_left _ _
  | tail _ _ induction => exact List.subset_append_of_subset_right _ induction

/-- The names in code. -/
def Code.names : Code → List String
  | .expr tree => tree.names
  | .exprs trees => Expr.namesList trees
  | .stmt statement => statement.names
  | .stmts statements => Stmt.namesList statements

theorem Code.Contains.names_subset
    {code inner : Code}
    (contains : code.Contains inner) :
    inner.names ⊆ code.names := by
  cases contains with
  | key member =>
      exact List.Subset.trans (List.subset_append_left _ _)
        (Expr.names_subset_pairs member)
  | value member =>
      exact List.Subset.trans (List.subset_append_right _ _)
        (Expr.names_subset_pairs member)
  | tree member => exact Expr.names_subset_list member
  | statement member => exact Stmt.names_subset_list member
  | _ =>
      simp [Code.names, Expr.names, Stmt.names, Stmt.namesOption]

/-- The names in a function: its parameters and the names in its body. -/
def Closure.names (closure : Closure) : List String :=
  closure.parameters ++ Stmt.namesList closure.body

/-- A name is in no function that can be reached from a scope. -/
def Scopes.Avoids (scopes : Scopes) (start : ScopeId) (name : String) : Prop :=
  ∀ scope each binding identity closure, scopes.Reaches start scope →
    scopes.get? scope = some each → binding ∈ each.bindings →
    .function identity closure ∈ binding.2.inside → name ∉ closure.names

/-! ## The invariant -/

/-- A name is neither in the code of a run nor in a function it can come to. -/
def avoidance (start : Machine) (name : String) : Invariant Unit where
  later _ _ := True
  live _ scope := start.InPlay scope
  permits _ _ code := name ∉ code.names
  allows _ value :=
    ∀ identity closure, value = .function identity closure →
      start.InPlay closure.scope ∧ name ∉ closure.names
  holds _ machine :=
    Scopes.global < start.scopes.size ∧
      start.scopes.size ≤ machine.scopes.size
  refl _ := trivial
  trans _ _ := trivial
  live_later _ live := live
  permits_later _ permits := permits
  allows_later _ allows := allows
  live_earlier _ _ _ live := live
  permits_contains absent contains member :=
    absent (contains.names_subset member)
  plain plain := by
    rintro identity closure rfl
    exact plain.elim
  captured allows := (allows _ _ rfl).1
  holds_of_eq same _ _ holds := same ▸ holds
  fresh holds _ literal := by
    refine ⟨(), trivial, holds, ?_⟩
    rintro identity ⟨parameters, body, scope⟩ same
    exact literal _ _ _ _ same
  define value holds _ _ := by
    rw [Scopes.size_define]
    exact holds
  enter arguments holds allows := by
    refine ⟨(), trivial, ⟨holds.1, ?_⟩, .inr holds.2, ?_⟩
    · rw [Machine.entered, Scopes.size_enclose]
      exact Nat.le_succ_of_le holds.2
    · exact fun member =>
        (allows _ _ rfl).2 (List.mem_append_right _ member)

theorem avoidance_sound
    {start : Machine} {name : String}
    (present : Scopes.global < start.scopes.size)
    (functions : start.scopes.Avoids Scopes.global name) :
    (avoidance start name).Sound () start where
  holds := ⟨present, Nat.le_refl _⟩
  bound {scope each binding} live found member := by
    have reached := Machine.InPlay.reaches live found
    rintro value within identity closure rfl
    exact ⟨.inl (reached.captured found member within),
      functions _ _ _ _ _ reached found member within⟩
  outer {scope outer each} live found outward := by
    have reached := Machine.InPlay.reaches live found
    exact .inl (reached.outward found outward)

/-! ## Evaluations with and without the binding -/

theorem Machine.entered_defineGlobal
    {machine : Machine}
    (present : Scopes.global < machine.scopes.size) (name : String)
    (value : Value) (closure : Closure) (arguments : List Value) :
    (machine.defineGlobal name value).entered closure arguments =
      (machine.entered closure arguments).defineGlobal name value := by
  simp only [entered, defineGlobal, Scopes.enclose_define present]

/--
An evaluation that avoids a name is in step with one that has a binding of the
name in its global scope.
-/
def extraBinding (start : Machine) (name : String) (value : Value) :
    Simulation Unit where
  -- Both evaluations have the same scopes and values; only machines differ.
  __ := (avoidance start name).simulation
  machines world machine twin :=
    twin = machine.defineGlobal name value ∧
      (avoidance start name).Sound world machine
  lookup identifier machines scopes permits := by
    rcases machines with ⟨rfl, sound⟩
    have differ : identifier ≠ name := by
      rintro rfl
      exact permits List.mem_cons_self
    rw [Machine.defineGlobal, Scopes.lookup_define_of_ne differ]
    exact (avoidance start name).simulation.lookup identifier ⟨rfl, sound⟩
      scopes permits
  array machines items := by
    rcases machines with ⟨rfl, sound⟩
    rcases (avoidance start name).simulation.array ⟨rfl, sound⟩ items with
      ⟨next, later, ⟨-, sound⟩, values⟩
    exact ⟨next, later, ⟨rfl, sound⟩, values⟩
  hash machines entries := by
    rcases machines with ⟨rfl, sound⟩
    rcases (avoidance start name).simulation.hash ⟨rfl, sound⟩ entries with
      ⟨next, later, ⟨-, sound⟩, values⟩
    exact ⟨next, later, ⟨rfl, sound⟩, values⟩
  function machines scopes permits := by
    rcases machines with ⟨rfl, sound⟩
    rcases (avoidance start name).simulation.function ⟨rfl, sound⟩ scopes
      permits with ⟨next, later, ⟨-, sound⟩, values⟩
    exact ⟨next, later, ⟨rfl, sound⟩, values⟩
  define {_ _ _ _ _ defined _ _ _} machines scopes permits values := by
    rcases machines with ⟨rfl, sound⟩
    rcases scopes with ⟨rfl, live⟩
    rcases values with ⟨rfl, all⟩
    have differ : name ≠ defined := by
      rintro rfl
      exact permits List.mem_cons_self
    refine ⟨?_, sound.define live permits all⟩
    simp only [Machine.defineGlobal, Scopes.define_comm differ]
  enter machines callees arguments := by
    rcases machines with ⟨rfl, sound⟩
    have present := Nat.lt_of_lt_of_le sound.holds.1 sound.holds.2
    rcases (avoidance start name).simulation.enter ⟨rfl, sound⟩ callees
      arguments with ⟨next, later, ⟨same, sound⟩, scopes, permits⟩
    refine ⟨next, later, ⟨?_, sound⟩, ?_, permits⟩
    · rw [Machine.entered_defineGlobal present, same]
    · rw [Machine.defineGlobal, Scopes.size_define]
      exact scopes
  leave machines := by
    rcases machines with ⟨rfl, sound⟩
    exact ⟨rfl, sound.of_eq rfl rfl id⟩
  depth machines := by
    rw [machines.1]
    rfl
  print builtin machines arguments := by
    rcases machines with ⟨rfl, sound⟩
    rcases (avoidance start name).simulation.print builtin ⟨rfl, sound⟩
      arguments with ⟨same, sound⟩
    exact ⟨congrArg (Machine.defineGlobal · name value) same.symm, sound⟩

section

variable {machine : Machine} {program : Program} {name : String}

/-- An unused binding can be added before or after a program is evaluated. -/
theorem Program.eval_defineGlobal
    (present : Scopes.global < machine.scopes.size)
    (absent : name ∉ Stmt.namesList program)
    (functions : machine.scopes.Avoids Scopes.global name)
    (config : Config) (value : Value) :
    program.eval config (machine.defineGlobal name value) =
      ((program.eval config machine).1,
        (program.eval config machine).2.defineGlobal name value) := by
  let twins := extraBinding machine name value
  have scopes : twins.scopes () Scopes.global Scopes.global :=
    ⟨rfl, .inl .here⟩
  have permits : twins.permits () Scopes.global (.stmts program) := absent
  have tasks := Simulation.Tasks.eval scopes permits
  rcases (request program).exists_runs config machine with ⟨inner, runs⟩
  have whole := Request.runs_iff.2 ⟨inner, runs, rfl⟩
  rcases (tasks () machine (machine.defineGlobal name value) trivial
    ⟨rfl, avoidance_sound present functions⟩).runs whole with
    ⟨events, ending, _, again, -, endings⟩
  rw [eval_eq, eval_eq, steps_of_runs whole, steps_of_runs again]
  generalize (request program).answer config machine = first at endings
  cases endings with
  | ok machines results =>
      rcases machines with ⟨rfl, -⟩
      cases results with
      | none => rfl
      | some values =>
          rcases values with ⟨rfl, -⟩
          rfl
  | returned machines values =>
      rcases machines with ⟨rfl, -⟩
      rcases values with ⟨rfl, -⟩
      rfl
  | failed machines =>
      rcases machines with ⟨rfl, -⟩
      rfl

end

/--
A name that is neither in a program nor in a function that can be reached from
the global scope may be bound there, in any machine and to any value.  The
program then gives the very same value or fails for the same reason, it prints
the same, and in all scopes it leaves the same bindings of all other names.  The
functions in the value may use the name.
-/
theorem Evaluation.unused_binding_irrelevant
    (config : Config) (machine : Machine) (program : Program)
    (name : String) (value : Value)
    (absent : name ∉ Stmt.namesList program)
    (functions : machine.scopes.Avoids Scopes.global name) :
    let plain := program.eval config machine
    let extended := program.eval config (machine.defineGlobal name value)
    extended.1 = plain.1 ∧
      extended.2.sink = plain.2.sink ∧
      ∀ scope other, other ≠ name →
        extended.2.scopes.lookup scope other =
          plain.2.scopes.lookup scope other := by
  intro plain extended
  by_cases present : Scopes.global < machine.scopes.size
  · have same : extended = (plain.1, plain.2.defineGlobal name value) :=
      Program.eval_defineGlobal present absent functions config value
    rw [same]
    refine ⟨rfl, rfl, fun scope other differ => ?_⟩
    exact Scopes.lookup_define_of_ne differ _ _ _ _
  · -- Without a global scope there is nowhere to bind the name.
    have nothing : machine.defineGlobal name value = machine := by
      rw [Machine.defineGlobal,
        Scopes.define_of_size_le (Nat.le_of_not_lt present)]
    have same : extended = plain := by
      dsimp only [extended, plain]
      rw [nothing]
    rw [same]
    exact ⟨rfl, rfl, fun _ _ _ => rfl⟩

/--
The program calls a function that prints its argument and looks up a name.  The
unused name is bound to a function that looks it up.
-/
theorem Evaluation.unused_binding_irrelevant_call :
    let body : Block :=
      [.expression (.call (.name "प्रिन्ट") [.name "x"]),
        .expression (.binary .add (.name "x") (.name "y"))]
    let first : Program :=
      [.define "y" (.integer 2), .define "f" (.function ["x"] body)]
    let second : Program :=
      [.define "z" (.call (.name "f") [.integer 40]),
        .expression (.name "z")]
    let machine := (first.eval {} .initial).2
    let value : Value := .function 7 ⟨["n"], [.result (.name "n")], 0⟩
    let extended := second.eval {} (machine.defineGlobal "n" value)
    extended.1 = some (.integer 42) ∧
      extended.2.sink.written = "40\n".toUTF8 ∧
      extended.2.scopes.lookup Scopes.global "z" = some (.integer 42) := by
  intro body first second machine value extended
  have functions : machine.scopes.Avoids Scopes.global "n" := by
    intro scope each binding identity closure reached found member within
    cases scope with
    | zero =>
        have bindings : each.bindings =
            [("f", .function 0 ⟨["x"], body, Scopes.global⟩),
              ("y", .integer 2)] := by
          cases found
          rfl
        rw [bindings] at member
        rcases List.mem_pair.1 member with rfl | rfl
        · cases List.mem_singleton.1 within
          decide +kernel
        · cases List.mem_singleton.1 within
    | succ scope => cases found
  have plain :
      (second.eval {} machine).1 = some (.integer 42) ∧
        (second.eval {} machine).2.sink.written = "40\n".toUTF8 ∧
        (second.eval {} machine).2.scopes.lookup Scopes.global "z" =
          some (.integer 42) := by
    dsimp only [machine, first, second, body]
    refine ⟨?_, ?_, ?_⟩
    · with_unfolding_all rfl
    · decide +kernel
    · with_unfolding_all rfl
  rcases unused_binding_irrelevant {} machine second "n" value
    (by decide +kernel) functions with ⟨result, sink, bindings⟩
  rcases plain with ⟨value, written, bound⟩
  refine ⟨result.trans value, ?_, ?_⟩
  · exact (congrArg Sink.written sink).trans written
  · exact (bindings Scopes.global "z" (by decide)).trans bound

end Bhasha
