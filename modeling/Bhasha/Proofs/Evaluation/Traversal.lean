import Bhasha.Evaluation.Basic
import Bhasha.Proofs.Step

/-!
# Relations along an evaluation

An evaluation in a scope is put together from few steps: it looks up names,
gives out identities, binds names in its own scope, applies functions, and goes
on or stops.  A relation between steps that respects these holds between two
evaluations of the same tree that differ only in how functions are applied.

What every evaluation order is the special case in which both sides are the
same.
-/

namespace Bhasha

open Step

/-! ## Relations between steps -/

/-- A relation between steps of which evaluations in a scope can be made. -/
structure Evaluation.Respects (scope : ScopeId)
    (relation : ∀ {α : Type}, EvalM α → EvalM α → Prop) : Prop where
  pure {α : Type} (value : α) : relation (pure value) (pure value)
  throw {α : Type} (reason : Unwind) :
    relation (throw reason : EvalM α) (throw reason)
  bind {α β : Type} {first second : EvalM α} {next other : α → EvalM β} :
    relation first second →
    (∀ value, relation (next value) (other value)) →
    relation (first >>= next) (second >>= other)
  name (name : String) :
    relation (Evaluation.name scope name) (Evaluation.name scope name)
  fresh : relation EvalM.fresh EvalM.fresh
  define (name : String) (value : Value) :
    relation (EvalM.define scope name value) (EvalM.define scope name value)

namespace Evaluation

variable {scope : ScopeId}
variable {relation : ∀ {α : Type}, EvalM α → EvalM α → Prop}
variable {apply other : Application}

theorem Respects.ofExcept
    {α : Type}
    (respects : Respects scope relation)
    (outcome : Except Failure α) :
    relation (EvalM.ofExcept outcome) (EvalM.ofExcept outcome) := by
  cases outcome with
  | ok value => exact respects.pure value
  | error failure => exact respects.throw (.failed failure)

mutual

theorem expr_related
    (respects : Respects scope relation)
    (applies : ∀ callee arguments,
      relation (apply callee arguments) (other callee arguments)) :
    ∀ tree : Expr, relation (expr apply scope tree) (expr other scope tree)
  | .name name => by
    rw [expr, expr]
    exact respects.name name
  | .integer value => by
    rw [expr, expr]
    exact respects.pure _
  | .string text => by
    rw [expr, expr]
    exact respects.pure _
  | .boolean value => by
    rw [expr, expr]
    exact respects.pure _
  | .array items => by
    rw [expr, expr]
    refine respects.bind (exprs_related respects applies items) fun values => ?_
    exact respects.bind respects.fresh fun identity => respects.pure _
  | .hash pairs => by
    rw [expr, expr]
    refine respects.bind (entries_related respects applies [] pairs)
      fun found => ?_
    exact respects.bind respects.fresh fun identity => respects.pure _
  | .unary operator operand => by
    rw [expr, expr]
    refine respects.bind (expr_related respects applies operand)
      fun value => ?_
    exact respects.ofExcept _
  | .binary operator left right => by
    rw [expr, expr]
    refine respects.bind (expr_related respects applies left) fun first => ?_
    refine respects.bind (expr_related respects applies right)
      fun second => ?_
    exact respects.ofExcept _
  | .conditional condition consequence alternative => by
    rw [expr, expr]
    refine respects.bind (expr_related respects applies condition)
      fun value => ?_
    split
    · exact respects.bind (stmts_related respects applies none consequence)
        fun result => respects.pure _
    · exact branch_related respects applies alternative
  | .function parameters body => by
    rw [expr, expr]
    exact respects.bind respects.fresh fun identity => respects.pure _
  | .call callee arguments => by
    rw [expr, expr]
    refine respects.bind (expr_related respects applies callee)
      fun function => ?_
    refine respects.bind (exprs_related respects applies arguments)
      fun values => ?_
    exact applies function values
  | .index collection position => by
    rw [expr, expr]
    refine respects.bind (expr_related respects applies collection)
      fun first => ?_
    refine respects.bind (expr_related respects applies position)
      fun second => ?_
    exact respects.ofExcept _

theorem exprs_related
    (respects : Respects scope relation)
    (applies : ∀ callee arguments,
      relation (apply callee arguments) (other callee arguments)) :
    ∀ trees : List Expr,
      relation (exprs apply scope trees) (exprs other scope trees)
  | [] => by
    rw [exprs, exprs]
    exact respects.pure _
  | first :: rest => by
    rw [exprs, exprs]
    refine respects.bind (expr_related respects applies first) fun value => ?_
    exact respects.bind (exprs_related respects applies rest)
      fun values => respects.pure _

theorem entries_related
    (respects : Respects scope relation)
    (applies : ∀ callee arguments,
      relation (apply callee arguments) (other callee arguments))
    (done : Entries) :
    ∀ pairs : List (Expr × Expr),
      relation (entries apply scope done pairs)
        (entries other scope done pairs)
  | [] => by
    rw [entries, entries]
    exact respects.pure _
  | (key, value) :: rest => by
    rw [entries, entries]
    refine respects.bind (expr_related respects applies key) fun first => ?_
    refine respects.bind (expr_related respects applies value)
      fun second => ?_
    refine respects.bind (respects.ofExcept _) fun larger => ?_
    exact entries_related respects applies larger rest

theorem branch_related
    (respects : Respects scope relation)
    (applies : ∀ callee arguments,
      relation (apply callee arguments) (other callee arguments)) :
    ∀ alternative : Option (List Stmt),
      relation (branch apply scope alternative)
        (branch other scope alternative)
  | none => by
    rw [branch, branch]
    exact respects.pure _
  | some body => by
    rw [branch, branch]
    exact respects.bind (stmts_related respects applies none body)
      fun result => respects.pure _

theorem stmt_related
    (respects : Respects scope relation)
    (applies : ∀ callee arguments,
      relation (apply callee arguments) (other callee arguments)) :
    ∀ statement : Stmt,
      relation (stmt apply scope statement) (stmt other scope statement)
  | .define name value => by
    rw [stmt, stmt]
    refine respects.bind (expr_related respects applies value)
      fun result => ?_
    exact respects.bind (respects.define name result)
      fun _ => respects.pure _
  | .result value => by
    rw [stmt, stmt]
    exact respects.bind (expr_related respects applies value)
      fun result => respects.throw _
  | .expression value => by
    rw [stmt, stmt]
    exact respects.bind (expr_related respects applies value)
      fun result => respects.pure _
  | .block body => by
    rw [stmt, stmt]
    exact stmts_related respects applies none body

theorem stmts_related
    (respects : Respects scope relation)
    (applies : ∀ callee arguments,
      relation (apply callee arguments) (other callee arguments))
    (last : Option Value) :
    ∀ statements : List Stmt,
      relation (stmts apply scope last statements)
        (stmts other scope last statements)
  | [] => by
    rw [stmts, stmts]
    exact respects.pure _
  | first :: rest => by
    rw [stmts, stmts]
    refine respects.bind (stmt_related respects applies first)
      fun value => ?_
    exact stmts_related respects applies value rest

end

/-! ## Relations between machines -/

/--
A preorder of machines that is kept by what an evaluation itself does in a
scope.
-/
structure Kept (scope : ScopeId)
    (order : Machine → Machine → Prop) : Prop where
  refl (machine : Machine) : order machine machine
  trans {first second third : Machine} :
    order first second → order second third → order first third
  fresh (machine : Machine) :
    order machine { machine with supply := machine.supply + 1 }
  define (machine : Machine) (name : String) (value : Value) :
    order machine
      { machine with scopes := machine.scopes.define scope name value }

/-- A name gives what it is bound to, or else a builtin, or it fails. -/
theorem name_eq (scope : ScopeId) (identifier : String)
    (machine : Machine) :
    name scope identifier machine =
      ((machine.scopes.lookup scope identifier).or
          ((Builtin.ofName? identifier).map Value.builtin)).elim
        (.error (.failed (.identifierNotFound identifier)) machine)
        fun value => .ok value machine := by
  rw [name]
  dsimp only [get, getThe, MonadStateOf.get, Bind.bind, EStateM.bind,
    EStateM.get]
  cases machine.scopes.lookup scope identifier with
  | some value => rfl
  | none =>
      cases Builtin.ofName? identifier with
      | some builtin => rfl
      | none => rfl

/-- Looking up a name changes nothing. -/
theorem final_name (scope : ScopeId) (identifier : String)
    (machine : Machine) :
    final (name scope identifier) machine = machine := by
  rw [final, name_eq]
  cases (machine.scopes.lookup scope identifier).or
    ((Builtin.ofName? identifier).map Value.builtin) with
  | some value => rfl
  | none => rfl

theorem Kept.respects
    {order : Machine → Machine → Prop}
    (kept : Kept scope order) :
    Respects scope fun step _ => Within order step where
  pure _ := kept.refl
  throw _ := kept.refl
  bind first second := first.bind kept.trans second
  name identifier := by
    intro machine
    rw [final_name]
    exact kept.refl machine
  fresh := kept.fresh
  define name value machine := kept.define machine name value

section

variable {order : Machine → Machine → Prop}
variable (kept : Kept scope order)
variable (applies : ∀ callee arguments, Within order (apply callee arguments))
include kept applies

theorem Kept.expr (tree : Expr) : Within order (expr apply scope tree) :=
  @expr_related scope _ apply apply kept.respects applies tree

theorem Kept.stmt (statement : Stmt) :
    Within order (stmt apply scope statement) :=
  @stmt_related scope _ apply apply kept.respects applies statement

theorem Kept.stmts (last : Option Value) (statements : List Stmt) :
    Within order (stmts apply scope last statements) :=
  @stmts_related scope _ apply apply kept.respects applies last statements

end

end Evaluation

/-! ## Calls -/

/-- The machine in which the body of a called function starts. -/
def Machine.entered (machine : Machine) (closure : Closure)
    (arguments : List Value) : Machine :=
  { machine with
    scopes := machine.scopes.enclose closure.scope (closure.bind arguments)
    depth := machine.depth + 1 }

/-- The machine after the body of a called function. -/
def Machine.left (machine : Machine) : Machine :=
  { machine with depth := machine.depth - 1 }

theorem EvalM.final_withinCall
    (body : EvalM (Option Value)) (machine : Machine) :
    final (EvalM.withinCall body) machine =
      (final body { machine with depth := machine.depth + 1 }).left := by
  rw [final, final, EvalM.withinCall]
  cases body { machine with depth := machine.depth + 1 } with
  | ok value after => rfl
  | error reason after => cases reason <;> rfl

/-- A called function runs its body in a new scope. -/
theorem applyWithin_function
    {limit remaining : Nat} {identity : Identity} {closure : Closure}
    {arguments : List Value}
    (fits : arguments.length = closure.parameters.length)
    (machine : Machine) :
    applyWithin limit (remaining + 1) (.function identity closure) arguments
        machine =
      EvalM.withinCall
        (Evaluation.stmts (applyWithin limit remaining) machine.scopes.size
          none closure.body)
        { machine with
          scopes :=
            machine.scopes.enclose closure.scope (closure.bind arguments) } := by
  rw [applyWithin, if_neg (not_not_intro fits)]
  rfl

/-- A function that does not fit its arguments fails before it is called. -/
theorem applyWithin_mismatch
    {limit remaining : Nat} {identity : Identity} {closure : Closure}
    {arguments : List Value}
    (differs : arguments.length ≠ closure.parameters.length) :
    applyWithin limit remaining (.function identity closure) arguments =
      EvalM.fail
        (.wrongArgumentCount arguments.length closure.parameters.length) := by
  cases remaining with
  | zero => rw [applyWithin, if_pos differs]
  | succ remaining => rw [applyWithin, if_pos differs]

/-- A builtin changes the sink, and its outcome is a value or a failure. -/
theorem Builtin.run_eq (builtin : Builtin) (arguments : List Value)
    (machine : Machine) :
    builtin.run arguments machine =
      (EvalM.ofExcept (builtin.call arguments machine.sink).1)
        { machine with sink := (builtin.call arguments machine.sink).2 } :=
  rfl

/--
Two relations between machines, of which the second is about a scope.  A
function whose body keeps the second one in its new scope keeps the first one
as it is called.
-/
structure Evaluation.KeptByCalls (order : Machine → Machine → Prop)
    (inside : ScopeId → Machine → Machine → Prop) : Prop where
  refl (machine : Machine) : order machine machine
  body (scope : ScopeId) : Evaluation.Kept scope (inside scope)
  weaken {before after : Machine} (scope : ScopeId) :
    order before after → inside scope before after
  print (machine : Machine) (builtin : Builtin) (arguments : List Value) :
    order machine
      { machine with sink := (builtin.call arguments machine.sink).2 }
  call {machine after : Machine} (closure : Closure)
    (arguments : List Value) :
    inside machine.scopes.size (machine.entered closure arguments) after →
    order machine after.left

namespace Evaluation

variable {order : Machine → Machine → Prop}
variable {inside : ScopeId → Machine → Machine → Prop}

theorem KeptByCalls.run
    (kept : KeptByCalls order inside)
    (builtin : Builtin) (arguments : List Value) :
    Within order (builtin.run arguments) := by
  intro machine
  rw [final, Builtin.run_eq]
  cases (builtin.call arguments machine.sink).1 with
  | ok value => exact kept.print machine builtin arguments
  | error failure => exact kept.print machine builtin arguments

/-- Applying a value keeps the relation, however many calls may nest. -/
theorem KeptByCalls.applyWithin
    (kept : KeptByCalls order inside)
    (limit : Nat) :
    ∀ (remaining : Nat) (callee : Value) (arguments : List Value),
      Within order (applyWithin limit remaining callee arguments) := by
  intro remaining
  induction remaining with
  | zero =>
      intro callee arguments machine
      cases callee with
      | function identity closure =>
          rw [Bhasha.applyWithin]
          split
          · exact kept.refl machine
          · exact kept.refl machine
      | builtin builtin => exact kept.run builtin arguments machine
      | _ => exact kept.refl machine
  | succ remaining induction =>
      intro callee arguments machine
      cases callee with
      | function identity closure =>
          by_cases fits : arguments.length = closure.parameters.length
          · have applies :
                ∀ callee arguments, Within (inside machine.scopes.size)
                  (Bhasha.applyWithin limit remaining callee arguments) :=
              fun callee arguments machine =>
                kept.weaken _ (induction callee arguments machine)
            have body :=
              (kept.body machine.scopes.size).stmts applies none closure.body
                (machine.entered closure arguments)
            rw [final, applyWithin_function fits, ← final,
              EvalM.final_withinCall]
            exact kept.call closure arguments body
          · rw [applyWithin_mismatch fits]
            exact kept.refl machine
      | builtin builtin => exact kept.run builtin arguments machine
      | _ => exact kept.refl machine

end Evaluation

end Bhasha
