import Bhasha.Builtin.Call
import Bhasha.Evaluation.Machine
import Bhasha.Evaluation.Operator

/-!
# Evaluation

Statements and expressions are evaluated by recursion on the tree, with the
application of functions as a parameter.  Application in turn recurses on the
number of calls that may still nest.  So every evaluation ends: a called body
may be larger than the call, but it has fewer calls left to make.
-/

namespace Bhasha

/-- How a value is applied to arguments. -/
abbrev Application := Value → List Value → EvalM Value

/-! ## Trees -/

namespace Evaluation

/-- The value of a name: a binding, or else a builtin. -/
def name (scope : ScopeId) (name : String) : EvalM Value := do
  match (← get).scopes.lookup scope name with
  | some value => pure value
  | none =>
    match Builtin.ofName? name with
    | some builtin => pure (.builtin builtin)
    | none => EvalM.fail (.identifierNotFound name)

mutual

/-- Evaluate an expression in a scope. -/
def expr (apply : Application) (scope : ScopeId) : Expr → EvalM Value
  | .name identifier => name scope identifier
  | .integer value => pure (.integer value)
  | .string text => pure (.string text)
  | .boolean value => pure (.boolean value)
  | .array items => do
    let items ← exprs apply scope items
    return .array (← EvalM.fresh) items
  | .hash pairs => do
    let entries ← entries apply scope [] pairs
    return .hash (← EvalM.fresh) entries
  | .unary operator operand => do
    let operand ← expr apply scope operand
    EvalM.ofExcept (operator.apply operand)
  | .binary operator left right => do
    let left ← expr apply scope left
    let right ← expr apply scope right
    EvalM.ofExcept (operator.apply left right)
  | .conditional condition consequence alternative => do
    let condition ← expr apply scope condition
    if condition.isTruthy then
      return (← stmts apply scope none consequence).getD .null
    else
      branch apply scope alternative
  | .function parameters body =>
    return .function (← EvalM.fresh) ⟨parameters, body, scope⟩
  | .call callee arguments => do
    let callee ← expr apply scope callee
    let arguments ← exprs apply scope arguments
    apply callee arguments
  | .index collection position => do
    let collection ← expr apply scope collection
    let position ← expr apply scope position
    EvalM.ofExcept (collection.index position)

/-- Evaluate expressions from left to right. -/
def exprs (apply : Application) (scope : ScopeId) :
    List Expr → EvalM (List Value)
  | [] => pure []
  | first :: rest => do
    let value ← expr apply scope first
    let values ← exprs apply scope rest
    return value :: values

/-- Evaluate keys and values in order, adding to the entries so far. -/
def entries (apply : Application) (scope : ScopeId) (done : Entries) :
    List (Expr × Expr) → EvalM Entries
  | [] => pure done
  | (key, value) :: rest => do
    let key ← expr apply scope key
    let value ← expr apply scope value
    let done ← EvalM.ofExcept (done.insert key value)
    entries apply scope done rest

/-- Evaluate the second branch of a conditional, if there is one. -/
def branch (apply : Application) (scope : ScopeId) :
    Option (List Stmt) → EvalM Value
  | none => pure .null
  | some body => do
    return (← stmts apply scope none body).getD .null

/-- Evaluate a statement; a definition has no value. -/
def stmt (apply : Application) (scope : ScopeId) :
    Stmt → EvalM (Option Value)
  | .define name value => do
    let value ← expr apply scope value
    EvalM.define scope name value
    return none
  | .result value => do
    let value ← expr apply scope value
    throw (.returned value)
  | .expression value => do
    return some (← expr apply scope value)
  | .block body => stmts apply scope none body

/-- Evaluate statements in order; the last one gives the value. -/
def stmts (apply : Application) (scope : ScopeId) (last : Option Value) :
    List Stmt → EvalM (Option Value)
  | [] => pure last
  | first :: rest => do
    let value ← stmt apply scope first
    stmts apply scope value rest

end

end Evaluation

/-! ## Calls -/

/-- The bindings of parameters to arguments; of equal names the last counts. -/
def Closure.bind (closure : Closure) (arguments : List Value) :
    Sorted String Value :=
  (closure.parameters.zip arguments).foldl
    (fun bindings (name, value) => bindings.insert name value) []

/-- Call a builtin with the sink of the machine. -/
def Builtin.run (builtin : Builtin) (arguments : List Value) :
    EvalM Value := do
  let result ← modifyGet fun machine =>
    let (result, sink) := builtin.call arguments machine.sink
    (result, { machine with sink })
  EvalM.ofExcept result

/-- Apply a value to arguments while some more calls may nest. -/
def applyWithin (limit : Nat) : Nat → Application
  | remaining, .function _ closure, arguments =>
    if arguments.length ≠ closure.parameters.length then
      EvalM.fail
        (.wrongArgumentCount arguments.length closure.parameters.length)
    else
      match remaining with
      | 0 => EvalM.fail (.stackExhausted limit)
      | remaining + 1 => do
        let scope ← EvalM.enclose closure.scope (closure.bind arguments)
        EvalM.withinCall
          (Evaluation.stmts (applyWithin limit remaining) scope none
            closure.body)
  | _, .builtin builtin, arguments => builtin.run arguments
  | _, callee, _ => EvalM.fail (.notAFunction callee.kind)

/-- Apply a value to arguments in a machine. -/
def Config.apply (config : Config) : Application := fun callee arguments => do
  let depth := (← get).depth
  applyWithin config.maxDepth (config.maxDepth - depth) callee arguments

/-! ## Programs -/

/-- Evaluate the statements of a program in a scope. -/
def Program.steps (config : Config) (program : Program) (scope : ScopeId) :
    EvalM (Option Value) := do
  let depth := (← get).depth
  Evaluation.stmts (applyWithin config.maxDepth (config.maxDepth - depth))
    scope none program

/--
Evaluate a program in the global scope: the value of its last statement or of
a return outside of functions, or the failure that stopped it as an error
value.  There is no value if the last statement has none.
-/
def Program.eval (config : Config) (program : Program) (machine : Machine) :
    Option Value × Machine :=
  match program.steps config Scopes.global machine with
  | .ok value after => (value, after)
  | .error (.returned value) after => (some value, after)
  | .error (.failed failure) after => (some (.error failure), after)

/-- Evaluate a program with the default limit; no value counts as null. -/
def Program.evaluate (program : Program) (machine : Machine) :
    Value × Machine :=
  let (value, after) := program.eval {} machine
  (value.getD .null, after)

end Bhasha
