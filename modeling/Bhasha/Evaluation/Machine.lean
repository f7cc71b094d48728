import Bhasha.Scope
import Bhasha.Sink

/-!
# The state of a run

A machine holds the scopes, the next free identity, the number of calls that
are under way, and the sink of the print builtins.  A step of a run gives a
value, or it unwinds: with the value that a function returns, or with the
failure that stops the program.
-/

namespace Bhasha

/-- How deeply calls of functions may nest. -/
structure Config where
  maxDepth : Nat := 2000
deriving DecidableEq

/-- The state of a run. -/
structure Machine where
  scopes : Scopes
  supply : Identity
  depth : Nat
  sink : Sink

/-- Why a step has no value. -/
inductive Unwind where
  | returned (value : Value)
  | failed (failure : Failure)

/-- A step of a run. -/
abbrev EvalM := EStateM Unwind Machine

namespace Machine

/-- A machine before its first program. -/
def initial : Machine :=
  ⟨.initial, 0, 0, .unbounded⟩

/-- Bind a name in the global scope. -/
def defineGlobal (machine : Machine) (name : String) (value : Value) :
    Machine :=
  { machine with
    scopes := machine.scopes.define Scopes.global name value }

/-- The names bound in the global scope. -/
def globalNames (machine : Machine) : List String :=
  machine.scopes.names Scopes.global

/-- The bytes printed so far, and the machine with another sink. -/
def takeOutput (machine : Machine) (sink : Sink) : ByteArray × Machine :=
  (machine.sink.written, { machine with sink })

end Machine

namespace EvalM

/-- Stop the program. -/
def fail {α : Type} (failure : Failure) : EvalM α :=
  throw (.failed failure)

/-- A value or a failure as a step. -/
def ofExcept {α : Type} : Except Failure α → EvalM α
  | .ok value => pure value
  | .error failure => fail failure

/-- An identity that no value has yet. -/
def fresh : EvalM Identity :=
  modifyGet fun machine =>
    (machine.supply, { machine with supply := machine.supply + 1 })

/-- Bind a name in a scope. -/
def define (scope : ScopeId) (name : String) (value : Value) : EvalM Unit :=
  modify fun machine =>
    { machine with scopes := machine.scopes.define scope name value }

/-- Make a scope inside another one. -/
def enclose (outer : ScopeId) (bindings : Sorted String Value) :
    EvalM ScopeId :=
  modifyGet fun machine =>
    (machine.scopes.size,
      { machine with scopes := machine.scopes.enclose outer bindings })

/-- Run the body of a function: one call deeper, and up to its return. -/
def withinCall (body : EvalM (Option Value)) : EvalM Value := fun machine =>
  match body { machine with depth := machine.depth + 1 } with
  | .ok value after =>
    .ok (value.getD .null) { after with depth := after.depth - 1 }
  | .error (.returned value) after =>
    .ok value { after with depth := after.depth - 1 }
  | .error (.failed failure) after =>
    .error (.failed failure) { after with depth := after.depth - 1 }

end EvalM

end Bhasha
