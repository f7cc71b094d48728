import Bhasha.Value.Basic

/-!
# Scopes

The scopes of a run are numbered in the order in which they were made.  A
scope has its own bindings and at most one outer scope, which was made before
it.  Scopes are never removed, so a function can name the scope in which it was
made by its number.  The first scope is the global one.
-/

namespace Bhasha

/-- The bindings of a scope, in the order of their names, and its outer scope. -/
structure Scope where
  bindings : Sorted String Value
  outer : Option ScopeId

/-- The scopes of a run. -/
structure Scopes where
  toArray : Array Scope

namespace Scopes

/-- The number of the global scope. -/
def global : ScopeId :=
  0

/-- A global scope without bindings, and no other scope. -/
def initial : Scopes :=
  ⟨#[⟨[], none⟩]⟩

/-- The number of scopes, which is the number of the next scope. -/
def size (scopes : Scopes) : Nat :=
  scopes.toArray.size

/-- The scope of a number. -/
def get? (scopes : Scopes) (scope : ScopeId) : Option Scope :=
  scopes.toArray[scope]?

/-- A new scope with some bindings inside an outer scope. -/
def enclose (scopes : Scopes) (outer : ScopeId)
    (bindings : Sorted String Value) : Scopes :=
  ⟨scopes.toArray.push ⟨bindings, some outer⟩⟩

/-- Bind a name in a scope, in place of the binding that the scope had. -/
def define (scopes : Scopes) (scope : ScopeId) (name : String)
    (value : Value) : Scopes :=
  ⟨scopes.toArray.modify scope fun { bindings, outer } =>
    { bindings := bindings.insert name value, outer }⟩

/-- A scope and the scopes around it, from the inside outward. -/
def chain (scopes : Scopes) (scope : ScopeId) : List Scope :=
  match scopes.get? scope with
  | none => []
  | some inner =>
    inner ::
      match inner.outer with
      | none => []
      | some outer => if outer < scope then chain scopes outer else []
termination_by scope

/-- The value of a name: its binding in the innermost scope that has one. -/
def lookup (scopes : Scopes) (scope : ScopeId) (name : String) :
    Option Value :=
  (scopes.chain scope).findSome? fun each => each.bindings.lookup name

/-- Whether a name is bound in a scope or around it. -/
def isDefined (scopes : Scopes) (scope : ScopeId) (name : String) : Bool :=
  (scopes.chain scope).any fun each => each.bindings.keys.contains name

/-- The names bound in a scope itself, in increasing order. -/
def names (scopes : Scopes) (scope : ScopeId) : List String :=
  ((scopes.get? scope).map fun inner => inner.bindings.keys).getD []

/-- The number of scopes from a scope to the outermost one around it. -/
def depth (scopes : Scopes) (scope : ScopeId) : Nat :=
  (scopes.chain scope).length

end Scopes

end Bhasha
