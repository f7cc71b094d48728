import Bhasha.Proofs.Evaluation.Traversal
import Bhasha.Proofs.Sorted

/-!
# The frame of an evaluation

An evaluation in a scope changes the bindings of this scope and of scopes that
are made on the way, and of no other scope.  In its own scope it only adds and
replaces bindings.  A call changes no scope at all that was there before it: its
definitions go into the new scope of the call.  All this holds for evaluations
that give a value, that return and that fail.
-/

namespace Bhasha

open Step

/-! ## Scopes before and after -/

namespace Scopes

/-- Every scope that was there has the bindings and the outer scope it had. -/
def Keeps (before after : Scopes) : Prop :=
  ∀ (scope : ScopeId) (each : Scope),
    before.get? scope = some each → after.get? scope = some each

/--
Every scope that was there but one has the bindings and the outer scope it had,
and the one has the outer scope and at least the names it had.
-/
structure KeepsAround (scope : ScopeId) (before after : Scopes) : Prop where
  others {other : ScopeId} {each : Scope} :
    other ≠ scope →
    before.get? other = some each → after.get? other = some each
  own {each : Scope} :
    before.get? scope = some each →
    ∃ later, after.get? scope = some later ∧ later.outer = each.outer ∧
      each.bindings.keys ⊆ later.bindings.keys

variable {scope : ScopeId} {first second third : Scopes}

theorem Keeps.around
    (kept : first.Keeps second) :
    first.KeepsAround scope second where
  others _ found := kept _ _ found
  own found := ⟨_, kept _ _ found, rfl, List.Subset.refl _⟩

namespace KeepsAround

theorem refl (scopes : Scopes) : scopes.KeepsAround scope scopes :=
  Keeps.around fun _ _ found => found

theorem trans
    (left : first.KeepsAround scope second)
    (right : second.KeepsAround scope third) :
    first.KeepsAround scope third where
  others other found := right.others other (left.others other found)
  own found := by
    rcases left.own found with ⟨middle, foundMiddle, outer, names⟩
    rcases right.own foundMiddle with ⟨later, foundLater, sameOuter, more⟩
    exact ⟨later, foundLater, sameOuter.trans outer,
      fun _ bound => more (names bound)⟩

/-- Binding a name in a scope changes no other scope. -/
theorem define (scopes : Scopes) (name : String) (value : Value) :
    scopes.KeepsAround scope (scopes.define scope name value) where
  others other found := by
    rw [get?, Scopes.define, Array.getElem?_modify, if_neg other.symm]
    exact found
  own found := by
    rw [get?] at found
    rw [get?, Scopes.define, Array.getElem?_modify, if_pos rfl, found]
    exact ⟨_, rfl, rfl, fun _ bound => Sorted.mem_keys_insert.2 (.inr bound)⟩

end KeepsAround

/-- What changes only the scope of a call keeps all scopes before the call. -/
theorem KeepsAround.enclose
    {scopes after : Scopes} {outer : ScopeId}
    {bindings : Sorted String Value}
    (kept : (scopes.enclose outer bindings).KeepsAround scopes.size after) :
    scopes.Keeps after := by
  intro scope each found
  rw [get?] at found
  rcases Array.getElem?_eq_some_iff.1 found with ⟨inside, -⟩
  have old : scope ≠ scopes.toArray.size := Nat.ne_of_lt inside
  refine kept.others old ?_
  rw [get?, Scopes.enclose, Array.getElem?_push, if_neg old]
  exact found

end Scopes

/-! ## Evaluations -/

namespace Evaluation

/-- The frame of evaluations in a scope. -/
theorem kept_around (scope : ScopeId) :
    Kept scope fun before after =>
      before.scopes.KeepsAround scope after.scopes where
  refl machine := .refl machine.scopes
  trans := .trans
  fresh machine := .refl machine.scopes
  define machine name value := .define machine.scopes name value

/-- The frame of calls, made from the frame of evaluations in a scope. -/
theorem keptByCalls_scopes :
    KeptByCalls
      (fun before after => before.scopes.Keeps after.scopes)
      (fun scope before after =>
        before.scopes.KeepsAround scope after.scopes) where
  refl _ _ _ found := found
  body := kept_around
  weaken _ kept := kept.around
  print _ _ _ _ _ found := found
  call _ _ kept := kept.enclose

/-- Applying a value keeps all scopes, and so it keeps those around any one. -/
theorem applyWithin_keeps
    (limit remaining : Nat) (callee : Value) (arguments : List Value)
    (machine : Machine) :
    machine.scopes.Keeps
      (final (applyWithin limit remaining callee arguments) machine).scopes :=
  keptByCalls_scopes.applyWithin limit remaining callee arguments machine

/--
A statement and an expression change no other scope than their own, in which no
name becomes unbound; an application changes no scope.  This holds whether they
give a value, return or fail, and however many calls may still nest.
-/
theorem scopes_frame
    (limit remaining : Nat) (scope : ScopeId) (machine : Machine) :
    (∀ statement : Stmt,
      machine.scopes.KeepsAround scope
        (final (stmt (applyWithin limit remaining) scope statement)
          machine).scopes) ∧
    (∀ tree : Expr,
      machine.scopes.KeepsAround scope
        (final (expr (applyWithin limit remaining) scope tree)
          machine).scopes) ∧
    (∀ (callee : Value) (arguments : List Value),
      machine.scopes.Keeps
        (final (applyWithin limit remaining callee arguments)
          machine).scopes) ∧
    ∀ (config : Config) (callee : Value) (arguments : List Value),
      machine.scopes.Keeps
        (final (config.apply callee arguments) machine).scopes := by
  have applies :
      ∀ callee arguments,
        Within
          (fun before after => before.scopes.KeepsAround scope after.scopes)
          (applyWithin limit remaining callee arguments) := by
    intro callee arguments before
    have kept := applyWithin_keeps limit remaining callee arguments before
    exact kept.around
  refine ⟨?_, ?_, ?_, ?_⟩
  · intro statement
    exact (kept_around scope).stmt applies statement machine
  · intro tree
    exact (kept_around scope).expr applies tree machine
  · intro callee arguments
    exact applyWithin_keeps limit remaining callee arguments machine
  · intro config callee arguments
    exact applyWithin_keeps config.maxDepth (config.maxDepth - machine.depth)
      callee arguments machine

end Evaluation

end Bhasha
