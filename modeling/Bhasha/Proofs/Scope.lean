import Bhasha.Proofs.Sorted
import Bhasha.Scope
import Mathlib.Logic.Basic
import Mathlib.Tactic.SplitIfs

/-!
# Scopes and their history

Scopes are made one inside another, and names are defined in them, in any order
and any number of times.  The path of a scope leads from it outward: a new scope
is put in front of the path of its outer scope, and no path changes later.

What a name stands for in a scope is told by the history alone.  The first scope
on the path in which the name was ever defined counts, and there the latest
definition.  So a definition is seen from a scope exactly if the path of that
scope comes to it before it comes to another scope that defines the name.
-/

namespace Bhasha

/-! ## Single operations -/

namespace Scopes

theorem get?_define (scopes : Scopes) (scope other : ScopeId)
    (name : String) (value : Value) :
    (scopes.define scope name value).get? other =
      if scope = other then
        (scopes.get? other).map fun each =>
          ⟨each.bindings.insert name value, each.outer⟩
      else
        scopes.get? other := by
  rw [get?, define, Array.getElem?_modify]
  rfl

theorem get?_enclose (scopes : Scopes) (outer scope : ScopeId)
    (bindings : Sorted String Value) :
    (scopes.enclose outer bindings).get? scope =
      if scope = scopes.size then some ⟨bindings, some outer⟩
      else scopes.get? scope := by
  rw [get?, enclose, Array.getElem?_push]
  rfl

theorem lt_size_of_get?
    {scopes : Scopes} {scope : ScopeId} {each : Scope}
    (found : scopes.get? scope = some each) :
    scope < scopes.size :=
  (Array.getElem?_eq_some_iff.1 found).1

theorem size_define (scopes : Scopes) (scope : ScopeId) (name : String)
    (value : Value) :
    (scopes.define scope name value).size = scopes.size :=
  Array.size_modify

theorem size_enclose (scopes : Scopes) (outer : ScopeId)
    (bindings : Sorted String Value) :
    (scopes.enclose outer bindings).size = scopes.size + 1 :=
  Array.size_push _

/-- Scopes are told by what each number stands for. -/
theorem ext_get?
    {scopes others : Scopes}
    (same : ∀ scope, scopes.get? scope = others.get? scope) :
    scopes = others := by
  rcases scopes with ⟨array⟩
  rcases others with ⟨other⟩
  exact congrArg mk (Array.ext_getElem? same)

/-- A scope that is not there gets no bindings. -/
theorem define_of_size_le
    {scopes : Scopes} {scope : ScopeId}
    (outside : scopes.size ≤ scope) (name : String) (value : Value) :
    scopes.define scope name value = scopes := by
  refine ext_get? fun other => ?_
  rw [get?_define]
  split_ifs with same
  · have absent : scopes.get? other = none :=
      Array.getElem?_eq_none_iff.2 (same ▸ outside)
    rw [absent, Option.map_none]
  · rfl

/-- It does not matter which of two different names is bound first. -/
theorem define_comm
    {name other : String}
    (differ : name ≠ other) (scopes : Scopes) (first second : ScopeId)
    (value same : Value) :
    (scopes.define first name value).define second other same =
      (scopes.define second other same).define first name value := by
  refine ext_get? fun scope => ?_
  simp only [get?_define]
  by_cases here : first = scope
  · by_cases there : second = scope
    · simp only [if_pos here, if_pos there, Option.map_map]
      refine congrArg (Option.map · _) (funext fun each => ?_)
      exact congrArg (Scope.mk · each.outer)
        (Sorted.insert_comm differ.symm same value each.bindings)
    · simp only [if_neg there]
  · simp only [if_neg here]

/-- A new scope can be made before or after a name is bound. -/
theorem enclose_define
    {scopes : Scopes} {scope : ScopeId}
    (present : scope < scopes.size) (name : String) (value : Value)
    (outer : ScopeId) (bindings : Sorted String Value) :
    (scopes.define scope name value).enclose outer bindings =
      (scopes.enclose outer bindings).define scope name value := by
  refine ext_get? fun other => ?_
  simp only [get?_define, get?_enclose, size_define]
  by_cases new : other = scopes.size
  · have differs : scope ≠ other := new ▸ Nat.ne_of_lt present
    simp only [if_pos new, if_neg differs]
  · simp only [if_neg new]

/-- A definition changes no other binding of its scope, and no outer scope. -/
theorem get?_define_of_ne
    {name other : String} {scopes : Scopes} {scope : ScopeId} {each : Scope}
    (differ : other ≠ name) (target : ScopeId) (value : Value)
    (found : scopes.get? scope = some each) :
    ∃ bindings,
      (scopes.define target name value).get? scope =
          some ⟨bindings, each.outer⟩ ∧
        bindings.lookup other = each.bindings.lookup other := by
  rw [get?_define, found]
  by_cases here : target = scope
  · rw [if_pos here]
    refine ⟨_, rfl, ?_⟩
    rw [Sorted.lookup_insert, List.lookup_cons, List.lookup_nil,
      beq_eq_false_iff_ne.2 differ]
    rfl
  · rw [if_neg here]
    exact ⟨each.bindings, rfl, rfl⟩

/-- A definition is not seen by other names. -/
theorem lookup_define_of_ne
    {name other : String}
    (differ : other ≠ name) (scopes : Scopes) (target scope : ScopeId)
    (value : Value) :
    (scopes.define target name value).lookup scope other =
      scopes.lookup scope other := by
  induction scope using Nat.strongRecOn with
  | _ scope induction =>
      simp only [lookup] at induction ⊢
      rw [chain, chain]
      cases found : scopes.get? scope with
      | none => simp only [get?_define, found, Option.map_none, ite_self]
      | some each =>
          rcases get?_define_of_ne differ target value found with
            ⟨bindings, later, same⟩
          rw [later]
          simp only [List.findSome?_cons, same]
          cases each.bindings.lookup other with
          | some value => rfl
          | none =>
              cases each.outer with
              | none => rfl
              | some outer =>
                  dsimp only
                  split_ifs with before
                  · exact induction outer before
                  · rfl

/-- A name is defined around a scope exactly if looking it up finds a value. -/
theorem isDefined_iff (scopes : Scopes) (scope : ScopeId) (name : String) :
    scopes.isDefined scope name = true ↔
      ∃ value, scopes.lookup scope name = some value := by
  rw [← Option.isSome_iff_exists, lookup, List.isSome_findSome?, isDefined,
    List.any_eq_true, List.any_eq_true]
  refine exists_congr fun each => and_congr_right fun _ => ?_
  rw [List.contains_iff_mem, ← Option.ne_none_iff_isSome, Ne,
    Sorted.lookup_eq_none_iff, not_not]

end Scopes

/-! ## Histories -/

/--
Operations on scopes, one after another, on an empty global scope.  The index is
the number of scopes, and each operation is about one of those that are there.
-/
inductive Scopes.History : Nat → Type where
  | start : History 1
  | enclose {count : Nat} (earlier : History count) (outer : Fin count) :
      History (count + 1)
  | define {count : Nat} (earlier : History count) (scope : Fin count)
      (name : String) (value : Value) :
      History count

namespace Scopes.History

/-- The scopes after all operations. -/
def scopes : {count : Nat} → History count → Scopes
  | _, .start => .initial
  | _, .enclose earlier outer => earlier.scopes.enclose outer []
  | _, .define earlier scope name value =>
    earlier.scopes.define scope name value

/-- A scope and the scopes around it, from the inside outward. -/
def path : {count : Nat} → History count → ScopeId → List ScopeId
  | _, .start, scope => [scope]
  | _, @enclose count earlier outer, scope =>
    if scope = count then scope :: earlier.path outer else earlier.path scope
  | _, .define earlier _ _ _, scope => earlier.path scope

/-- The value of the latest definition of a name in a scope itself. -/
def latest? : {count : Nat} → History count → ScopeId → String → Option Value
  | _, .start, _, _ => none
  | _, .enclose earlier _, scope, name => earlier.latest? scope name
  | _, .define earlier target defined value, scope, name =>
    if target = scope ∧ defined = name then
      some value
    else
      earlier.latest? scope name

/-- A name was defined in a scope itself, at any time. -/
def Defines : {count : Nat} → History count → ScopeId → String → Prop
  | _, .start, _, _ => False
  | _, .enclose earlier _, scope, name => earlier.Defines scope name
  | _, .define earlier target defined _, scope, name =>
    target = scope ∧ defined = name ∨ earlier.Defines scope name

/-- A path comes to a scope before it comes to one that defines the name. -/
def Reaches {count : Nat} (history : History count) (scope found : ScopeId)
    (name : String) : Prop :=
  ∃ inner outer, history.path scope = inner ++ found :: outer ∧
    ∀ each ∈ inner, ¬ history.Defines each name

variable {count : Nat} {history : History count} {scope : ScopeId}

theorem latest?_eq_none_iff {name : String} :
    history.latest? scope name = none ↔ ¬ history.Defines scope name := by
  induction history with
  | start => exact iff_of_true rfl id
  | enclose earlier outer induction => exact induction
  | define earlier target defined value induction =>
      rw [latest?, Defines]
      split
      · next here => exact iff_of_false nofun (not_not_intro (.inl here))
      · next elsewhere => rw [induction, or_iff_right elsewhere]

theorem lt_of_defines
    {name : String}
    (defines : history.Defines scope name) :
    scope < count := by
  induction history with
  | start => exact defines.elim
  | enclose earlier outer induction => exact Nat.lt_succ_of_lt (induction defines)
  | define earlier target defined value induction =>
      rcases defines with ⟨rfl, -⟩ | before
      · exact target.isLt
      · exact induction before

theorem path_enclose
    (present : scope < count) (outer : Fin count) :
    (history.enclose outer).path scope = history.path scope :=
  if_neg (Nat.ne_of_lt present)

theorem size_scopes (history : History count) :
    history.scopes.size = count := by
  induction history with
  | start => rfl
  | enclose earlier outer induction =>
      rw [scopes, size_enclose, induction]
  | define earlier target name value induction =>
      rw [scopes, size_define, induction]

/-! ## Scopes as the history tells them -/

/-- The bindings of a scope and its outer scope agree with the history. -/
structure Describes (history : History count) (scope : ScopeId)
    (each : Scope) : Prop where
  before {outer : ScopeId} : each.outer = some outer → outer < scope
  path_eq : history.path scope = scope :: each.outer.elim [] history.path
  lookup_eq (name : String) :
    each.bindings.lookup name = history.latest? scope name
  increasing : each.bindings.Increasing

theorem Describes.enclose
    {each : Scope}
    (describes : history.Describes scope each)
    (present : scope < count) (outer : Fin count) :
    (history.enclose outer).Describes scope each where
  before := describes.before
  path_eq := by
    rw [path_enclose present, describes.path_eq]
    cases outward : each.outer with
    | none => rfl
    | some around =>
        have inside := Nat.lt_trans (describes.before outward) present
        rw [Option.elim_some, Option.elim_some, path_enclose inside]
  lookup_eq := describes.lookup_eq
  increasing := describes.increasing

/-- A new scope has no bindings, and nothing was defined in it. -/
theorem describes_new (history : History count) (outer : Fin count) :
    (history.enclose outer).Describes count ⟨[], some outer⟩ where
  before outward := by
    cases outward
    exact outer.isLt
  path_eq := by
    rw [Option.elim_some, path_enclose outer.isLt]
    exact if_pos rfl
  lookup_eq name := by
    refine (latest?_eq_none_iff.2 fun defines => ?_).symm
    have earlier : history.Defines count name := defines
    exact Nat.lt_irrefl count (lt_of_defines earlier)
  increasing := .nil

theorem Describes.define
    {each : Scope}
    (describes : history.Describes scope each)
    {target : Fin count}
    (here : target = scope) (name : String) (value : Value) :
    (history.define target name value).Describes scope
      ⟨each.bindings.insert name value, each.outer⟩ where
  before := describes.before
  path_eq := describes.path_eq
  lookup_eq other := by
    rw [Sorted.lookup_insert, describes.lookup_eq, latest?, List.lookup_cons,
      List.lookup_nil]
    by_cases same : other = name
    · rw [if_pos ⟨here, same.symm⟩, same, BEq.rfl]
      rfl
    · rw [if_neg fun both => same both.2.symm, beq_eq_false_iff_ne.2 same]
      rfl
  increasing := describes.increasing.insert

theorem Describes.define_other
    {each : Scope}
    (describes : history.Describes scope each)
    {target : Fin count}
    (elsewhere : target ≠ scope) (name : String) (value : Value) :
    (history.define target name value).Describes scope each where
  before := describes.before
  path_eq := describes.path_eq
  lookup_eq other := by
    rw [describes.lookup_eq, latest?, if_neg fun both => elsewhere both.1]
  increasing := describes.increasing

/-- Every scope is as its history tells. -/
theorem exists_describes
    (history : History count)
    (present : scope < count) :
    ∃ each, history.scopes.get? scope = some each ∧
      history.Describes scope each := by
  induction history with
  | start =>
      cases Nat.lt_one_iff.1 present
      exact ⟨⟨[], none⟩, rfl, nofun, rfl, fun _ => rfl, .nil⟩
  | enclose earlier outer induction =>
      rw [scopes, get?_enclose, size_scopes]
      rcases Nat.lt_succ_iff_lt_or_eq.1 present with old | rfl
      · rcases induction old with ⟨each, found, describes⟩
        rw [if_neg (Nat.ne_of_lt old)]
        exact ⟨each, found, describes.enclose old outer⟩
      · rw [if_pos rfl]
        exact ⟨_, rfl, describes_new earlier outer⟩
  | define earlier target name value induction =>
      rcases induction present with ⟨each, found, describes⟩
      rw [scopes, get?_define, found]
      by_cases here : target = scope
      · rw [if_pos here]
        exact ⟨_, rfl, describes.define here name value⟩
      · rw [if_neg here]
        exact ⟨each, rfl, describes.define_other here name value⟩

/-- The chain of a scope is made of the scopes on its path. -/
theorem map_chain
    (history : History count)
    (present : scope < count) :
    (history.scopes.chain scope).map some =
      (history.path scope).map history.scopes.get? := by
  induction scope using Nat.strongRecOn with
  | _ scope induction =>
      rcases history.exists_describes present with ⟨each, found, describes⟩
      rw [chain, found, describes.path_eq, List.map_cons, List.map_cons, found]
      refine congrArg (some each :: ·) ?_
      cases outward : each.outer with
      | none => rfl
      | some outer =>
          have before := describes.before outward
          dsimp only
          rw [if_pos before, Option.elim_some]
          exact induction outer before (Nat.lt_trans before present)

/-- The scopes on the path of a scope are there. -/
theorem lt_of_mem_path
    {each : ScopeId}
    (history : History count)
    (present : scope < count)
    (member : each ∈ history.path scope) :
    each < count := by
  have inside : history.scopes.get? each ∈
      (history.scopes.chain scope).map some := by
    rw [history.map_chain present]
    exact List.mem_map_of_mem member
  rcases List.mem_map.1 inside with ⟨found, -, same⟩
  exact history.size_scopes ▸ lt_size_of_get? same.symm

/-! ## What is found -/

theorem depth_scopes
    (history : History count)
    (present : scope < count) :
    history.scopes.depth scope = (history.path scope).length := by
  have lengths := congrArg List.length (history.map_chain present)
  rwa [List.length_map, List.length_map] at lengths

/-- A name is looked up by its latest definitions along the path. -/
theorem lookup_scopes
    (history : History count)
    (present : scope < count) (name : String) :
    history.scopes.lookup scope name =
      (history.path scope).findSome? (history.latest? · name) := by
  have own : ∀ each ∈ history.path scope,
      (history.scopes.get? each).bind (·.bindings.lookup name) =
        history.latest? each name := by
    intro each member
    rcases history.exists_describes
      (history.lt_of_mem_path present member) with ⟨found, isFound, describes⟩
    rw [isFound, Option.bind_some, describes.lookup_eq]
  have values :
      (history.scopes.chain scope).map (·.bindings.lookup name) =
        (history.path scope).map (history.latest? · name) :=
    calc
      _ = ((history.scopes.chain scope).map some).map
            (·.bind (·.bindings.lookup name)) := List.map_map.symm
      _ = ((history.path scope).map history.scopes.get?).map
            (·.bind (·.bindings.lookup name)) := by
          rw [history.map_chain present]
      _ = (history.path scope).map (history.latest? · name) := by
          rw [List.map_map]
          exact List.map_congr_left own
  have found := congrArg (List.findSome? id) values
  rwa [List.findSome?_map, List.findSome?_map] at found

theorem lookup_eq_some_iff
    (history : History count)
    (present : scope < count) (name : String) (value : Value) :
    history.scopes.lookup scope name = some value ↔
      ∃ found, history.Reaches scope found name ∧
        history.latest? found name = some value := by
  rw [history.lookup_scopes present, List.findSome?_eq_some_iff]
  constructor
  · rintro ⟨inner, found, outer, isPath, latest, none⟩
    exact ⟨found, ⟨inner, outer, isPath, fun each member =>
      latest?_eq_none_iff.1 (none each member)⟩, latest⟩
  · rintro ⟨found, ⟨inner, outer, isPath, undefined⟩, latest⟩
    exact ⟨inner, found, outer, isPath, latest, fun each member =>
      latest?_eq_none_iff.2 (undefined each member)⟩

theorem lookup_eq_none_iff
    (history : History count)
    (present : scope < count) (name : String) :
    history.scopes.lookup scope name = none ↔
      ∀ each ∈ history.path scope, ¬ history.Defines each name := by
  rw [history.lookup_scopes present, List.findSome?_eq_none_iff]
  exact forall₂_congr fun each _ => latest?_eq_none_iff

theorem names_scopes
    (history : History count)
    (present : scope < count) :
    (∀ name, name ∈ history.scopes.names scope ↔
        history.Defines scope name) ∧
      (history.scopes.names scope).Pairwise (· < ·) := by
  rcases history.exists_describes present with ⟨each, found, describes⟩
  have names : history.scopes.names scope = each.bindings.keys := by
    rw [names, found]
    rfl
  rw [names]
  refine ⟨fun name => ?_, ?_⟩
  · rw [← not_iff_not, ← latest?_eq_none_iff, ← describes.lookup_eq,
      Sorted.lookup_eq_none_iff]
  · exact describes.increasing.imp compareOfLessAndEq_eq_lt.1

/-! ## A further definition -/

variable {target : Fin count} {name : String}

theorem latest?_define_other
    {other : String} {value : Value}
    (elsewhere : ¬ (target = scope ∧ name = other)) :
    (history.define target name value).latest? scope other =
      history.latest? scope other :=
  if_neg elsewhere

/-- A definition counts where paths come to its scope first. -/
theorem lookup_define_of_reaches
    (present : scope < count)
    (reaches : history.Reaches scope target name) (value : Value) :
    (history.define target name value).scopes.lookup scope name =
      some value := by
  rcases reaches with ⟨inner, outer, isPath, undefined⟩
  rw [lookup_scopes _ present, path, isPath]
  clear isPath
  induction inner with
  | nil =>
      have latest : (history.define target name value).latest? target name =
          some value :=
        if_pos ⟨rfl, rfl⟩
      rw [List.nil_append, List.findSome?_cons, latest]
  | cons each inner induction =>
      rcases List.forall_mem_cons.1 undefined with ⟨here, behind⟩
      rw [List.cons_append, List.findSome?_cons, latest?,
        latest?_eq_none_iff.2 here]
      split_ifs with same
      · rfl
      · exact induction behind

/-- A definition changes nothing but what is seen where paths reach it first. -/
theorem reaches_of_lookup_define
    {other : String} {value : Value}
    (present : scope < count)
    (changes : (history.define target name value).scopes.lookup scope other ≠
      history.scopes.lookup scope other) :
    other = name ∧ history.Reaches scope target name := by
  rw [lookup_scopes _ present, lookup_scopes _ present, path] at changes
  rw [Reaches]
  generalize history.path scope = path at changes ⊢
  -- The first scope on the path that tells the two histories apart is the
  -- one of the definition, and before it neither of them finds anything.
  induction path with
  | nil => exact absurd rfl changes
  | cons each rest induction =>
      rw [List.findSome?_cons, List.findSome?_cons] at changes
      by_cases here : target = each ∧ name = other
      · rcases here with ⟨rfl, rfl⟩
        exact ⟨rfl, [], rest, rfl, nofun⟩
      · rw [latest?_define_other here] at changes
        cases found : history.latest? each other with
        | some earlier =>
            rw [found] at changes
            exact absurd rfl changes
        | none =>
            rw [found] at changes
            rcases induction changes with
              ⟨rfl, inner, outer, rfl, undefined⟩
            refine ⟨rfl, each :: inner, outer, rfl, ?_⟩
            exact List.forall_mem_cons.2
              ⟨latest?_eq_none_iff.1 found, undefined⟩

/--
Whatever scopes were made and whatever was defined in them: a name stands for
its latest definition in the first scope on the path outward that ever defined
it, and for nothing if there is none; it counts as defined exactly if it stands
for a value.  The names of a scope are those that were ever defined in it, in
the strict order of their code points, and its depth is the length of its path.
A further definition gives its value wherever a path reaches its scope before
another one that defines the name, and changes nothing anywhere else.
-/
theorem scope_chain
    (history : History count) (scope : Fin count) :
    (∀ name value, history.scopes.lookup scope name = some value ↔
      ∃ found, history.Reaches scope found name ∧
        history.latest? found name = some value) ∧
    (∀ name, history.scopes.lookup scope name = none ↔
      ∀ each ∈ history.path scope, ¬ history.Defines each name) ∧
    (∀ name, history.scopes.isDefined scope name = true ↔
      ∃ value, history.scopes.lookup scope name = some value) ∧
    (∀ name, name ∈ history.scopes.names scope ↔
      history.Defines scope name) ∧
    (history.scopes.names scope).Pairwise (· < ·) ∧
    history.scopes.depth scope = (history.path scope).length ∧
    ∀ (target : Fin count) (name : String) (value : Value),
      (history.Reaches scope target name →
        (history.define target name value).scopes.lookup scope name =
          some value) ∧
      ∀ other,
        (history.define target name value).scopes.lookup scope other ≠
          history.scopes.lookup scope other →
        other = name ∧ history.Reaches scope target name := by
  have present := scope.isLt
  rcases history.names_scopes present with ⟨members, increasing⟩
  refine ⟨history.lookup_eq_some_iff present,
    history.lookup_eq_none_iff present,
    history.scopes.isDefined_iff scope, members, increasing,
    history.depth_scopes present, ?_⟩
  intro target name value
  exact ⟨fun reaches => lookup_define_of_reaches present reaches value,
    fun _ => reaches_of_lookup_define present⟩

end Scopes.History

end Bhasha
