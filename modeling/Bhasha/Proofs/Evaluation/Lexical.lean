import Bhasha.Proofs.Evaluation.Invariant
import Mathlib.Logic.Relation

/-!
# Lexical scope

The scopes around a function are settled by the place of its literal in the
source.  There is one scope for each function literal around it, and the global
scope around them all, however deeply calls were nested when the function was
made.  In the scope of a literal only its parameters are bound and the names
that its body defines itself.

For each scope of a run the function literals are recorded that stand around
the code that is evaluated in it.  A scope is recorded when it is made and its
record never changes, so the records of a run only grow.
-/

namespace Bhasha

/-! ## Places in a source -/

/-- A function literal. -/
structure Literal where
  parameters : List String
  body : Block

/-- A function literal as an expression. -/
def Literal.expr (literal : Literal) : Expr :=
  .function literal.parameters literal.body

/-- The literal that a function was made from. -/
def Closure.literal (closure : Closure) : Literal :=
  ⟨closure.parameters, closure.body⟩

/-- Code stands in other code, and not inside a function literal in it. -/
def Code.Holds : Code → Code → Prop :=
  Relation.ReflTransGen Code.Contains

/--
Code stands in some programs inside the given function literals, of which the
innermost comes first, and inside no others.
-/
inductive Code.StandsIn (programs : List Program) :
    List Literal → Code → Prop
  | program {program : Program} {code : Code} :
      program ∈ programs → (Code.stmts program).Holds code →
      StandsIn programs [] code
  | literal {literal : Literal} {enclosing : List Literal} {code : Code} :
      StandsIn programs enclosing (.expr literal.expr) →
      (Code.stmts literal.body).Holds code →
      StandsIn programs (literal :: enclosing) code

theorem Code.StandsIn.contains
    {programs : List Program} {enclosing : List Literal} {code inner : Code}
    (stands : code.StandsIn programs enclosing)
    (contains : code.Contains inner) :
    inner.StandsIn programs enclosing := by
  cases stands with
  | program member holds => exact .program member (holds.tail contains)
  | literal outside holds => exact .literal outside (holds.tail contains)

/--
A name is a parameter of a literal, or its body defines it outside of the
literals in the body.
-/
def Literal.Binds (literal : Literal) (name : String) : Prop :=
  name ∈ literal.parameters ∨
    ∃ value, (Code.stmts literal.body).Holds (.stmt (.define name value))

/-! ## Scopes as the source has them -/

namespace Scopes

/--
The scopes from a scope outward are one for each of the given literals, in which
only names of the literal are bound, and then the global scope.
-/
inductive Levels (scopes : Scopes) : ScopeId → List Literal → Prop
  | outermost {each : Scope} :
      scopes.get? Scopes.global = some each → each.outer = none →
      Levels scopes Scopes.global []
  | level {scope outer : ScopeId} {each : Scope} {literal : Literal}
      {enclosing : List Literal} :
      scopes.get? scope = some each → each.outer = some outer →
      outer < scope → (∀ name ∈ each.bindings.keys, literal.Binds name) →
      Levels scopes outer enclosing →
      Levels scopes scope (literal :: enclosing)

/-- A scope is another one or around it. -/
inductive Around (scopes : Scopes) (inner : ScopeId) : ScopeId → Prop
  | here : Around scopes inner inner
  | outward {scope outer : ScopeId} {each : Scope} :
      Around scopes inner scope → scopes.get? scope = some each →
      each.outer = some outer → Around scopes inner outer

/-- A definition adds at most its name to its own scope. -/
theorem exists_get?_define
    {scopes : Scopes} {other : ScopeId} {each : Scope}
    (scope : ScopeId) (name : String) (value : Value)
    (found : scopes.get? other = some each) :
    ∃ later, (scopes.define scope name value).get? other = some later ∧
      later.outer = each.outer ∧
      ∀ bound ∈ later.bindings.keys,
        bound ∈ each.bindings.keys ∨ scope = other ∧ bound = name := by
  rw [get?_define, found]
  by_cases here : scope = other
  · rw [if_pos here, Option.map_some]
    refine ⟨_, rfl, rfl, fun bound member => ?_⟩
    rcases List.mem_map.1 member with ⟨binding, inserted, rfl⟩
    rcases Sorted.mem_insert inserted with rfl | old
    · exact .inr ⟨here, rfl⟩
    · exact .inl (List.mem_map_of_mem old)
  · rw [if_neg here]
    exact ⟨_, rfl, rfl, fun _ => .inl⟩

theorem Levels.depth_eq
    {scopes : Scopes} {scope : ScopeId} {enclosing : List Literal}
    (levels : scopes.Levels scope enclosing) :
    scopes.depth scope = enclosing.length + 1 := by
  induction levels with
  | outermost found last =>
      rw [depth, chain, found]
      simp only [last, List.length_cons, List.length_nil]
  | level found outward before _ _ induction =>
      rw [depth] at induction
      rw [depth, chain, found]
      simp only [outward, if_pos before, List.length_cons, induction]

end Scopes

/--
The literal of a function stands in some programs inside the given literals, and
the scopes around the function are those of these literals.
-/
structure Closure.Static (programs : List Program) (scopes : Scopes)
    (closure : Closure) (enclosing : List Literal) : Prop where
  place : Code.StandsIn programs enclosing (.expr closure.literal.expr)
  depth : scopes.depth closure.scope = enclosing.length + 1
  levels : scopes.Levels closure.scope enclosing

/--
A value exists at a point: it is handed over or bound in a scope, or it is
inside a value that is.
-/
inductive Event.Has (event : Event) (value : Value) : Prop
  | handed {whole : Value} :
      whole ∈ event.values → value ∈ whole.inside → Has event value
  | bound {scope : ScopeId} {each : Scope} {binding : String × Value} :
      event.machine.scopes.get? scope = some each →
      binding ∈ each.bindings → value ∈ binding.2.inside → Has event value

/-! ## The invariant -/

/-- The literals around the code of each scope. -/
abbrev Records := List (List Literal)

namespace Records

/-- Code stands where the record of its scope says. -/
def Places (programs : List Program) (records : Records) (scope : ScopeId)
    (code : Code) : Prop :=
  ∃ enclosing, records[scope]? = some enclosing ∧
    code.StandsIn programs enclosing

/-- The literals around the code of a scope. -/
def literals (records : Records) (scope : ScopeId) : List Literal :=
  (records[scope]?).getD []

/-- A scope is as its record says, and its outer scope has the outer record. -/
inductive Fits (records : Records) (scopes : Scopes) (scope : ScopeId) :
    List Literal → Prop
  | outermost {each : Scope} :
      scope = Scopes.global → scopes.get? scope = some each →
      each.outer = none → Fits records scopes scope []
  | level {outer : ScopeId} {each : Scope} {literal : Literal}
      {enclosing : List Literal} :
      scopes.get? scope = some each → each.outer = some outer →
      outer < scope → records[outer]? = some enclosing →
      (∀ name ∈ each.bindings.keys, literal.Binds name) →
      Fits records scopes scope (literal :: enclosing)

/-- Every scope has a record and is as the record says. -/
structure Describes (records : Records) (scopes : Scopes) : Prop where
  size : scopes.size = records.length
  fits {scope : ScopeId} {enclosing : List Literal} :
    records[scope]? = some enclosing → records.Fits scopes scope enclosing

variable {programs : List Program} {records next : Records}
variable {scopes : Scopes} {scope : ScopeId} {enclosing : List Literal}

theorem getElem?_later
    (later : records <+: next)
    (found : records[scope]? = some enclosing) :
    next[scope]? = some enclosing := by
  rcases later with ⟨rest, rfl⟩
  rcases List.getElem?_eq_some_iff.1 found with ⟨inside, -⟩
  rw [List.getElem?_append_left inside]
  exact found

theorem literals_eq
    (later : records <+: next)
    (found : records[scope]? = some enclosing) :
    next.literals scope = enclosing := by
  rw [literals, getElem?_later later found, Option.getD_some]

theorem Places.later
    {code : Code}
    (places : records.Places programs scope code)
    (later : records <+: next) :
    next.Places programs scope code := by
  rcases places with ⟨enclosing, found, stands⟩
  exact ⟨enclosing, getElem?_later later found, stands⟩

theorem Places.live
    {code : Code}
    (places : records.Places programs scope code) :
    scope < records.length := by
  rcases places with ⟨enclosing, found, -⟩
  exact (List.getElem?_eq_some_iff.1 found).1

namespace Describes

theorem levels
    (describes : records.Describes scopes)
    (found : records[scope]? = some enclosing) :
    scopes.Levels scope enclosing := by
  induction enclosing generalizing scope with
  | nil =>
      cases describes.fits found with
      | outermost same present last =>
          subst same
          exact .outermost present last
  | cons literal enclosing induction =>
      cases describes.fits found with
      | level present outward before around names =>
          exact .level present outward before names (induction around)

/-- The record of a scope around another one is an outer part of its record. -/
theorem suffix_of_around
    {inner : ScopeId}
    (describes : records.Describes scopes)
    (found : records[inner]? = some enclosing)
    (around : scopes.Around inner scope) :
    ∃ outer, records[scope]? = some outer ∧ outer <:+ enclosing := by
  induction around with
  | here => exact ⟨enclosing, found, List.suffix_refl _⟩
  | outward _ present outward induction =>
      rcases induction with ⟨record, recorded, suffix⟩
      cases describes.fits recorded with
      | outermost same again last =>
          rw [present] at again
          cases again
          rw [outward] at last
          cases last
      | level again outwardAgain before around names =>
          rw [present] at again
          cases again
          rw [outward] at outwardAgain
          cases outwardAgain
          exact ⟨_, around, (List.suffix_cons _ _).trans suffix⟩

/-- A definition binds a name of the literal in whose body it stands. -/
theorem define
    {name : String} {tree : Expr}
    (describes : records.Describes scopes)
    (places : records.Places programs scope (.stmt (.define name tree)))
    (value : Value) :
    records.Describes (scopes.define scope name value) where
  size := (scopes.size_define scope name value).trans describes.size
  fits {other enclosing} found := by
    cases describes.fits found with
    | outermost same present last =>
        rcases Scopes.exists_get?_define scope name value present with
          ⟨later, foundLater, sameOuter, -⟩
        exact .outermost same foundLater (sameOuter.trans last)
    | level present outward before around names =>
        rcases Scopes.exists_get?_define scope name value present with
          ⟨later, foundLater, sameOuter, bound⟩
        refine .level foundLater (sameOuter.trans outward) before around ?_
        intro each member
        rcases bound each member with old | ⟨rfl, rfl⟩
        · exact names each old
        · -- The definition stands in the literal that its scope belongs to.
          rcases places with ⟨record, recorded, stands⟩
          rw [found] at recorded
          cases recorded
          cases stands with
          | literal _ holds => exact .inr ⟨tree, holds⟩

/-- The scope of a call is recorded with the literal of the function. -/
theorem enter
    {closure : Closure}
    (describes : records.Describes scopes)
    (found : records[closure.scope]? = some enclosing)
    (arguments : List Value) :
    Describes (records ++ [closure.literal :: enclosing])
      (scopes.enclose closure.scope (closure.bind arguments)) where
  size := by
    rw [Scopes.size_enclose, describes.size, List.length_append]
    rfl
  fits {other record} recorded := by
    have inside : closure.scope < scopes.size := by
      rw [describes.size]
      exact (List.getElem?_eq_some_iff.1 found).1
    have later : records <+: records ++ [closure.literal :: enclosing] :=
      List.prefix_append _ _
    rcases Nat.lt_or_ge other records.length with old | new
    · have differs : other ≠ scopes.size := by
        rw [describes.size]
        exact Nat.ne_of_lt old
      rw [List.getElem?_append_left old] at recorded
      cases describes.fits recorded with
      | outermost same present last =>
          refine .outermost same ?_ last
          rw [Scopes.get?_enclose, if_neg differs]
          exact present
      | level present outward before around names =>
          refine .level ?_ outward before (getElem?_later later around) names
          rw [Scopes.get?_enclose, if_neg differs]
          exact present
    · have bound := (List.getElem?_eq_some_iff.1 recorded).1
      rw [List.length_append, List.length_singleton] at bound
      have last : other = scopes.size :=
        (Nat.le_antisymm (Nat.le_of_lt_succ bound) new).trans
          describes.size.symm
      subst last
      rw [describes.size, List.getElem?_concat_length] at recorded
      cases recorded
      have present :
          (scopes.enclose closure.scope (closure.bind arguments)).get?
              scopes.size =
            some ⟨closure.bind arguments, some closure.scope⟩ := by
        rw [Scopes.get?_enclose, if_pos rfl]
      refine .level present rfl inside (getElem?_later later found) ?_
      · intro name member
        rcases List.mem_map.1 member with ⟨binding, bound, rfl⟩
        exact .inl (Closure.mem_bind bound).1

end Describes

end Records

/-- Functions are evaluated in the scopes of the literals around them. -/
def lexical (programs : List Program) : Invariant Records where
  later records next := records <+: next
  live records scope := scope < records.length
  permits := Records.Places programs
  allows records value :=
    ∀ identity closure, value = .function identity closure →
      records.Places programs closure.scope (.expr closure.literal.expr)
  holds records machine := records.Describes machine.scopes
  refl := List.prefix_refl
  trans first second := first.trans second
  live_later later live := Nat.lt_of_lt_of_le live later.length_le
  permits_later later places := places.later later
  allows_later later allows identity closure same :=
    (allows identity closure same).later later
  live_earlier _ describes inside _ := describes.size ▸ inside
  permits_contains places contains := by
    rcases places with ⟨enclosing, found, stands⟩
    exact ⟨enclosing, found, stands.contains contains⟩
  plain plain := by
    rintro identity closure rfl
    exact plain.elim
  captured allows := (allows _ _ rfl).live
  holds_of_eq same _ _ describes := same ▸ describes
  fresh {records _ value} describes _ literal := by
    refine ⟨records, List.prefix_refl _, describes, ?_⟩
    rintro identity ⟨parameters, body, scope⟩ same
    exact (literal _ _ _ _ same).2
  define value describes _ places := describes.define places value
  enter {records machine identity closure} arguments describes allows := by
    rcases allows identity closure rfl with ⟨enclosing, found, stands⟩
    refine ⟨records ++ [closure.literal :: enclosing],
      List.prefix_append _ _, describes.enter found arguments, ?_, ?_⟩
    · rw [describes.size, List.length_append]
      exact Nat.lt_succ_self _
    · refine ⟨closure.literal :: enclosing, ?_, .literal stands .refl⟩
      rw [describes.size, List.getElem?_concat_length]

theorem lexical_sound
    {programs : List Program} {start : Machine}
    (initial : start.scopes = .initial) :
    (lexical programs).Sound [[]] start where
  holds := by
    rcases start with ⟨scopes, supply, depth, sink⟩
    subst initial
    refine ⟨rfl, fun {scope enclosing} found => ?_⟩
    cases scope with
    | zero =>
        cases found
        exact .outermost rfl rfl rfl
    | succ scope => cases found
  bound {scope each binding} live found member := by
    cases Nat.lt_one_iff.1 live
    rw [initial] at found
    cases found
    cases member
  outer {scope outer each} live found outward := by
    cases Nat.lt_one_iff.1 live
    rw [initial] at found
    cases found
    cases outward

/-- Every function that exists at a point has its place in the source. -/
theorem places_of_has
    {programs : List Program} {records : Records} {event : Event}
    {identity : Identity} {closure : Closure}
    (holds : (lexical programs).At records event)
    (has : event.Has (.function identity closure)) :
    records.Places programs closure.scope (.expr closure.literal.expr) := by
  cases has with
  | handed member within => exact holds.values _ member _ within _ _ rfl
  | bound found member within =>
      have live := Scopes.lt_size_of_get? found
      rw [holds.sound.holds.size] at live
      exact holds.sound.bound live found member _ within _ _ rfl

/--
In a series of programs that starts with an empty global scope, each scope
belongs to fixed function literals of the source, one inside the other.  A
function that exists at some point was made from a literal that stands inside
those of its scope.  Then and at all later points the scopes around it are one
for each of them, in which only names of the literal are bound, and the global
scope.  All code is evaluated in a scope of the literals in which it stands, so
the scope of a caller is around a function only if the literals around the call
are also around the function.
-/
theorem Evaluation.scopes_lexical
    (config : Config) (start after : Machine) (programs : List Program)
    (history : List Event)
    (initial : start.scopes = .initial)
    (series : Program.Series config programs start history after) :
    ∃ enclosing : ScopeId → List Literal,
      (∀ (index later : Nat) (event other : Event) (identity : Identity)
        (closure : Closure),
        index ≤ later → history[index]? = some event →
        history[later]? = some other →
        event.Has (.function identity closure) →
        closure.Static programs other.machine.scopes
            (enclosing closure.scope) ∧
          ∀ scope, other.machine.scopes.Around closure.scope scope →
            enclosing scope <:+ enclosing closure.scope) ∧
      ∀ (scope : ScopeId) (code : Code) (machine : Machine),
        .enter (.eval scope code) machine ∈ history →
        code.StandsIn programs (enclosing scope) ∧
          machine.scopes.Levels scope (enclosing scope) := by
  have places : ∀ program ∈ programs,
      (lexical programs).permits [[]] Scopes.global (.stmts program) :=
    fun program member => ⟨[], rfl, .program member .refl⟩
  rcases Invariant.along_of_series (lexical_sound initial) Nat.one_pos
    places series with ⟨last, along, -⟩
  refine ⟨last.literals, ?_, ?_⟩
  · intro index later event other identity closure order found foundLater has
    rcases along.at_both order found foundLater with
      ⟨first, second, grows, ends, holds, holdsLater⟩
    rcases (places_of_has holds has).later grows with
      ⟨enclosing, present, stands⟩
    have describes := holdsLater.sound.holds
    have levels := describes.levels present
    rw [Records.literals_eq ends present]
    refine ⟨⟨stands, levels.depth_eq, levels⟩, fun scope around => ?_⟩
    rcases describes.suffix_of_around present around with
      ⟨outer, outward, suffix⟩
    rw [Records.literals_eq ends outward]
    exact suffix
  · intro scope code machine member
    rcases List.getElem?_of_mem member with ⟨index, found⟩
    rcases along.at_getElem? found with ⟨records, -, ends, holds⟩
    rcases (holds.code rfl).2 with ⟨enclosing, present, stands⟩
    rw [Records.literals_eq ends present]
    exact ⟨stands, holds.sound.holds.levels present⟩

/--
A function that a call gives keeps the scope of the call, and only the names of
one literal are bound there.
-/
theorem Evaluation.scopes_lexical_nested :
    let body : Block :=
      [.define "y" (.integer 1), .expression (.function ["z"] [])]
    let program : Program :=
      [.expression (.call (.function ["x"] body) [.integer 7])]
    let closure : Closure := ⟨["z"], [], 1⟩
    let after := (program.eval {} .initial).2
    (program.eval {} .initial).1 = some (.function 1 closure) ∧
      ∃ history, Program.Series {} [program] .initial history after ∧
        ∃ literal, closure.Static [program] after.scopes [literal] ∧
          ∀ name ∈ ["x", "y"], literal.Binds name := by
  intro body program closure after
  have gives :
      (program.eval {} .initial).1 = some (.function 1 closure) :=
    rfl
  rcases program.request.exists_runs {} .initial with ⟨inner, runs⟩
  have series : Program.Series {} [program] .initial _ after :=
    .cons (Request.runs_iff.2 ⟨inner, runs, rfl⟩) .nil
  refine ⟨gives, _, series, ?_⟩
  rcases scopes_lexical {} .initial after [program] _ rfl series with
    ⟨enclosing, places, -⟩
  rcases List.getElem?_of_mem (List.mem_append_left []
    (List.mem_append_right _ List.mem_cons_self)) with ⟨index, found⟩
  have static : closure.Static [program] after.scopes (enclosing 1) :=
    (places index index _ _ 1 closure (Nat.le_refl _) found found
      (.handed List.mem_cons_self (Value.self_mem_inside _))).1
  generalize enclosing 1 = literals at static
  cases literals with
  | nil =>
      have levels := static.levels
      cases levels
  | cons literal others =>
      have levels := static.levels
      cases levels with
      | level present outward before names levels =>
          cases present
          cases outward
          cases levels with
          | outermost => exact ⟨literal, static, names⟩
          | level present outward =>
              cases present
              cases outward

end Bhasha
