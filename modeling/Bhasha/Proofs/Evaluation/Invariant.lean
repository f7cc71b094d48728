import Bhasha.Proofs.Evaluation.Output
import Bhasha.Proofs.Evaluation.Simulation
import Bhasha.Proofs.Scope

/-!
# Invariants of evaluations

An invariant is about the values of a run, the scopes that hold them, and the
code that is evaluated in the scopes.  It is given by what it asks of each
single value and of a machine, in worlds that grow with the run, and by what the
operations on machines do to it.  It then holds at every point of every
evaluation, of all values with everything inside them.

An evaluation that keeps an invariant is in step with itself.
-/

namespace Bhasha

/-! ## Values inside values -/

namespace Value

mutual

/-- A value and the values inside it. -/
def inside : Value → List Value
  | .array identity items => .array identity items :: insideItems items
  | .hash identity entries => .hash identity entries :: insideEntries entries
  | .integer value => [.integer value]
  | .boolean value => [.boolean value]
  | .string text => [.string text]
  | .function identity closure => [.function identity closure]
  | .builtin called => [.builtin called]
  | .error failure => [.error failure]
  | .null => [.null]

/-- Values and the values inside them. -/
def insideItems : List Value → List Value
  | [] => []
  | item :: items => item.inside ++ insideItems items

/-- The values of entries and the values inside them. -/
def insideEntries : List (Key × Value) → List Value
  | [] => []
  | (_, value) :: entries => value.inside ++ insideEntries entries

end

theorem self_mem_inside (value : Value) : value ∈ value.inside := by
  cases value <;> simp [inside]

/-- A property of a value and of all values inside it. -/
def All (property : Value → Prop) (value : Value) : Prop :=
  ∀ each ∈ value.inside, property each

variable {property : Value → Prop}

theorem mem_insideItems {each : Value} {items : List Value} :
    each ∈ insideItems items ↔ ∃ item ∈ items, each ∈ item.inside := by
  induction items with
  | nil => simp [insideItems]
  | cons item items induction => simp [insideItems, induction]

theorem mem_insideEntries {each : Value} {entries : List (Key × Value)} :
    each ∈ insideEntries entries ↔
      ∃ entry ∈ entries, each ∈ entry.2.inside := by
  induction entries with
  | nil => simp [insideEntries]
  | cons entry entries induction =>
      rcases entry with ⟨key, value⟩
      simp [insideEntries, induction]

theorem all_array {identity : Identity} {items : List Value} :
    (Value.array identity items).All property ↔
      property (.array identity items) ∧ ∀ item ∈ items, item.All property := by
  simp only [All, inside, List.forall_mem_cons, mem_insideItems]
  refine and_congr_right fun _ => ⟨?_, ?_⟩
  · intro inner item member each within
    exact inner each ⟨item, member, within⟩
  · rintro inner each ⟨item, member, within⟩
    exact inner item member each within

theorem all_hash {identity : Identity} {entries : Entries} :
    (Value.hash identity entries).All property ↔
      property (.hash identity entries) ∧
        ∀ entry ∈ entries, entry.2.All property := by
  simp only [All, inside, List.forall_mem_cons, mem_insideEntries]
  refine and_congr_right fun _ => ⟨?_, ?_⟩
  · intro inner entry member each within
    exact inner each ⟨entry, member, within⟩
  · rintro inner each ⟨entry, member, within⟩
    exact inner entry member each within

theorem all_function {identity : Identity} {closure : Closure} :
    (Value.function identity closure).All property ↔
      property (.function identity closure) := by
  simp [All, inside]

theorem all_of_isPlain
    {value : Value}
    (plain : value.IsPlain) :
    value.All property ↔ property value := by
  cases value with
  | array identity items => exact plain.elim
  | hash identity entries => exact plain.elim
  | function identity closure => exact plain.elim
  | error failure => exact plain.elim
  | _ => simp [All, inside]

theorem All.mono
    {weaker : Value → Prop} {value : Value}
    (implies : ∀ each, property each → weaker each)
    (all : value.All property) :
    value.All weaker :=
  fun each within => implies each (all each within)

/-- The identity of a value that has one. -/
def identity? : Value → Option Identity
  | .array identity _ => some identity
  | .hash identity _ => some identity
  | .function identity _ => some identity
  | _ => none

end Value

/-! ## The bindings of a call -/

/-- Each binding of a call binds a parameter to an argument. -/
theorem Closure.mem_bind
    {closure : Closure} {arguments : List Value} {entry : String × Value}
    (member : entry ∈ closure.bind arguments) :
    entry.1 ∈ closure.parameters ∧ entry.2 ∈ arguments := by
  have fold : ∀ (pairs : List (String × Value)) (done : Sorted String Value),
      entry ∈ pairs.foldl
        (fun bindings pair => bindings.insert pair.1 pair.2) done →
      entry ∈ pairs ∨ entry ∈ done := by
    intro pairs
    induction pairs with
    | nil => exact fun done found => .inr found
    | cons pair pairs induction =>
        intro done found
        rcases induction _ found with behind | found
        · exact .inl (List.mem_cons_of_mem _ behind)
        · rcases Sorted.mem_insert found with same | before
          · exact .inl (List.mem_cons.2 (.inl same))
          · exact .inr before
  rcases fold _ _ member with paired | nothing
  · exact List.of_mem_zip paired
  · cases nothing

/-! ## Invariants -/

/--
What is asked of values, of machines and of code in scopes, in worlds that grow.
Only the scopes that are live have to be in order.
-/
structure Invariant (World : Type) where
  later : World → World → Prop
  live : World → ScopeId → Prop
  permits : World → ScopeId → Code → Prop
  allows : World → Value → Prop
  holds : World → Machine → Prop
  refl (world : World) : later world world
  trans {first second third : World} :
    later first second → later second third → later first third
  live_later {world next : World} {scope : ScopeId} :
    later world next → live world scope → live next scope
  permits_later {world next : World} {scope : ScopeId} {code : Code} :
    later world next → permits world scope code → permits next scope code
  allows_later {world next : World} {value : Value} :
    later world next → allows world value → allows next value
  /-- A scope that is there does not come to life later. -/
  live_earlier {world next : World} {machine : Machine} {scope : ScopeId} :
    later world next → holds world machine → scope < machine.scopes.size →
    live next scope → live world scope
  permits_contains {world : World} {scope : ScopeId} {code inner : Code} :
    permits world scope code → code.Contains inner →
    permits world scope inner
  plain {world : World} {value : Value} : value.IsPlain → allows world value
  captured {world : World} {identity : Identity} {closure : Closure} :
    allows world (.function identity closure) → live world closure.scope
  /-- Neither the depth nor what was printed matters. -/
  holds_of_eq {world : World} {machine other : Machine} :
    machine.scopes = other.scopes → machine.supply = other.supply →
    (machine.sink.room = none → other.sink.room = none) →
    holds world machine → holds world other
  fresh {world : World} {machine : Machine} {value : Value} :
    holds world machine → value.identity? = some machine.supply →
    (∀ identity parameters body scope,
      value = .function identity ⟨parameters, body, scope⟩ →
      live world scope ∧
        permits world scope (.expr (.function parameters body))) →
    ∃ next, later world next ∧
      holds next { machine with supply := machine.supply + 1 } ∧
      allows next value
  define {world : World} {machine : Machine} {scope : ScopeId}
    {name : String} {tree : Expr} (value : Value) :
    holds world machine → live world scope →
    permits world scope (.stmt (.define name tree)) →
    holds world
      { machine with scopes := machine.scopes.define scope name value }
  enter {world : World} {machine : Machine} {identity : Identity}
    {closure : Closure} (arguments : List Value) :
    holds world machine → allows world (.function identity closure) →
    ∃ next, later world next ∧
      holds next (machine.entered closure arguments) ∧
      live next machine.scopes.size ∧
      permits next machine.scopes.size (.stmts closure.body)

namespace Invariant

variable {World : Type} (invariant : Invariant World)

/-- A machine whose live scopes are in order, with all that is bound in them. -/
structure Sound (world : World) (machine : Machine) : Prop where
  holds : invariant.holds world machine
  bound {scope : ScopeId} {each : Scope} {binding : String × Value} :
    invariant.live world scope →
    machine.scopes.get? scope = some each →
    binding ∈ each.bindings → binding.2.All (invariant.allows world)
  outer {scope outer : ScopeId} {each : Scope} :
    invariant.live world scope →
    machine.scopes.get? scope = some each →
    each.outer = some outer → invariant.live world outer

variable {invariant}
variable {world next : World} {machine : Machine} {value : Value}

theorem all_later
    (later : invariant.later world next)
    (all : value.All (invariant.allows world)) :
    value.All (invariant.allows next) :=
  all.mono fun _ => invariant.allows_later later

namespace Sound

/-- A change that leaves the scopes as they are. -/
theorem of_scopes
    {other : Machine}
    (sound : invariant.Sound world machine)
    (later : invariant.later world next)
    (same : machine.scopes = other.scopes)
    (holds : invariant.holds next other) :
    invariant.Sound next other where
  holds := holds
  bound live found member := by
    rw [← same] at found
    have before := invariant.live_earlier later sound.holds
      (Scopes.lt_size_of_get? found) live
    exact all_later later (sound.bound before found member)
  outer live found inside := by
    rw [← same] at found
    have before := invariant.live_earlier later sound.holds
      (Scopes.lt_size_of_get? found) live
    exact invariant.live_later later (sound.outer before found inside)

theorem of_eq
    {other : Machine}
    (sound : invariant.Sound world machine)
    (scopes : machine.scopes = other.scopes)
    (supply : machine.supply = other.supply)
    (room : machine.sink.room = none → other.sink.room = none) :
    invariant.Sound world other :=
  sound.of_scopes (invariant.refl world) scopes
    (invariant.holds_of_eq scopes supply room sound.holds)

theorem chain
    {scope : ScopeId}
    (sound : invariant.Sound world machine)
    (live : invariant.live world scope) :
    ∀ each ∈ machine.scopes.chain scope, ∀ binding ∈ each.bindings,
      binding.2.All (invariant.allows world) := by
  induction scope using Nat.strongRecOn with
  | _ scope induction =>
      intro each member
      rw [Scopes.chain] at member
      cases found : machine.scopes.get? scope with
      | none =>
          rw [found] at member
          cases member
      | some inner =>
          rw [found] at member
          rcases List.mem_cons.1 member with rfl | behind
          · exact fun binding => sound.bound live found
          · cases outward : inner.outer with
            | none =>
                simp only [outward] at behind
                cases behind
            | some outer =>
                simp only [outward] at behind
                split at behind
                · next before =>
                  exact induction outer before
                    (sound.outer live found outward) each behind
                · cases behind

theorem lookup
    {scope : ScopeId} {name : String}
    (sound : invariant.Sound world machine)
    (live : invariant.live world scope)
    (found : machine.scopes.lookup scope name = some value) :
    value.All (invariant.allows world) := by
  rcases List.exists_of_findSome?_eq_some found with
    ⟨each, member, bound⟩
  rcases List.lookup_eq_some_iff.1 bound with ⟨front, back, split, -⟩
  have inside : (name, value) ∈ each.bindings := by
    rw [split]
    exact List.mem_append_right _ List.mem_cons_self
  exact sound.chain live each member _ inside

theorem define
    {scope : ScopeId} {name : String} {tree : Expr}
    (sound : invariant.Sound world machine)
    (live : invariant.live world scope)
    (permits : invariant.permits world scope (.stmt (.define name tree)))
    (all : value.All (invariant.allows world)) :
    invariant.Sound world
      { machine with scopes := machine.scopes.define scope name value } where
  holds := invariant.define value sound.holds live permits
  bound {other each binding} inUse found member := by
    rw [Scopes.get?_define] at found
    split at found
    · rcases Option.map_eq_some_iff.1 found with ⟨before, present, rfl⟩
      rcases Sorted.mem_insert member with rfl | old
      · exact all
      · exact sound.bound inUse present old
    · exact sound.bound inUse found member
  outer {other outer each} inUse found outward := by
    rw [Scopes.get?_define] at found
    split at found
    · rcases Option.map_eq_some_iff.1 found with ⟨before, present, rfl⟩
      exact sound.outer inUse present outward
    · exact sound.outer inUse found outward

theorem enter
    {identity : Identity} {closure : Closure} {arguments : List Value}
    (sound : invariant.Sound world machine)
    (callee : (Value.function identity closure).All
      (invariant.allows world))
    (values : ∀ argument ∈ arguments,
      argument.All (invariant.allows world)) :
    ∃ next, invariant.later world next ∧
      invariant.Sound next (machine.entered closure arguments) ∧
      invariant.live next machine.scopes.size ∧
      invariant.permits next machine.scopes.size (.stmts closure.body) := by
  have allowed := Value.all_function.1 callee
  rcases invariant.enter arguments sound.holds allowed with
    ⟨next, later, holds, live, permits⟩
  refine ⟨next, later, ⟨holds, ?_, ?_⟩, live, permits⟩
  · intro scope each binding inUse found member
    rw [Machine.entered, Scopes.get?_enclose] at found
    split at found
    · cases found
      have argument := (Closure.mem_bind member).2
      exact all_later later (values _ argument)
    · have before := invariant.live_earlier later sound.holds
        (Scopes.lt_size_of_get? found) inUse
      exact all_later later (sound.bound before found member)
  · intro scope outer each inUse found outward
    rw [Machine.entered, Scopes.get?_enclose] at found
    split at found
    · cases found
      cases outward
      exact invariant.live_later later (invariant.captured allowed)
    · have before := invariant.live_earlier later sound.holds
        (Scopes.lt_size_of_get? found) inUse
      exact invariant.live_later later (sound.outer before found outward)

theorem fresh
    (sound : invariant.Sound world machine) (value : Value)
    (new : value.identity? = some machine.supply)
    (literal : ∀ identity parameters body scope,
      value = .function identity ⟨parameters, body, scope⟩ →
      invariant.live world scope ∧
        invariant.permits world scope (.expr (.function parameters body))) :
    ∃ next, invariant.later world next ∧
      invariant.Sound next { machine with supply := machine.supply + 1 } ∧
      invariant.allows next value := by
  rcases invariant.fresh sound.holds new literal with
    ⟨next, later, holds, allowed⟩
  exact ⟨next, later, sound.of_scopes later rfl holds, allowed⟩

end Sound

/-! ## An evaluation in step with itself -/

theorem forall₂_self_iff
    {items others : List Value} :
    List.Forall₂
        (fun value other =>
          value = other ∧ value.All (invariant.allows world)) items others ↔
      items = others ∧
        ∀ item ∈ items, item.All (invariant.allows world) := by
  constructor
  · intro related
    induction related with
    | nil => exact ⟨rfl, nofun⟩
    | cons first rest induction =>
        rcases first with ⟨rfl, all⟩
        rcases induction with ⟨rfl, others⟩
        exact ⟨rfl, List.forall_mem_cons.2 ⟨all, others⟩⟩
  · rintro ⟨rfl, all⟩
    exact List.forall₂_same.2 fun item member => ⟨rfl, all item member⟩

theorem related_self_iff
    {entries others : Entries} :
    Sorted.Related
        (fun value other =>
          value = other ∧ value.All (invariant.allows world))
        entries others ↔
      entries = others ∧
        ∀ entry ∈ entries, entry.2.All (invariant.allows world) := by
  constructor
  · intro related
    induction related with
    | nil => exact ⟨rfl, nofun⟩
    | cons first rest induction =>
        rcases first with ⟨sameKey, same, all⟩
        rcases induction with ⟨rfl, others⟩
        refine ⟨?_, List.forall_mem_cons.2 ⟨all, others⟩⟩
        rw [Prod.ext sameKey same]
  · rintro ⟨rfl, all⟩
    exact List.forall₂_same.2 fun entry member =>
      ⟨rfl, rfl, all entry member⟩

theorem alike_self
    (all : value.All (invariant.allows world)) :
    value.Alike
      (fun value other =>
        value = other ∧ value.All (invariant.allows world)) value := by
  cases value with
  | integer value => exact .integer value
  | boolean value => exact .boolean value
  | string text => exact .string text
  | builtin called => exact .builtin called
  | error failure => exact .error failure
  | null => exact .null
  | array identity items =>
      exact .array (forall₂_self_iff.2 ⟨rfl, (Value.all_array.1 all).2⟩)
  | hash identity entries =>
      exact .hash (related_self_iff.2 ⟨rfl, (Value.all_hash.1 all).2⟩)
  | function identity closure => exact .function rfl rfl

/-- An evaluation that keeps an invariant corresponds to itself. -/
def simulation (invariant : Invariant World) : Simulation World where
  later := invariant.later
  scopes world scope other := scope = other ∧ invariant.live world scope
  permits := invariant.permits
  values world value other :=
    value = other ∧ value.All (invariant.allows world)
  machines world machine other :=
    machine = other ∧ invariant.Sound world machine
  refl := invariant.refl
  trans := invariant.trans
  scopes_later later scopes :=
    ⟨scopes.1, invariant.live_later later scopes.2⟩
  permits_later := invariant.permits_later
  values_later later values := ⟨values.1, all_later later values.2⟩
  permits_contains := invariant.permits_contains
  alike values := by
    rcases values with ⟨rfl, all⟩
    exact alike_self all
  identical lefts rights := by
    rw [lefts.1, rights.1]
  plain plain := ⟨rfl, (Value.all_of_isPlain plain).2 (invariant.plain plain)⟩
  lookup {world machine twin scope other} name machines scopes _ := by
    rcases machines with ⟨rfl, sound⟩
    rcases scopes with ⟨rfl, live⟩
    cases found : machine.scopes.lookup scope name with
    | some value => exact .some ⟨rfl, sound.lookup live found⟩
    | none => exact .none
  array machines items := by
    rcases machines with ⟨rfl, sound⟩
    rcases forall₂_self_iff.1 items with ⟨rfl, all⟩
    rcases sound.fresh (.array _ _) rfl nofun with
      ⟨next, later, sound, allowed⟩
    refine ⟨next, later, ⟨rfl, sound⟩, rfl, Value.all_array.2 ⟨allowed, ?_⟩⟩
    exact fun item member => all_later later (all item member)
  hash machines entries := by
    rcases machines with ⟨rfl, sound⟩
    rcases related_self_iff.1 entries with ⟨rfl, all⟩
    rcases sound.fresh (.hash _ _) rfl nofun with
      ⟨next, later, sound, allowed⟩
    refine ⟨next, later, ⟨rfl, sound⟩, rfl, Value.all_hash.2 ⟨allowed, ?_⟩⟩
    exact fun entry member => all_later later (all entry member)
  function machines scopes permits := by
    rcases machines with ⟨rfl, sound⟩
    rcases scopes with ⟨rfl, live⟩
    rcases sound.fresh (.function _ ⟨_, _, _⟩) rfl fun _ _ _ _ same => by
      cases same
      exact ⟨live, permits⟩ with ⟨next, later, sound, allowed⟩
    exact ⟨next, later, ⟨rfl, sound⟩, rfl, Value.all_function.2 allowed⟩
  define machines scopes permits values := by
    rcases machines with ⟨rfl, sound⟩
    rcases scopes with ⟨rfl, live⟩
    rcases values with ⟨rfl, all⟩
    exact ⟨rfl, sound.define live permits all⟩
  enter machines callees arguments := by
    rcases machines with ⟨rfl, sound⟩
    rcases callees with ⟨same, callee⟩
    rcases forall₂_self_iff.1 arguments with ⟨rfl, values⟩
    cases same
    rcases sound.enter callee values with
      ⟨next, later, sound, live, permits⟩
    exact ⟨next, later, ⟨rfl, sound⟩, ⟨rfl, live⟩, permits⟩
  leave machines := by
    rcases machines with ⟨rfl, sound⟩
    exact ⟨rfl, sound.of_eq rfl rfl id⟩
  depth machines := by
    rw [machines.1]
  print builtin machines arguments := by
    rcases machines with ⟨rfl, sound⟩
    rcases forall₂_self_iff.1 arguments with ⟨rfl, -⟩
    exact ⟨rfl, sound.of_eq rfl rfl fun unbounded =>
      builtin.room_call unbounded _⟩

/-! ## Every point of a run -/

/-- The invariant holds at a point, for all that is handed over there. -/
structure At (invariant : Invariant World) (world : World)
    (event : Event) : Prop where
  sound : invariant.Sound world event.machine
  values : ∀ value ∈ event.values, value.All (invariant.allows world)
  code {scope : ScopeId} {code : Code} {machine : Machine} :
    event = .enter (.eval scope code) machine →
    invariant.live world scope ∧ invariant.permits world scope code

/-- The invariant holds at all points of a run, in worlds that grow. -/
inductive Along (invariant : Invariant World) :
    World → List Event → World → Prop
  | nil {world last : World} :
      invariant.later world last → Along invariant world [] last
  | cons {world now last : World} {event : Event} {events : List Event} :
      invariant.later world now → invariant.At now event →
      Along invariant now events last →
      Along invariant world (event :: events) last

theorem sound_of_ending
    {α : Type} {related : World → α → α → Prop} {ending other : Ending α}
    (endings : invariant.simulation.Endings related world ending other) :
    invariant.Sound world (Ending.machine ending) := by
  cases endings with
  | ok machines values => exact machines.2
  | returned machines values => exact machines.2
  | failed machines => exact machines.2

theorem at_of_ending
    {code : Code} {answer reply : Ending code.Answer} {scope : ScopeId}
    (endings : invariant.simulation.Endings
      (invariant.simulation.answers code) world answer reply) :
    invariant.At world (.leave (.eval scope code) answer) := by
  refine ⟨sound_of_ending endings, ?_, nofun⟩
  cases endings with
  | ok machines values =>
      cases code with
      | expr tree => exact List.forall_mem_singleton.2 values.2
      | exprs trees => exact (forall₂_self_iff.1 values).2
      | stmt statement =>
          cases values with
          | some values => exact List.forall_mem_singleton.2 values.2
          | none => exact nofun
      | stmts statements =>
          cases values with
          | some values => exact List.forall_mem_singleton.2 values.2
          | none => exact nofun
  | returned machines values => exact List.forall_mem_singleton.2 values.2
  | failed machines => exact nofun

theorem at_of_events
    {event other : Event}
    (events : invariant.simulation.Events world event other) :
    invariant.At world event := by
  cases events with
  | enterEval machines scopes permits =>
      refine ⟨machines.2, nofun, fun same => ?_⟩
      cases same
      exact ⟨scopes.2, permits⟩
  | enterApply machines callees arguments =>
      refine ⟨machines.2, ?_, nofun⟩
      exact List.forall_mem_cons.2 ⟨callees.2, (forall₂_self_iff.1 arguments).2⟩
  | leaveEval endings => exact at_of_ending endings
  | leaveApply endings =>
      refine ⟨sound_of_ending endings, ?_, nofun⟩
      cases endings with
      | ok machines values => exact List.forall_mem_singleton.2 values.2
      | returned machines values =>
          exact List.forall_mem_singleton.2 values.2
      | failed machines => exact nofun

theorem along_of_histories
    {last : World} {events others : List Event}
    (histories : invariant.simulation.Histories world events others last) :
    invariant.Along world events last := by
  induction histories with
  | nil later => exact .nil later
  | cons later events _ induction =>
      exact .cons later (at_of_events events) induction

namespace Along

variable {now last : World} {events rest : List Event}

theorem append
    (first : invariant.Along world events now)
    (second : invariant.Along now rest last) :
    invariant.Along world (events ++ rest) last := by
  induction first with
  | nil step =>
      cases second with
      | nil more => exact .nil (invariant.trans step more)
      | cons more event rest =>
          exact .cons (invariant.trans step more) event rest
  | cons step event _ induction => exact .cons step event (induction second)

theorem later
    (along : invariant.Along world events last) :
    invariant.later world last := by
  induction along with
  | nil step => exact step
  | cons step _ _ induction => exact invariant.trans step induction

theorem at_getElem?
    {event : Event} {index : Nat}
    (along : invariant.Along world events last)
    (found : events[index]? = some event) :
    ∃ now, invariant.later world now ∧ invariant.later now last ∧
      invariant.At now event := by
  induction along generalizing index with
  | nil later => cases found
  | cons step holds rest induction =>
      cases index with
      | zero =>
          cases found
          exact ⟨_, step, rest.later, holds⟩
      | succ index =>
          rcases induction found with ⟨now, before, after, holds⟩
          exact ⟨now, invariant.trans step before, after, holds⟩

theorem at_mem
    {event : Event}
    (along : invariant.Along world events last)
    (member : event ∈ events) :
    ∃ now, invariant.At now event := by
  rcases List.getElem?_of_mem member with ⟨index, found⟩
  rcases along.at_getElem? found with ⟨now, -, -, holds⟩
  exact ⟨now, holds⟩

/-- The worlds of an earlier and a later point of a run. -/
theorem at_both
    {event other : Event} {index later : Nat}
    (along : invariant.Along world events last)
    (order : index ≤ later)
    (found : events[index]? = some event)
    (foundLater : events[later]? = some other) :
    ∃ first second, invariant.later first second ∧
      invariant.later second last ∧
      invariant.At first event ∧ invariant.At second other := by
  induction along generalizing index later with
  | nil step => cases found
  | cons step holds rest induction =>
      cases index with
      | zero =>
          cases found
          cases later with
          | zero =>
              cases foundLater
              exact ⟨_, _, invariant.refl _, rest.later, holds, holds⟩
          | succ later =>
              rcases rest.at_getElem? foundLater with
                ⟨second, before, after, holdsLater⟩
              exact ⟨_, second, before, after, holds, holdsLater⟩
      | succ index =>
          cases later with
          | zero => omega
          | succ later =>
              exact induction (Nat.le_of_succ_le_succ order) found foundLater

end Along

/-- A plan that is in step with itself keeps the invariant as it runs. -/
theorem along_of_plans
    {config : Config} {α : Type} {related : World → α → α → Prop}
    {plan : Plan α} {history : List Event} {ending : Ending α}
    (plans : invariant.simulation.Plans related world plan plan)
    (runs : plan.Runs config history ending) :
    ∃ last, invariant.Along world history last ∧
      invariant.Sound last (Ending.machine ending) := by
  rcases plans.runs runs with ⟨events, other, last, -, histories, endings⟩
  exact ⟨last, along_of_histories histories, sound_of_ending endings⟩

/-- An invariant that holds at the start holds at all points of a program. -/
theorem along_of_runs
    {config : Config} {scope : ScopeId} {code : Code}
    {history : List Event} {ending : Ending code.Answer}
    (sound : invariant.Sound world machine)
    (live : invariant.live world scope)
    (permits : invariant.permits world scope code)
    (runs : (Request.eval scope code).Runs config machine history ending) :
    ∃ last, invariant.Along world history last ∧
      invariant.Sound last (Ending.machine ending) := by
  have scopes : invariant.simulation.scopes world scope scope := ⟨rfl, live⟩
  have tasks := Simulation.Tasks.eval scopes permits
  exact along_of_plans
    (tasks world machine machine (invariant.refl world) ⟨rfl, sound⟩) runs

/-- A call keeps an invariant. -/
theorem sound_of_apply
    {callee : Value} {arguments : List Value}
    (sound : invariant.Sound world machine)
    (allowed : callee.All (invariant.allows world))
    (values : ∀ value ∈ arguments, value.All (invariant.allows world))
    (config : Config) :
    ∃ last, invariant.later world last ∧
      invariant.Sound last
        (Ending.machine (config.apply callee arguments machine)) := by
  have callees : invariant.simulation.values world callee callee :=
    ⟨rfl, allowed⟩
  have tasks :=
    Simulation.Tasks.apply config callees (forall₂_self_iff.2 ⟨rfl, values⟩)
  rcases (Request.apply callee arguments).exists_runs config machine with
    ⟨history, runs⟩
  rcases along_of_plans
    (tasks world machine machine (invariant.refl world) ⟨rfl, sound⟩) runs with
    ⟨last, along, sound⟩
  exact ⟨last, along.later, sound⟩

/-- An invariant that holds at the start holds at all points of a series. -/
theorem along_of_series
    {config : Config} {programs : List Program} {history : List Event}
    {after : Machine}
    (sound : invariant.Sound world machine)
    (live : invariant.live world Scopes.global)
    (permits : ∀ program ∈ programs,
      invariant.permits world Scopes.global (.stmts program))
    (series : Program.Series config programs machine history after) :
    ∃ last, invariant.Along world history last ∧
      invariant.Sound last after := by
  induction series generalizing world with
  | nil => exact ⟨world, .nil (invariant.refl world), sound⟩
  | cons runs series induction =>
      rcases List.forall_mem_cons.1 permits with ⟨here, behind⟩
      rcases along_of_runs sound live here runs with ⟨now, along, sound⟩
      rw [← Program.conclude_machine, ← Program.steps_of_runs runs,
        ← Program.eval_eq] at sound
      rcases induction sound (invariant.live_later along.later live)
        fun program member => invariant.permits_later along.later
          (behind program member) with ⟨last, rest, sound⟩
      exact ⟨last, along.append rest, sound⟩

end Invariant

end Bhasha
