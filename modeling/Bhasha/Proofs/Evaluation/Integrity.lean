import Bhasha.Proofs.Evaluation.Invariant

/-!
# Values that exist

A machine has given out some scopes and some identities.  The values of a run
name no others: whatever is bound in a scope of the machine, handed over or
captured was made before.  A machine with unlimited room for output keeps it.
-/

namespace Bhasha

/-! ## What a machine has given out -/

/-- A number of scopes and a number of identities. -/
structure Extent where
  scopes : Nat
  supply : Nat

namespace Extent

/-- There are at least as many scopes and identities. -/
def Grows (before after : Extent) : Prop :=
  before.scopes ≤ after.scopes ∧ before.supply ≤ after.supply

/-- The identity and the scope that a value itself has were given out. -/
structure Covers (extent : Extent) (value : Value) : Prop where
  identity {identity : Identity} :
    value.identity? = some identity → identity < extent.supply
  scope {identity : Identity} {closure : Closure} :
    value = .function identity closure → closure.scope < extent.scopes

theorem Covers.grows
    {extent next : Extent} {value : Value}
    (covers : extent.Covers value)
    (grows : extent.Grows next) :
    next.Covers value where
  identity found := Nat.lt_of_lt_of_le (covers.identity found) grows.2
  scope same := Nat.lt_of_lt_of_le (covers.scope same) grows.1

end Extent

/-- The scopes and identities that a machine has given out. -/
def Machine.extent (machine : Machine) : Extent :=
  ⟨machine.scopes.size, machine.supply⟩

/-- A value and the values inside it were made by a machine. -/
def Value.LivesIn (machine : Machine) (value : Value) : Prop :=
  value.All machine.extent.Covers

/-- There is a global scope, and all that a machine leads to was made by it. -/
structure Machine.WellFormed (machine : Machine) : Prop where
  global : Scopes.global < machine.scopes.size
  bound {scope : ScopeId} {each : Scope} {binding : String × Value} :
    machine.scopes.get? scope = some each → binding ∈ each.bindings →
    binding.2.LivesIn machine
  outer {scope outer : ScopeId} {each : Scope} :
    machine.scopes.get? scope = some each → each.outer = some outer →
    outer < machine.scopes.size

theorem Machine.wellFormed_initial : Machine.initial.WellFormed where
  global := Nat.one_pos
  bound {scope each binding} found member := by
    cases scope with
    | zero =>
        cases found
        cases member
    | succ scope => cases found
  outer {scope outer each} found outward := by
    cases scope with
    | zero =>
        cases found
        cases outward
    | succ scope => cases found

/-! ## The invariant -/

/-- Values are made before they are used, and room stays unlimited. -/
def integrity : Invariant Extent where
  later := Extent.Grows
  live extent scope := scope < extent.scopes
  permits _ _ _ := True
  allows := Extent.Covers
  holds extent machine := machine.extent = extent ∧ machine.sink.room = none
  refl _ := ⟨Nat.le_refl _, Nat.le_refl _⟩
  trans first second :=
    ⟨Nat.le_trans first.1 second.1, Nat.le_trans first.2 second.2⟩
  live_later grows live := Nat.lt_of_lt_of_le live grows.1
  permits_later _ permits := permits
  allows_later grows covers := covers.grows grows
  live_earlier _ holds inside _ := holds.1 ▸ inside
  permits_contains _ _ := trivial
  plain {_ value} plain := by
    cases value with
    | array identity items => exact plain.elim
    | hash identity entries => exact plain.elim
    | function identity closure => exact plain.elim
    | error failure => exact plain.elim
    | _ => exact ⟨nofun, nofun⟩
  captured covers := covers.scope rfl
  holds_of_eq scopes supply room holds := by
    rcases holds with ⟨rfl, unbounded⟩
    refine ⟨?_, room unbounded⟩
    rw [Machine.extent, Machine.extent, scopes, supply]
  fresh {extent machine value} holds new literal := by
    rcases holds with ⟨rfl, unbounded⟩
    refine ⟨⟨machine.scopes.size, machine.supply + 1⟩,
      ⟨Nat.le_refl _, Nat.le_succ _⟩, ⟨rfl, unbounded⟩, ?_, ?_⟩
    · intro identity found
      rw [new] at found
      cases found
      exact Nat.lt_succ_self _
    · rintro identity ⟨parameters, body, scope⟩ same
      exact (literal _ _ _ _ same).1
  define value holds _ _ := by
    rcases holds with ⟨rfl, unbounded⟩
    refine ⟨?_, unbounded⟩
    rw [Machine.extent, Scopes.size_define, Machine.extent]
  enter {extent machine identity closure} arguments holds _ := by
    rcases holds with ⟨rfl, unbounded⟩
    refine ⟨⟨machine.scopes.size + 1, machine.supply⟩,
      ⟨Nat.le_succ _, Nat.le_refl _⟩, ⟨?_, unbounded⟩,
      Nat.lt_succ_self _, trivial⟩
    rw [Machine.extent, Machine.entered, Scopes.size_enclose]

theorem integrity_sound
    {machine : Machine}
    (wellFormed : machine.WellFormed)
    (unbounded : machine.sink.room = none) :
    integrity.Sound machine.extent machine where
  holds := ⟨rfl, unbounded⟩
  bound _ := wellFormed.bound
  outer _ := wellFormed.outer

theorem wellFormed_of_sound
    {extent : Extent} {machine : Machine}
    (sound : integrity.Sound extent machine)
    (global : Scopes.global < extent.scopes) :
    machine.WellFormed := by
  rcases sound.holds.1 with rfl
  exact ⟨global,
    fun found => sound.bound (Scopes.lt_size_of_get? found) found,
    fun found => sound.outer (Scopes.lt_size_of_get? found) found⟩

/-- Every machine that a series of programs passes through is well formed. -/
theorem wellFormed_of_series
    {config : Config} {start after : Machine} {programs : List Program}
    {history : List Event} {event : Event}
    (wellFormed : start.WellFormed)
    (unbounded : start.sink.room = none)
    (series : Program.Series config programs start history after)
    (member : event ∈ history) :
    event.machine.WellFormed ∧ event.machine.sink.room = none := by
  rcases Invariant.along_of_series (integrity_sound wellFormed unbounded)
    wellFormed.global (fun _ _ => trivial) series with ⟨_, along, -⟩
  rcases List.getElem?_of_mem member with ⟨index, found⟩
  rcases along.at_getElem? found with ⟨extent, grows, -, holds⟩
  have global := Nat.lt_of_lt_of_le wellFormed.global grows.1
  exact ⟨wellFormed_of_sound holds.sound global, holds.sound.holds.2⟩

end Bhasha
