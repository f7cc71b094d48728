import Bhasha.Proofs.Evaluation.Invariant
import Bhasha.Run

/-!
# Errors are never stored

An error is a value only as the result of a whole program.  If no error can be
reached from the global scope at the start, then at every point of a run no
error is bound in a scope, held by an array or a hash, handed to a function or
bound in a scope that a function captured.  So a program that gives an error was
stopped by it.
-/

namespace Bhasha

/-! ## What can be reached from a scope -/

/--
A scope can be reached from another one by going outward and through the
functions that are bound on the way.
-/
inductive Scopes.Reaches (scopes : Scopes) (start : ScopeId) :
    ScopeId → Prop
  | here : Reaches scopes start start
  | outward {scope outer : ScopeId} {each : Scope} :
      Reaches scopes start scope →
      scopes.get? scope = some each →
      each.outer = some outer → Reaches scopes start outer
  | captured {scope : ScopeId} {each : Scope} {binding : String × Value}
      {identity : Identity} {closure : Closure} :
      Reaches scopes start scope →
      scopes.get? scope = some each →
      binding ∈ each.bindings →
      .function identity closure ∈ binding.2.inside →
      Reaches scopes start closure.scope

/-- No value that can be reached from a scope is an error or holds one. -/
def Scopes.ErrorFree (scopes : Scopes) (start : ScopeId) : Prop :=
  ∀ scope each binding, scopes.Reaches start scope →
    scopes.get? scope = some each → binding ∈ each.bindings →
    ∀ value ∈ binding.2.inside, value.isError = false

/--
A value is no error and holds none, and none can be reached through the scopes
that its functions captured.
-/
def Value.ErrorFree (scopes : Scopes) (value : Value) : Prop :=
  ∀ each ∈ value.inside, each.isError = false ∧
    ∀ identity closure, each = .function identity closure →
      scopes.ErrorFree closure.scope

/--
The scopes that a run from a machine can come to: those that can be reached from
the global scope, and those that are made in the run.
-/
def Machine.InPlay (start : Machine) (scope : ScopeId) : Prop :=
  start.scopes.Reaches Scopes.global scope ∨ start.scopes.size ≤ scope

/-- A scope in play that is there at the start can be reached. -/
theorem Machine.InPlay.reaches
    {start : Machine} {scope : ScopeId} {each : Scope}
    (inPlay : start.InPlay scope)
    (found : start.scopes.get? scope = some each) :
    start.scopes.Reaches Scopes.global scope := by
  rcases inPlay with reached | made
  · exact reached
  · exact absurd made (Nat.not_le_of_lt (Scopes.lt_size_of_get? found))

/-! ## The invariant -/

/-- No error is stored in a scope that a run can come to. -/
def errorFree (start : Machine) : Invariant Unit where
  later _ _ := True
  live _ scope := start.InPlay scope
  permits _ _ _ := True
  allows _ value :=
    value.isError = false ∧
      ∀ identity closure, value = .function identity closure →
        start.InPlay closure.scope
  holds _ machine := start.scopes.size ≤ machine.scopes.size
  refl _ := trivial
  trans _ _ := trivial
  live_later _ live := live
  permits_later _ permits := permits
  allows_later _ allows := allows
  live_earlier _ _ _ live := live
  permits_contains _ _ := trivial
  plain {_ value} plain := by
    cases value with
    | array identity items => exact plain.elim
    | hash identity entries => exact plain.elim
    | function identity closure => exact plain.elim
    | error failure => exact plain.elim
    | _ => exact ⟨rfl, nofun⟩
  captured allows := allows.2 _ _ rfl
  holds_of_eq same _ _ holds := same ▸ holds
  fresh {_ _ value} holds new literal := by
    refine ⟨(), trivial, holds, ?_, ?_⟩
    · cases value with
      | error failure => cases new
      | _ => rfl
    · rintro identity ⟨parameters, body, scope⟩ same
      exact (literal _ _ _ _ same).1
  define value holds _ _ := by
    rw [Scopes.size_define]
    exact holds
  enter {_ machine _ closure} arguments holds _ := by
    refine ⟨(), trivial, ?_, .inr holds, trivial⟩
    rw [Machine.entered, Scopes.size_enclose]
    exact Nat.le_succ_of_le holds

theorem errorFree_sound
    {start : Machine}
    (clean : start.scopes.ErrorFree Scopes.global) :
    (errorFree start).Sound () start where
  holds := Nat.le_refl _
  bound {scope each binding} live found member := by
    have reached := Machine.InPlay.reaches live found
    intro value within
    refine ⟨clean _ _ _ reached found member value within, ?_⟩
    rintro identity closure rfl
    exact .inl (reached.captured found member within)
  outer {scope outer each} live found outward := by
    have reached := Machine.InPlay.reaches live found
    exact .inl (reached.outward found outward)

section

variable {start machine : Machine} {scope other : ScopeId}

theorem inPlay_of_reaches
    (sound : (errorFree start).Sound () machine)
    (live : start.InPlay scope)
    (reached : machine.scopes.Reaches scope other) :
    start.InPlay other := by
  induction reached with
  | here => exact live
  | outward _ found outward induction =>
      exact sound.outer induction found outward
  | captured _ found member within induction =>
      exact (sound.bound induction found member _ within).2 _ _ rfl

theorem errorFree_of_sound
    (sound : (errorFree start).Sound () machine)
    (live : start.InPlay scope) :
    machine.scopes.ErrorFree scope := by
  intro other each binding reached found member value within
  have inPlay := inPlay_of_reaches sound live reached
  exact (sound.bound inPlay found member value within).1

/-- What is handed over at a point neither is an error nor leads to one. -/
theorem errorFree_of_at
    {event : Event} {value : Value}
    (holds : (errorFree start).At () event)
    (sound : (errorFree start).Sound () machine)
    (member : value ∈ event.values) :
    value.ErrorFree machine.scopes := by
  intro each within
  rcases holds.values value member each within with ⟨noError, captures⟩
  refine ⟨noError, fun identity closure same => ?_⟩
  exact errorFree_of_sound sound (captures identity closure same)

theorem error_not_mem
    {event : Event} {failure : Failure}
    (holds : (errorFree start).At () event) :
    .error failure ∉ event.values := by
  intro member
  have allowed := holds.values _ member _ (List.mem_singleton.2 rfl)
  cases allowed.1

end

/-! ## Programs -/

namespace Program

/-- A program gives an error only if it was stopped by it. -/
theorem eval_eq_error_iff
    {config : Config} {start machine : Machine} {program : Program}
    {failure : Failure}
    (sound : (errorFree start).Sound () machine) :
    (program.eval config machine).1 = some (.error failure) ↔
      ∃ after, program.steps config Scopes.global machine =
        .error (.failed failure) after := by
  rcases (request program).exists_runs config machine with ⟨inner, runs⟩
  have whole := Request.runs_iff.2 ⟨inner, runs, rfl⟩
  have steps := steps_of_runs whole
  rcases Invariant.along_of_runs sound (.inl .here) trivial whole with
    ⟨_, along, -⟩
  -- The last event hands over the value of the program, which is no error.
  have last := along.at_mem
    (List.mem_append_right _ (List.mem_singleton.2 rfl))
  rw [eval_eq, steps]
  generalize (request program).answer config machine = ending at last
  rcases last with ⟨_, holds⟩
  constructor
  · intro gives
    cases ending with
    | ok value after =>
        cases gives
        exact absurd (List.mem_singleton.2 rfl) (error_not_mem holds)
    | error reason after =>
        cases reason with
        | returned value =>
            cases gives
            exact absurd (List.mem_singleton.2 rfl) (error_not_mem holds)
        | failed other =>
            cases gives
            exact ⟨after, rfl⟩
  · rintro ⟨after, rfl⟩
    rfl

end Program

theorem errorFree_initial : Scopes.initial.ErrorFree Scopes.global := by
  intro scope each binding _ found member
  cases scope with
  | zero =>
      cases found
      cases member
  | succ scope => cases found

/-- A run reports a failure exactly if its program gives an error. -/
theorem RunReport.ofValue_ending_iff
    {coloring : Text.Coloring} {sink : Sink} {value : Option Value} :
    (RunReport.ofValue coloring sink value).ending = .evaluationFailed ↔
      ∃ failure, value = some (.error failure) := by
  rw [RunReport.ofValue.eq_def]
  split
  · exact ⟨nofun, nofun⟩
  · next failure => exact ⟨fun _ => ⟨failure, rfl⟩, fun _ => rfl⟩
  · next value noError =>
    refine ⟨nofun, ?_⟩
    rintro ⟨failure, same⟩
    cases same
    exact (noError failure rfl).elim

/-- A source without diagnostics fails exactly if a failure stops it. -/
theorem RunSettings.run_ending_iff
    (settings : RunSettings) (source : String) :
    (settings.run source).ending = .evaluationFailed ↔
      (parse source).diagnostics = [] ∧
        ∃ failure after,
          (parse source).program.steps settings.config Scopes.global
              (settings.start source) =
            .error (.failed failure) after := by
  have clean :
      (settings.start source).scopes.ErrorFree Scopes.global := by
    rw [start]
    split
    · exact errorFree_initial
    · exact errorFree_initial
  rw [run]
  dsimp only
  split
  · next empty =>
    rw [RunReport.ofValue_ending_iff, List.isEmpty_iff.1 empty]
    simp only [Program.eval_eq_error_iff (errorFree_sound clean), true_and]
  · next found =>
    refine ⟨nofun, fun fails => ?_⟩
    rw [fails.1] at found
    exact (found rfl).elim

/--
From a machine in which no error can be reached from the global scope, a series
of programs comes to no point at which an error is stored or handed over, and
what is handed over at one point leads to no error at any other.  So the next
program gives an error exactly if it is stopped by it, and the run of a source
reports a failure exactly in this case, unless it has diagnostics.
-/
theorem Evaluation.errors_not_stored
    (config : Config) (start after : Machine) (programs : List Program)
    (history : List Event)
    (clean : start.scopes.ErrorFree Scopes.global)
    (series : Program.Series config programs start history after) :
    (∀ event ∈ history, ∀ scope, start.InPlay scope →
      event.machine.scopes.ErrorFree scope) ∧
    (∀ event ∈ history, ∀ other ∈ history, ∀ value ∈ event.values,
      value.ErrorFree other.machine.scopes) ∧
    (∀ (scope : ScopeId) (tree : Expr) (value : Value) (last : Machine),
      .leave (.eval scope (.expr tree)) (.ok value last) ∈ history →
        value.isError = false) ∧
    (∀ (program : Program) (failure : Failure),
      (program.eval config after).1 = some (.error failure) ↔
        ∃ last, program.steps config Scopes.global after =
          .error (.failed failure) last) ∧
    ∀ (settings : RunSettings) (source : String),
      (settings.run source).ending = .evaluationFailed ↔
        (parse source).diagnostics = [] ∧
          ∃ failure last,
            (parse source).program.steps settings.config Scopes.global
                (settings.start source) =
              .error (.failed failure) last := by
  rcases Invariant.along_of_series (errorFree_sound clean) (.inl .here)
    (fun _ _ => trivial) series with ⟨_, along, sound⟩
  refine ⟨?_, ?_, ?_, ?_, RunSettings.run_ending_iff⟩
  · intro event member scope inPlay
    rcases along.at_mem member with ⟨_, holds⟩
    exact errorFree_of_sound holds.sound inPlay
  · intro event member other otherMember value
    rcases along.at_mem member with ⟨_, holds⟩
    rcases along.at_mem otherMember with ⟨_, holdsOther⟩
    exact errorFree_of_at holds holdsOther.sound
  · intro scope tree value last member
    rcases along.at_mem member with ⟨_, holds⟩
    have free := errorFree_of_at holds holds.sound (List.mem_singleton.2 rfl)
    exact (free value value.self_mem_inside).1
  · intro program failure
    exact Program.eval_eq_error_iff sound

/--
After a program that binds an array, a division by zero inside another array
stops the next program.
-/
theorem Evaluation.errors_not_stored_division :
    let first : Program := [.define "a" (.array [.integer 1])]
    let second : Program :=
      [.define "b" (.array [.binary .divide (.integer 1) (.integer 0)])]
    let after := (first.eval {} .initial).2
    ∃ history,
      Program.Series {} [first] .initial history after ∧
        (∀ event ∈ history, ∀ scope,
          event.machine.scopes.ErrorFree scope) ∧
        (second.eval {} after).1 = some (.error .divisionByZero) ∧
          ∃ last, second.steps {} Scopes.global after =
            .error (.failed .divisionByZero) last := by
  intro first second after
  rcases first.request.exists_runs {} .initial with ⟨inner, runs⟩
  have series : Program.Series {} [first] .initial _ after :=
    .cons (Request.runs_iff.2 ⟨inner, runs, rfl⟩) .nil
  have stored := errors_not_stored {} .initial after [first] _
    errorFree_initial series
  have gives : (second.eval {} after).1 = some (.error .divisionByZero) :=
    rfl
  refine ⟨_, series, ?_, gives, (stored.2.2.2.1 second _).1 gives⟩
  intro event member scope
  refine stored.1 event member scope ?_
  cases scope with
  | zero => exact .inl .here
  | succ scope => exact .inr (Nat.succ_le_succ (Nat.zero_le scope))

end Bhasha
