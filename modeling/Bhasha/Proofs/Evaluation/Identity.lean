import Bhasha.Proofs.Evaluation.Frame
import Bhasha.Proofs.Evaluation.Handover
import Bhasha.Proofs.Evaluation.Lexical

/-!
# Identity

An array, a hash or a function gets its identity when its literal is evaluated,
and the identity is never given out again.  So the values of a run can be listed
by identity, in the order in which they were made, and each value that exists at
some point is the one on the list.  Values that are identical are therefore the
same in all respects, and a value that was just made is identical to no other.
-/

namespace Bhasha

/-! ## Values with an identity -/

/-- An expression that gives a value of its own: an array, hash or function. -/
def Expr.makesNew : Expr → Bool
  | .array _ => true
  | .hash _ => true
  | .function _ _ => true
  | _ => false

/-- Identical values are equal, or at least they have the same identity. -/
theorem Value.eq_or_identity_of_isIdentical
    {value other : Value}
    (identical : value.isIdentical other = true) :
    value = other ∨
      ∃ identity, value.identity? = some identity ∧
        other.identity? = some identity := by
  cases value with
  | integer value =>
      cases other with
      | integer other => exact .inl (congrArg _ (eq_of_beq identical))
      | _ => cases identical
  | boolean value =>
      cases other with
      | boolean other => exact .inl (congrArg _ (eq_of_beq identical))
      | _ => cases identical
  | string text =>
      cases other with
      | string other => exact .inl (congrArg _ (eq_of_beq identical))
      | _ => cases identical
  | builtin called =>
      cases other with
      | builtin other => exact .inl (congrArg _ (eq_of_beq identical))
      | _ => cases identical
  | null =>
      cases other with
      | null => exact .inl rfl
      | _ => cases identical
  | error failure => cases other <;> cases identical
  | array identity items =>
      cases other with
      | array other _ =>
          exact .inr ⟨identity, rfl, congrArg some (eq_of_beq identical).symm⟩
      | _ => cases identical
  | hash identity entries =>
      cases other with
      | hash other _ =>
          exact .inr ⟨identity, rfl, congrArg some (eq_of_beq identical).symm⟩
      | _ => cases identical
  | function identity closure =>
      cases other with
      | function other _ =>
          exact .inr ⟨identity, rfl, congrArg some (eq_of_beq identical).symm⟩
      | _ => cases identical

theorem Value.identity?_eq_of_isIdentical
    {value other : Value}
    (identical : value.isIdentical other = true) :
    value.identity? = other.identity? := by
  rcases eq_or_identity_of_isIdentical identical with
    same | ⟨identity, own, otherOwn⟩
  · rw [same]
  · rw [own, otherOwn]

/-- The operator tests whether values are identical. -/
theorem BinaryOp.apply_equal (left right : Value) :
    BinaryOp.equal.apply left right =
      .ok (.boolean (left.isIdentical right)) := by
  cases left with
  | integer left => cases right <;> rfl
  | _ => rfl

/-! ## The values of a run -/

/-- The values that a run has made, by identity, and the number of its scopes. -/
structure Census where
  made : List Value
  scopes : Nat

namespace Census

/-- There are more values and scopes, behind those that were there. -/
def Grows (before after : Census) : Prop :=
  before.made <+: after.made ∧ before.scopes ≤ after.scopes

/--
A value with an identity is the one that was made with it, and a function was
made in a scope that is there.
-/
structure Lists (census : Census) (value : Value) : Prop where
  made {identity : Identity} :
    value.identity? = some identity → census.made[identity]? = some value
  scope {identity : Identity} {closure : Closure} :
    value = .function identity closure → closure.scope < census.scopes

theorem Lists.grows
    {census next : Census} {value : Value}
    (lists : census.Lists value)
    (grows : census.Grows next) :
    next.Lists value where
  made {identity} own := by
    rcases grows.1 with ⟨more, same⟩
    have found := lists.made own
    rcases List.getElem?_eq_some_iff.1 found with ⟨inside, -⟩
    rw [← same, List.getElem?_append_left inside]
    exact found
  scope same := Nat.lt_of_lt_of_le (lists.scope same) grows.2

/-- Identical values on the list are one value. -/
theorem Lists.eq_of_isIdentical
    {census : Census} {value other : Value}
    (lists : census.Lists value)
    (listsOther : census.Lists other)
    (identical : value.isIdentical other = true) :
    value = other := by
  rcases Value.eq_or_identity_of_isIdentical identical with
    same | ⟨identity, own, otherOwn⟩
  · exact same
  · have found := lists.made own
    rw [listsOther.made otherOwn] at found
    exact (Option.some.inj found).symm

theorem Lists.identity_lt
    {census : Census} {value : Value} {identity : Identity}
    (lists : census.Lists value)
    (own : value.identity? = some identity) :
    identity < census.made.length :=
  (List.getElem?_eq_some_iff.1 (lists.made own)).1

/-- A machine has given out as many identities and scopes as are listed. -/
structure Counts (census : Census) (machine : Machine) : Prop where
  supply : machine.supply = census.made.length
  scopes : machine.scopes.size = census.scopes

end Census

/-- Values are listed as they are made. -/
def census : Invariant Census where
  later := Census.Grows
  live census scope := scope < census.scopes
  permits _ _ _ := True
  allows := Census.Lists
  holds := Census.Counts
  refl _ := ⟨List.prefix_refl _, Nat.le_refl _⟩
  trans first second :=
    ⟨first.1.trans second.1, Nat.le_trans first.2 second.2⟩
  live_later grows live := Nat.lt_of_lt_of_le live grows.2
  permits_later _ permits := permits
  allows_later grows lists := lists.grows grows
  live_earlier _ counts inside _ := counts.scopes ▸ inside
  permits_contains _ _ := trivial
  plain {_ value} plain := by
    cases value with
    | array identity items => exact plain.elim
    | hash identity entries => exact plain.elim
    | function identity closure => exact plain.elim
    | error failure => exact plain.elim
    | _ => exact ⟨nofun, nofun⟩
  captured lists := lists.scope rfl
  holds_of_eq scopes supply _ counts :=
    ⟨supply ▸ counts.supply, scopes ▸ counts.scopes⟩
  fresh {census machine value} counts new literal := by
    refine ⟨⟨census.made ++ [value], census.scopes⟩,
      ⟨List.prefix_append _ _, Nat.le_refl _⟩, ⟨?_, counts.scopes⟩, ?_, ?_⟩
    · rw [List.length_append, ← counts.supply]
      rfl
    · intro identity own
      rw [new] at own
      cases own
      rw [counts.supply, List.getElem?_concat_length]
    · rintro identity ⟨parameters, body, scope⟩ same
      exact (literal _ _ _ _ same).1
  define value counts _ _ :=
    ⟨counts.supply, (Scopes.size_define _ _ _ _).trans counts.scopes⟩
  enter {census machine identity closure} arguments counts _ := by
    refine ⟨⟨census.made, census.scopes + 1⟩,
      ⟨List.prefix_refl _, Nat.le_succ _⟩, ⟨counts.supply, ?_⟩, ?_, trivial⟩
    · rw [Machine.entered, Scopes.size_enclose, counts.scopes]
    · rw [counts.scopes]
      exact Nat.lt_succ_self _

/-- A run from an empty global scope; identities given out before stay out. -/
theorem census_sound
    {start : Machine}
    (initial : start.scopes = .initial) :
    census.Sound ⟨List.replicate start.supply .null, 1⟩ start where
  holds := by
    refine ⟨List.length_replicate.symm, ?_⟩
    rw [initial]
    rfl
  bound {scope each binding} live found member := by
    cases Nat.lt_one_iff.1 live
    rw [initial] at found
    cases found
    cases member
  outer {scope outer each} live found outward := by
    cases Nat.lt_one_iff.1 live
    rw [initial] at found
    cases found
    cases outward

/-- Every value that exists at a point is on the list. -/
theorem lists_of_has
    {now : Census} {event : Event} {value : Value}
    (holds : census.At now event)
    (has : event.Has value) :
    now.Lists value := by
  cases has with
  | handed member within => exact holds.values _ member _ within
  | bound found member within =>
      have live := Scopes.lt_size_of_get? found
      rw [holds.sound.holds.scopes] at live
      exact holds.sound.bound live found member _ within

/-! ## New values -/

/-- The machine at the last of some events that start in a machine. -/
def lastMachine (machine : Machine) (events : List Event) : Machine :=
  events.foldl (fun _ event => event.machine) machine

theorem lastMachine_append (machine : Machine) (first second : List Event) :
    lastMachine machine (first ++ second) =
      lastMachine (lastMachine machine first) second :=
  List.foldl_append

/-- A task that changes the machine by its requests only. -/
def Task.Passive {α : Type} (task : Task α) : Prop :=
  ∀ {config : Config} {machine after : Machine} {history : List Event}
    {result : α},
    (task machine).Runs config history (.ok result after) →
    after = lastMachine machine history

namespace Task.Passive

variable {α β : Type}

theorem ask (request : Request) : (Task.ask request).Passive := by
  intro config machine after history result runs
  rcases Request.runs_iff.1 runs with ⟨inner, -, rfl⟩
  rw [lastMachine_append]
  rfl

theorem ofExcept (outcome : Except Failure α) :
    (Task.step (EvalM.ofExcept outcome)).Passive := by
  intro config machine after history result runs
  rcases Plan.Runs.of_done runs with ⟨rfl, given⟩
  exact (EvalM.ofExcept_eq_ok given).2.symm

theorem bind
    {task : Task α} {next : α → Task β}
    (first : task.Passive)
    (second : ∀ value, (next value).Passive) :
    (task >>= next).Passive := by
  intro config machine after history result runs
  rcases parts_of_bind runs with
    ⟨front, back, value, between, rfl, runsFirst, runsSecond⟩
  rw [lastMachine_append, ← first runsFirst]
  exact second value runsSecond

theorem entries (scope : ScopeId) (done : Entries)
    (pairs : List (Expr × Expr)) :
    (Task.entries scope done pairs).Passive := by
  induction pairs generalizing done with
  | nil => exact ofExcept (.ok done)
  | cons pair pairs induction =>
      exact bind (ask _) fun key => bind (ask _) fun value =>
        bind (ofExcept _) induction

end Task.Passive

/-- A new value gets the first identity that is free after all requests. -/
theorem identity_of_makesNew
    {config : Config} {scope : ScopeId} {tree : Expr}
    {machine after : Machine} {inner : List Event} {value : Value}
    (new : tree.makesNew = true)
    (runs : (Task.expr scope tree machine).Runs config inner
      (.ok value after)) :
    value.identity? = some (lastMachine machine inner).supply := by
  cases tree with
  | array trees =>
      rcases Task.parts_of_bind runs with
        ⟨front, back, items, between, rfl, asked, later⟩
      cases later
      rw [List.append_nil, ← Task.Passive.ask _ asked]
      rfl
  | hash pairs =>
      rcases Task.parts_of_bind runs with
        ⟨front, back, entries, between, rfl, filled, later⟩
      cases later
      rw [List.append_nil, ← Task.Passive.entries scope [] pairs filled]
      rfl
  | function parameters body =>
      cases runs
      rfl
  | _ => cases new

namespace Invariant.Along

variable {World : Type} {invariant : Invariant World} {world last : World}
variable {machine : Machine} {front back : List Event}

theorem sound_lastMachine
    (sound : invariant.Sound world machine)
    (along : invariant.Along world (front ++ back) last) :
    ∃ now, invariant.later world now ∧
      invariant.Sound now (lastMachine machine front) := by
  induction front generalizing world machine with
  | nil => exact ⟨world, invariant.refl world, sound⟩
  | cons event front induction =>
      cases along with
      | cons step holds rest =>
          rcases induction holds.sound rest with ⟨now, later, sound⟩
          exact ⟨now, invariant.trans step later, sound⟩

/-- A point of a run and the machine to which the run comes later. -/
theorem at_before
    {event : Event}
    (sound : invariant.Sound world machine)
    (along : invariant.Along world (front ++ back) last)
    (member : event ∈ front) :
    ∃ first second, invariant.later first second ∧
      invariant.At first event ∧
      invariant.Sound second (lastMachine machine front) := by
  induction front generalizing world machine with
  | nil => cases member
  | cons other front induction =>
      cases along with
      | cons step holds rest =>
          rcases List.mem_cons.1 member with rfl | behind
          · rcases sound_lastMachine holds.sound rest with
              ⟨second, later, sound⟩
            exact ⟨_, second, later, holds, sound⟩
          · exact induction holds.sound rest behind

end Invariant.Along

/-- A value that was just made is identical to none that existed before. -/
theorem not_identical_of_makesNew
    {config : Config} {programs : List Program} {start after made : Machine}
    {front back : List Event} {scope : ScopeId} {tree : Expr}
    {value other : Value} {event : Event}
    (initial : start.scopes = .initial)
    (series : Program.Series config programs start
      (front ++ .leave (.eval scope (.expr tree)) (.ok value made) :: back)
      after)
    (new : tree.makesNew = true)
    (member : event ∈ front)
    (has : event.Has other) :
    value.isIdentical other = false ∧ other.isIdentical value = false := by
  have sound := census_sound initial
  rcases Invariant.along_of_series sound Nat.one_pos (fun _ _ => trivial)
    series with ⟨_, along, -⟩
  rcases along.at_before sound member with ⟨first, second, grows, holds, now⟩
  rcases series.asked with ⟨machine, inner, ⟨before, rfl⟩, runs⟩
  -- No identity was given out between the last event and the new value.
  rw [lastMachine_append] at now
  have identity : value.identity? = some second.made.length := by
    rw [identity_of_makesNew new runs]
    exact congrArg some now.holds.supply
  have lists := (lists_of_has holds has).grows grows
  have differs : value.identity? ≠ other.identity? := by
    intro same
    rw [identity] at same
    exact Nat.lt_irrefl _ (lists.identity_lt same.symm)
  refine ⟨Bool.eq_false_iff.2 ?_, Bool.eq_false_iff.2 ?_⟩
  · intro identical
    exact differs (Value.identity?_eq_of_isIdentical identical)
  · intro identical
    exact differs (Value.identity?_eq_of_isIdentical identical).symm

/-! ## Whole runs -/

/--
In a series of programs that starts with an empty global scope, values that
exist at any two points and are identical are one value, with the same content
and text.  A literal of an array, a hash or a function gives a value that is
identical to none that existed before, so that no two evaluations of it are
equal.  And everything that is answered was asked, and is answered by the rules
of the single constructs.  By these rules a name gives the value that was bound
to it, and a parameter the argument; what a call gives was the value of an
expression in the body, at its end or in a return; and arrays, hashes, indices,
blocks and branches hand on the values themselves.
-/
theorem Evaluation.identity_sound
    (config : Config) (start after : Machine) (programs : List Program)
    (history : List Event)
    (initial : start.scopes = .initial)
    (series : Program.Series config programs start history after) :
    (∀ event ∈ history, ∀ other ∈ history, ∀ value twin : Value,
      event.Has value → other.Has twin →
      value.isIdentical twin = true → value = twin) ∧
    (∀ (front back : List Event) (scope : ScopeId) (tree : Expr)
      (value : Value) (made : Machine),
      history =
        front ++ .leave (.eval scope (.expr tree)) (.ok value made) :: back →
      tree.makesNew = true →
      ∀ event ∈ front, ∀ other, event.Has other →
        value.isIdentical other = false ∧
        BinaryOp.equal.apply value other = .ok (.boolean false) ∧
        BinaryOp.equal.apply other value = .ok (.boolean false)) ∧
    (∀ (request : Request) (answer : Ending request.Answer),
      .leave request answer ∈ history →
      ∃ machine, request.Served config history machine answer) ∧
    PassesOn config history := by
  have sound := census_sound initial
  rcases Invariant.along_of_series sound Nat.one_pos (fun _ _ => trivial)
    series with ⟨last, along, -⟩
  refine ⟨?_, ?_, fun _ _ => series.served, passesOn series ?_⟩
  · have listed : ∀ event ∈ history, ∀ value, event.Has value →
        last.Lists value := by
      intro event member value has
      rcases List.getElem?_of_mem member with ⟨index, found⟩
      rcases along.at_getElem? found with ⟨now, -, grows, holds⟩
      exact (lists_of_has holds has).grows grows
    intro event member other otherMember value twin has otherHas identical
    exact (listed event member value has).eq_of_isIdentical
      (listed other otherMember twin otherHas) identical
  · rintro front back scope tree value made rfl new event member other has
    rcases not_identical_of_makesNew initial series new member has with
      ⟨left, right⟩
    rw [BinaryOp.apply_equal, BinaryOp.apply_equal, left, right]
    exact ⟨rfl, rfl, rfl⟩
  · intro scope code machine member
    rcases along.at_mem member with ⟨now, holds⟩
    have live : scope < now.scopes := (holds.code rfl).1
    rw [← holds.sound.holds.scopes] at live
    exact live

/-- The same literal gives another array when it is evaluated again. -/
theorem Evaluation.identity_sound_twice :
    let program : Program := [.expression (.array [])]
    let between := (program.eval {} .initial).2
    ∃ first second,
      (program.eval {} .initial).1 = some first ∧
      (program.eval {} between).1 = some second ∧
      BinaryOp.equal.apply second first = .ok (.boolean false) := by
  intro program between
  refine ⟨.array 0 [], .array 1 [], rfl, rfl, ?_⟩
  let given (machine : Machine) : Event :=
    .leave (.eval Scopes.global (.expr (.array [])))
      (.ok (.array machine.supply [])
        { machine with supply := machine.supply + 1 })
  have runs : ∀ machine, ∃ events ending,
      program.request.Runs {} machine events ending ∧
        given machine ∈ events := fun machine =>
    ⟨_, _, .ask (.ask (.ask (.ask (.done _) (.done _)) (.done _)) (.done _))
      (.done _),
      .tail _ (.tail _ (.tail _ (.tail _ (.tail _ (.head _)))))⟩
  rcases runs .initial with ⟨events, _, run, inEvents⟩
  rcases runs between with ⟨others, _, again, inOthers⟩
  rcases List.append_of_mem inOthers with ⟨front, back, rfl⟩
  have series := Program.Series.cons run (.cons again .nil)
  rw [List.append_nil, ← List.append_assoc] at series
  exact ((identity_sound {} .initial _ _ _ rfl series).2.1 _ _ _ _ _ _ rfl rfl
    _ (List.mem_append_left front inEvents) (.array 0 [])
    (.handed List.mem_cons_self (Value.self_mem_inside _))).2.1

end Bhasha
