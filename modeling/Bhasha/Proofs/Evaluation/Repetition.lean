import Bhasha.Proofs.Evaluation.Frame
import Bhasha.Proofs.Evaluation.Integrity
import Mathlib.Order.Monotone.Basic

/-!
# Calls can be repeated

A call leaves scopes and identities behind, so a second call of the same
function with the same arguments starts from another machine and makes other
scopes and identities.  It makes them in the same order, though: each scope and
each identity of the first call has its counterpart in the second call, moved up
by as many as the first call made.  The two calls go in step up to this moving,
and neither texts nor equality tests can tell what was moved.
-/

namespace Bhasha

open Step

/-! ## Numbers that are moved up -/

/-- The numbers from a start on are moved up by a gap. -/
structure Shift where
  start : Nat
  gap : Nat

namespace Shift

variable {shift : Shift} {number other : Nat}

/-- Where a number is moved to. -/
def move (shift : Shift) (number : Nat) : Nat :=
  if number < shift.start then number else number + shift.gap

theorem move_of_lt (old : number < shift.start) :
    shift.move number = number :=
  if_pos old

theorem move_of_le (new : shift.start ≤ number) :
    shift.move number = number + shift.gap :=
  if_neg (Nat.not_lt_of_le new)

/-- What is new stays in order as it is moved. -/
theorem move_succ (new : shift.start ≤ number) :
    shift.move (number + 1) = shift.move number + 1 := by
  rw [move_of_le new, move_of_le (Nat.le_succ_of_le new),
    Nat.add_right_comm]

theorem move_strictMono (shift : Shift) : StrictMono shift.move := by
  intro number other less
  rw [move, move]
  split
  · split
    · exact less
    · exact Nat.lt_add_right _ less
  · next new =>
    rw [if_neg fun old => new (Nat.lt_trans less old)]
    exact Nat.add_lt_add_right less _

end Shift

/-- How scopes and identities are moved. -/
structure Moves where
  scopes : Shift
  identities : Shift

/-! ## Values that are moved -/

namespace Value

mutual

/-- A value with its scopes and identities moved. -/
def move (moves : Moves) : Value → Value
  | .array identity items =>
    .array (moves.identities.move identity) (moveItems moves items)
  | .hash identity entries =>
    .hash (moves.identities.move identity) (moveEntries moves entries)
  | .function identity ⟨parameters, body, scope⟩ =>
    .function (moves.identities.move identity)
      ⟨parameters, body, moves.scopes.move scope⟩
  | .integer value => .integer value
  | .boolean value => .boolean value
  | .string text => .string text
  | .builtin called => .builtin called
  | .error failure => .error failure
  | .null => .null

/-- Values with their scopes and identities moved. -/
def moveItems (moves : Moves) : List Value → List Value
  | [] => []
  | item :: items => item.move moves :: moveItems moves items

/-- Entries with the scopes and identities of their values moved. -/
def moveEntries (moves : Moves) :
    List (Key × Value) → List (Key × Value)
  | [] => []
  | (key, value) :: entries =>
    (key, value.move moves) :: moveEntries moves entries

end

/-- The second value is the first one, moved. -/
def Moved (moves : Moves) (value other : Value) : Prop :=
  other = value.move moves

variable {moves : Moves}

theorem moved_items_iff
    {items others : List Value} :
    List.Forall₂ (Moved moves) items others ↔
      others = moveItems moves items := by
  constructor
  · intro moved
    induction moved with
    | nil => rfl
    | cons first rest induction => rw [moveItems, ← first, induction]
  · rintro rfl
    induction items with
    | nil => exact .nil
    | cons item items induction => exact .cons rfl induction

theorem moved_entries_iff
    {entries others : Entries} :
    Sorted.Related (Moved moves) entries others ↔
      others = moveEntries moves entries := by
  constructor
  · intro moved
    induction moved with
    | nil => rfl
    | @cons entry other entries others first rest induction =>
        rcases entry with ⟨key, value⟩
        rcases other with ⟨same, moved⟩
        rcases first with ⟨rfl, first⟩
        rw [moveEntries, ← first, induction]
  · rintro rfl
    induction entries with
    | nil => exact .nil
    | cons entry entries induction => exact .cons ⟨rfl, rfl⟩ induction

theorem Moved.alike
    {value other : Value}
    (moved : value.Moved moves other) :
    value.Alike (Moved moves) other := by
  subst moved
  cases value with
  | integer value => exact .integer value
  | boolean value => exact .boolean value
  | string text => exact .string text
  | builtin called => exact .builtin called
  | error failure => exact .error failure
  | null => exact .null
  | array identity items => exact .array (moved_items_iff.2 rfl)
  | hash identity entries => exact .hash (moved_entries_iff.2 rfl)
  | function identity closure => exact .function rfl rfl

/-- Moving keeps apart what has different identities. -/
theorem isIdentical_move (left right : Value) :
    (left.move moves).isIdentical (right.move moves) =
      left.isIdentical right := by
  have injective := moves.identities.move_strictMono.injective
  cases left <;> cases right <;>
    simp [move, isIdentical, injective.eq_iff]

theorem Moved.plain
    {value : Value}
    (plain : value.IsPlain) :
    value.Moved moves value := by
  cases value with
  | array identity items => exact plain.elim
  | hash identity entries => exact plain.elim
  | function identity closure => exact plain.elim
  | error failure => exact plain.elim
  | _ => rfl

mutual

/-- What was made before the numbers that are moved stays as it is. -/
theorem move_eq_self {extent : Extent}
    (scopes : moves.scopes.start = extent.scopes)
    (identities : moves.identities.start = extent.supply) :
    ∀ {value : Value}, value.All extent.Covers →
      value.move moves = value
  | .integer _, _ => rfl
  | .boolean _, _ => rfl
  | .string _, _ => rfl
  | .builtin _, _ => rfl
  | .error _, _ => rfl
  | .null, _ => rfl
  | .array identity items, covered => by
    rcases all_array.1 covered with ⟨here, inner⟩
    rw [move, Shift.move_of_lt (identities ▸ here.identity rfl),
      moveItems_eq_self scopes identities inner]
  | .hash identity entries, covered => by
    rcases all_hash.1 covered with ⟨here, inner⟩
    rw [move, Shift.move_of_lt (identities ▸ here.identity rfl),
      moveEntries_eq_self scopes identities inner]
  | .function identity closure, covered => by
    have here := all_function.1 covered
    rw [move, Shift.move_of_lt (identities ▸ here.identity rfl),
      Shift.move_of_lt (scopes ▸ here.scope rfl)]

theorem moveItems_eq_self {extent : Extent}
    (scopes : moves.scopes.start = extent.scopes)
    (identities : moves.identities.start = extent.supply) :
    ∀ {items : List Value}, (∀ item ∈ items, item.All extent.Covers) →
      moveItems moves items = items
  | [], _ => rfl
  | item :: items, covered => by
    rcases List.forall_mem_cons.1 covered with ⟨first, rest⟩
    rw [moveItems, move_eq_self scopes identities first,
      moveItems_eq_self scopes identities rest]

theorem moveEntries_eq_self {extent : Extent}
    (scopes : moves.scopes.start = extent.scopes)
    (identities : moves.identities.start = extent.supply) :
    ∀ {entries : List (Key × Value)},
      (∀ entry ∈ entries, entry.2.All extent.Covers) →
      moveEntries moves entries = entries
  | [], _ => rfl
  | (key, value) :: entries, covered => by
    rcases List.forall_mem_cons.1 covered with ⟨first, rest⟩
    rw [moveEntries, move_eq_self scopes identities first,
      moveEntries_eq_self scopes identities rest]

end

end Value

/-! ## Scopes that are moved -/

/-- Two scopes bind the same names to values that are moved. -/
structure Scope.Moved (moves : Moves) (scope other : Scope) : Prop where
  bindings :
    Sorted.Related (Value.Moved moves) scope.bindings other.bindings
  outer : other.outer = scope.outer.map moves.scopes.move

namespace Scopes

/-- Each scope has its counterpart where its number is moved to. -/
def Moved (moves : Moves) (scopes others : Scopes) : Prop :=
  ∀ scope, Option.Rel (Scope.Moved moves) (scopes.get? scope)
    (others.get? (moves.scopes.move scope))

variable {moves : Moves} {scopes others : Scopes}

theorem Moved.chain
    (moved : scopes.Moved moves others) (scope : ScopeId) :
    List.Forall₂ (Scope.Moved moves) (scopes.chain scope)
      (others.chain (moves.scopes.move scope)) := by
  induction scope using Nat.strongRecOn with
  | _ scope induction =>
      have here := moved scope
      rw [Scopes.chain, Scopes.chain.eq_def others]
      generalize scopes.get? scope = inner at here
      generalize others.get? (moves.scopes.move scope) = twin at here
      cases here with
      | none => exact .nil
      | @some inner twin each =>
          refine .cons each ?_
          rw [each.outer]
          cases inner.outer with
          | none => exact .nil
          | some outer =>
              -- Scopes look outward to older ones only, and what is older
              -- stays older as it is moved.
              have order :
                  moves.scopes.move outer < moves.scopes.move scope ↔
                    outer < scope :=
                moves.scopes.move_strictMono.lt_iff_lt
              by_cases before : outer < scope
              · simp only [Option.map_some, if_pos before,
                  if_pos (order.2 before)]
                exact induction outer before
              · simp only [Option.map_some, if_neg before,
                  if_neg fun after => before (order.1 after)]
                exact .nil

theorem Moved.lookup
    (moved : scopes.Moved moves others) (scope : ScopeId)
    (name : String) :
    Option.Rel (Value.Moved moves) (scopes.lookup scope name)
      (others.lookup (moves.scopes.move scope) name) := by
  have chains := moved.chain scope
  rw [Scopes.lookup, Scopes.lookup]
  generalize scopes.chain scope = chain at chains
  generalize others.chain (moves.scopes.move scope) = twins at chains
  induction chains with
  | nil => exact .none
  | @cons each twin rest others first _ induction =>
      have bound := first.bindings.lookup name
      rw [List.findSome?_cons, List.findSome?_cons]
      generalize each.bindings.lookup name = value at bound
      generalize twin.bindings.lookup name = other at bound
      cases bound with
      | some values => exact .some values
      | none => exact induction

theorem Moved.define
    {value other : Value}
    (moved : scopes.Moved moves others)
    (values : value.Moved moves other)
    (scope : ScopeId) (name : String) :
    (scopes.define scope name value).Moved moves
      (others.define (moves.scopes.move scope) name other) := by
  intro each
  have here := moved each
  rw [get?_define, get?_define]
  by_cases same : scope = each
  · subst same
    rw [if_pos rfl, if_pos rfl]
    generalize scopes.get? scope = inner at here
    generalize others.get? (moves.scopes.move scope) = twin at here
    cases here with
    | none => exact .none
    | some inner =>
        exact .some ⟨inner.bindings.insert values, inner.outer⟩
  · have injective := moves.scopes.move_strictMono.injective
    rw [if_neg same, if_neg fun equal => same (injective equal)]
    exact here

theorem Moved.enclose
    {bindings twins : Sorted String Value}
    (moved : scopes.Moved moves others)
    (size : others.size = moves.scopes.move scopes.size)
    (values : Sorted.Related (Value.Moved moves) bindings twins)
    (outer : ScopeId) :
    (scopes.enclose outer bindings).Moved moves
      (others.enclose (moves.scopes.move outer) twins) := by
  intro each
  rw [get?_enclose, get?_enclose, size]
  by_cases new : each = scopes.size
  · rw [if_pos new, if_pos (congrArg _ new)]
    exact .some ⟨values, rfl⟩
  · have injective := moves.scopes.move_strictMono.injective
    rw [if_neg new, if_neg fun equal => new (injective equal)]
    exact moved each

end Scopes

/-! ## Two calls in step -/

/--
The second machine is the first one with its new scopes and identities moved,
and both have added the same text to what was written before.
-/
structure Machine.Moved (moves : Moves) (first second : ByteArray)
    (machine twin : Machine) : Prop where
  scopes : machine.scopes.Moved moves twin.scopes
  newScopes : moves.scopes.start ≤ machine.scopes.size
  size : twin.scopes.size = moves.scopes.move machine.scopes.size
  newIdentities : moves.identities.start ≤ machine.supply
  supply : twin.supply = moves.identities.move machine.supply
  depth : machine.depth = twin.depth
  output : ∃ text,
    machine.sink = ⟨first ++ text, none⟩ ∧
      twin.sink = ⟨second ++ text, none⟩

namespace Machine.Moved

variable {moves : Moves} {first second : ByteArray} {machine twin : Machine}

theorem fresh (moved : machine.Moved moves first second twin) :
    Machine.Moved moves first second
      { machine with supply := machine.supply + 1 }
      { twin with supply := twin.supply + 1 } where
  scopes := moved.scopes
  newScopes := moved.newScopes
  size := moved.size
  newIdentities := Nat.le_succ_of_le moved.newIdentities
  supply := by
    rw [Shift.move_succ moved.newIdentities, moved.supply]
  depth := moved.depth
  output := moved.output

theorem enter
    {parameters : List String} {body : Block} {scope : ScopeId}
    {arguments others : List Value}
    (moved : machine.Moved moves first second twin)
    (values : List.Forall₂ (Value.Moved moves) arguments others) :
    Machine.Moved moves first second
      (machine.entered ⟨parameters, body, scope⟩ arguments)
      (twin.entered ⟨parameters, body, moves.scopes.move scope⟩ others) where
  scopes := moved.scopes.enclose moved.size
    (Closure.bind_related rfl values) scope
  newScopes := by
    rw [entered, Scopes.size_enclose]
    exact Nat.le_succ_of_le moved.newScopes
  size := by
    rw [entered, entered, Scopes.size_enclose, Scopes.size_enclose,
      Shift.move_succ moved.newScopes, moved.size]
  newIdentities := moved.newIdentities
  supply := moved.supply
  depth := congrArg (· + 1) moved.depth
  output := moved.output

theorem print
    {arguments others : List Value}
    (moved : machine.Moved moves first second twin)
    (values : List.Forall₂ (Value.Moved moves) arguments others)
    (builtin : Builtin) :
    Machine.Moved moves first second
      { machine with sink := (builtin.call arguments machine.sink).2 }
      { twin with sink := (builtin.call others twin.sink).2 } where
  scopes := moved.scopes
  newScopes := moved.newScopes
  size := moved.size
  newIdentities := moved.newIdentities
  supply := moved.supply
  depth := moved.depth
  output := by
    rcases moved.output with ⟨text, sink, twinSink⟩
    have texts := Value.inspects_congr Value.Moved.alike values
    refine ⟨text ++ (builtin.printed (arguments.map Value.inspect)).toUTF8,
      ?_, ?_⟩
    · rw [sink, builtin.call_unbounded, ByteArray.append_assoc]
    · rw [twinSink, builtin.call_unbounded, ByteArray.append_assoc, texts]

end Machine.Moved

/-- Evaluations in step up to the moving of scopes and identities. -/
def repetition (moves : Moves) (first second : ByteArray) :
    Simulation Unit where
  later _ _ := True
  scopes _ scope twin := twin = moves.scopes.move scope
  permits _ _ _ := True
  values _ := Value.Moved moves
  machines _ := Machine.Moved moves first second
  refl _ := trivial
  trans _ _ := trivial
  scopes_later _ scopes := scopes
  permits_later _ permits := permits
  values_later _ values := values
  permits_contains _ _ := trivial
  alike := Value.Moved.alike
  identical {_ left right _ _} lefts rights := by
    rw [lefts, rights, Value.isIdentical_move]
  plain := Value.Moved.plain
  lookup {_ _ _ scope _} name moved scopes _ := by
    subst scopes
    exact moved.scopes.lookup scope name
  array moved items := by
    refine ⟨(), trivial, moved.fresh, ?_⟩
    rw [Value.Moved, Value.move, moved.supply, Value.moved_items_iff.1 items]
  hash moved entries := by
    refine ⟨(), trivial, moved.fresh, ?_⟩
    rw [Value.Moved, Value.move, moved.supply,
      Value.moved_entries_iff.1 entries]
  function moved scopes _ := by
    subst scopes
    refine ⟨(), trivial, moved.fresh, ?_⟩
    rw [Value.Moved, Value.move, moved.supply]
  define {_ machine twin scope _ name _ _ _} moved scopes _ values := by
    subst scopes
    refine ⟨moved.scopes.define values scope name, ?_, ?_,
      moved.newIdentities, moved.supply, moved.depth, moved.output⟩
    · rw [Scopes.size_define]
      exact moved.newScopes
    · rw [Scopes.size_define, Scopes.size_define]
      exact moved.size
  enter {_ machine twin _ _ closure _ _ _} moved callees arguments := by
    rcases closure with ⟨parameters, body, scope⟩
    cases callees
    exact ⟨(), trivial, moved.enter arguments, moved.size, trivial⟩
  leave moved :=
    ⟨moved.scopes, moved.newScopes, moved.size, moved.newIdentities,
      moved.supply, congrArg (· - 1) moved.depth, moved.output⟩
  depth moved := moved.depth
  print builtin moved arguments := moved.print arguments builtin

/-! ## A call and its repetition -/

/-- The moving of what is made after one machine behind another machine. -/
def Moves.between (before after : Machine) : Moves :=
  ⟨⟨before.scopes.size, after.scopes.size - before.scopes.size⟩,
    ⟨before.supply, after.supply - before.supply⟩⟩

section

variable {before after : Machine}

theorem Value.LivesIn.moved
    {value : Value}
    (lives : value.LivesIn before) :
    value.Moved (.between before after) value :=
  (Value.move_eq_self rfl rfl lives).symm

theorem Scopes.Keeps.moved
    (wellFormed : before.WellFormed)
    (kept : before.scopes.Keeps after.scopes)
    (more : before.scopes.size ≤ after.scopes.size) :
    before.scopes.Moved (.between before after) after.scopes := by
  intro scope
  cases found : before.scopes.get? scope with
  | some each =>
      have old := Scopes.lt_size_of_get? found
      rw [Shift.move_of_lt old, kept scope each found]
      refine .some ⟨?_, ?_⟩
      · exact List.forall₂_same.2 fun binding member =>
          ⟨rfl, (wellFormed.bound found member).moved⟩
      · cases outward : each.outer with
        | none => rfl
        | some outer =>
            have older := wellFormed.outer found outward
            exact congrArg some (Shift.move_of_lt older).symm
  | none =>
      -- What is made from now on is moved behind all scopes of both machines.
      have new : before.scopes.size ≤ scope :=
        Array.getElem?_eq_none_iff.1 found
      have absent :
          after.scopes.get?
            ((Moves.between before after).scopes.move scope) = none := by
        rw [Shift.move_of_le new]
        refine Array.getElem?_eq_none_iff.2 ?_
        show after.scopes.size ≤
          scope + (after.scopes.size - before.scopes.size)
        omega
      rw [absent]
      exact .none

/-- A machine and one that only has more scopes and identities are in step. -/
theorem Machine.moved_of_keeps
    (wellFormed : before.WellFormed)
    (kept : before.scopes.Keeps after.scopes)
    (grows : before.extent.Grows after.extent)
    (depth : before.depth = after.depth)
    (unbounded : before.sink.room = none)
    (stillUnbounded : after.sink.room = none) :
    before.Moved (.between before after) before.sink.written
      after.sink.written after where
  scopes := kept.moved wellFormed grows.1
  newScopes := Nat.le_refl _
  size := ((Shift.move_of_le (Nat.le_refl _)).trans
    (Nat.add_sub_of_le grows.1)).symm
  newIdentities := Nat.le_refl _
  supply := ((Shift.move_of_le (Nat.le_refl _)).trans
    (Nat.add_sub_of_le grows.2)).symm
  depth := depth
  output := by
    refine ⟨.empty, ?_, ?_⟩
    · rw [ByteArray.append_empty, ← unbounded]
    · rw [ByteArray.append_empty, ← stillUnbounded]

end

/--
Two calls agree: both give values with the same text, or both fail for the same
reason.
-/
inductive Ending.Agrees : Ending Value → Ending Value → Prop
  | value {value other : Value} {machine twin : Machine} :
      value.inspect = other.inspect →
      Agrees (.ok value machine) (.ok other twin)
  | failure {failure : Failure} {machine twin : Machine} :
      Agrees (.error (.failed failure) machine)
        (.error (.failed failure) twin)

namespace Evaluation

/-- Calls of a value and of its counterpart agree and leave machines in step. -/
theorem apply_moved
    {moves : Moves} {first second : ByteArray} {machine twin : Machine}
    {callee other : Value} {arguments others : List Value}
    (moved : machine.Moved moves first second twin)
    (callees : callee.Moved moves other)
    (values : List.Forall₂ (Value.Moved moves) arguments others)
    (config : Config) :
    Ending.Agrees (config.apply callee arguments machine)
        (config.apply other others twin) ∧
      Machine.Moved moves first second
        (Ending.machine (config.apply callee arguments machine))
        (Ending.machine (config.apply other others twin)) := by
  have related :
      (repetition moves first second).values () callee other := callees
  have tasks := Simulation.Tasks.apply config related values
  rcases (Request.apply callee arguments).exists_runs config machine with
    ⟨history, runs⟩
  rcases (tasks () machine twin trivial moved).runs runs with
    ⟨events, ending, _, again, -, endings⟩
  cases @Request.answer_of_runs config (.apply other others) twin _ _ again
  have ends := apply_ne_returned config callee arguments machine
  change (repetition moves first second).Endings _ _
    (config.apply callee arguments machine)
    (config.apply other others twin) at endings
  generalize config.apply callee arguments machine = ending at endings ends
  generalize config.apply other others twin = repeated at endings
  cases endings with
  | ok moved values =>
      exact ⟨.value (Value.inspect_congr Value.Moved.alike values), moved⟩
  | returned moved values => exact absurd rfl (ends _ _)
  | failed moved => exact ⟨.failure, moved⟩

/-- What a call leaves behind is in step with the machine before the call. -/
theorem moved_apply
    {machine : Machine} {callee : Value} {arguments : List Value}
    (wellFormed : machine.WellFormed)
    (unbounded : machine.sink.room = none)
    (lives : callee.LivesIn machine)
    (live : ∀ value ∈ arguments, value.LivesIn machine)
    (config : Config) :
    let after := Ending.machine (config.apply callee arguments machine)
    machine.Moved (.between machine after) machine.sink.written
      after.sink.written after := by
  intro after
  have frame : after = final (config.apply callee arguments) machine :=
    Ending.machine_step _ machine
  have kept : machine.scopes.Keeps after.scopes := by
    rw [frame]
    exact applyWithin_keeps config.maxDepth _ callee arguments machine
  have depth : machine.depth = after.depth := by
    rw [frame]
    exact (apply_depth config callee arguments machine).symm
  rcases Invariant.sound_of_apply (integrity_sound wellFormed unbounded)
    lives live config with ⟨extent, grows, sound⟩
  rcases sound.holds with ⟨rfl, stillUnbounded⟩
  exact Machine.moved_of_keeps wellFormed kept grows depth unbounded
    stillUnbounded

/--
In every machine that a series of programs passes through, a call can be
repeated, if the room for output is unlimited at the start.  The function and
its arguments may be any values that the machine has made.  The second call
starts where the first one ends, at the depth of the first.  It gives a value
with the same text or fails for the same reason, and it prints the same text.
-/
theorem calls_repeatable
    (config : Config) (start after : Machine) (programs : List Program)
    (history : List Event) (event : Event) (callee : Value)
    (arguments : List Value)
    (wellFormed : start.WellFormed)
    (unbounded : start.sink.room = none)
    (series : Program.Series config programs start history after)
    (member : event ∈ history)
    (lives : callee.LivesIn event.machine)
    (live : ∀ value ∈ arguments, value.LivesIn event.machine) :
    let first := config.apply callee arguments event.machine
    let second := config.apply callee arguments (Ending.machine first)
    event.machine.depth = (Ending.machine first).depth ∧
      Ending.Agrees first second ∧
      ∃ text,
        (Ending.machine first).sink.written =
            event.machine.sink.written ++ text ∧
          (Ending.machine second).sink.written =
            (Ending.machine first).sink.written ++ text := by
  intro first second
  rcases wellFormed_of_series wellFormed unbounded series member with
    ⟨wellFormed, unbounded⟩
  have start := moved_apply wellFormed unbounded lives live config
  rcases apply_moved start lives.moved
    (List.forall₂_same.2 fun value member => (live value member).moved)
    config with ⟨agrees, moved⟩
  rcases moved.output with ⟨text, written, writtenAgain⟩
  refine ⟨start.depth, agrees, text, ?_, ?_⟩
  · exact congrArg Sink.written written
  · exact congrArg Sink.written writtenAgain

/--
A function that prints its argument and gives a function leaves a scope and an
identity behind; called again, it prints its argument once more.
-/
theorem calls_repeatable_print :
    let body : Block :=
      [.expression (.call (.name "प्रिन्ट") [.name "x"]),
        .expression (.function ["z"] [])]
    let program : Program := [.define "f" (.function ["x"] body)]
    let machine := (program.eval {} .initial).2
    let callee : Value := .function 0 ⟨["x"], body, Scopes.global⟩
    let first := Config.apply {} callee [.string "a"] machine
    let second := Config.apply {} callee [.string "a"] (Ending.machine first)
    callee.LivesIn machine ∧
      (Ending.machine first).sink.written = "a\n".toUTF8 ∧
      Ending.Agrees first second ∧
      (Ending.machine second).sink.written = "a\na\n".toUTF8 := by
  intro body program machine callee first second
  have lives : callee.LivesIn machine := by
    refine Value.all_function.2 ⟨?_, ?_⟩
    · rintro identity ⟨⟩
      exact Nat.one_pos
    · rintro identity closure ⟨⟩
      exact Nat.one_pos
  have plain : (Value.string "a").IsPlain := trivial
  have live : (Value.string "a").LivesIn machine :=
    (Value.all_of_isPlain plain).2 ⟨nofun, nofun⟩
  have written : (Ending.machine first).sink.written = "a\n".toUTF8 := by
    dsimp only [first, machine, program, callee, body]
    decide +kernel
  rcases program.request.exists_runs {} .initial with ⟨inner, runs⟩
  have series : Program.Series {} [program] .initial _ machine :=
    .cons (Request.runs_iff.2 ⟨inner, runs, rfl⟩) .nil
  have repeated :
      Ending.Agrees first second ∧
        ∃ text,
          (Ending.machine first).sink.written =
              machine.sink.written ++ text ∧
            (Ending.machine second).sink.written =
              (Ending.machine first).sink.written ++ text :=
    (calls_repeatable {} .initial machine [program] _
      (.leave program.request (program.request.answer {} .initial)) callee
      [.string "a"] Machine.wellFormed_initial rfl series
      (List.mem_append_left [] (List.mem_append_right _ List.mem_cons_self))
      lives (List.forall_mem_singleton.2 live)).2
  rcases repeated with ⟨agrees, text, firstText, secondText⟩
  have only : text = "a\n".toUTF8 := by
    rw [← written, firstText]
    exact ByteArray.empty_append.symm
  refine ⟨lives, written, agrees, ?_⟩
  rw [secondText, written, only]
  rfl

end Evaluation

end Bhasha
