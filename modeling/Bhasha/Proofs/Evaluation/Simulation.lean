import Mathlib.Data.List.Forall2
import Bhasha.Proofs.Evaluation.Termination

/-!
# Evaluations in step

Two evaluations of the same code go in step when they start in machines that
correspond.  What it means to correspond is a parameter: scopes, values and
machines are related in a world, and worlds grow as scopes and identities are
made.  A simulation says what the relations have to satisfy; it is enough to
look at single operations, and the rest follows here for all code, through all
calls and for all endings.

The events of the two evaluations correspond one by one as well.  An evaluation
that is in step with itself is the special case that gives invariants.
-/

namespace Bhasha

open Step

/-! ## Related entries -/

namespace Sorted

variable {κ α β : Type}

/-- The same keys, in the same order, with related values. -/
def Related (related : α → β → Prop) : Sorted κ α → Sorted κ β → Prop :=
  List.Forall₂ fun entry other =>
    entry.1 = other.1 ∧ related entry.2 other.2

variable {related : α → β → Prop}
variable {entries : Sorted κ α} {others : Sorted κ β}

theorem Related.insert
    [Ord κ] {key : κ} {value : α} {other : β}
    (values : related value other)
    (rest : Related related entries others) :
    Related related (Sorted.insert key value entries)
      (Sorted.insert key other others) := by
  induction rest with
  | nil => exact .cons ⟨rfl, values⟩ .nil
  | @cons entry otherEntry entries others first rest induction =>
      rcases entry with ⟨present, value⟩
      rcases otherEntry with ⟨same, other⟩
      rcases first with ⟨rfl, first⟩
      rw [Sorted.insert, Sorted.insert]
      cases compare key present with
      | lt => exact .cons ⟨rfl, values⟩ (.cons ⟨rfl, first⟩ rest)
      | eq => exact .cons ⟨rfl, values⟩ rest
      | gt => exact .cons ⟨rfl, first⟩ induction

theorem Related.lookup
    [BEq κ]
    (rest : Related related entries others) (key : κ) :
    Option.Rel related (List.lookup key entries) (List.lookup key others) := by
  induction rest with
  | nil => exact .none
  | @cons entry otherEntry entries others first rest induction =>
      rcases entry with ⟨present, value⟩
      rcases otherEntry with ⟨same, other⟩
      rcases first with ⟨rfl, first⟩
      rw [List.lookup_cons, List.lookup_cons]
      cases key == present with
      | true => exact .some first
      | false => exact induction

theorem Related.mono
    {weaker : α → β → Prop}
    (implies : ∀ value other, related value other → weaker value other)
    (rest : Related related entries others) :
    Related weaker entries others :=
  List.Forall₂.imp (fun _ _ entry => ⟨entry.1, implies _ _ entry.2⟩) rest

end Sorted

/-- Related arguments give related bindings of the same parameters. -/
theorem Closure.bind_related
    {related : Value → Value → Prop}
    {closure other : Closure} {arguments others : List Value}
    (parameters : closure.parameters = other.parameters)
    (values : List.Forall₂ related arguments others) :
    Sorted.Related related (closure.bind arguments) (other.bind others) := by
  have fold : ∀ (names : List String) (done doneOther : Sorted String Value),
      Sorted.Related related done doneOther →
      Sorted.Related related
        ((names.zip arguments).foldl
          (fun bindings pair => bindings.insert pair.1 pair.2) done)
        ((names.zip others).foldl
          (fun bindings pair => bindings.insert pair.1 pair.2) doneOther) := by
    induction values with
    | nil =>
        intro names done doneOther start
        rw [List.zip_nil_right]
        exact start
    | cons first rest induction =>
        intro names done doneOther start
        cases names with
        | nil => exact start
        | cons name names => exact induction names _ _ (start.insert first)
  rw [bind, bind, parameters]
  exact fold other.parameters [] [] .nil

/-! ## Values that are alike -/

namespace Value

/-- Values that are not made of other values and name no scope. -/
def IsPlain : Value → Prop
  | .integer _ | .boolean _ | .string _ | .builtin _ | .null => True
  | _ => False

/-- Values that have an identity. -/
def IsCompound : Value → Prop
  | .array _ _ | .hash _ _ | .function _ _ => True
  | _ => False

/--
Values of the same type whose parts are related.  The identities and the scopes
of functions may differ.
-/
inductive Alike (related : Value → Value → Prop) : Value → Value → Prop
  | integer (value : Int64) : Alike related (.integer value) (.integer value)
  | boolean (value : Bool) : Alike related (.boolean value) (.boolean value)
  | string (text : String) : Alike related (.string text) (.string text)
  | builtin (builtin : Builtin) :
      Alike related (.builtin builtin) (.builtin builtin)
  | error (failure : Failure) :
      Alike related (.error failure) (.error failure)
  | null : Alike related .null .null
  | array {identity other : Identity} {items others : List Value} :
      List.Forall₂ related items others →
      Alike related (.array identity items) (.array other others)
  | hash {identity other : Identity} {entries others : Entries} :
      Sorted.Related related entries others →
      Alike related (.hash identity entries) (.hash other others)
  | function {identity other : Identity} {closure twin : Closure} :
      closure.parameters = twin.parameters →
      closure.body = twin.body →
      Alike related (.function identity closure) (.function other twin)

namespace Alike

variable {related : Value → Value → Prop} {value other : Value}

theorem kind_eq (alike : Alike related value other) :
    value.kind = other.kind := by
  cases alike <;> rfl

theorem isTruthy_eq (alike : Alike related value other) :
    value.isTruthy = other.isTruthy := by
  cases alike <;> rfl

theorem toKey_eq (alike : Alike related value other) :
    value.toKey = other.toKey := by
  cases alike <;> rfl

theorem measure_eq (alike : Alike related value other) :
    Builtin.measure value = Builtin.measure other := by
  cases alike with
  | array items => exact congrArg Except.ok items.length_eq
  | _ => rfl

theorem eq_or_isCompound (alike : Alike related value other) :
    value = other ∨ value.IsCompound ∧ other.IsCompound := by
  cases alike with
  | array items => exact .inr ⟨trivial, trivial⟩
  | hash entries => exact .inr ⟨trivial, trivial⟩
  | function parameters body => exact .inr ⟨trivial, trivial⟩
  | _ => exact .inl rfl

end Alike

end Value

/-! ## Texts of values that are alike -/

namespace Value

variable {related : Value → Value → Prop}

mutual

/-- Values that are alike in all their parts have the same text. -/
theorem inspect_congr
    (alike : ∀ {value other}, related value other →
      value.Alike related other) :
    ∀ {value other : Value}, related value other →
      value.inspect = other.inspect
  | .integer _, _, values => by
    cases alike values
    rfl
  | .boolean _, _, values => by
    cases alike values
    rfl
  | .string _, _, values => by
    cases alike values
    rfl
  | .builtin _, _, values => by
    cases alike values
    rfl
  | .error _, _, values => by
    cases alike values
    rfl
  | .null, _, values => by
    cases alike values
    rfl
  | .array _ items, _, values => by
    cases alike values with
    | array items => rw [inspect, inspect, inspectList_congr alike items]
  | .hash _ entries, _, values => by
    cases alike values with
    | hash entries => rw [inspect, inspect, inspectEntries_congr alike entries]
  | .function _ _, _, values => by
    cases alike values with
    | function parameters body =>
        rw [inspect, inspect, Closure.inspect, Closure.inspect, parameters,
          body]

theorem inspectList_congr
    (alike : ∀ {value other}, related value other →
      value.Alike related other) :
    ∀ {items others : List Value}, List.Forall₂ related items others →
      inspectList items = inspectList others
  | [], _, .nil => rfl
  | [item], _, .cons first .nil => by
    rw [inspectList, inspectList, inspect_congr alike first]
  | item :: second :: items, _, .cons first (.cons next rest) => by
    have texts := inspectList_congr alike (.cons next rest)
    exact congrArg₂ (· ++ ", " ++ ·) (inspect_congr alike first) texts

theorem inspectEntries_congr
    (alike : ∀ {value other}, related value other →
      value.Alike related other) :
    ∀ {entries others : List (Key × Value)},
      Sorted.Related related entries others →
      inspectEntries entries = inspectEntries others
  | [], _, .nil => rfl
  | [(key, value)], _, .cons first .nil => by
    exact congrArg₂ (fun key text => key.inspect ++ ": " ++ text)
      first.1 (inspect_congr alike first.2)
  | (key, value) :: second :: entries, _, .cons first (.cons next rest) => by
    have texts := inspectEntries_congr alike (.cons next rest)
    have entry := congrArg₂ (fun key text => Key.inspect key ++ ": " ++ text)
      first.1 (inspect_congr alike first.2)
    exact congrArg₂ (· ++ ", " ++ ·) entry texts

end

theorem inspects_congr
    {arguments others : List Value}
    (alike : ∀ {value other}, related value other →
      value.Alike related other)
    (values : List.Forall₂ related arguments others) :
    arguments.map inspect = others.map inspect := by
  induction values with
  | nil => rfl
  | cons first rest induction =>
      rw [List.map_cons, List.map_cons, inspect_congr alike first, induction]

end Value

/-! ## Operators on values that are alike -/

theorem UnaryOp.apply_congr
    {related : Value → Value → Prop} {operand other : Value}
    (alike : operand.Alike related other) (operator : UnaryOp) :
    operator.apply operand = operator.apply other := by
  cases operator with
  | not => rw [apply, apply, alike.isTruthy_eq]
  | negate => cases alike <;> rfl

namespace BinaryOp

/-- Values with an identity can only be tested for it. -/
theorem apply_of_isCompound
    {left right : Value}
    (compound : left.IsCompound ∨ right.IsCompound)
    (operator : BinaryOp) :
    operator.apply left right =
      if operator = .equal then
        .ok (.boolean (left.isIdentical right))
      else if operator = .notEqual then
        .ok (.boolean !(left.isIdentical right))
      else
        .error (operator.mismatch left.kind right.kind) := by
  rw [apply.eq_def]
  split
  · rcases compound with impossible | impossible <;> cases impossible
  · rfl
  · rfl
  · rcases compound with impossible | impossible <;> cases impossible
  · next notEqual notDifferent _ _ =>
    rw [if_neg notEqual, if_neg notDifferent]

theorem apply_congr
    {related : Value → Value → Prop} {left right first second : Value}
    (lefts : left.Alike related first) (rights : right.Alike related second)
    (same : left.isIdentical right = first.isIdentical second)
    (operator : BinaryOp) :
    operator.apply left right = operator.apply first second := by
  have compounds :
      left.IsCompound ∧ first.IsCompound ∨
          right.IsCompound ∧ second.IsCompound →
        operator.apply left right = operator.apply first second := by
    intro compound
    rw [apply_of_isCompound (compound.imp And.left And.left),
      apply_of_isCompound (compound.imp And.right And.right), same,
      lefts.kind_eq, rights.kind_eq]
  -- Without an identity the operands are equal; with one, they can only be
  -- tested for it, or their types do not fit the operator.
  rcases lefts.eq_or_isCompound with rfl | both
  · rcases rights.eq_or_isCompound with rfl | both
    · rfl
    · exact compounds (.inr both)
  · exact compounds (.inl both)

theorem isPlain_of_apply
    {operator : BinaryOp} {left right value : Value}
    (outcome : operator.apply left right = .ok value) :
    value.IsPlain := by
  rw [apply.eq_def] at outcome
  split at outcome
  · cases operator with
    | divide =>
        rw [applyIntegers] at outcome
        split at outcome
        · cases outcome
        · cases outcome
          trivial
    | _ =>
        cases outcome
        trivial
  · cases outcome
    trivial
  · cases outcome
    trivial
  · cases outcome
    trivial
  · cases outcome

end BinaryOp

theorem UnaryOp.isPlain_of_apply
    {operator : UnaryOp} {operand value : Value}
    (outcome : operator.apply operand = .ok value) :
    value.IsPlain := by
  rw [apply.eq_def] at outcome
  split at outcome
  · cases outcome
    trivial
  · cases outcome
    trivial
  · cases outcome

/-! ## Outcomes that are alike -/

/-- Both fail for the same reason, or both have values, which are related. -/
inductive Outcomes {α : Type} (related : α → α → Prop) :
    Except Failure α → Except Failure α → Prop
  | ok {value other : α} :
      related value other → Outcomes related (.ok value) (.ok other)
  | error (failure : Failure) :
      Outcomes related (.error failure) (.error failure)

namespace Outcomes

theorem bind
    {α β : Type} {first : α → α → Prop} {second : β → β → Prop}
    {outcome other : Except Failure α} {next twin : α → Except Failure β}
    (start : Outcomes first outcome other)
    (continues : ∀ value same, first value same →
      Outcomes second (next value) (twin same)) :
    Outcomes second (outcome >>= next) (other >>= twin) := by
  cases start with
  | ok values => exact continues _ _ values
  | error failure => exact .error failure

variable {related : Value → Value → Prop}

theorem of_eq
    {outcome other : Except Failure Value}
    (same : outcome = other)
    (plain : ∀ value, outcome = .ok value → related value value) :
    Outcomes related outcome other := by
  subst same
  cases outcome with
  | ok value => exact .ok (plain value rfl)
  | error failure => exact .error failure

theorem getD
    {first second : Option Value}
    (null : related .null .null)
    (options : Option.Rel related first second) :
    related (first.getD .null) (second.getD .null) := by
  cases options with
  | some values => exact values
  | none => exact null

theorem insert
    {entries others : Entries} {key twin value other : Value}
    (rest : Sorted.Related related entries others)
    (keys : key.Alike related twin) (values : related value other) :
    Outcomes (Sorted.Related related) (Entries.insert entries key value)
      (Entries.insert others twin other) := by
  rw [Entries.insert, Entries.insert, keys.toKey_eq]
  cases twin.toKey with
  | ok key => exact .ok (rest.insert values)
  | error failure => exact .error failure

theorem itemAt
    {items others : List Value}
    (null : related .null .null)
    (rest : List.Forall₂ related items others) (position : Int64) :
    related (Bhasha.itemAt items position)
      (Bhasha.itemAt others position) := by
  rw [Bhasha.itemAt, Bhasha.itemAt]
  split
  · exact null
  · generalize position.toInt.toNat = index
    induction rest generalizing index with
    | nil => exact null
    | cons first rest induction =>
        cases index with
        | zero => exact first
        | succ index => exact induction index

theorem index
    {collection other position twin : Value}
    (null : related .null .null)
    (collections : collection.Alike related other)
    (positions : position.Alike related twin) :
    Outcomes related (collection.index position) (other.index twin) := by
  cases collections with
  | array items =>
      cases positions with
      | integer position => exact .ok (itemAt null items position)
      | _ => exact .error _
  | hash entries =>
      rw [Value.index, Value.index, positions.toKey_eq]
      cases twin.toKey with
      | error failure => exact .error failure
      | ok key => exact .ok (getD null (entries.lookup key))
  | _ => exact .error _

end Outcomes

/-! ## Simulations -/

/--
Relations between two evaluations, in worlds that grow.  A world may also limit
which code is evaluated in a scope.
-/
structure Simulation (World : Type) where
  later : World → World → Prop
  scopes : World → ScopeId → ScopeId → Prop
  permits : World → ScopeId → Code → Prop
  values : World → Value → Value → Prop
  machines : World → Machine → Machine → Prop
  refl (world : World) : later world world
  trans {first second third : World} :
    later first second → later second third → later first third
  scopes_later {world next : World} {scope twin : ScopeId} :
    later world next → scopes world scope twin → scopes next scope twin
  permits_later {world next : World} {scope : ScopeId} {code : Code} :
    later world next → permits world scope code → permits next scope code
  values_later {world next : World} {value other : Value} :
    later world next → values world value other → values next value other
  permits_contains {world : World} {scope : ScopeId} {code inner : Code} :
    permits world scope code → code.Contains inner →
    permits world scope inner
  /-- Related values differ in identities and scopes only. -/
  alike {world : World} {value other : Value} :
    values world value other → value.Alike (values world) other
  identical {world : World} {left right first second : Value} :
    values world left first → values world right second →
    left.isIdentical right = first.isIdentical second
  plain {world : World} {value : Value} :
    value.IsPlain → values world value value
  lookup {world : World} {machine twin : Machine} {scope other : ScopeId}
    (name : String) :
    machines world machine twin → scopes world scope other →
    permits world scope (.expr (.name name)) →
    Option.Rel (values world) (machine.scopes.lookup scope name)
      (twin.scopes.lookup other name)
  array {world : World} {machine twin : Machine}
    {items others : List Value} :
    machines world machine twin →
    List.Forall₂ (values world) items others →
    ∃ next, later world next ∧
      machines next { machine with supply := machine.supply + 1 }
        { twin with supply := twin.supply + 1 } ∧
      values next (.array machine.supply items) (.array twin.supply others)
  hash {world : World} {machine twin : Machine} {entries others : Entries} :
    machines world machine twin →
    Sorted.Related (values world) entries others →
    ∃ next, later world next ∧
      machines next { machine with supply := machine.supply + 1 }
        { twin with supply := twin.supply + 1 } ∧
      values next (.hash machine.supply entries) (.hash twin.supply others)
  function {world : World} {machine twin : Machine} {scope other : ScopeId}
    {parameters : List String} {body : Block} :
    machines world machine twin → scopes world scope other →
    permits world scope (.expr (.function parameters body)) →
    ∃ next, later world next ∧
      machines next { machine with supply := machine.supply + 1 }
        { twin with supply := twin.supply + 1 } ∧
      values next (.function machine.supply ⟨parameters, body, scope⟩)
        (.function twin.supply ⟨parameters, body, other⟩)
  define {world : World} {machine twin : Machine} {scope other : ScopeId}
    {name : String} {tree : Expr} {value same : Value} :
    machines world machine twin → scopes world scope other →
    permits world scope (.stmt (.define name tree)) →
    values world value same →
    machines world
      { machine with scopes := machine.scopes.define scope name value }
      { twin with scopes := twin.scopes.define other name same }
  enter {world : World} {machine twin : Machine}
    {identity other : Identity} {closure copy : Closure}
    {arguments others : List Value} :
    machines world machine twin →
    values world (.function identity closure) (.function other copy) →
    List.Forall₂ (values world) arguments others →
    ∃ next, later world next ∧
      machines next (machine.entered closure arguments)
        (twin.entered copy others) ∧
      scopes next machine.scopes.size twin.scopes.size ∧
      permits next machine.scopes.size (.stmts closure.body)
  leave {world : World} {machine twin : Machine} :
    machines world machine twin → machines world machine.left twin.left
  depth {world : World} {machine twin : Machine} :
    machines world machine twin → machine.depth = twin.depth
  print {world : World} {machine twin : Machine}
    {arguments others : List Value} (builtin : Builtin) :
    machines world machine twin →
    List.Forall₂ (values world) arguments others →
    machines world
      { machine with sink := (builtin.call arguments machine.sink).2 }
      { twin with sink := (builtin.call others twin.sink).2 }

namespace Simulation

variable {World : Type} (simulation : Simulation World)

/-! ## Builtins -/

section

variable {world : World}

theorem null : simulation.values world .null .null :=
  simulation.plain trivial

theorem single_related
    {arguments others : List Value}
    (related : List.Forall₂ (simulation.values world) arguments others) :
    Outcomes (simulation.values world) (Builtin.single arguments)
      (Builtin.single others) := by
  cases related with
  | nil => exact .error _
  | cons first rest =>
      cases rest with
      | nil => exact .ok first
      | cons second rest =>
          rw [Builtin.single, Builtin.single, List.length_cons,
            List.length_cons, List.length_cons, List.length_cons,
            rest.length_eq]
          · exact .error _
          · nofun
          · nofun

/-- What a builtin gives does not depend on where it writes to. -/
theorem call_related
    {arguments others : List Value} {sink other : Sink}
    (builtin : Builtin)
    (related : List.Forall₂ (simulation.values world) arguments others) :
    Outcomes (simulation.values world) (builtin.call arguments sink).1
      (builtin.call others other).1 := by
  have single := simulation.single_related related
  cases builtin with
  | print => exact .ok simulation.null
  | write => exact .ok simulation.null
  | printLines => exact .ok simulation.null
  | length =>
      refine single.bind fun value same values => ?_
      rw [(simulation.alike values).measure_eq]
      refine Outcomes.of_eq rfl fun result found => ?_
      cases size : Builtin.measure same with
      | ok size =>
          rw [size] at found
          cases found
          exact simulation.plain trivial
      | error failure =>
          rw [size] at found
          cases found
  | typeName =>
      refine single.bind fun value same values => ?_
      rw [(simulation.alike values).kind_eq]
      exact .ok (simulation.plain trivial)
  | text =>
      refine single.bind fun value same values => ?_
      rw [Value.inspect_congr simulation.alike values]
      exact .ok (simulation.plain trivial)

theorem lists_later
    {next : World} {values others : List Value}
    (later : simulation.later world next)
    (related : List.Forall₂ (simulation.values world) values others) :
    List.Forall₂ (simulation.values next) values others :=
  related.imp fun _ _ => simulation.values_later later

theorem entries_later
    {next : World} {entries others : Entries}
    (later : simulation.later world next)
    (related : Sorted.Related (simulation.values world) entries others) :
    Sorted.Related (simulation.values next) entries others :=
  related.mono fun _ _ => simulation.values_later later

end

/-! ## Plans in step -/

section

variable {α β : Type}

/-- Two steps end in the same way, with related values and machines. -/
inductive Endings (related : World → α → α → Prop) (world : World) :
    Ending α → Ending α → Prop
  | ok {value other : α} {machine twin : Machine} :
      simulation.machines world machine twin →
      related world value other →
      Endings related world (.ok value machine) (.ok other twin)
  | returned {value other : Value} {machine twin : Machine} :
      simulation.machines world machine twin →
      simulation.values world value other →
      Endings related world (.error (.returned value) machine)
        (.error (.returned other) twin)
  | failed {failure : Failure} {machine twin : Machine} :
      simulation.machines world machine twin →
      Endings related world (.error (.failed failure) machine)
        (.error (.failed failure) twin)

/-- What is evaluated from the same code is related. -/
def answers : (code : Code) → World → code.Answer → code.Answer → Prop
  | .expr _, world => simulation.values world
  | .exprs _, world => List.Forall₂ (simulation.values world)
  | .stmt _, world => Option.Rel (simulation.values world)
  | .stmts _, world => Option.Rel (simulation.values world)

/--
Two plans make the same requests, in related machines, as long as the answers
are related, and end in the same way.
-/
inductive Plans (related : World → α → α → Prop) :
    World → Plan α → Plan α → Prop
  | done {world now : World} {ending other : Ending α} :
      simulation.later world now →
      simulation.Endings related now ending other →
      Plans related world (.done ending) (.done other)
  | eval {world now : World} {scope other : ScopeId} {code : Code}
      {machine twin : Machine} {next same : Ending code.Answer → Plan α} :
      simulation.later world now →
      simulation.machines now machine twin →
      simulation.scopes now scope other →
      simulation.permits now scope code →
      (∀ {last answer reply}, simulation.later now last →
        simulation.Endings (simulation.answers code) last answer reply →
        Plans related last (next answer) (same reply)) →
      Plans related world (.ask (.eval scope code) machine next)
        (.ask (.eval other code) twin same)
  | apply {world now : World} {callee other : Value}
      {arguments others : List Value} {machine twin : Machine}
      {next same : Ending Value → Plan α} :
      simulation.later world now →
      simulation.machines now machine twin →
      simulation.values now callee other →
      List.Forall₂ (simulation.values now) arguments others →
      (∀ {last answer reply}, simulation.later now last →
        simulation.Endings simulation.values last answer reply →
        Plans related last (next answer) (same reply)) →
      Plans related world (.ask (.apply callee arguments) machine next)
        (.ask (.apply other others) twin same)

/-- Two tasks have plans in step from now on. -/
def Tasks (related : World → α → α → Prop) (world : World)
    (task twin : Task α) : Prop :=
  ∀ now machine other, simulation.later world now →
    simulation.machines now machine other →
    simulation.Plans related now (task machine) (twin other)

end

variable {simulation}
variable {α β : Type} {world : World}
variable {related : World → α → α → Prop} {goal : World → β → β → Prop}

theorem Endings.ofExcept
    {outcome other : Except Failure α} {machine twin : Machine}
    (machines : simulation.machines world machine twin)
    (outcomes : Outcomes (related world) outcome other) :
    simulation.Endings related world (EvalM.ofExcept outcome machine)
      (EvalM.ofExcept other twin) := by
  cases outcomes with
  | ok values => exact .ok machines values
  | error failure => exact .failed machines

/-- The ending of a call, from the ending of its body. -/
theorem Endings.leaveCall
    {ending other : Ending (Option Value)}
    (endings : simulation.Endings
      (fun now => Option.Rel (simulation.values now)) world ending other) :
    simulation.Endings simulation.values world (Ending.leaveCall ending)
      (Ending.leaveCall other) := by
  cases endings with
  | ok machines results =>
      exact .ok (simulation.leave machines)
        (Outcomes.getD simulation.null results)
  | returned machines values => exact .ok (simulation.leave machines) values
  | failed machines => exact .failed (simulation.leave machines)

theorem Plans.earlier
    {now : World} {plan twin : Plan α}
    (later : simulation.later world now)
    (plans : simulation.Plans related now plan twin) :
    simulation.Plans related world plan twin := by
  cases plans with
  | done step endings => exact .done (simulation.trans later step) endings
  | eval step machines scopes permits next =>
      exact .eval (simulation.trans later step) machines scopes permits next
  | apply step machines callees arguments next =>
      exact .apply (simulation.trans later step) machines callees arguments
        next

theorem Plans.andThen
    {plan twin : Plan α} {next same : Ending α → Plan β}
    (plans : simulation.Plans related world plan twin)
    (continues : ∀ {now ending other}, simulation.later world now →
      simulation.Endings related now ending other →
      simulation.Plans goal now (next ending) (same other)) :
    simulation.Plans goal world (plan.andThen next) (twin.andThen same) := by
  induction plans with
  | done step endings => exact .earlier step (continues step endings)
  | eval step machines scopes permits _ induction =>
      refine .eval step machines scopes permits fun more answers => ?_
      refine induction more answers fun further => ?_
      exact continues (simulation.trans step (simulation.trans more further))
  | apply step machines callees arguments _ induction =>
      refine .apply step machines callees arguments fun more answers => ?_
      refine induction more answers fun further => ?_
      exact continues (simulation.trans step (simulation.trans more further))

namespace Tasks

theorem later
    {now : World} {task twin : Task α}
    (tasks : simulation.Tasks related world task twin)
    (step : simulation.later world now) :
    simulation.Tasks related now task twin :=
  fun _ _ _ more machines => tasks _ _ _ (simulation.trans step more) machines

theorem bind
    {task twin : Task α} {next same : α → Task β}
    (first : simulation.Tasks related world task twin)
    (second : ∀ {now value other}, simulation.later world now →
      related now value other →
      simulation.Tasks goal now (next value) (same other)) :
    simulation.Tasks goal world (task >>= next) (twin >>= same) := by
  intro now machine other step machines
  refine (first _ _ _ step machines).andThen fun more endings => ?_
  cases endings with
  | ok machines values =>
      exact second (simulation.trans step more) values _ _ _
        (simulation.refl _) machines
  | returned machines values =>
      exact .done (simulation.refl _) (.returned machines values)
  | failed machines =>
      exact .done (simulation.refl _) (.failed machines)

theorem step
    {task twin : EvalM α}
    (endings : ∀ {now machine other}, simulation.later world now →
      simulation.machines now machine other →
      ∃ last, simulation.later now last ∧
        simulation.Endings related last (task machine) (twin other)) :
    simulation.Tasks related world (Task.step task) (Task.step twin) := by
  intro now machine other step machines
  rcases endings step machines with ⟨last, more, endings⟩
  exact .done more endings

theorem pure
    {value other : α}
    (values : ∀ {now}, simulation.later world now →
      related now value other) :
    simulation.Tasks related world (pure value) (pure other) :=
  step fun later machines =>
    ⟨_, simulation.refl _, .ok machines (values later)⟩

theorem ofExcept
    {outcome other : Except Failure α}
    (outcomes : ∀ {now}, simulation.later world now →
      Outcomes (related now) outcome other) :
    simulation.Tasks related world (Task.step (EvalM.ofExcept outcome))
      (Task.step (EvalM.ofExcept other)) := by
  exact step fun {now} _ _ later machines =>
    ⟨now, simulation.refl _, .ofExcept machines (outcomes later)⟩

theorem eval
    {scope other : ScopeId} {code : Code}
    (scopes : simulation.scopes world scope other)
    (permits : simulation.permits world scope code) :
    simulation.Tasks (simulation.answers code) world (Task.eval scope code)
      (Task.eval other code) := by
  intro now machine twin later machines
  exact .eval (simulation.refl _) machines
    (simulation.scopes_later later scopes)
    (simulation.permits_later later permits)
    fun _ endings => .done (simulation.refl _) endings

theorem ask
    {callee other : Value} {arguments others : List Value}
    (callees : simulation.values world callee other)
    (values : List.Forall₂ (simulation.values world) arguments others) :
    simulation.Tasks simulation.values world
      (Task.ask (.apply callee arguments))
      (Task.ask (.apply other others)) := by
  intro now machine twin later machines
  exact .apply (simulation.refl _) machines
    (simulation.values_later later callees)
    (simulation.lists_later later values)
    fun _ endings => .done (simulation.refl _) endings

/-! ## Code in step -/

variable {scope other : ScopeId}

theorem branch
    {body : List Stmt}
    (scopes : simulation.scopes world scope other)
    (permits : simulation.permits world scope (.stmts body)) :
    simulation.Tasks simulation.values world (Task.branch scope body)
      (Task.branch other body) :=
  (eval scopes permits).bind fun _ results => pure fun later =>
    simulation.values_later later (Outcomes.getD simulation.null results)

theorem exprs
    {trees : List Expr}
    (scopes : simulation.scopes world scope other)
    (permits : ∀ tree ∈ trees, simulation.permits world scope (.expr tree)) :
    simulation.Tasks (fun now => List.Forall₂ (simulation.values now)) world
      (Task.exprs scope trees) (Task.exprs other trees) := by
  induction trees generalizing world with
  | nil => exact pure fun _ => .nil
  | cons first rest induction =>
      rcases List.forall_mem_cons.1 permits with ⟨here, behind⟩
      refine (eval scopes here).bind fun later value => ?_
      refine (induction (simulation.scopes_later later scopes)
        fun tree inside =>
          simulation.permits_later later (behind tree inside)).bind
        fun more values => ?_
      exact pure fun further =>
        .cons (simulation.values_later (simulation.trans more further) value)
          (simulation.lists_later further values)

theorem entries
    {pairs : List (Expr × Expr)} {done same : Entries}
    (scopes : simulation.scopes world scope other)
    (keys : ∀ pair ∈ pairs, simulation.permits world scope (.expr pair.1))
    (values : ∀ pair ∈ pairs, simulation.permits world scope (.expr pair.2))
    (entries : Sorted.Related (simulation.values world) done same) :
    simulation.Tasks (fun now => Sorted.Related (simulation.values now))
      world (Task.entries scope done pairs)
      (Task.entries other same pairs) := by
  induction pairs generalizing world done same with
  | nil => exact pure fun later => simulation.entries_later later entries
  | cons pair rest induction =>
      rcases List.forall_mem_cons.1 keys with ⟨key, laterKeys⟩
      rcases List.forall_mem_cons.1 values with ⟨value, laterValues⟩
      refine (eval scopes key).bind fun {first _ _} later found => ?_
      refine (eval (simulation.scopes_later later scopes)
        (simulation.permits_later later value)).bind
        fun {second _ _} more result => ?_
      have start := simulation.trans later more
      have inserts :
          simulation.Tasks (fun now => Sorted.Related (simulation.values now))
            second _ _ :=
        ofExcept fun further =>
          Outcomes.insert
            (simulation.entries_later (simulation.trans start further)
              entries)
            (simulation.alike (simulation.values_later
              (simulation.trans more further) found))
            (simulation.values_later further result)
      refine inserts.bind fun further larger => ?_
      have whole := simulation.trans start further
      exact induction (simulation.scopes_later whole scopes)
        (fun pair inside =>
          simulation.permits_later whole (laterKeys pair inside))
        (fun pair inside =>
          simulation.permits_later whole (laterValues pair inside))
        larger

theorem stmts
    {statements : List Stmt} {last same : Option Value}
    (scopes : simulation.scopes world scope other)
    (permits : ∀ each ∈ statements,
      simulation.permits world scope (.stmt each))
    (results : Option.Rel (simulation.values world) last same) :
    simulation.Tasks (fun now => Option.Rel (simulation.values now)) world
      (Task.stmts scope last statements)
      (Task.stmts other same statements) := by
  induction statements generalizing world last same with
  | nil =>
      refine pure fun later => ?_
      cases results with
      | some values => exact .some (simulation.values_later later values)
      | none => exact .none
  | cons first rest induction =>
      rcases List.forall_mem_cons.1 permits with ⟨here, behind⟩
      refine (eval scopes here).bind fun later result => ?_
      exact induction (simulation.scopes_later later scopes)
        (fun each inside =>
          simulation.permits_later later (behind each inside)) result

theorem name
    {identifier : String}
    (scopes : simulation.scopes world scope other)
    (permits : simulation.permits world scope (.expr (.name identifier))) :
    simulation.Tasks simulation.values world
      (Task.step (Evaluation.name scope identifier))
      (Task.step (Evaluation.name other identifier)) := by
  refine step fun {now machine twin} later machines =>
    ⟨now, simulation.refl _, ?_⟩
  have found := simulation.lookup identifier machines
    (simulation.scopes_later later scopes)
    (simulation.permits_later later permits)
  rw [Evaluation.name_eq, Evaluation.name_eq]
  generalize machine.scopes.lookup scope identifier = first at found
  generalize twin.scopes.lookup other identifier = second at found
  cases found with
  | some values => exact .ok machines values
  | none =>
      cases Builtin.ofName? identifier with
      | some builtin => exact .ok machines (simulation.plain trivial)
      | none => exact .failed machines

/-- An array, a hash or a function gets the next identity. -/
theorem fresh
    {make twin : Identity → Value}
    (values : ∀ {now machine other}, simulation.later world now →
      simulation.machines now machine other →
      ∃ next, simulation.later now next ∧
        simulation.machines next
          { machine with supply := machine.supply + 1 }
          { other with supply := other.supply + 1 } ∧
        simulation.values next (make machine.supply) (twin other.supply)) :
    simulation.Tasks simulation.values world
      (do return make (← Task.step EvalM.fresh))
      (do return twin (← Task.step EvalM.fresh)) := by
  intro now machine other later machines
  rcases values later machines with ⟨next, more, machines, values⟩
  exact .done more (.ok machines values)

theorem expr
    {tree : Expr}
    (scopes : simulation.scopes world scope other)
    (permits : simulation.permits world scope (.expr tree)) :
    simulation.Tasks simulation.values world (Task.expr scope tree)
      (Task.expr other tree) := by
  have inner : ∀ {code}, (Code.expr tree).Contains code →
      simulation.permits world scope code :=
    fun contains => simulation.permits_contains permits contains
  have evaluates : ∀ {code now}, (Code.expr tree).Contains code →
      simulation.later world now →
      simulation.Tasks (simulation.answers code) now (Task.eval scope code)
        (Task.eval other code) :=
    fun contains later =>
      (eval scopes (inner contains)).later later
  cases tree with
  | name identifier => exact name scopes permits
  | integer value => exact pure fun _ => simulation.plain trivial
  | string text => exact pure fun _ => simulation.plain trivial
  | boolean value => exact pure fun _ => simulation.plain trivial
  | array items =>
      refine (eval scopes (inner .items)).bind fun _ values => ?_
      exact fresh fun later machines =>
        simulation.array machines (simulation.lists_later later values)
  | hash pairs =>
      refine (entries scopes (fun pair inside => inner (.key inside))
        (fun pair inside => inner (.value inside)) .nil).bind
        fun _ found => ?_
      exact fresh fun later machines =>
        simulation.hash machines (simulation.entries_later later found)
  | unary operator operand =>
      refine (eval scopes (inner .operand)).bind fun _ values => ?_
      refine ofExcept fun later => Outcomes.of_eq ?_ fun _ outcome => ?_
      · exact UnaryOp.apply_congr (simulation.alike values) operator
      · exact simulation.plain (UnaryOp.isPlain_of_apply outcome)
  | binary operator left right =>
      refine (eval scopes (inner .left)).bind fun later lefts => ?_
      refine (evaluates .right later).bind fun more rights => ?_
      have first := simulation.values_later more lefts
      refine ofExcept fun further => Outcomes.of_eq ?_ fun _ outcome => ?_
      · exact BinaryOp.apply_congr (simulation.alike first)
          (simulation.alike rights) (simulation.identical first rights)
          operator
      · exact simulation.plain (BinaryOp.isPlain_of_apply outcome)
  | conditional condition consequence alternative =>
      refine (eval scopes (inner .condition)).bind fun later values => ?_
      have here := simulation.scopes_later later scopes
      rw [(simulation.alike values).isTruthy_eq]
      split
      · exact branch here (simulation.permits_later later (inner .consequence))
      · cases alternative with
        | none => exact pure fun _ => simulation.null
        | some body =>
            exact branch here
              (simulation.permits_later later (inner .alternative))
  | function parameters body =>
      exact fresh fun later machines =>
        simulation.function machines (simulation.scopes_later later scopes)
          (simulation.permits_later later permits)
  | call callee arguments =>
      refine (eval scopes (inner .callee)).bind fun later callees => ?_
      refine (evaluates .arguments later).bind fun more values => ?_
      exact ask (simulation.values_later more callees) values
  | index collection position =>
      refine (eval scopes (inner .collection)).bind fun later values => ?_
      refine (evaluates .position later).bind fun more positions => ?_
      refine ofExcept fun further => ?_
      exact Outcomes.index simulation.null
        (simulation.alike (simulation.values_later
          (simulation.trans more further) values))
        (simulation.alike (simulation.values_later further positions))

theorem stmt
    {statement : Stmt}
    (scopes : simulation.scopes world scope other)
    (permits : simulation.permits world scope (.stmt statement)) :
    simulation.Tasks (fun now => Option.Rel (simulation.values now)) world
      (Task.stmt scope statement) (Task.stmt other statement) := by
  have inner : ∀ {code}, (Code.stmt statement).Contains code →
      simulation.permits world scope code :=
    fun contains => simulation.permits_contains permits contains
  cases statement with
  | define name value =>
      refine (eval scopes (inner .definition)).bind fun later values => ?_
      have defines :
          simulation.Tasks (fun _ _ _ => True) _
            (Task.step (EvalM.define scope name _))
            (Task.step (EvalM.define other name _)) :=
        step fun {now} _ _ more machines =>
          ⟨now, simulation.refl _,
            .ok (simulation.define machines
              (simulation.scopes_later (simulation.trans later more) scopes)
              (simulation.permits_later (simulation.trans later more)
                permits)
              (simulation.values_later more values)) trivial⟩
      exact defines.bind fun _ _ => pure fun _ => .none
  | result value =>
      refine (eval scopes (inner .result)).bind fun _ values => ?_
      exact step fun {now} _ _ more machines =>
        ⟨now, simulation.refl _,
          .returned machines (simulation.values_later more values)⟩
  | expression value =>
      refine (eval scopes (inner .expression)).bind fun _ values => ?_
      exact pure fun later => .some (simulation.values_later later values)
  | block body => exact eval scopes (inner .block)

/-- The evaluation of the same code in related scopes. -/
theorem code
    {code : Code}
    (config : Config)
    (scopes : simulation.scopes world scope other)
    (permits : simulation.permits world scope code) :
    simulation.Tasks (simulation.answers code) world
      ((Request.eval scope code).task config)
      ((Request.eval other code).task config) := by
  cases code with
  | expr tree => exact expr scopes permits
  | exprs trees =>
      exact exprs scopes fun tree inside =>
        simulation.permits_contains permits (.tree inside)
  | stmt statement => exact stmt scopes permits
  | stmts statements =>
      exact stmts scopes
        (fun each inside =>
          simulation.permits_contains permits (.statement inside)) .none

/-! ## Calls in step -/

variable {arguments others : List Value}

theorem run
    (builtin : Builtin)
    (values : List.Forall₂ (simulation.values world) arguments others) :
    simulation.Tasks simulation.values world
      (Task.step (builtin.run arguments))
      (Task.step (builtin.run others)) := by
  refine step fun {now machine twin} later machines =>
    ⟨now, simulation.refl _, ?_⟩
  have values := simulation.lists_later later values
  rw [Builtin.run_eq, Builtin.run_eq]
  exact .ofExcept (simulation.print builtin machines values)
    (simulation.call_related builtin values)

/-- A function is called in step with a related one. -/
theorem call
    {identity same : Identity} {closure copy : Closure}
    (config : Config)
    (callees : simulation.values world (.function identity closure)
      (.function same copy))
    (values : List.Forall₂ (simulation.values world) arguments others) :
    simulation.Tasks simulation.values world
      (Task.apply config (.function identity closure) arguments)
      (Task.apply config (.function same copy) others) := by
  intro now machine twin later machines
  have callees := simulation.values_later later callees
  have values := simulation.lists_later later values
  have depth := simulation.depth machines
  cases simulation.alike callees with
  | function parameters body =>
      by_cases fits : arguments.length = closure.parameters.length
      · have fitsTwin : others.length = copy.parameters.length := by
          rw [← values.length_eq, ← parameters, fits]
        by_cases below : machine.depth < config.maxDepth
        · rw [Task.apply_function fits below,
            Task.apply_function fitsTwin (depth ▸ below), ← body]
          rcases simulation.enter machines callees values with
            ⟨next, more, entered, scopes, permits⟩
          exact .eval more entered scopes permits fun _ endings =>
            .done (simulation.refl _) endings.leaveCall
        · have reached := Nat.le_of_not_lt below
          rw [Task.apply_exhausted fits reached,
            Task.apply_exhausted fitsTwin (depth ▸ reached)]
          exact .done (simulation.refl _) (.failed machines)
      · have fitsNot : others.length ≠ copy.parameters.length := by
          rwa [← values.length_eq, ← parameters]
        rw [Task.apply, if_pos fits, Task.apply, if_pos fitsNot,
          ← values.length_eq, ← parameters]
        exact .done (simulation.refl _) (.failed machines)

theorem apply
    {callee same : Value}
    (config : Config)
    (callees : simulation.values world callee same)
    (values : List.Forall₂ (simulation.values world) arguments others) :
    simulation.Tasks simulation.values world
      (Task.apply config callee arguments)
      (Task.apply config same others) := by
  have fails : ∀ kind : ValueKind,
      simulation.Tasks simulation.values world
        (Task.step (EvalM.fail (.notAFunction kind)))
        (Task.step (EvalM.fail (.notAFunction kind))) :=
    fun kind => step fun {now} _ _ _ machines =>
      ⟨now, simulation.refl _, .failed machines⟩
  cases simulation.alike callees with
  | function parameters body => exact call config callees values
  | builtin builtin => exact run builtin values
  | _ => exact fails _

end Tasks

/-! ## Runs in step -/

variable (simulation)

/-- Two evaluations pass through corresponding points. -/
inductive Events (world : World) : Event → Event → Prop
  | enterEval {scope other : ScopeId} {code : Code}
      {machine twin : Machine} :
      simulation.machines world machine twin →
      simulation.scopes world scope other →
      simulation.permits world scope code →
      Events world (.enter (.eval scope code) machine)
        (.enter (.eval other code) twin)
  | enterApply {callee other : Value} {arguments others : List Value}
      {machine twin : Machine} :
      simulation.machines world machine twin →
      simulation.values world callee other →
      List.Forall₂ (simulation.values world) arguments others →
      Events world (.enter (.apply callee arguments) machine)
        (.enter (.apply other others) twin)
  | leaveEval {scope other : ScopeId} {code : Code}
      {answer reply : Ending code.Answer} :
      simulation.Endings (simulation.answers code) world answer reply →
      Events world (.leave (.eval scope code) answer)
        (.leave (.eval other code) reply)
  | leaveApply {callee other : Value} {arguments others : List Value}
      {answer reply : Ending Value} :
      simulation.Endings simulation.values world answer reply →
      Events world (.leave (.apply callee arguments) answer)
        (.leave (.apply other others) reply)

/-- Two evaluations pass through corresponding points, in growing worlds. -/
inductive Histories :
    World → List Event → List Event → World → Prop
  | nil {world last : World} :
      simulation.later world last → Histories world [] [] last
  | cons {world now last : World} {event other : Event}
      {events others : List Event} :
      simulation.later world now → simulation.Events now event other →
      Histories now events others last →
      Histories world (event :: events) (other :: others) last

variable {simulation}

namespace Histories

variable {now last : World} {events others : List Event}

theorem later
    (histories : simulation.Histories world events others last) :
    simulation.later world last := by
  induction histories with
  | nil step => exact step
  | cons step _ _ induction => exact simulation.trans step induction

theorem append
    {rest tail : List Event}
    (first : simulation.Histories world events others now)
    (second : simulation.Histories now rest tail last) :
    simulation.Histories world (events ++ rest) (others ++ tail) last := by
  induction first with
  | nil step =>
      cases second with
      | nil more => exact .nil (simulation.trans step more)
      | cons more event rest =>
          exact .cons (simulation.trans step more) event rest
  | cons step event _ induction => exact .cons step event (induction second)

end Histories

/--
A plan that is in step with a plan that runs runs as well, through corresponding
points to a corresponding ending.
-/
theorem Plans.runs
    {config : Config} {plan twin : Plan α} {history : List Event}
    {ending : Ending α}
    (runs : plan.Runs config history ending)
    (plans : simulation.Plans related world plan twin) :
    ∃ events other last,
      twin.Runs config events other ∧
        simulation.Histories world history events last ∧
          simulation.Endings related last ending other := by
  -- The induction is on the run, so that it covers the requests inside of the
  -- requests; their plans are in step because the requests correspond.
  induction runs generalizing world with
  | done ending =>
      cases plans with
      | done later endings =>
          exact ⟨_, _, _, .done _, .nil later, endings⟩
  | ask _ _ innerRuns outerRuns =>
      cases plans with
      | eval later machines scopes permits next =>
          have tasks := Tasks.code config scopes permits
          rcases innerRuns (tasks _ _ _ (simulation.refl _) machines) with
            ⟨inner, answer, middle, runs, histories, answers⟩
          rcases outerRuns (next histories.later answers) with
            ⟨outer, other, last, continues, laterHistories, endings⟩
          refine ⟨_, other, last, .ask runs continues, ?_, endings⟩
          refine .append (.cons later (.enterEval machines scopes permits)
            histories) ?_
          exact .cons (simulation.refl _) (.leaveEval answers)
            laterHistories
      | apply later machines callees arguments next =>
          have tasks := Tasks.apply config callees arguments
          rcases innerRuns (tasks _ _ _ (simulation.refl _) machines) with
            ⟨inner, answer, middle, runs, histories, answers⟩
          rcases outerRuns (next histories.later answers) with
            ⟨outer, other, last, continues, laterHistories, endings⟩
          refine ⟨_, other, last, .ask runs continues, ?_, endings⟩
          refine .append (.cons later (.enterApply machines callees arguments)
            histories) ?_
          exact .cons (simulation.refl _) (.leaveApply answers)
            laterHistories

end Simulation

end Bhasha
