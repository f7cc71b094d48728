import Bhasha.Proofs.Evaluation.Identity
import Bhasha.Proofs.Value.Entries

/-!
# The two equalities of values

Values are compared in two ways.  The operators tell arrays, hashes and functions
apart by their identity; the structural comparison goes into arrays and hashes
and compares what it finds there.

Each comparison is equality of something that is read off a value: the label of
a value, which forgets what is inside, and its outline, which forgets when the
arrays and hashes were made.  So both are symmetric and transitive.  Only an
error has no label, and is not identical to itself.

In values of one run an identity always means the same array, hash or function.
There identical values have the same structure, and values of the same structure
cannot be told apart by their type, truth, text or key.
-/

namespace Bhasha

namespace Value

/-! ## Outlines -/

mutual

/--
A value without the identities of the arrays and hashes in it, and without what
is inside functions.
-/
def outline : Value → Value
  | .array _ items => .array 0 (outlineItems items)
  | .hash _ entries => .hash 0 (outlineEntries entries)
  | .function identity _ => .function identity ⟨[], [], 0⟩
  | value => value

/-- The outlines of some values. -/
def outlineItems : List Value → List Value
  | [] => []
  | item :: items => item.outline :: outlineItems items

/-- Entries with the outlines of their values. -/
def outlineEntries : List (Key × Value) → List (Key × Value)
  | [] => []
  | (key, value) :: entries => (key, value.outline) :: outlineEntries entries

end

mutual

/-- Values have the same structure when their outlines are equal. -/
theorem same_iff_outline :
    ∀ left right : Value,
      left.same right = true ↔ left.outline = right.outline
  | .array _ items, right => by
    cases right with
    | array _ others => simp [same, outline, sameList_iff_outline items others]
    | _ => simp [same, isIdentical, outline]
  | .hash _ entries, right => by
    cases right with
    | hash _ others =>
        simp [same, outline, sameEntries_iff_outline entries others]
    | _ => simp [same, isIdentical, outline]
  | .integer _, right | .boolean _, right | .string _, right
  | .function _ _, right | .builtin _, right | .error _, right
  | .null, right => by
    cases right <;> simp [same, isIdentical, outline]

theorem sameList_iff_outline :
    ∀ lefts rights : List Value,
      sameList lefts rights = true ↔ outlineItems lefts = outlineItems rights
  | [], rights => by cases rights <;> simp [sameList, outlineItems]
  | left :: lefts, rights => by
    cases rights with
    | nil => simp [sameList, outlineItems]
    | cons right rights =>
        simp [sameList, outlineItems, same_iff_outline left right,
          sameList_iff_outline lefts rights]

theorem sameEntries_iff_outline :
    ∀ lefts rights : List (Key × Value),
      sameEntries lefts rights = true ↔
        outlineEntries lefts = outlineEntries rights
  | [], rights => by cases rights <;> simp [sameEntries, outlineEntries]
  | (key, left) :: lefts, rights => by
    cases rights with
    | nil => simp [sameEntries, outlineEntries]
    | cons right rights =>
        simp [sameEntries, outlineEntries, same_iff_outline left right.2,
          sameEntries_iff_outline lefts rights]

end

/-! ## Labels -/

/-- What identical values have in common; an error has no label. -/
def label? : Value → Option Value
  | .array identity _ => some (.array identity [])
  | .hash identity _ => some (.hash identity [])
  | .function identity _ => some (.function identity ⟨[], [], 0⟩)
  | .error _ => none
  | value => some value

theorem isSome_label? (value : Value) :
    value.label?.isSome = !value.isError := by
  cases value <;> rfl

/-- Values are identical when they have a label, and the same one. -/
theorem isIdentical_iff_label? (left right : Value) :
    left.isIdentical right = true ↔
      left.label?.isSome = true ∧ left.label? = right.label? := by
  cases left <;> cases right <;> simp [isIdentical, label?]

/-! ## Values of one run -/

/-- Nowhere in two values does one identity mean two things. -/
def Agree (value other : Value) : Prop :=
  ∀ each ∈ value.inside, ∀ twin ∈ other.inside, ∀ identity : Identity,
    each.identity? = some identity → twin.identity? = some identity →
    each = twin

/--
Values that can live in one run: the same identity, at any nesting, means the
same array, hash or function.
-/
def Coexist (values : List Value) : Prop :=
  ∀ value ∈ values, ∀ other ∈ values, value.Agree other

mutual

/-- What is inside a part of a value is inside the value. -/
theorem inside_subset :
    ∀ {part whole : Value}, part ∈ whole.inside → part.inside ⊆ whole.inside
  | part, .array identity items, within => by
    rcases List.mem_cons.1 within with rfl | deeper
    · exact List.Subset.refl _
    · exact List.subset_cons_of_subset _ (insideItems_subset deeper)
  | part, .hash identity entries, within => by
    rcases List.mem_cons.1 within with rfl | deeper
    · exact List.Subset.refl _
    · exact List.subset_cons_of_subset _ (insideEntries_subset deeper)
  | part, .integer _, within | part, .boolean _, within
  | part, .string _, within | part, .function _ _, within
  | part, .builtin _, within | part, .error _, within
  | part, .null, within => by
    cases List.mem_singleton.1 within
    exact List.Subset.refl _

theorem insideItems_subset :
    ∀ {part : Value} {items : List Value}, part ∈ insideItems items →
      part.inside ⊆ insideItems items
  | part, item :: items, within => by
    rcases List.mem_append.1 within with here | later
    · exact List.subset_append_of_subset_left _ (inside_subset here)
    · exact List.subset_append_of_subset_right _ (insideItems_subset later)

theorem insideEntries_subset :
    ∀ {part : Value} {entries : List (Key × Value)},
      part ∈ insideEntries entries → part.inside ⊆ insideEntries entries
  | part, (key, value) :: entries, within => by
    rcases List.mem_append.1 within with here | later
    · exact List.subset_append_of_subset_left _ (inside_subset here)
    · exact List.subset_append_of_subset_right _ (insideEntries_subset later)

end

theorem Agree.parts
    {value other part otherPart : Value}
    (agree : value.Agree other)
    (within : part ∈ value.inside)
    (otherWithin : otherPart ∈ other.inside) :
    part.Agree otherPart :=
  fun each member twin otherMember =>
    agree each (inside_subset within member) twin
      (inside_subset otherWithin otherMember)

/-- Identical values that agree are equal. -/
theorem Agree.eq_of_isIdentical
    {value other : Value}
    (agree : value.Agree other)
    (identical : value.isIdentical other = true) :
    value = other := by
  rcases eq_or_identity_of_isIdentical identical with
    equal | ⟨identity, own, otherOwn⟩
  · exact equal
  · exact agree value value.self_mem_inside other other.self_mem_inside
      identity own otherOwn

/-! ## Values of the same structure -/

/-- Values of the same structure that agree on what identities mean. -/
def Matches (value other : Value) : Prop :=
  value.same other = true ∧ value.Agree other

theorem forall₂_matches :
    ∀ {items others : List Value}, sameList items others = true →
      (∀ item ∈ items, ∀ other ∈ others, item.Agree other) →
      List.Forall₂ Matches items others
  | [], [], _, _ => .nil
  | item :: items, other :: others, same, agree => by
    rw [sameList, Bool.and_eq_true] at same
    rw [List.forall_mem_cons] at agree
    refine .cons ⟨same.1, agree.1 other List.mem_cons_self⟩
      (forall₂_matches same.2 ?_)
    intro inner member twin otherMember
    exact agree.2 inner member twin (List.mem_cons_of_mem _ otherMember)

theorem related_matches :
    ∀ {entries others : List (Key × Value)},
      sameEntries entries others = true →
      (∀ entry ∈ entries, ∀ other ∈ others, entry.2.Agree other.2) →
      Sorted.Related Matches entries others
  | [], [], _, _ => .nil
  | entry :: entries, other :: others, same, agree => by
    rw [sameEntries, Bool.and_eq_true, Bool.and_eq_true] at same
    rcases same with ⟨⟨key, first⟩, rest⟩
    rw [List.forall_mem_cons] at agree
    refine .cons ⟨eq_of_beq key, first, agree.1 other List.mem_cons_self⟩
      (related_matches rest ?_)
    intro inner member twin otherMember
    exact agree.2 inner member twin (List.mem_cons_of_mem _ otherMember)

/-- The parts of such values match, and functions are equal. -/
theorem Matches.alike
    {value other : Value}
    (matching : value.Matches other) :
    value.Alike Matches other := by
  rcases matching with ⟨same, agree⟩
  cases value with
  | array identity items =>
      cases other with
      | array otherIdentity others =>
          refine .array (forall₂_matches same ?_)
          intro item member twin otherMember
          refine agree.parts (List.mem_cons_of_mem _ ?_)
            (List.mem_cons_of_mem _ ?_)
          · exact mem_insideItems.2 ⟨item, member, item.self_mem_inside⟩
          · exact mem_insideItems.2 ⟨twin, otherMember, twin.self_mem_inside⟩
      | _ => cases same
  | hash identity entries =>
      cases other with
      | hash otherIdentity others =>
          refine .hash (related_matches same ?_)
          intro entry member twin otherMember
          refine agree.parts (List.mem_cons_of_mem _ ?_)
            (List.mem_cons_of_mem _ ?_)
          · exact mem_insideEntries.2 ⟨entry, member, entry.2.self_mem_inside⟩
          · exact mem_insideEntries.2
              ⟨twin, otherMember, twin.2.self_mem_inside⟩
      | _ => cases same
  | error failure =>
      cases other with
      | error otherFailure =>
          cases eq_of_beq same
          exact .error failure
      | _ => cases same
  | _ =>
      cases agree.eq_of_isIdentical (by cases other <;> exact same)
      constructor <;> rfl

theorem Matches.inspect_eq
    {value other : Value}
    (matching : value.Matches other) :
    value.inspect = other.inspect :=
  inspect_congr Matches.alike matching

end Value

/-! ## Values along a run -/

theorem Event.Has.inside
    {event : Event} {value part : Value}
    (has : event.Has value)
    (within : part ∈ value.inside) :
    event.Has part := by
  cases has with
  | handed member inner => exact .handed member (Value.inside_subset inner within)
  | bound found member inner =>
      exact .bound found member (Value.inside_subset inner within)

/-- Values that exist at any points of a run can live together. -/
theorem Value.coexist_of_series
    {config : Config} {programs : List Program} {start after : Machine}
    {history : List Event} {values : List Value}
    (initial : start.scopes = .initial)
    (series : Program.Series config programs start history after)
    (exist : ∀ value ∈ values, ∃ event ∈ history, event.Has value) :
    Coexist values := by
  rcases Invariant.along_of_series (census_sound initial) Nat.one_pos
    (fun _ _ => trivial) series with ⟨last, along, -⟩
  have listed : ∀ value ∈ values, ∀ part ∈ value.inside,
      last.Lists part := by
    intro value member part within
    rcases exist value member with ⟨event, there, has⟩
    rcases List.getElem?_of_mem there with ⟨index, found⟩
    rcases along.at_getElem? found with ⟨now, -, grows, holds⟩
    exact (lists_of_has holds (has.inside within)).grows grows
  intro value member other otherMember each within twin otherWithin identity
    own otherOwn
  have made := (listed value member each within).made own
  rw [(listed other otherMember twin otherWithin).made otherOwn] at made
  exact (Option.some.inj made).symm

/-- So can the values inside what a program gives. -/
theorem Value.coexist_of_steps
    {config : Config} {program : Program} {start after : Machine}
    {whole : Value} {values : List Value}
    (initial : start.scopes = .initial)
    (given : program.steps config Scopes.global start = .ok (some whole) after)
    (within : values ⊆ whole.inside) :
    Coexist values := by
  rcases (Program.request program).exists_runs config start with ⟨inner, runs⟩
  rw [← Program.steps_eq, given] at runs
  refine coexist_of_series initial
    (.cons (Request.runs_iff.2 ⟨inner, runs, rfl⟩) .nil) fun value member => ?_
  refine ⟨.leave (Program.request program) (.ok (some whole) after),
    by simp, ?_⟩
  exact .handed List.mem_cons_self (within member)

/-! ## Coherence -/

/--
Of values in which the same identity means the same array, hash or function, the
structural comparison is an equivalence that tells functions and builtins apart
by their identity.  The comparison of the operators is symmetric and transitive,
only errors are not identical to themselves, and identical values have the same
structure.  Values of the same structure have the same type, truth and text, and
give the same key or fail in the same way.
-/
theorem Value.equalities_coherent
    (first second third : Value)
    (shared : Coexist [first, second, third]) :
    (first.same first = true ∧
      (first.same second = true → second.same first = true) ∧
      (first.same second = true → second.same third = true →
        first.same third = true) ∧
      (first.kind = .function ∨ first.kind = .builtin →
        first.same second = first.isIdentical second)) ∧
    ((first.isIdentical second = true → second.isIdentical first = true) ∧
      (first.isIdentical second = true → second.isIdentical third = true →
        first.isIdentical third = true) ∧
      (first.isIdentical first = true ↔ first.isError = false) ∧
      (first.isIdentical second = true → first.same second = true)) ∧
    (first.same second = true →
      first.kind = second.kind ∧ first.isTruthy = second.isTruthy ∧
        first.inspect = second.inspect ∧ first.toKey = second.toKey) := by
  have agree : first.Agree second := shared first (by simp) second (by simp)
  refine ⟨⟨first.same_refl, ?_, ?_, ?_⟩, ⟨?_, ?_, ?_, ?_⟩, ?_⟩
  · rw [same_iff_outline, same_iff_outline]
    exact Eq.symm
  · rw [same_iff_outline, same_iff_outline, same_iff_outline]
    exact Eq.trans
  · rintro (function | builtin)
    · cases first with
      | function identity closure => cases second <;> rfl
      | _ => cases function
    · cases first with
      | builtin called => cases second <;> rfl
      | _ => cases builtin
  · rw [isIdentical_iff_label?, isIdentical_iff_label?]
    rintro ⟨labelled, equal⟩
    exact ⟨equal ▸ labelled, equal.symm⟩
  · rw [isIdentical_iff_label?, isIdentical_iff_label?, isIdentical_iff_label?]
    rintro ⟨labelled, equal⟩ ⟨-, next⟩
    exact ⟨labelled, equal.trans next⟩
  · rw [isIdentical_iff_label?, isSome_label?]
    simp
  · intro identical
    rw [agree.eq_of_isIdentical identical]
    exact second.same_refl
  · intro same
    have matching : first.Matches second := ⟨same, agree⟩
    exact ⟨matching.alike.kind_eq, matching.alike.isTruthy_eq,
      matching.inspect_eq, matching.alike.toKey_eq⟩

/-- Two arrays of one run with the same text that are not identical. -/
theorem Value.equalities_coherent_arrays :
    let program : Program := [.expression (.array [.array [], .array []])]
    let first := Value.array 0 []
    let second := Value.array 1 []
    (program.eval {} .initial).1 = some (.array 2 [first, second]) ∧
    Coexist [first, second, first] ∧
    first.isIdentical second = false ∧
    second.same first = true ∧
    first.inspect = second.inspect := by
  intro program first second
  have given : program.steps {} Scopes.global .initial =
      .ok (some (.array 2 [first, second])) { Machine.initial with supply := 3 } :=
    rfl
  have shared : Coexist [first, second, first] :=
    coexist_of_steps rfl given (by simp [inside, insideItems, first, second])
  have coherent := equalities_coherent first second first shared
  have same : first.same second = true := rfl
  exact ⟨rfl, shared, rfl, coherent.1.2.1 same, (coherent.2.2 same).2.2.1⟩

end Bhasha
