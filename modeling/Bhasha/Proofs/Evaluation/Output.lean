import Bhasha.Proofs.Evaluation.Traversal

/-!
# The output of an evaluation

Nothing that was printed is taken back: the bytes in the sink before a step are
an initial part of the bytes after it, whether the sink has room for all of the
output or not.  With unlimited room, what a builtin adds is settled by the texts
of its arguments.
-/

namespace Bhasha

open Step

namespace Sink

/-- The bytes of a sink are an initial part of the bytes of another one. -/
def Extends (before after : Sink) : Prop :=
  ∃ more, after.written = before.written ++ more

namespace Extends

theorem refl (sink : Sink) : sink.Extends sink :=
  ⟨.empty, ByteArray.append_empty.symm⟩

theorem trans
    {first second third : Sink}
    (left : first.Extends second)
    (right : second.Extends third) :
    first.Extends third := by
  rcases left with ⟨more, written⟩
  rcases right with ⟨rest, writtenRest⟩
  refine ⟨more ++ rest, ?_⟩
  rw [writtenRest, written, ByteArray.append_assoc]

theorem write (sink : Sink) (text : String) :
    sink.Extends (sink.write text).2 := by
  rcases sink with ⟨written, room⟩
  cases room with
  | none => exact ⟨_, rfl⟩
  | some room =>
      rw [Sink.write]
      split
      · exact ⟨_, rfl⟩
      · exact ⟨_, rfl⟩

theorem writeLines (values : List Value) (sink : Sink) :
    sink.Extends (Builtin.writeLines values sink) := by
  induction values generalizing sink with
  | nil => exact refl sink
  | cons value values induction =>
      have first : sink.Extends (sink.writeLine value.inspect).2 :=
        write sink _
      rw [Builtin.writeLines]
      split
      · next after found =>
        rw [found] at first
        exact first.trans (induction after)
      · next after found =>
        rw [found] at first
        exact first

theorem call (builtin : Builtin) (arguments : List Value) (sink : Sink) :
    sink.Extends (builtin.call arguments sink).2 := by
  cases builtin with
  | print => exact write sink _
  | write => exact write sink _
  | printLines => exact writeLines arguments sink
  | _ => exact refl sink

end Extends

end Sink

/-! ## Unlimited room -/

/-- With unlimited room the bytes of a text are added. -/
theorem Sink.write_unbounded
    {sink : Sink}
    (unbounded : sink.room = none)
    (text : String) :
    sink.write text = (true, ⟨sink.written ++ text.toUTF8, none⟩) := by
  rcases sink with ⟨written, room⟩
  subst unbounded
  rfl

namespace Builtin

/-- What a builtin prints when its arguments have the given texts. -/
def printed (builtin : Builtin) (texts : List String) : String :=
  match builtin with
  | .print | .write => " ".intercalate texts ++ "\n"
  | .printLines => String.join (texts.map (· ++ "\n"))
  | .length | .typeName | .text => ""

theorem writeLines_unbounded (values : List Value) (written : ByteArray) :
    writeLines values ⟨written, none⟩ =
      ⟨written ++ (printed .printLines (values.map Value.inspect)).toUTF8,
        none⟩ := by
  induction values generalizing written with
  | nil => exact congrArg (Sink.mk · none) ByteArray.append_empty.symm
  | cons value values induction =>
      show
        writeLines values ⟨written ++ (value.inspect ++ "\n").toUTF8, none⟩ = _
      rw [induction, ByteArray.append_assoc]
      simp only [printed, List.map_cons, String.join_cons, String.toUTF8,
        String.toByteArray_append]

/-- With unlimited room the bytes of the printed text are added. -/
theorem call_unbounded (builtin : Builtin) (arguments : List Value)
    (written : ByteArray) :
    (builtin.call arguments ⟨written, none⟩).2 =
      ⟨written ++ (builtin.printed (arguments.map Value.inspect)).toUTF8,
        none⟩ := by
  cases builtin with
  | print => rfl
  | write => rfl
  | printLines => exact writeLines_unbounded arguments written
  | _ => exact congrArg (Sink.mk · none) ByteArray.append_empty.symm

/-- Unlimited room stays unlimited. -/
theorem room_call
    {sink : Sink}
    (unbounded : sink.room = none)
    (builtin : Builtin) (arguments : List Value) :
    (builtin.call arguments sink).2.room = none := by
  rcases sink with ⟨written, room⟩
  subst unbounded
  rw [call_unbounded]

end Builtin

/-! ## Evaluations -/

/-- A machine whose sink has room for all output. -/
def Machine.Unbounded (machine : Machine) : Prop :=
  machine.sink.room = none

/-- A machine has printed at least what another one has. -/
def Machine.Prints (before after : Machine) : Prop :=
  before.sink.Extends after.sink

namespace Evaluation

theorem kept_prints (scope : ScopeId) : Kept scope Machine.Prints where
  refl machine := .refl machine.sink
  trans := .trans
  fresh machine := .refl machine.sink
  define machine _ _ := .refl machine.sink

theorem keptByCalls_prints :
    KeptByCalls Machine.Prints fun _ => Machine.Prints where
  refl machine := .refl machine.sink
  body := kept_prints
  weaken _ printed := printed
  print machine builtin arguments := .call builtin arguments machine.sink
  call _ _ printed := printed

/-- Applying a value takes back no output. -/
theorem applyWithin_prints
    (limit remaining : Nat) (callee : Value) (arguments : List Value) :
    Within Machine.Prints (applyWithin limit remaining callee arguments) :=
  keptByCalls_prints.applyWithin limit remaining callee arguments

theorem kept_unbounded (scope : ScopeId) :
    Kept scope fun before after => before.Unbounded → after.Unbounded where
  refl _ unbounded := unbounded
  trans first second unbounded := second (first unbounded)
  fresh _ unbounded := unbounded
  define _ _ _ unbounded := unbounded

theorem keptByCalls_unbounded :
    KeptByCalls (fun before after => before.Unbounded → after.Unbounded)
      fun _ before after => before.Unbounded → after.Unbounded where
  refl _ unbounded := unbounded
  body := kept_unbounded
  weaken _ kept := kept
  print _ builtin arguments unbounded := builtin.room_call unbounded arguments
  call _ _ kept := kept

end Evaluation

/-- A program does not use up unlimited room. -/
theorem Program.steps_unbounded
    {machine : Machine}
    (unbounded : machine.Unbounded)
    (config : Config) (program : Program) (scope : ScopeId) :
    (final (program.steps config scope) machine).Unbounded :=
  (Evaluation.kept_unbounded scope).stmts
    (Evaluation.keptByCalls_unbounded.applyWithin config.maxDepth
      (config.maxDepth - machine.depth)) none program machine unbounded

end Bhasha
