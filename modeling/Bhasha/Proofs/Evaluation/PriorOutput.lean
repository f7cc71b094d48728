import Bhasha.Proofs.Evaluation.Output
import Bhasha.Proofs.Evaluation.Redirection

/-!
# What was printed before

An evaluation adds to the output and never looks at it.  So if other bytes had
been printed before it, it would go in the same way, print the same bytes and
leave the same machine, except that the other bytes are in front of the output.
-/

namespace Bhasha

/-! ## Sinks -/

/-- A sink in which some bytes stand in front of those that it has. -/
def Sink.behind (earlier : ByteArray) (sink : Sink) : Sink :=
  { sink with written := earlier ++ sink.written }

theorem Sink.write_behind (earlier : ByteArray) (sink : Sink)
    (text : String) :
    (sink.behind earlier).write text =
      ((sink.write text).1, (sink.write text).2.behind earlier) := by
  rcases sink with ⟨written, room⟩
  cases room with
  | none =>
      refine Prod.ext rfl ?_
      exact congrArg (Sink.mk · none) ByteArray.append_assoc
  | some room =>
      rw [behind, write, write]
      dsimp only
      split
      · refine Prod.ext rfl ?_
        exact congrArg (Sink.mk · _) ByteArray.append_assoc
      · refine Prod.ext rfl ?_
        exact congrArg (Sink.mk · _) ByteArray.append_assoc

namespace Builtin

theorem writeLines_behind (earlier : ByteArray) (values : List Value)
    (sink : Sink) :
    writeLines values (sink.behind earlier) =
      (writeLines values sink).behind earlier := by
  induction values generalizing sink with
  | nil => rfl
  | cons value values induction =>
      rw [writeLines, writeLines, Sink.writeLine, Sink.writeLine,
        Sink.write_behind]
      rcases sink.write (value.inspect ++ "\n") with ⟨fits, after⟩
      cases fits with
      | true => exact induction after
      | false => rfl

/-- A builtin gives the same and prints the same behind other bytes. -/
theorem call_behind (earlier : ByteArray) (builtin : Builtin)
    (arguments : List Value) (sink : Sink) :
    builtin.call arguments (sink.behind earlier) =
      ((builtin.call arguments sink).1,
        (builtin.call arguments sink).2.behind earlier) := by
  have joined : writeJoined arguments (sink.behind earlier) =
      (writeJoined arguments sink).behind earlier :=
    congrArg Prod.snd (Sink.write_behind earlier sink _)
  cases builtin with
  | print => exact Prod.ext rfl joined
  | write => exact Prod.ext rfl joined
  | printLines => exact Prod.ext rfl (writeLines_behind earlier arguments sink)
  | _ => rfl

end Builtin

/-! ## Programs -/

/-- A machine that had printed some bytes before all others. -/
def Machine.behind (earlier : ByteArray) (machine : Machine) : Machine :=
  { machine with sink := machine.sink.behind earlier }

theorem Sink.redirects_behind (earlier : ByteArray) :
    Redirects (fun _ => True) (behind earlier) where
  admits_call _ _ := id
  call_eq builtin arguments _ := builtin.call_behind earlier arguments _

namespace Program

theorem eval_unbounded
    {machine : Machine}
    (unbounded : machine.Unbounded)
    (config : Config) (program : Program) :
    (program.eval config machine).2.Unbounded := by
  rw [eval_eq, conclude_machine, Ending.machine_step]
  exact steps_unbounded unbounded config program Scopes.global

/-- A program gives the same and prints the same behind other bytes. -/
theorem eval_behind (config : Config) (program : Program)
    (earlier : ByteArray) (machine : Machine) :
    program.eval config (machine.behind earlier) =
      ((program.eval config machine).1,
        (program.eval config machine).2.behind earlier) :=
  (Sink.redirects_behind earlier).eval trivial config program

end Program

end Bhasha
