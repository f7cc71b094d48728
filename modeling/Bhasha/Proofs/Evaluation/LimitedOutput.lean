import Bhasha.Proofs.Evaluation.PriorOutput

/-!
# Limited room for output

A sink with limited room keeps the first bytes of the output and takes no notice
of the rest.  The print builtins see that a write fails, and one of them gives up
then, but by that time the sink is full and would keep nothing more.  So a
program goes the same way as with unlimited room, whatever the limit, and what
the sink keeps is cut off at the limit, wherever in the output this may be.
-/

namespace Bhasha

/-! ## Sinks -/

namespace Sink

/-- What a sink with limited room has when another one has everything. -/
def cutOff (room : Nat) (sink : Sink) : Sink :=
  ⟨sink.written.extract 0 room, some (room - sink.written.size)⟩

theorem cutOff_unbounded (room : Nat) :
    unbounded.cutOff room = withRoom room := by
  refine congrArg (Sink.mk · (some room)) ?_
  simp [unbounded]

/-- A full sink does not show what comes later. -/
theorem cutOff_of_extends
    {room : Nat} {before after : Sink}
    (full : room ≤ before.written.size)
    (more : before.Extends after) :
    after.cutOff room = before.cutOff room := by
  rcases more with ⟨rest, written⟩
  have nothing : room - before.written.size = 0 := Nat.sub_eq_zero_of_le full
  have size : room - after.written.size = 0 := by
    rw [written, ByteArray.size_append]
    omega
  rw [cutOff, cutOff, size, nothing, written, ByteArray.extract_append,
    nothing, Nat.zero_sub, ByteArray.extract_same, ByteArray.append_empty]

/-- A text is written as far as there is room, and fails only in a full sink. -/
theorem write_cutOff
    {sink : Sink}
    (unbounded : sink.room = none)
    (room : Nat) (text : String) :
    ((sink.cutOff room).write text).2 = (sink.write text).2.cutOff room ∧
      (((sink.cutOff room).write text).1 = false →
        room ≤ (sink.write text).2.written.size) := by
  have kept : (sink.written ++ text.toUTF8).extract 0 room =
      sink.written.extract 0 room ++
        text.toUTF8.extract 0 (room - sink.written.size) := by
    rw [ByteArray.extract_append, Nat.zero_sub]
  have left : room - (sink.written ++ text.toUTF8).size =
      room - sink.written.size - text.toUTF8.size := by
    rw [ByteArray.size_append, Nat.sub_add_eq]
  rw [write_unbounded unbounded]
  rw [cutOff, cutOff, write, kept, left]
  dsimp only
  split
  · next fits =>
    have whole : text.toUTF8.extract 0 (room - sink.written.size) =
        text.toUTF8 := by
      rw [← Nat.max_eq_left fits]
      exact ByteArray.extract_zero_max_size
    rw [whole]
    refine ⟨rfl, fun failed => ?_⟩
    cases failed
  · next exceeds =>
    refine ⟨?_, fun _ => ?_⟩
    · rw [Nat.sub_eq_zero_of_le (Nat.le_of_not_le exceeds)]
    · rw [ByteArray.size_append]
      omega

end Sink

/-! ## Builtins -/

namespace Builtin

/-- Lines are written until one fails, and then nothing more would be kept. -/
theorem writeLines_cutOff
    {sink : Sink}
    (unbounded : sink.room = none)
    (room : Nat) (values : List Value) :
    writeLines values (sink.cutOff room) =
      (writeLines values sink).cutOff room := by
  induction values generalizing sink with
  | nil => rfl
  | cons value values induction =>
      rcases Sink.write_cutOff unbounded room (value.inspect ++ "\n") with
        ⟨kept, full⟩
      rw [Sink.write_unbounded unbounded] at kept full
      rw [writeLines, writeLines, Sink.writeLine, Sink.writeLine,
        Sink.write_unbounded unbounded]
      generalize (sink.cutOff room).write (value.inspect ++ "\n") = outcome
        at kept full ⊢
      rcases outcome with ⟨fits, after⟩
      subst kept
      cases fits with
      | true => exact induction rfl
      | false =>
          exact (Sink.cutOff_of_extends (full rfl)
            (.writeLines values _)).symm

/-- A builtin goes the same way, and what it prints is cut off. -/
theorem call_cutOff
    {sink : Sink}
    (unbounded : sink.room = none)
    (room : Nat) (builtin : Builtin) (arguments : List Value) :
    builtin.call arguments (sink.cutOff room) =
      ((builtin.call arguments sink).1,
        (builtin.call arguments sink).2.cutOff room) := by
  have joined : writeJoined arguments (sink.cutOff room) =
      (writeJoined arguments sink).cutOff room :=
    (Sink.write_cutOff unbounded room _).1
  cases builtin with
  | print => exact Prod.ext rfl joined
  | write => exact Prod.ext rfl joined
  | printLines =>
      exact Prod.ext rfl (writeLines_cutOff unbounded room arguments)
  | _ => rfl

end Builtin

theorem Sink.redirects_cutOff (room : Nat) :
    Redirects (fun sink => sink.room = none) (cutOff room) where
  admits_call builtin arguments unbounded :=
    builtin.room_call unbounded arguments
  call_eq builtin arguments unbounded :=
    builtin.call_cutOff unbounded room arguments

/-! ## Programs -/

/--
A program that prints into limited room gives the same value or failure as with
unlimited room and leaves the same scopes, identities and depth.  What it leaves
in the sink are the first bytes of the whole output, as many as there is room
for, and all of them if there is room for all.
-/
theorem Program.eval_withRoom
    (config : Config) (program : Program) (machine : Machine) (room : Nat) :
    let whole := program.eval config { machine with sink := .unbounded }
    let limited := program.eval config { machine with sink := .withRoom room }
    limited.1 = whole.1 ∧
      limited.2.scopes = whole.2.scopes ∧
      limited.2.supply = whole.2.supply ∧
      limited.2.depth = whole.2.depth ∧
      limited.2.sink.written = whole.2.sink.written.extract 0 room ∧
      limited.2.sink.written.size = min room whole.2.sink.written.size := by
  intro whole limited
  have unlimited : ({ machine with sink := .unbounded } : Machine).Unbounded :=
    rfl
  have redirected : limited = (whole.1, whole.2.redirect (Sink.cutOff room)) := by
    have along := (Sink.redirects_cutOff room).eval unlimited config program
    rwa [Machine.redirect, Sink.cutOff_unbounded] at along
  rw [redirected]
  exact ⟨rfl, rfl, rfl, rfl, rfl, ByteArray.size_extract⟩

/-- The limit is inside the character of the second argument. -/
example :
    let program : Program :=
      [.expression (.call (.name Keyword.print.spelling)
        [.string "क", .string "ख"])]
    let machine : Machine := { Machine.initial with sink := .withRoom 5 }
    (program.eval {} machine).2.sink.written.data = #[224, 164, 149, 32, 224] := by
  decide +kernel

end Bhasha
