import Bhasha.Proofs.Evaluation.PriorOutput
import Bhasha.Session

/-!
# Lines that leave no trace

A session is what it has bound, the identities and scopes that it has given out,
and the depth of its calls; what it has written plays no part in what comes
next.  A line that is blank, a command or a faulty source can only write.  So it
can be left out: every other line leads to the same outcome and prints the same
bytes, and the session is the same at the end.
-/

namespace Bhasha

open Step
open Text

/-! ## The record of a session -/

/-- A source was evaluated. -/
def Outcome.isEvaluated : Outcome → Bool
  | .evaluated _ => true
  | _ => false

/-- A line of a session, what it led to and what it printed. -/
structure Entry where
  line : String
  outcome : Outcome
  printed : ByteArray

/-- The source in a line was evaluated. -/
def Entry.isEvaluated (entry : Entry) : Bool :=
  entry.outcome.isEvaluated

/-- Some entries are left out, and none of a line that was evaluated. -/
inductive Entry.Thins : List Entry → List Entry → Prop
  | nil : Thins [] []
  | keep {entries kept : List Entry} (entry : Entry) :
      Thins entries kept → Thins (entry :: entries) (entry :: kept)
  | drop {entries kept : List Entry} (entry : Entry) :
      entry.isEvaluated = false →
      Thins entries kept → Thins (entry :: entries) kept

theorem Entry.Thins.filter (entries : List Entry) :
    Thins entries (entries.filter Entry.isEvaluated) := by
  induction entries with
  | nil => exact .nil
  | cons entry entries induction =>
      cases evaluated : entry.isEvaluated with
      | true =>
          rw [List.filter_cons_of_pos evaluated]
          exact .keep entry induction
      | false =>
          rw [List.filter_cons_of_neg (ne_true_of_eq_false evaluated)]
          exact .drop entry evaluated induction

namespace Session

/-- The bytes that a session has written. -/
def written (session : Session) : ByteArray :=
  session.machine.sink.written

/-- Take one line and note what came of it. -/
def take (session : Session) (line : String) : Entry × Session :=
  let step := session.submit line
  (⟨line, step.1,
      step.2.written.extract session.written.size step.2.written.size⟩,
    step.2)

theorem take_outcome (session : Session) (line : String) :
    (session.take line).1.outcome = (session.submit line).1 := by
  rw [take]

theorem take_session (session : Session) (line : String) :
    (session.take line).2 = (session.submit line).2 := by
  rw [take]

/-- Take lines one after another and note what came of each. -/
def record (session : Session) : List String → List Entry × Session
  | [] => ([], session)
  | line :: lines =>
    let step := session.take line
    let rest := step.2.record lines
    (step.1 :: rest.1, rest.2)

theorem record_cons (session : Session) (line : String)
    (lines : List String) :
    session.record (line :: lines) =
      ((session.take line).1 :: ((session.take line).2.record lines).1,
        ((session.take line).2.record lines).2) :=
  rfl

/-! ## What a line can do -/

/-- A line changes nothing, or it writes, or it is evaluated. -/
theorem submit_cases (session : Session) (line : String) :
    (∃ outcome, outcome.isEvaluated = false ∧
      session.submit line = (outcome, session)) ∨
    (∃ reply text,
      Registry.standard.dispatch (trim line) session.view = (text, reply) ∧
      session.submit line = (.command reply, session.write text)) ∨
    ∃ program : Program,
      session.submit line =
        (.evaluated (program.eval session.config session.machine).1,
          { session with
            machine :=
              (program.eval session.config session.machine).2 }) := by
  rw [submit]
  split
  · exact .inl ⟨.empty, rfl, rfl⟩
  · split
    · exact .inl ⟨.command .exit, rfl, rfl⟩
    · split
      · rw [evaluate]
        dsimp only
        split
        · exact .inl ⟨.diagnostics _, rfl, rfl⟩
        · split
          · exact .inl ⟨.empty, rfl, rfl⟩
          · exact .inr (.inr ⟨_, rfl⟩)
      · next printed reply command found =>
        exact .inr (.inl ⟨reply, printed, found, rfl⟩)

/-- A session whose output has unlimited room. -/
def Unbounded (session : Session) : Prop :=
  session.machine.Unbounded

theorem unbounded_write
    {session : Session}
    (unbounded : session.Unbounded)
    (text : String) :
    (session.write text).Unbounded := by
  show (session.machine.sink.write text).2.room = none
  rw [Sink.write_unbounded unbounded]

theorem unbounded_submit
    {session : Session}
    (unbounded : session.Unbounded)
    (line : String) :
    (session.submit line).2.Unbounded := by
  rcases session.submit_cases line with
    ⟨outcome, -, step⟩ | ⟨reply, text, -, step⟩ | ⟨program, step⟩
  · rw [step]
    exact unbounded
  · rw [step]
    exact unbounded_write unbounded text
  · rw [step]
    exact Program.eval_unbounded unbounded session.config program

/-! ## What was written before -/

/-- A session that had written some bytes before all others. -/
def behind (earlier : ByteArray) (session : Session) : Session :=
  { session with machine := session.machine.behind earlier }

theorem written_behind (earlier : ByteArray) (session : Session) :
    (session.behind earlier).written = earlier ++ session.written :=
  rfl

theorem write_behind (earlier : ByteArray) (session : Session)
    (text : String) :
    (session.behind earlier).write text =
      (session.write text).behind earlier := by
  have sinks := Sink.write_behind earlier session.machine.sink text
  rw [write, behind, Machine.behind, sinks]
  rfl

theorem evaluate_behind (earlier : ByteArray) (session : Session)
    (line : String) :
    (session.behind earlier).evaluate line =
      ((session.evaluate line).1,
        (session.evaluate line).2.behind earlier) := by
  have values := (parse line).program.eval_behind session.config earlier
    session.machine
  rw [evaluate, evaluate]
  dsimp only
  split
  · rfl
  · split
    · rfl
    · rw [behind, values]
      rfl

/-- A line leads to the same and writes the same behind other bytes. -/
theorem submit_behind (earlier : ByteArray) (session : Session)
    (line : String) :
    (session.behind earlier).submit line =
      ((session.submit line).1, (session.submit line).2.behind earlier) := by
  have view : (session.behind earlier).view = session.view := rfl
  rw [submit, submit, view]
  split
  · rfl
  · split
    · rfl
    · split
      · exact session.evaluate_behind earlier (trim line)
      · exact congrArg (Prod.mk _) (session.write_behind earlier _)

/-- A session as it would be if it had written nothing. -/
def silent (session : Session) : Session :=
  { session with machine := { session.machine with sink := .unbounded } }

theorem silent_write (session : Session) (text : String) :
    (session.write text).silent = session.silent :=
  rfl

theorem silent_behind (earlier : ByteArray) (session : Session) :
    (session.behind earlier).silent = session.silent :=
  rfl

theorem behind_silent
    {session : Session}
    (unbounded : session.Unbounded) :
    session.silent.behind session.written = session := by
  rcases session with ⟨config, coloring, scopes, supply, depth, written, room⟩
  have room : room = none := unbounded
  subst room
  show
    Session.mk config coloring
      ⟨scopes, supply, depth, written ++ ByteArray.empty, none⟩ = _
  rw [ByteArray.append_empty]

theorem silent_take (session : Session) (line : String) :
    session.silent.take line =
      (⟨line, (session.silent.submit line).1,
          (session.silent.submit line).2.written⟩,
        (session.silent.submit line).2) := by
  have nothing : session.silent.written.size = 0 := rfl
  rw [take, nothing, ByteArray.extract_zero_size]

/-- What a line leads to and prints does not depend on what was written. -/
theorem take_eq
    {session : Session}
    (unbounded : session.Unbounded)
    (line : String) :
    session.take line =
      ((session.silent.take line).1,
        (session.silent.take line).2.behind session.written) := by
  have step := submit_behind session.written session.silent line
  rw [behind_silent unbounded] at step
  have printed : (session.submit line).2.written.extract
      session.written.size (session.submit line).2.written.size =
        (session.silent.submit line).2.written := by
    rw [step, written_behind]
    exact ByteArray.extract_append_eq_right rfl ByteArray.size_append
  rw [silent_take, take, printed, step]

theorem written_take
    {session : Session}
    (unbounded : session.Unbounded)
    (line : String) :
    (session.take line).2.written =
      session.written ++ (session.take line).1.printed := by
  rw [take_eq unbounded, silent_take, written_behind]

theorem unbounded_take
    {session : Session}
    (unbounded : session.Unbounded)
    (line : String) :
    (session.take line).2.Unbounded := by
  rw [take_session]
  exact unbounded_submit unbounded line

/-- Sessions that differ in what they wrote take a line in the same way. -/
theorem take_agrees
    {first second : Session}
    (unboundedFirst : first.Unbounded)
    (unboundedSecond : second.Unbounded)
    (same : first.silent = second.silent)
    (line : String) :
    (first.take line).1 = (second.take line).1 ∧
      (first.take line).2.silent = (second.take line).2.silent := by
  rw [take_eq unboundedFirst, take_eq unboundedSecond, same]
  refine ⟨rfl, ?_⟩
  rw [silent_behind, silent_behind]

theorem record_of_silent_eq
    {first second : Session}
    (unboundedFirst : first.Unbounded)
    (unboundedSecond : second.Unbounded)
    (same : first.silent = second.silent)
    (lines : List String) :
    (first.record lines).1 = (second.record lines).1 := by
  induction lines generalizing first second with
  | nil => rfl
  | cons line lines induction =>
      rcases take_agrees unboundedFirst unboundedSecond same line with
        ⟨entry, next⟩
      have entries := induction (unbounded_take unboundedFirst line)
        (unbounded_take unboundedSecond line) next
      rw [record_cons, record_cons, entry, entries]

/-! ## Lines that are left out -/

/-- A line that is not evaluated can only write. -/
theorem take_silent_of_unevaluated
    {session : Session} {line : String}
    (unevaluated : (session.take line).1.isEvaluated = false) :
    (session.take line).2.silent = session.silent := by
  rw [take_session]
  rcases session.submit_cases line with
    ⟨outcome, -, step⟩ | ⟨reply, text, -, step⟩ | ⟨program, step⟩
  · rw [step]
  · rw [step, silent_write]
  · rw [Entry.isEvaluated, take_outcome, step] at unevaluated
    cases unevaluated

/-- Other output and fewer lines without effect lead to the same record. -/
theorem record_agrees
    {first second : Session} {lines : List String} {kept : List Entry}
    (unboundedFirst : first.Unbounded)
    (unboundedSecond : second.Unbounded)
    (same : first.silent = second.silent)
    (thins : Entry.Thins (first.record lines).1 kept) :
    (second.record (kept.map Entry.line)).1 = kept ∧
      (second.record (kept.map Entry.line)).2.silent =
        (first.record lines).2.silent := by
  induction lines generalizing first second kept with
  | nil =>
      cases thins
      exact ⟨rfl, same.symm⟩
  | cons line lines induction =>
      have unboundedNext := unbounded_take unboundedFirst line
      rw [record_cons] at thins ⊢
      cases thins with
      | keep entry thins =>
          rcases take_agrees unboundedFirst unboundedSecond same line with
            ⟨entry, next⟩
          rcases induction unboundedNext (unbounded_take unboundedSecond line)
            next thins with ⟨entries, final⟩
          have named : (first.take line).1.line = line := rfl
          rw [List.map_cons, named, record_cons, entry, entries]
          exact ⟨rfl, final⟩
      | drop entry unevaluated thins =>
          exact induction unboundedNext unboundedSecond
            ((take_silent_of_unevaluated unevaluated).trans same) thins

/--
Lines that are not evaluated leave no trace: if some of them are left out, all
other lines lead to the same outcomes and print the same bytes, and the session
ends with the same scopes, the same identities to give out and the same depth.
-/
theorem record_of_thins (config : Config) (coloring : Coloring)
    (lines : List String) (kept : List Entry)
    (thins : Entry.Thins ((start config coloring).record lines).1 kept) :
    let whole := (start config coloring).record lines
    let again := (start config coloring).record (kept.map Entry.line)
    again.1 = kept ∧
      again.2.machine.scopes = whole.2.machine.scopes ∧
      again.2.machine.supply = whole.2.machine.supply ∧
      again.2.machine.depth = whole.2.machine.depth := by
  have unbounded : (start config coloring).Unbounded := rfl
  rcases record_agrees unbounded unbounded rfl thins with ⟨entries, final⟩
  refine ⟨entries, ?_, ?_, ?_⟩
  · exact congrArg (fun session => session.machine.scopes) final
  · exact congrArg (fun session => session.machine.supply) final
  · exact congrArg (fun session => session.machine.depth) final

/-- Help, a faulty source, a blank line and a misused command are left out. -/
theorem record_of_thins_help :
    let lines := ["लेट x = 1", ":help", "x +", "", ":tokens", "x"]
    let whole := (start {} .off).record lines
    let kept := whole.1.filter Entry.isEvaluated
    kept.map Entry.line = ["लेट x = 1", "x"] ∧
      ((start {} .off).record ["लेट x = 1", "x"]).1 = kept := by
  intro lines whole kept
  have evaluated : kept.map Entry.line = ["लेट x = 1", "x"] := by
    decide +kernel
  refine ⟨evaluated, ?_⟩
  rw [← evaluated]
  exact (record_of_thins {} .off lines kept (.filter whole.1)).1

end Session

end Bhasha
