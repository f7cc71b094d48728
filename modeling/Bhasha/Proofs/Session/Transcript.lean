import Bhasha.Proofs.Command.Dispatch
import Bhasha.Proofs.Command.Sources
import Bhasha.Proofs.Session.Trace
import Bhasha.Repl
import Mathlib.Data.List.Basic
import Mathlib.Data.List.TakeWhile

/-!
# Transcripts

The loop shows what each line prints and leads to, up to the first line that
ends the session.  Such a line is told by its trimmed text alone: it is the word
that ends a session, or it asks for the command that does.  What follows it is
never read, and the end of the input is taken like it.
-/

namespace Bhasha

open Text

/-! ## The command that a line asks for -/

namespace Registry

/-- The word that a line asks for is the part in front of its first space. -/
theorem takeWhile_of_asks
    {word line : String}
    (plain : ' ' ∉ word.toList)
    (asked : asks word line = true) :
    line.toList.takeWhile (· != ' ') = word.toList := by
  have letters : ∀ letter ∈ word.toList, (letter != ' ') = true := by
    intro letter inWord
    exact bne_iff_ne.2 fun blank => plain (blank ▸ inWord)
  rcases asks_iff.1 asked with parts | ⟨rest, parts⟩
  · rw [parts]
    exact List.takeWhile_eq_self_iff.2 letters
  · rw [parts, List.takeWhile_append_of_pos letters]
    exact List.append_nil word.toList

theorem standard_plain :
    ∀ entry ∈ standard.commands, ' ' ∉ entry.1.toList := by
  decide

theorem standard_functional :
    ∀ first ∈ standard.commands, ∀ second ∈ standard.commands,
      first.1 = second.1 → first.2 = second.2 := by
  decide

/-- A command is found for the lines that ask for one of its words. -/
theorem find?_standard_iff {line : String} {command : Command} :
    (∃ argument, standard.find? line = some (command, argument)) ↔
      ∃ word, (word, command) ∈ standard.commands ∧ asks word line = true := by
  have found_asks :
      ∀ {found argument}, standard.find? line = some (found, argument) →
        ∃ word, (word, found) ∈ standard.commands ∧
          asks word line = true := by
    intro found argument here
    rcases List.exists_of_findSome?_eq_some here with
      ⟨⟨word, present⟩, inCommands, matched⟩
    rcases Option.map_eq_some_iff.1 matched with ⟨text, argued, pair⟩
    cases pair
    refine ⟨word, inCommands, isSome_argument?_iff.1 ?_⟩
    rw [argued]
    rfl
  constructor
  · rintro ⟨argument, here⟩
    exact found_asks here
  · rintro ⟨word, inCommands, asked⟩
    cases here : standard.find? line with
    | none =>
        have unmatched := List.findSome?_eq_none_iff.1 here _ inCommands
        rw [Option.map_eq_none_iff] at unmatched
        have matched := isSome_argument?_iff.2 asked
        rw [unmatched] at matched
        cases matched
    | some pair =>
        rcases pair with ⟨found, argument⟩
        rcases found_asks here with ⟨other, inCommandsOther, askedOther⟩
        have letters := takeWhile_of_asks (standard_plain _ inCommands) asked
        rw [takeWhile_of_asks (standard_plain _ inCommandsOther) askedOther,
          String.toList_inj] at letters
        have same : found = command :=
          standard_functional _ inCommandsOther _ inCommands letters
        exact ⟨argument, by rw [same]⟩

theorem find?_quit_iff {line : String} :
    (∃ argument, standard.find? line = some (.quit, argument)) ↔
      asks ":quit" line = true ∨ asks ":exit" line = true := by
  have words :
      ∀ word, (word, Command.quit) ∈ standard.commands ↔
        word = ":quit" ∨ word = ":exit" := by
    intro word
    have table : standard.commands =
        [(":builtins", .builtins), (":tokens", .tokens), (":help", .help),
          (":quit", .quit), (":exit", .quit), (":env", .bindings)] := by
      decide
    simp [table]
  simp only [find?_standard_iff, words, or_and_right, exists_or,
    exists_eq_left]

end Registry

/-! ## Lines that end a session -/

/-- A line that ends a session, told by its trimmed text. -/
def isExitLine (line : String) : Bool :=
  trim line = exitWord || Registry.asks ":quit" (trim line) ||
    Registry.asks ":exit" (trim line)

theorem Command.run_exit_iff
    {command : Command} {argument : String} {view : CommandView} :
    (command.run argument view).2 = .exit ↔ command = .quit := by
  cases command with
  | quit => exact iff_of_true rfl rfl
  | help => exact iff_of_false nofun nofun
  | builtins => exact iff_of_false nofun nofun
  | tokens =>
      refine iff_of_false ?_ nofun
      rw [run]
      split <;> nofun
  | bindings =>
      refine iff_of_false ?_ nofun
      rw [run]
      split <;> nofun

theorem Registry.dispatch_exit_iff {line : String} {view : CommandView} :
    (standard.dispatch line view).2 = .exit ↔
      asks ":quit" line = true ∨ asks ":exit" line = true := by
  rw [← find?_quit_iff, dispatch]
  cases standard.find? line with
  | none => simp
  | some pair =>
      rcases pair with ⟨command, argument⟩
      refine Command.run_exit_iff.trans ⟨?_, ?_⟩
      · rintro rfl
        exact ⟨argument, rfl⟩
      · rintro ⟨other, same⟩
        cases same
        rfl

theorem Registry.dispatch_exit_silent
    {line : String} {view : CommandView}
    (exits : (standard.dispatch line view).2 = .exit) :
    (standard.dispatch line view).1 = "" := by
  rw [dispatch] at exits ⊢
  cases found : standard.find? line with
  | none => rfl
  | some pair =>
      rcases pair with ⟨command, argument⟩
      rw [found] at exits
      cases Command.run_exit_iff.1 exits
      rfl

theorem Outcome.isExit_command_iff {reply : Reply} :
    (Outcome.command reply).isExit = true ↔ reply = .exit := by
  cases reply <;> simp [isExit]

namespace Session

theorem isExit_evaluate (session : Session) (line : String) :
    (session.evaluate line).1.isExit = false := by
  rw [evaluate]
  dsimp only
  split
  · rfl
  · split <;> rfl

/-- Whether a line ends a session depends on its trimmed text alone. -/
theorem isExit_submit_iff {session : Session} {line : String} :
    (session.submit line).1.isExit = true ↔ isExitLine line = true := by
  rw [isExitLine, Bool.or_assoc, Bool.or_eq_true, Bool.or_eq_true,
    decide_eq_true_iff, submit]
  split
  · next empty =>
    rw [String.isEmpty_iff] at empty
    have noExit : ¬ ("" = exitWord ∨ Registry.asks ":quit" "" = true ∨
        Registry.asks ":exit" "" = true) := by
      decide
    rw [empty]
    exact iff_of_false Bool.false_ne_true noExit
  · split
    · next word => exact iff_of_true rfl (.inl word)
    · next noWord =>
      rw [or_iff_right noWord, ← Registry.dispatch_exit_iff]
      split
      · next found =>
        rw [found, isExit_evaluate]
        refine iff_of_false Bool.false_ne_true ?_
        intro same
        cases same
      · next found =>
        rw [found]
        exact Outcome.isExit_command_iff

theorem written_write
    {session : Session}
    (unbounded : session.Unbounded)
    (text : String) :
    (session.write text).written = session.written ++ text.toUTF8 := by
  rw [write, written, Sink.write_unbounded unbounded]
  rfl

/-- A line that ends the session writes nothing. -/
theorem written_submit_of_isExit
    {session : Session} {line : String}
    (unbounded : session.Unbounded)
    (exits : (session.submit line).1.isExit = true) :
    (session.submit line).2.written = session.written := by
  rcases session.submit_cases line with
    ⟨outcome, -, step⟩ | ⟨reply, text, found, step⟩ | ⟨program, step⟩
  · rw [step]
  · rw [step, Outcome.isExit_command_iff] at exits
    subst exits
    have nothing : text = "" := by
      have silent := Registry.dispatch_exit_silent (congrArg Prod.snd found)
      rwa [found] at silent
    rw [step, nothing, written_write unbounded]
    exact ByteArray.append_empty
  · rw [step] at exits
    cases exits

theorem coloring_write (session : Session) (text : String) :
    (session.write text).coloring = session.coloring :=
  rfl

theorem coloring_submit (session : Session) (line : String) :
    (session.submit line).2.coloring = session.coloring := by
  rcases session.submit_cases line with
    ⟨outcome, -, step⟩ | ⟨reply, text, -, step⟩ | ⟨program, step⟩
  · rw [step]
  · rw [step, coloring_write]
  · rw [step]

end Session

/-! ## The loop -/

namespace Repl

/-- What the loop shows for lines: what each prints and what it leads to. -/
def shown (coloring : Coloring) : List Entry → ByteArray
  | [] => .empty
  | entry :: entries =>
    entry.printed ++ (entry.outcome.render coloring).toUTF8 ++
      shown coloring entries

theorem loop_of_isExitLine
    {line : String}
    (exits : isExitLine line = true)
    (session : Session) (lines : List String) :
    loop session (line :: lines) = leave (session.submit line).2 := by
  have outcome : (session.submit line).1.isExit = true :=
    Session.isExit_submit_iff.2 exits
  rw [loop, step]
  dsimp only
  rw [if_pos outcome]

theorem loop_of_not_isExitLine
    {line : String}
    (goesOn : isExitLine line = false)
    (session : Session) (lines : List String) :
    loop session (line :: lines) =
      loop
        ((session.submit line).2.write
          ((session.submit line).1.render session.coloring))
        lines := by
  have outcome : ¬ (session.submit line).1.isExit = true := by
    rw [Session.isExit_submit_iff, goesOn]
    exact Bool.false_ne_true
  rw [loop, step]
  dsimp only
  rw [if_neg outcome, Session.coloring_submit]

theorem written_leave
    {session : Session}
    (unbounded : session.Unbounded) :
    (leave session).written =
      session.written ++ (goodbye session.coloring).toUTF8 :=
  Session.written_write unbounded (goodbye session.coloring)

/-- The loop shows the lines before the first exit and says goodbye. -/
theorem written_loop
    {session : Session}
    (unbounded : session.Unbounded)
    (lines : List String) :
    (loop session lines).written =
      session.written ++
        shown session.coloring
          (session.record (lines.takeWhile fun line => !isExitLine line)).1 ++
        (goodbye session.coloring).toUTF8 := by
  induction lines generalizing session with
  | nil =>
      rw [loop, written_leave unbounded]
      show _ = session.written ++ ByteArray.empty ++ _
      rw [ByteArray.append_empty]
  | cons line lines induction =>
      have next : (session.submit line).2.Unbounded :=
        Session.unbounded_submit unbounded line
      have coloring := session.coloring_submit line
      cases exits : isExitLine line with
      | true =>
          have outcome : (session.submit line).1.isExit = true :=
            Session.isExit_submit_iff.2 exits
          rw [loop_of_isExitLine exits, written_leave next, coloring,
            Session.written_submit_of_isExit unbounded outcome,
            List.takeWhile_cons_of_neg (by simp [exits])]
          show _ = session.written ++ ByteArray.empty ++ _
          rw [ByteArray.append_empty]
      | false =>
          -- What is shown between the lines plays no part in their entries.
          let text := (session.submit line).1.render session.coloring
          have unboundedNext := Session.unbounded_write next text
          have entries := Session.record_of_silent_eq unboundedNext next
            (Session.silent_write _ text)
            (lines.takeWhile fun line => !isExitLine line)
          have printed := Session.written_take unbounded line
          rw [Session.take_session] at printed
          rw [loop_of_not_isExitLine exits, induction unboundedNext, entries,
            Session.written_write next, printed,
            List.takeWhile_cons_of_pos (by simp [exits]),
            Session.record_cons, shown, Session.take_outcome,
            Session.take_session]
          simp only [Session.coloring_write, coloring, text,
            ByteArray.append_assoc]

/-- Lines that lead to the same output do so behind other lines, too. -/
theorem written_loop_append
    {first second : List String}
    (same : ∀ session : Session, session.Unbounded →
      (loop session first).written = (loop session second).written)
    {session : Session}
    (unbounded : session.Unbounded)
    (lines : List String) :
    (loop session (lines ++ first)).written =
      (loop session (lines ++ second)).written := by
  induction lines generalizing session with
  | nil => exact same session unbounded
  | cons line lines induction =>
      have next : (session.submit line).2.Unbounded :=
        Session.unbounded_submit unbounded line
      rw [List.cons_append, List.cons_append]
      cases exits : isExitLine line with
      | true => rw [loop_of_isExitLine exits, loop_of_isExitLine exits]
      | false =>
          rw [loop_of_not_isExitLine exits, loop_of_not_isExitLine exits]
          exact induction (Session.unbounded_write next _)

/-- A line that ends the session is like the end of the input. -/
theorem written_loop_exit
    {exit : String}
    (exits : isExitLine exit = true)
    (rest : List String)
    {session : Session}
    (unbounded : session.Unbounded) :
    (loop session (exit :: rest)).written = (loop session []).written := by
  rw [written_loop unbounded, written_loop unbounded,
    List.takeWhile_cons_of_neg (by simp [exits])]
  rfl

/-- An empty line shows nothing. -/
theorem written_loop_empty
    {session : Session}
    (unbounded : session.Unbounded) :
    (loop session [""]).written = (loop session []).written := by
  have goesOn : isExitLine "" = false := by decide
  have nothing : session.submit "" = (.empty, session) := rfl
  have unboundedNext := Session.unbounded_write unbounded ""
  rw [loop_of_not_isExitLine goesOn, nothing]
  show (leave (session.write "")).written = (leave session).written
  rw [written_leave unboundedNext, written_leave unbounded,
    Session.written_write unbounded, Session.coloring_write]
  exact congrArg (· ++ _) ByteArray.append_empty

end Repl

/-! ## The lines of an input -/

/-- The pieces between the breaks of an input, an empty last one included. -/
def pieces (input : String) : List String :=
  (input.toList.splitOn '\n').map String.ofList

theorem splitOn_break (first second : String) :
    (first ++ "\n" ++ second).toList.splitOn '\n' =
      first.toList.splitOn '\n' ++ second.toList.splitOn '\n' := by
  rw [String.toList_append, String.toList_append, List.append_assoc]
  exact List.splitOn_append_cons_self first.toList second.toList

theorem pieces_append (first second : String) :
    pieces (first ++ "\n" ++ second) = pieces first ++ pieces second := by
  rw [pieces, splitOn_break, List.map_append]
  rfl

theorem splitLines_append (first second : String) :
    splitLines (first ++ "\n" ++ second) =
      pieces first ++ splitLines second := by
  have nonempty := List.splitOn_ne_nil '\n' second.toList
  rw [splitLines, splitLines, pieces, splitOn_break,
    List.getLast?_append_of_ne_nil _ nonempty]
  split
  · rw [List.dropLast_append_of_ne_nil nonempty, List.map_append]
  · rw [List.map_append]

theorem pieces_of_line
    {line : String}
    (single : '\n' ∉ line.toList) :
    pieces line = [line] := by
  rw [pieces, List.splitOn_eq_singleton single]
  exact congrArg (fun text => [text]) String.ofList_toList

theorem pieces_cases (input : String) :
    pieces input = splitLines input ∨
      pieces input = splitLines input ++ [""] := by
  rw [pieces, splitLines]
  split
  · next last =>
    refine .inr ?_
    conv_lhs => rw [← List.dropLast_append_getLast? [] last]
    rw [List.map_append]
    rfl
  · exact .inl rfl

namespace Text

theorem EditedLine.reversed_foldl_enter
    {clusters : List (List Char)}
    (plain : [backspace] ∉ clusters)
    (line : EditedLine) :
    (clusters.foldl EditedLine.enter line).reversed =
      clusters.flatten.reverse ++ line.reversed := by
  induction clusters generalizing line with
  | nil => rfl
  | cons cluster clusters induction =>
      rw [List.mem_cons, not_or] at plain
      rcases plain with ⟨other, plain⟩
      rw [List.foldl_cons, induction plain, enter, if_neg (Ne.symm other),
        append, List.flatten_cons, List.reverse_append, List.append_assoc]

/-- Without backspaces a line is taken as it is. -/
theorem applyBackspaces_eq_self
    {line : String}
    (plain : backspace ∉ line.toList) :
    applyBackspaces line = line := by
  have whole := flatten_clusters line.toList
  have others : [backspace] ∉ clusters line.toList := by
    intro inClusters
    refine plain ?_
    rw [← whole]
    exact List.mem_flatten.2 ⟨_, inClusters, List.mem_singleton_self _⟩
  rw [applyBackspaces]
  rw [EditedLine.reversed_foldl_enter others, whole]
  simp [EditedLine.empty]

end Text

/-! ## Whole sessions -/

namespace Repl

/-- Everything that a session on given lines writes. -/
def written (config : Config) (coloring : Coloring) (lines : List String) :
    ByteArray :=
  (loop (greet (Session.start config coloring)) lines).written

theorem unbounded_greet (config : Config) (coloring : Coloring) :
    (greet (Session.start config coloring)).Unbounded :=
  rfl

/-- A greeting, the lines before the first exit, and a goodbye. -/
theorem written_eq (config : Config) (coloring : Coloring)
    (lines : List String) :
    written config coloring lines =
      (banner coloring).toUTF8 ++
        shown coloring
          ((Session.start config coloring).record
            (lines.takeWhile fun line => !isExitLine line)).1 ++
        (goodbye coloring).toUTF8 := by
  have unbounded : (Session.start config coloring).Unbounded := rfl
  have greeted := unbounded_greet config coloring
  have greeting : (greet (Session.start config coloring)).written =
      (banner coloring).toUTF8 := by
    rw [greet, Session.written_write unbounded]
    exact ByteArray.empty_append
  have entries := Session.record_of_silent_eq greeted unbounded
    (Session.silent_write _ _)
    (lines.takeWhile fun line => !isExitLine line)
  rw [written, written_loop greeted, greeting, entries]
  rfl

/-- However lines are read, what follows a line that ends the session is not. -/
theorem written_until_exit
    (read : String → String)
    (empty : read "" = "")
    (config : Config) (coloring : Coloring) (source rest : String)
    {exit : String}
    (single : '\n' ∉ exit.toList)
    (exits : isExitLine (read exit) = true) :
    written config coloring
        ((splitLines (source ++ "\n" ++ exit ++ "\n" ++ rest)).map read) =
      written config coloring ((splitLines source).map read) := by
  have greeted := unbounded_greet config coloring
  have whole : splitLines (source ++ "\n" ++ exit ++ "\n" ++ rest) =
      pieces source ++ exit :: splitLines rest := by
    rw [splitLines_append, pieces_append, pieces_of_line single,
      List.append_assoc]
    rfl
  have stops : written config coloring
      ((pieces source).map read ++ read exit :: (splitLines rest).map read) =
        written config coloring ((pieces source).map read ++ []) :=
    written_loop_append (fun _ => written_loop_exit exits _) greeted _
  rw [whole, List.map_append, List.map_cons, stops, List.append_nil]
  rcases pieces_cases source with same | more
  · rw [same]
  · have blank :
        written config coloring ((splitLines source).map read ++ [""]) =
          written config coloring ((splitLines source).map read ++ []) :=
      written_loop_append (fun _ => written_loop_empty) greeted _
    rw [more, List.map_append, List.map_singleton, empty, blank,
      List.append_nil]

/--
The entry of a line that is accepted, and is not the exit word, is that of the
program of the line: the value that the program gives in the machine of the
session, behind the bytes that it prints.
-/
theorem entry_of_accepted
    {session : Session} {line : String}
    (unbounded : session.Unbounded)
    (accepted : (parse (trim line)).diagnostics = [])
    (nonempty : (parse (trim line)).program ≠ [])
    (other : trim line ≠ exitWord) :
    let given :=
      (parse (trim line)).program.eval session.config session.machine
    (session.take line).1.outcome = .evaluated given.1 ∧
      given.2.sink.written =
        session.written ++ (session.take line).1.printed ∧
      (session.take line).2 = { session with machine := given.2 } := by
  intro given
  have submitted : session.submit line =
      (.evaluated given.1, { session with machine := given.2 }) := by
    rw [Session.submit_of_accepted accepted nonempty other]
    exact Session.evaluate_of_accepted accepted nonempty session
  have written := Session.written_take unbounded line
  rw [Session.take_session, submitted] at written
  rw [Session.take_outcome, Session.take_session, submitted]
  exact ⟨rfl, written, rfl⟩

/--
The loop stops at the first line that ends the session and takes the end of its
input like one.  It writes a greeting, what each line before that one prints and
leads to, and a goodbye.  Lines are taken as they stand between the breaks, or
after the backspaces in them have taken effect, which is the same if they have
none.
-/
theorem transcript_until_exit (config : Config) (coloring : Coloring)
    (source exit rest : String)
    (single : '\n' ∉ exit.toList) :
    let whole := source ++ "\n" ++ exit ++ "\n" ++ rest
    (isExitLine exit = true →
      written config coloring (splitLines whole) =
        written config coloring (splitLines source)) ∧
    (isExitLine (applyBackspaces exit) = true →
      transcript config coloring whole = transcript config coloring source) ∧
    (∀ lines,
      written config coloring lines =
        (banner coloring).toUTF8 ++
          shown coloring
            ((Session.start config coloring).record
              (lines.takeWhile fun line => !isExitLine line)).1 ++
          (goodbye coloring).toUTF8) ∧
    ∀ input,
      transcript config coloring input =
        written config coloring (inputLines input) ∧
      ((∀ line ∈ splitLines input, backspace ∉ line.toList) →
        inputLines input = splitLines input) := by
  intro whole
  refine ⟨?_, ?_, written_eq config coloring, ?_⟩
  · intro exits
    have same := written_until_exit id rfl config coloring source rest single
      exits
    rwa [List.map_id, List.map_id] at same
  · intro exits
    exact written_until_exit applyBackspaces rfl config coloring source rest
      single exits
  · intro input
    refine ⟨rfl, ?_⟩
    intro plain
    rw [inputLines]
    conv_rhs => rw [← List.map_id (splitLines input)]
    exact List.map_congr_left fun line inLines =>
      applyBackspaces_eq_self (plain line inLines)

/-- The source behind a line that asks to quit is faulty and never read. -/
theorem transcript_until_exit_quit :
    transcript {} .off "लेट x = 1\n :quit now\nx +\n" =
      transcript {} .off "लेट x = 1" :=
  (transcript_until_exit {} .off "लेट x = 1" " :quit now" "x +\n"
    (by decide)).2.1 (by decide +kernel)

end Repl

end Bhasha
