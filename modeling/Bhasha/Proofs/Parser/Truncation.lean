import Bhasha.Proofs.Parser.Accounting

/-!
# Truncated sources

The input of a parser that reads without a diagnostic is cut off at some place.
Up to there the parser does the same as before.  What has been read completely
is read as before; what is interrupted reaches the end of the input, and from
there on every step either is done or stops.  A step that stops has at most one
diagnostic of its own, and each block around it that is still open adds that
its closing brace is missing.  If there are only the latter, whole statements
stand between the brace of the innermost block and the cut.

The blocks that are open at the cut are found among the visits of the parser
that reads the whole input.
-/

namespace Bhasha

open Step

/-! ## Blocks that are open -/

namespace Visit

/--
Whether a visit is to a block whose opening brace is not among the last lexemes
of an input, but whose closing brace is.
-/
def isOpen (left : Nat) (visit : Visit) : Bool :=
  match visit.part with
  | .block => visit.finish.upcoming.length < left ∧
      left ≤ visit.start.upcoming.length
  | _ => false

/-- The number of blocks that are open in front of the last lexemes. -/
def openBlocks (left : Nat) (visits : List Visit) : Nat :=
  (all visits).countP (isOpen left)

/-- The blocks that are open in front of the last lexemes, outermost first. -/
def opened (left : Nat) (visits : List Visit) : List Visit :=
  (all visits).filter (isOpen left)

theorem openBlocks_eq (left : Nat) (visits : List Visit) :
    openBlocks left visits = (opened left visits).length :=
  List.countP_eq_length_filter

theorem opened_append (left : Nat) (visits others : List Visit) :
    opened left (visits ++ others) =
      opened left visits ++ opened left others := by
  rw [opened, all_append, List.filter_append]
  rfl

theorem isOpen_eq_false
    {left : Nat} {visit : Visit}
    (outside : visit.start.upcoming.length < left ∨
      left ≤ visit.finish.upcoming.length) :
    visit.isOpen left = false := by
  rw [isOpen]
  split
  · rw [decide_eq_false_iff_not]
    omega
  · rfl

theorem part_of_isOpen
    {left : Nat} {visit : Visit}
    (isOpen : visit.isOpen left = true) :
    visit.part = .block := by
  rw [Visit.isOpen] at isOpen
  split at isOpen
  · assumption
  · cases isOpen

end Visit

/-- Behind the end of a path all its blocks are closed. -/
theorem Path.opened_of_le
    {start finish : Parser} {visits : List Visit} {left : Nat}
    (path : Path start visits finish)
    (closed : left ≤ finish.upcoming.length) :
    Visit.opened left visits = [] := by
  rw [Visit.opened, List.filter_eq_nil_iff]
  intro visit member
  have behind := (path.within visit member).2.length_le
  rw [Visit.isOpen_eq_false (.inr (closed.trans behind))]
  exact Bool.false_ne_true

/-- In front of the start of a path none of its blocks is opened yet. -/
theorem Path.opened_of_lt
    {start finish : Parser} {visits : List Visit} {left : Nat}
    (path : Path start visits finish)
    (ahead : start.upcoming.length < left) :
    Visit.opened left visits = [] := by
  rw [Visit.opened, List.filter_eq_nil_iff]
  intro visit member
  have behind := (path.within visit member).1.length_le
  rw [Visit.isOpen_eq_false (.inl (behind.trans_lt ahead))]
  exact Bool.false_ne_true

namespace Watched

variable {α β : Type}

/-! ## Steps that are interrupted -/

/-- The closing brace of a block is missing at the end of the input. -/
def missingBrace : Diagnostic :=
  .expected (.symbol .rightBrace) .endOfInput

/-- What can be missing at the end of the input where no statement ends. -/
def interruptions : List Diagnostic :=
  [.noOperand .endOfInput,
    .expected .identifier .endOfInput,
    .expected (.symbol .assign) .endOfInput,
    .expected (.symbol .comma) .endOfInput,
    .expected (.symbol .colon) .endOfInput,
    .expected (.symbol .leftParen) .endOfInput,
    .expected (.symbol .rightParen) .endOfInput,
    .expected (.symbol .rightBracket) .endOfInput,
    .expected (.symbol .leftBrace) .endOfInput]

theorem ne_endOfInput_of_interruptions
    {wanted : Kind}
    (listed : .expected wanted .endOfInput ∈ interruptions) :
    wanted ≠ .endOfInput := by
  rintro rfl
  exact absurd listed (by decide)

/--
All brackets that are opened in the innermost of some blocks are closed again in
front of the lost lexemes.
-/
def Enclosed (lost : List Lexeme) (blocks : List Visit) : Prop :=
  ∀ block ∈ blocks.getLast?, ∃ kept,
    block.start.upcoming = kept ++ lost ∧ Phrase.Nested kept

theorem Enclosed.nil {lost : List Lexeme} : Enclosed lost [] := by
  intro block member
  cases member

/--
What is reported at the end of the input: at most one diagnostic for what was
interrupted, and then one for each open block, those around a step and those
inside.  Without the first one, only the innermost block is interrupted.
-/
inductive Reports (lost : List Lexeme) (around : Nat) (inside : List Visit) :
    List Diagnostic → Prop where
  | interrupted {diagnostic : Diagnostic}
      (missing : diagnostic ∈ interruptions) :
      Reports lost around inside
        (diagnostic :: List.replicate (around + inside.length) missingBrace)
  | between (enclosed : Enclosed lost inside) :
      Reports lost around inside
        (List.replicate (around + inside.length) missingBrace)

/-- A block around a step reports that its closing brace is missing. -/
theorem Reports.concat
    {lost : List Lexeme} {around : Nat} {inside : List Visit}
    {found : List Diagnostic}
    (reports : Reports lost around inside found) :
    Reports lost (around + 1) inside (found ++ [missingBrace]) := by
  have more : around + 1 + inside.length = around + inside.length + 1 := by
    omega
  cases reports with
  | interrupted missing =>
      rw [List.cons_append, ← List.replicate_succ', ← more]
      exact .interrupted missing
  | between enclosed =>
      rw [← List.replicate_succ', ← more]
      exact .between enclosed

/-- The block around a step is counted as one inside. -/
theorem Reports.enter
    {lost : List Lexeme} {block : Visit} {inside : List Visit}
    {found : List Diagnostic}
    (reports : Reports lost 1 inside found)
    (innermost : found = [missingBrace] → Enclosed lost [block]) :
    Reports lost 0 (block :: inside) found := by
  have same : 1 + inside.length = 0 + (block :: inside).length := by
    rw [List.length_cons]
    omega
  cases reports with
  | interrupted missing =>
      rw [same]
      exact .interrupted missing
  | between enclosed =>
      cases inside with
      | nil => exact .between (innermost rfl)
      | cons first rest =>
          rw [same]
          refine .between fun last member => enclosed last ?_
          rwa [List.getLast?_cons_cons] at member

/-- A step has come to the end of the input.  If it stops, it reports why. -/
inductive Broken (lost : List Lexeme) (around : Nat) (inside : List Visit) :
    EStateM.Result Diagnostic Parser α → Prop where
  | goes {value : α} {after : Parser}
      (noneAround : around = 0)
      (noneInside : inside = [])
      (nothing : after.upcoming = [])
      (clean : after.diagnostics = #[]) :
      Broken lost around inside (.ok value after)
  | stops {diagnostic : Diagnostic} {after : Parser}
      (nothing : after.upcoming = [])
      (reports : Reports lost around inside
        (after.diagnostics.toList ++ [diagnostic])) :
      Broken lost around inside (.error diagnostic after)

/-- A step has come to the end of the input with all that is wrong recorded. -/
inductive Recorded (lost : List Lexeme) (inside : List Visit) :
    EStateM.Result Diagnostic Parser α → Prop where
  | intro {value : α} {after : Parser}
      (nothing : after.upcoming = [])
      (reports : Reports lost 0 inside after.diagnostics.toList) :
      Recorded lost inside (.ok value after)

/-- A step does not record anything at the end of the input. -/
def Ends (step : Watched α) : Prop :=
  ∀ ⦃lost : List Lexeme⦄ (parser : Parser), parser.upcoming = [] →
    parser.diagnostics = #[] → Broken lost 0 [] (step.run parser)

section Lost

variable {lost : List Lexeme}

theorem Broken.error
    {parser : Parser} {diagnostic : Diagnostic}
    (nothing : parser.upcoming = [])
    (clean : parser.diagnostics = #[])
    (missing : diagnostic ∈ interruptions) :
    Broken lost 0 []
      (.error diagnostic parser : EStateM.Result _ _ α) := by
  refine .stops nothing ?_
  rw [clean]
  exact .interrupted missing

theorem Broken.bind
    {around : Nat} {inside : List Visit} {step : Watched α}
    {next : α → Watched β} {parser : Parser}
    (broken : Broken lost around inside (step.run parser))
    (ends : ∀ value, (next value).Ends) :
    Broken lost around inside ((step >>= next).run parser) := by
  rw [run_bind]
  generalize outcome : step.run parser = result at broken
  cases broken with
  | @goes value after noneAround noneInside nothing clean =>
      subst noneAround noneInside
      rw [bind_ok outcome]
      exact ends value after nothing clean
  | stops nothing reports =>
      rw [bind_error outcome]
      exact .stops nothing reports

/-- A step that is interrupted is recorded by the statement around it. -/
theorem Broken.attempt
    {inside : List Visit} {step : ParseM α} {parser : Parser}
    (broken : Broken lost 0 inside (step parser)) :
    Recorded lost inside
      (.ok (ParseM.attempt step parser).1 (ParseM.attempt step parser).2 :
        EStateM.Result Diagnostic Parser (Option α)) := by
  rw [ParseM.attempt]
  generalize step parser = result at broken
  cases broken with
  | goes _ noneInside nothing clean =>
      subst noneInside
      refine .intro nothing ?_
      rw [clean]
      exact .between .nil
  | stops nothing reports =>
      refine .intro nothing ?_
      rw [← Array.toList_push] at reports
      exact reports

theorem Recorded.map
    {inside : List Visit} {step : Watched α} {build : α → β}
    {parser : Parser}
    (recorded : Recorded lost inside (step.run parser)) :
    Recorded lost inside
      ((step >>= fun value => pure (build value)).run parser) := by
  rw [run_bind]
  generalize outcome : step.run parser = result at recorded
  cases recorded with
  | intro nothing reports =>
      rw [bind_ok outcome]
      exact .intro nothing reports

/-- Behind a step that has recorded what is wrong the input ends. -/
theorem Recorded.advance
    {inside : List Visit} {step : Watched α} {next : α → Watched β}
    {parser : Parser}
    (recorded : Recorded lost inside (step.run parser)) :
    ∃ value diagnostics,
      Reports lost 0 inside diagnostics.toList ∧
      (step >>= fun value => Watched.advance >>= fun _ => next value).run
          parser =
        (next value).run ⟨.endOfInput, [], diagnostics⟩ := by
  rw [run_bind]
  generalize outcome : step.run parser = result at recorded
  cases recorded with
  | @intro value after nothing reports =>
      refine ⟨value, after.diagnostics, reports, ?_⟩
      rw [bind_ok outcome, run_bind, run_advance, ParseM.advance_bind,
        Parser.advance, nothing]

end Lost

namespace Ends

variable {step : Watched α} {next : α → Watched β}

theorem pure (value : α) : Ends (pure value) :=
  fun _ _ nothing clean => .goes rfl rfl nothing clean

theorem bind
    (first : step.Ends)
    (second : ∀ value, (next value).Ends) :
    (step >>= next).Ends :=
  fun _ parser nothing clean => (first parser nothing clean).bind second

theorem peek_eq
    {parser : Parser}
    (nothing : parser.upcoming = []) :
    parser.peek = .endOfInput := by
  rw [Parser.peek, nothing]

/-- A step that would go on behind some lexemes is done at the end. -/
theorem option
    {condition : Kind → Prop} [DecidablePred condition]
    {yes : Watched α} {value : α}
    (closed : ¬ condition .endOfInput) :
    Ends (peek >>= fun next =>
      if condition next then yes else Pure.pure value) := by
  intro lost parser nothing clean
  rw [run_bind, run_peek, ParseM.peek_bind, peek_eq nothing, if_neg closed]
  exact .goes rfl rfl nothing clean

/-- A lexeme that is expected is missing. -/
theorem expect
    {wanted : Kind} {next : Unit → Watched β}
    (listed : .expected wanted .endOfInput ∈ interruptions) :
    Ends (Watched.expect wanted >>= next) := by
  intro lost parser nothing clean
  have missing : ¬ Kind.endOfInput = wanted :=
    (ne_endOfInput_of_interruptions listed).symm
  have outcome : (Watched.expect wanted).run parser =
      .error (.expected wanted .endOfInput) parser := by
    rw [run_expect, ParseM.expect, ParseM.peek_bind, peek_eq nothing,
      if_neg missing]
    rfl
  rw [run_bind, bind_error outcome]
  exact .error nothing clean listed

theorem skipSemicolon (value : α) :
    Ends (Watched.skipSemicolon >>= fun _ => Pure.pure value) := by
  intro lost parser nothing clean
  rw [run_bind, run_skipSemicolon, ParseM.skipSemicolon_bind,
    Parser.skipSemicolon, peek_eq nothing, if_neg nofun]
  exact .goes rfl rfl nothing clean

end Ends

/-! ## Steps in front of a cut -/

/--
A step that reads without a diagnostic does so in front of the kept lexemes
alone as well, if it leaves the lost ones.  Otherwise it has another fate there,
which depends on the blocks that are open.
-/
structure Cut (lost kept : List Lexeme)
    (fate : List Visit → EStateM.Result Diagnostic Parser α → Prop)
    (full part : Watched α) (parser : Parser) : Prop where
  outcome {value : α} {after : Parser} :
    lost ≠ [] →
    parser.upcoming = kept ++ lost →
    full.run parser = .ok value after →
    after.diagnostics = #[] →
    (∃ rest, after.upcoming = rest ++ lost ∧
      part.run (parser.facing kept) = .ok value (after.facing rest)) ∨
    (after.upcoming.length < lost.length ∧
      fate (Visit.opened lost.length (full.visits parser))
        (part.run (parser.facing kept)))

/-- A step moves on before it opens a block. -/
def MovesOn (step : Watched α) (parser : Parser) : Prop :=
  ∀ value after, step.run parser = .ok value after →
    after.upcoming.length < parser.upcoming.length ∧
      Visit.opened parser.upcoming.length (step.visits parser) = []

/-- A parser without diagnostics comes from one without diagnostics. -/
theorem clean_of_final
    {step : Watched α} {parser : Parser}
    (clean : (final step.run parser).diagnostics = #[]) :
    parser.diagnostics = #[] := by
  have recorded := (step.path parser).recorded
  rw [clean] at recorded
  exact Array.toList_eq_nil_iff.1 (List.append_eq_nil_iff.1 recorded.symm).1

theorem clean_of_run
    {step : Watched α} {parser after : Parser} {value : α}
    (outcome : step.run parser = .ok value after)
    (clean : after.diagnostics = #[]) :
    parser.diagnostics = #[] :=
  clean_of_final (final_of_ok outcome ▸ clean)

/-- A step that leaves the lost lexemes has closed its blocks. -/
theorem opened_of_stays
    {lost rest : List Lexeme} {step : Watched α} {parser after : Parser}
    {value : α}
    (outcome : step.run parser = .ok value after)
    (later : after.upcoming = rest ++ lost) :
    Visit.opened lost.length (step.visits parser) = [] := by
  have path := step.path parser
  rw [final_of_ok outcome] at path
  refine path.opened_of_le ?_
  rw [later, List.length_append]
  exact Nat.le_add_left _ _

theorem length_of_stays
    {lost kept rest : List Lexeme} {step : Watched α} {parser after : Parser}
    {value : α}
    (upcoming : parser.upcoming = kept ++ lost)
    (outcome : step.run parser = .ok value after)
    (later : after.upcoming = rest ++ lost) :
    rest.length ≤ kept.length := by
  have length := length_le outcome
  rw [upcoming, later, List.length_append, List.length_append] at length
  omega

/-- A statement is no block. -/
theorem opened_asStatement
    {step : Watched Stmt} {parser : Parser} (left : Nat)
    (proper : parser.current.kind ≠ .symbol .semicolon) :
    Visit.opened left ((asStatement step).visits parser) =
      Visit.opened left (step.visits parser) := by
  have inside : insideStatement step parser = step.visits parser :=
    if_neg proper
  show (Visit.all [⟨_, _, _, insideStatement step parser⟩]).filter
    (Visit.isOpen left) = _
  rw [inside, Visit.all_cons, Visit.all_nil, List.append_nil]
  exact List.filter_cons_of_neg Bool.false_ne_true

namespace MovesOn

variable {step : Watched α} {next : α → Watched β} {parser : Parser}

theorem advance
    {next : Unit → Watched β}
    (nonempty : parser.upcoming ≠ []) :
    MovesOn (Watched.advance >>= next) parser := by
  intro value after outcome
  have shorter : parser.advance.upcoming.length < parser.upcoming.length := by
    rcases List.exists_cons_of_ne_nil nonempty with ⟨first, rest, upcoming⟩
    rw [Parser.advance, upcoming]
    exact Nat.lt_succ_self _
  have moved : (next ()).run parser.advance = .ok value after := outcome
  exact ⟨(length_le moved).trans_lt shorter,
    ((next ()).path parser.advance).opened_of_lt shorter⟩

theorem peek
    {next : Kind → Watched β}
    (inner : MovesOn (next parser.peek) parser) :
    MovesOn (Watched.peek >>= next) parser :=
  inner

theorem bind
    (first : MovesOn step parser) :
    MovesOn (step >>= next) parser := by
  intro value after outcome
  rcases bind_eq_ok outcome with ⟨given, middle, begun, outcome⟩
  rcases first given middle begun with ⟨shorter, closed⟩
  refine ⟨(length_le outcome).trans_lt shorter, ?_⟩
  rw [visits_bind_ok begun, Visit.opened_append, closed,
    ((next given).path middle).opened_of_lt shorter]
  rfl

end MovesOn

namespace Cut

variable {lost kept : List Lexeme} {parser : Parser}
variable {fate : List Visit → EStateM.Result Diagnostic Parser α → Prop}
variable {target : List Visit → EStateM.Result Diagnostic Parser β → Prop}
variable {full part : Watched α} {next cutNext : α → Watched β}

/-- A step that stops is not looked at. -/
theorem stop
    (stops : ∀ {value after}, full.run parser ≠ .ok value after) :
    Cut lost kept fate full part parser :=
  ⟨fun _ _ outcome => (stops outcome).elim⟩

theorem noOperand : Cut lost kept fate noOperand part parser :=
  stop ParseM.noOperand_ne_ok

theorem pure (value : α) :
    Cut lost kept fate (pure value) (pure value) parser := by
  refine ⟨?_⟩
  rintro _ _ - upcoming ⟨⟩ -
  exact .inl ⟨kept, upcoming, rfl⟩

/-- A step in front of which the input ends. -/
theorem atEnd
    (moves : parser.upcoming ≠ [] → MovesOn full parser)
    (ends : parser.diagnostics = #[] →
      Broken lost 0 [] (part.run (parser.facing []))) :
    Cut lost [] (Broken lost 0) full part parser := by
  refine ⟨fun {value after} nonempty upcoming outcome clean => ?_⟩
  rw [List.nil_append] at upcoming
  rcases moves (upcoming ▸ nonempty) value after outcome with
    ⟨shorter, closed⟩
  rw [upcoming] at shorter closed
  rw [closed]
  exact .inr ⟨shorter, ends (clean_of_run outcome clean)⟩

/--
A sequence whose first step is interrupted has the fate to which its second
step leads from there.
-/
theorem sequence
    (first : Cut lost kept fate full part parser)
    (second : ∀ {value middle rest}, rest.length ≤ kept.length →
      Cut lost rest target (next value) (cutNext value) middle)
    (ends : ∀ {blocks place}, fate blocks (part.run place) →
      target blocks ((part >>= cutNext).run place)) :
    Cut lost kept target (full >>= next) (part >>= cutNext) parser := by
  refine ⟨fun {value after} nonempty upcoming outcome clean => ?_⟩
  rcases bind_eq_ok outcome with ⟨given, middle, begun, outcome⟩
  have cleanMiddle := clean_of_run outcome clean
  rw [visits_bind_ok begun, Visit.opened_append]
  rcases first.outcome nonempty upcoming begun cleanMiddle with
    ⟨rest, later, stays⟩ | ⟨shorter, broken⟩
  · have run : (part >>= cutNext).run (parser.facing kept) =
        (cutNext given).run (middle.facing rest) := bind_ok stays
    rw [run, opened_of_stays begun later, List.nil_append]
    exact (second (length_of_stays upcoming begun later)).outcome nonempty
      later outcome clean
  · have ahead : Visit.opened lost.length ((next given).visits middle) = [] :=
      ((next given).path middle).opened_of_lt shorter
    rw [ahead, List.append_nil]
    exact .inr ⟨(length_le outcome).trans_lt shorter, ends broken⟩

theorem bind
    {around : Nat}
    (first : Cut lost kept (Broken lost around) full part parser)
    (second : ∀ {value middle rest}, rest.length ≤ kept.length →
      Cut lost rest (Broken lost around) (next value) (cutNext value) middle)
    (ends : ∀ value, (cutNext value).Ends) :
    Cut lost kept (Broken lost around) (full >>= next) (part >>= cutNext) parser :=
  first.sequence second fun broken => broken.bind ends

theorem map
    {around : Nat} {build : α → β}
    (first : Cut lost kept (Broken lost around) full part parser) :
    Cut lost kept (Broken lost around)
      (full >>= fun value => Pure.pure (build value))
      (part >>= fun value => Pure.pure (build value)) parser :=
  first.bind (fun _ => pure _) fun _ => Ends.pure _

theorem current
    {next cutNext : Lexeme → Watched β}
    (inner : Cut lost kept target (next parser.current)
      (cutNext parser.current) parser) :
    Cut lost kept target (Watched.current >>= next)
      (Watched.current >>= cutNext) parser :=
  ⟨inner.outcome⟩

/-- A step that looks ahead finds the end of the input at the cut. -/
theorem peek
    {next cutNext : Kind → Watched β}
    (inner : kept ≠ [] →
      Cut lost kept target (next parser.peek) (cutNext parser.peek) parser)
    (atEnd : kept = [] →
      Cut lost [] target (next parser.peek) (cutNext .endOfInput) parser) :
    Cut lost kept target (Watched.peek >>= next) (Watched.peek >>= cutNext)
      parser := by
  cases kept with
  | nil => exact ⟨(atEnd rfl).outcome⟩
  | cons first rest =>
      refine ⟨fun {value after} nonempty upcoming => ?_⟩
      have same : (parser.facing (first :: rest)).peek = parser.peek := by
        rw [Parser.peek, Parser.peek, upcoming]
        rfl
      have run : (Watched.peek >>= cutNext).run
            (parser.facing (first :: rest)) =
          (cutNext parser.peek).run (parser.facing (first :: rest)) := by
        rw [run_bind, run_peek, ParseM.peek_bind, same]
      rw [run]
      exact (inner (List.cons_ne_nil _ _)).outcome nonempty upcoming

/-- A step that goes on behind a lexeme that is kept. -/
theorem advance_cons
    {first : Lexeme} {rest : List Lexeme} {next cutNext : Unit → Watched β}
    (inner : Cut lost rest target (next ()) (cutNext ()) parser.advance) :
    Cut lost (first :: rest) target (Watched.advance >>= next)
      (Watched.advance >>= cutNext) parser := by
  refine ⟨fun {value after} nonempty upcoming outcome clean => ?_⟩
  have run : (Watched.advance >>= cutNext).run
        (parser.facing (first :: rest)) =
      (cutNext ()).run (parser.advance.facing rest) := by
    rw [run_bind, run_advance, ParseM.advance_bind,
      Parser.advance_facing upcoming]
  have later : parser.advance.upcoming = rest ++ lost := by
    rw [Parser.advance, upcoming]
    rfl
  rw [run]
  exact inner.outcome nonempty later outcome clean

/-- A step that goes on behind the next lexeme, or behind the cut. -/
theorem advance
    {next cutNext : Unit → Watched β}
    (inner : ∀ {rest : List Lexeme}, rest.length < kept.length →
      Cut lost rest target (next ()) (cutNext ()) parser.advance)
    (ends : target [] ((cutNext ()).run (Parser.before []))) :
    Cut lost kept target (Watched.advance >>= next)
      (Watched.advance >>= cutNext) parser := by
  cases kept with
  | nil =>
      refine ⟨fun {value after} nonempty upcoming outcome clean => ?_⟩
      rw [List.nil_append] at upcoming
      rcases MovesOn.advance (upcoming ▸ nonempty) value after outcome with
        ⟨shorter, closed⟩
      rw [upcoming] at shorter closed
      have isEnd : (parser.facing []).advance = Parser.before [] := by
        rw [Parser.before, ← clean_of_run outcome clean]
        rfl
      have run : (Watched.advance >>= cutNext).run (parser.facing []) =
          (cutNext ()).run (Parser.before []) := by
        rw [run_bind, run_advance, ParseM.advance_bind, isEnd]
      rw [run, closed]
      exact .inr ⟨shorter, ends⟩
  | cons first rest => exact advance_cons (inner (Nat.lt_succ_self _))

/-- A lexeme that is expected is missing behind the cut. -/
theorem expect
    {wanted : Kind} {next cutNext : Unit → Watched β}
    (listed : .expected wanted .endOfInput ∈ interruptions)
    (inner : ∀ {rest : List Lexeme}, rest.length < kept.length →
      Cut lost rest (Broken lost 0) (next ()) (cutNext ()) parser.advance) :
    Cut lost kept (Broken lost 0) (Watched.expect wanted >>= next)
      (Watched.expect wanted >>= cutNext) parser := by
  refine ⟨fun {value after} nonempty upcoming outcome clean => ?_⟩
  rcases bind_eq_ok outcome with ⟨⟨⟩, middle, begun, outcome⟩
  have inside := ne_endOfInput_of_interruptions listed
  rcases ParseM.reads_of_expect inside begun with ⟨literal, -, reads⟩
  rcases reads.single with ⟨found, -, rfl⟩
  -- Here the lexeme is found, and so the step only moves over it.
  have moved : (Watched.advance >>= next).run parser = .ok value after :=
    outcome
  have visits : (Watched.expect wanted >>= next).visits parser =
      (Watched.advance >>= next).visits parser := visits_bind_ok begun
  rw [visits]
  cases kept with
  | nil =>
      have ended : Cut lost [] (Broken lost 0) (Watched.advance >>= next)
          (Watched.expect wanted >>= cutNext) parser :=
        atEnd .advance fun clean => Ends.expect listed _ rfl clean
      exact ended.outcome nonempty upcoming moved clean
  | cons first rest =>
      have foundAgain : (parser.facing (first :: rest)).peek = wanted := by
        rw [← found, Parser.peek, Parser.peek, upcoming]
        rfl
      have run : (Watched.expect wanted >>= cutNext).run
            (parser.facing (first :: rest)) =
          (Watched.advance >>= cutNext).run (parser.facing (first :: rest)) :=
        bind_ok (ParseM.expect_ok foundAgain)
      rw [run]
      exact (advance_cons (inner (Nat.lt_succ_self _))).outcome nonempty
        upcoming moved clean

/-- A step that goes on behind some lexemes only. -/
theorem option
    {condition : Kind → Prop} [DecidablePred condition]
    {next cutNext : Unit → Watched α} {value : α}
    (closed : ¬ condition .endOfInput)
    (inner : condition parser.peek → ∀ {rest : List Lexeme},
      rest.length < kept.length →
      Cut lost rest (Broken lost 0) (next ()) (cutNext ()) parser.advance) :
    Cut lost kept (Broken lost 0)
      (Watched.peek >>= fun kind =>
        if condition kind then Watched.advance >>= next else Pure.pure value)
      (Watched.peek >>= fun kind =>
        if condition kind then Watched.advance >>= cutNext
        else Pure.pure value)
      parser := by
  refine .peek (fun someKept => ?_) fun noneKept => ?_
  · by_cases holds : condition parser.peek
    · rcases List.exists_cons_of_ne_nil someKept with ⟨first, rest, rfl⟩
      rw [if_pos holds, if_pos holds]
      exact advance_cons (inner holds (Nat.lt_succ_self _))
    · rw [if_neg holds, if_neg holds]
      exact pure value
  · rw [if_neg closed]
    by_cases holds : condition parser.peek
    · rw [if_pos holds]
      exact atEnd .advance fun clean => .goes rfl rfl rfl clean
    · rw [if_neg holds]
      exact pure value

/-- A semicolon may follow and changes nothing. -/
theorem skipSemicolon (value : α) :
    Cut lost kept (Broken lost 0)
      (Watched.skipSemicolon >>= fun _ => Pure.pure value)
      (Watched.skipSemicolon >>= fun _ => Pure.pure value) parser := by
  let skipping : Watched α := Watched.peek >>= fun kind =>
    if kind = .symbol .semicolon then
      Watched.advance >>= fun _ => Pure.pure value
    else
      Pure.pure value
  have same : ∀ place : Parser,
      (Watched.skipSemicolon >>= fun _ => Pure.pure value).run place =
        skipping.run place := by
    intro place
    simp only [skipping, run_bind, run_skipSemicolon, run_peek,
      ParseM.peek_bind, ParseM.skipSemicolon_bind, Parser.skipSemicolon]
    split <;> rfl
  have cut : Cut lost kept (Broken lost 0) skipping skipping parser :=
    option nofun fun _ _ _ => pure value
  have nothing : skipping.visits parser = [] := by
    show (if parser.peek = .symbol .semicolon then
        Watched.advance >>= fun _ => Pure.pure value
      else Pure.pure value : Watched α).visits parser = []
    split <;> rfl
  refine ⟨fun {result after} nonempty upcoming outcome clean => ?_⟩
  rw [same] at outcome ⊢
  have cases := cut.outcome nonempty upcoming outcome clean
  rw [nothing] at cases
  exact cases

/-- A block that is interrupted is open. -/
theorem asBlock
    (inner : Cut lost kept (Broken lost 1) full part parser)
    (nested : ∀ {diagnostic after},
      part.run (parser.facing kept) = .error diagnostic after →
      after.upcoming = [] → after.diagnostics = #[] → Phrase.Nested kept) :
    Cut lost kept (Broken lost 0) (Watched.asBlock full)
      (Watched.asBlock part) parser := by
  refine ⟨fun {value after} nonempty upcoming outcome clean => ?_⟩
  rw [run_asBlock] at outcome
  rcases inner.outcome nonempty upcoming outcome clean with
    stays | ⟨shorter, broken⟩
  · exact .inl stays
  · refine .inr ⟨shorter, ?_⟩
    have isOpen : Visit.isOpen lost.length
        ⟨.block, parser, final full.run parser, full.visits parser⟩ = true := by
      rw [final_of_ok outcome, Visit.isOpen, decide_eq_true_iff, upcoming,
        List.length_append]
      exact ⟨shorter, Nat.le_add_left _ _⟩
    have blocks : Visit.opened lost.length
          ((Watched.asBlock full).visits parser) =
        ⟨.block, parser, final full.run parser, full.visits parser⟩ ::
          Visit.opened lost.length (full.visits parser) := by
      rw [Visit.opened, Watched.asBlock, Visit.all_cons, Visit.all_nil,
        List.append_nil, List.filter_cons_of_pos isOpen]
      rfl
    rw [blocks, run_asBlock]
    generalize stopped : part.run (parser.facing kept) = result at broken
    cases broken with
    | goes around => cases around
    | stops nothing reports =>
        refine .stops nothing (reports.enter fun alone => ?_)
        -- Only the brace is missing, so what is kept are whole statements.
        rintro _ ⟨⟩
        have clean : _ ∧ _ :=
          (List.append_eq_singleton_iff.1 alone).resolve_right
            fun both => List.cons_ne_nil _ _ both.2
        exact ⟨kept, upcoming,
          nested stopped nothing (Array.toList_eq_nil_iff.1 clean.1)⟩

/-- A statement around a step records what is wrong with it. -/
theorem asStatement
    {full part : Watched Stmt}
    (inner : Cut lost kept (Broken lost 0) full part parser) :
    Cut lost kept (Recorded lost) (Watched.asStatement full)
      (Watched.asStatement part) parser := by
  refine ⟨fun {result after} nonempty upcoming outcome clean => ?_⟩
  have run : ∀ (step : Watched Stmt) (place : Parser),
      (Watched.asStatement step).run place =
        .ok (readStatement step place).1 (readStatement step place).2 :=
    fun _ _ => rfl
  by_cases stray : parser.current.kind = .symbol .semicolon
  · have still : readStatement part (parser.facing kept) =
        (none, parser.facing kept) := if_pos stray
    rw [run, readStatement, if_pos stray] at outcome
    cases outcome
    refine .inl ⟨kept, upcoming, ?_⟩
    rw [run, still]
  · have tried : readStatement part (parser.facing kept) =
        ParseM.attempt part.run (parser.facing kept) := if_neg stray
    rw [run, readStatement, if_neg stray, ParseM.attempt] at outcome
    rw [opened_asStatement lost.length stray, run, tried]
    cases read : full.run parser with
    | error diagnostic middle =>
        rw [read] at outcome
        cases outcome
        exact absurd clean Array.push_ne_empty
    | ok node middle =>
        rw [read] at outcome
        cases outcome
        rcases inner.outcome nonempty upcoming read clean with
          ⟨rest, later, stays⟩ | ⟨shorter, broken⟩
        · refine .inl ⟨rest, later, ?_⟩
          rw [ParseM.attempt, stays]
        · exact .inr ⟨shorter, broken.attempt⟩

end Cut

/-! ## The end of the input -/

theorem operators_ends (budget : Nat) (level : Precedence) (left : Expr) :
    (operators budget level left).Ends := by
  cases budget with
  | zero => exact Ends.pure left
  | succ budget =>
      rw [operators]
      exact Ends.option (Nat.not_lt_zero _)

theorem moreExpressions_ends (budget : Nat) :
    (moreExpressions budget).Ends := by
  cases budget with
  | zero => exact Ends.pure []
  | succ budget =>
      rw [moreExpressions]
      exact Ends.option (by decide)

/-- No expression starts at the end of the input. -/
theorem expression_broken
    {lost : List Lexeme} {budget : Nat} {level : Precedence}
    {next : Expr → Watched β} :
    Broken lost 0 []
      ((expression budget level >>= next).run (Parser.before [])) := by
  have operand : ∀ budget : Nat, (operand budget).run (Parser.before []) =
      .error (.noOperand .endOfInput) (Parser.before []) := by
    intro budget
    cases budget with
    | zero => rfl
    | succ budget =>
        rw [operand]
        rfl
  have stops : (expression budget level).run (Parser.before []) =
      .error (.noOperand .endOfInput) (Parser.before []) := by
    cases budget with
    | zero => rfl
    | succ budget =>
        rw [expression, run_bind, bind_error (operand budget)]
  rw [run_bind, bind_error stops]
  exact .error rfl rfl (by decide)

/-- At the end of the input a block lacks its closing brace. -/
theorem blockStatements_broken
    {lost : List Lexeme} {budget : Nat} {blocks : List Visit} {place : Parser}
    (enough : 0 < budget)
    (atEnd : place.current.kind = .endOfInput)
    (nothing : place.upcoming = [])
    (reports : Reports lost 0 blocks place.diagnostics.toList) :
    Broken lost 1 blocks ((blockStatements budget).run place) := by
  cases budget with
  | zero => omega
  | succ budget =>
      have stops : (blockStatements (budget + 1)).run place =
          .error missingBrace place := by
        rw [blockStatements, run_bind, run_current, ParseM.current_bind, atEnd]
        rfl
      rw [stops]
      exact .stops nothing reports.concat

theorem blockStatements_before
    {lost : List Lexeme} {budget : Nat}
    (enough : 0 < budget) :
    Broken lost 1 [] ((blockStatements budget).run (Parser.before [])) :=
  blockStatements_broken enough rfl rfl (.between .nil)

/-- A step stops even if its value is put into a larger one. -/
theorem stops_of_map
    {step : Watched α} {build : α → β} {parser after : Parser}
    {diagnostic : Diagnostic}
    (stops : (step >>= fun value => pure (build value)).run parser =
      .error diagnostic after) :
    step.run parser = .error diagnostic after := by
  cases outcome : step.run parser with
  | ok value middle =>
      rw [run_bind, bind_ok outcome] at stops
      cases stops
  | error other middle =>
      rw [run_bind, bind_error outcome] at stops
      cases stops
      rfl

/-- What stands in a block of which only the closing brace is missing. -/
theorem nested_of_blockStatements
    (budget : Nat) {parser after : Parser} {diagnostic : Diagnostic}
    (enough : 8 * parser.upcoming.length ≤ budget)
    (stops : (blockStatements budget).run parser.advance =
      .error diagnostic after)
    (nothing : after.upcoming = [])
    (clean : after.diagnostics = #[]) :
    Phrase.Nested parser.upcoming := by
  induction budget generalizing parser with
  | zero =>
      have none : parser.upcoming = [] :=
        List.length_eq_zero_iff.1 (by omega)
      rw [none]
      exact .nil
  | succ budget induction =>
      cases upcoming : parser.upcoming with
      | nil => exact .nil
      | cons first rest =>
          rw [upcoming, List.length_cons] at enough
          have isFirst := (Parser.reads_advance upcoming).1
          have later : parser.advance.upcoming = rest := by
            rw [Parser.advance, upcoming]
          rw [blockStatements, run_bind, run_current, ParseM.current_bind,
            isFirst] at stops
          by_cases closing : first.kind = .symbol .rightBrace
          · simp only [closing, if_true] at stops
            cases stops
          by_cases atEnd : first.kind = .endOfInput
          · simp only [atEnd, if_true] at stops
            cases stops
            rw [← later, nothing]
            exact .cons (by rw [atEnd]; rfl) (by rw [atEnd]; decide) .nil
          simp only [closing, atEnd, if_false] at stops
          -- The statement gives a result or none; it is the block that stops.
          have read : (statement budget).run parser.advance =
              .ok (Grammar.statement budget parser.advance).1
                (Grammar.statement budget parser.advance).2 := by
            rw [statement_run]
            rfl
          rw [run_bind, bind_ok read] at stops
          have rest := stops_of_map stops
          have cleanFirst :=
            (Parser.advance_diagnostics _).symm.trans
              (clean_of_final (final_of_error rest ▸ clean))
          rcases Grammar.statement_sound budget parser.advance
              (by rw [later]; omega) cleanFirst with
            ⟨-, mark, isMark, same⟩ | ⟨tree, phrase, -, reads, ended⟩
          · rw [same] at rest
            have more := induction (by rw [later]; omega) rest
            rw [later] at more
            rw [← isFirst, isMark]
            exact .cons rfl (by simp) more
          · have whole := reads.upcoming_eq
            have length := reads.length_eq
            rw [later] at whole length
            have statement : Phrase.Sequence
                (parser.advance.current :: phrase ++ []) [tree] :=
              ended.sequence (fun _ member => by cases member) .empty
            rw [isFirst, List.append_nil] at statement
            rw [whole]
            exact statement.nested.append (induction (by omega) rest)

/-- At the end of the input there are no more statements. -/
theorem statements_rest (budget : Nat) (diagnostics : Array Diagnostic) :
    (statements budget).run ⟨.endOfInput, [], diagnostics⟩ =
      .ok [] ⟨.endOfInput, [], diagnostics⟩ := by
  cases budget with
  | zero => rfl
  | succ budget =>
      rw [statements]
      rfl

theorem hashEntries_movesOn
    {budget : Nat} {parser : Parser}
    (nonempty : parser.upcoming ≠ []) :
    MovesOn (hashEntries budget) parser := by
  cases budget with
  | zero => exact nofun
  | succ budget =>
      rw [hashEntries]
      refine MovesOn.peek ?_
      split <;> exact MovesOn.advance nonempty

/-! ## The steps of the grammar -/

section Steps

variable {spare : Nat} {lost : List Lexeme}

theorem moreParameters_cut
    (budget : Nat) {kept : List Lexeme} {parser : Parser}
    (enough : 1 + 8 * kept.length ≤ budget) :
    Cut lost kept (Broken lost 0) (moreParameters (spare + budget))
      (moreParameters budget) parser := by
  induction budget generalizing parser kept with
  | zero => omega
  | succ budget induction =>
      rw [← Nat.add_assoc, moreParameters, moreParameters]
      refine .option (by decide) fun _ _ lengthComma => ?_
      refine .expect (by decide) fun lengthName => .current ?_
      exact (induction (by omega)).map

theorem parameters_cut
    (budget : Nat) {kept : List Lexeme} {parser : Parser}
    (enough : 1 + 8 * kept.length ≤ budget) :
    Cut lost kept (Broken lost 0) (parameters (spare + budget))
      (parameters budget) parser := by
  rw [parameters, parameters]
  have names : Cut lost kept (Broken lost 0)
      (expect .identifier >>= fun _ => current >>= fun lexeme =>
        moreParameters (spare + budget) >>= fun names =>
          expect (.symbol .rightParen) >>= fun _ =>
            pure (lexeme.literal :: names))
      (expect .identifier >>= fun _ => current >>= fun lexeme =>
        moreParameters budget >>= fun names =>
          expect (.symbol .rightParen) >>= fun _ =>
            pure (lexeme.literal :: names)) parser := by
    refine .expect (by decide) fun length => .current ?_
    refine (moreParameters_cut budget (by omega)).bind (fun _ => ?_)
      fun _ => Ends.expect (by decide)
    exact .expect (by decide) fun _ => .pure _
  refine .peek (fun _ => ?_) fun noneKept => ?_
  · split
    · exact .advance (fun _ => .pure []) (.goes rfl rfl rfl rfl)
    · exact names
  · have noParen : ¬ Kind.endOfInput = .symbol .rightParen := by
      decide
    rw [if_neg noParen]
    split
    · exact .atEnd (fun nonempty => MovesOn.advance nonempty)
        fun clean => Ends.expect (by decide) _ rfl clean
    · subst noneKept
      exact names

mutual

theorem expression_cut :
    ∀ (budget : Nat) (level : Precedence) {kept : List Lexeme}
      {parser : Parser}, 10 + 8 * kept.length ≤ budget →
      Cut lost kept (Broken lost 0) (expression (spare + budget) level)
        (expression budget level) parser
  | 0, _, _, _, enough => by omega
  | budget + 1, level, kept, parser, enough => by
    rw [← Nat.add_assoc, expression, expression]
    exact (operand_cut budget (by omega)).bind
      (fun length => operators_cut budget level _ (by omega))
      (operators_ends budget level)

theorem operators_cut :
    ∀ (budget : Nat) (level : Precedence) (left : Expr) {kept : List Lexeme}
      {parser : Parser}, 1 + 8 * kept.length ≤ budget →
      Cut lost kept (Broken lost 0) (operators (spare + budget) level left)
        (operators budget level left) parser
  | 0, _, _, _, _, enough => by omega
  | budget + 1, level, left, kept, parser, enough => by
    rw [← Nat.add_assoc, operators, operators]
    refine .option (Nat.not_lt_zero _) fun _ _ length => ?_
    exact (extend_cut budget left (by omega)).bind
      (fun further => operators_cut budget level _ (by omega))
      (operators_ends budget level)

theorem extend_cut :
    ∀ (budget : Nat) (left : Expr) {kept : List Lexeme} {parser : Parser},
      5 + 8 * kept.length ≤ budget →
      Cut lost kept (Broken lost 0) (extend (spare + budget) left)
        (extend budget left) parser
  | 0, _, _, _, enough => by omega
  | budget + 1, left, kept, parser, enough => by
    rw [← Nat.add_assoc, extend, extend]
    refine .current ?_
    split
    · exact call_cut budget left (by omega)
    · exact index_cut budget left (by omega)
    · split
      · exact binary_cut budget _ _ left (by omega)
      · exact .pure left
    · exact .pure left

theorem operand_cut :
    ∀ (budget : Nat) {kept : List Lexeme} {parser : Parser},
      9 + 8 * kept.length ≤ budget →
      Cut lost kept (Broken lost 0) (operand (spare + budget))
        (operand budget) parser
  | 0, _, _, enough => by omega
  | budget + 1, kept, parser, enough => by
    rw [← Nat.add_assoc, operand, operand]
    refine .current ?_
    split
    · exact .pure _
    · exact .pure _
    · split
      · exact .pure _
      · exact .stop nofun
    · exact .pure _
    · exact .pure _
    · exact .pure _
    · exact unary_cut budget .not (by omega)
    · exact unary_cut budget .negate (by omega)
    · exact grouped_cut budget (by omega)
    · exact conditional_cut budget (by omega)
    · exact function_cut budget (by omega)
    · exact array_cut budget (by omega)
    · exact hash_cut budget (by omega)
    · exact .noOperand

theorem call_cut :
    ∀ (budget : Nat) (callee : Expr) {kept : List Lexeme} {parser : Parser},
      4 + 8 * kept.length ≤ budget →
      Cut lost kept (Broken lost 0) (call (spare + budget) callee)
        (call budget callee) parser
  | 0, _, _, _, enough => by omega
  | budget + 1, callee, kept, parser, enough => by
    rw [← Nat.add_assoc, call, call]
    exact (expressionList_cut budget (by decide) (by omega)).map

theorem binary_cut :
    ∀ (budget : Nat) (operator : BinaryOp) (level : Precedence) (left : Expr)
      {kept : List Lexeme} {parser : Parser},
      3 + 8 * kept.length ≤ budget →
      Cut lost kept (Broken lost 0) (binary (spare + budget) operator level left)
        (binary budget operator level left) parser
  | 0, _, _, _, _, _, enough => by omega
  | budget + 1, operator, level, left, kept, parser, enough => by
    rw [← Nat.add_assoc, binary, binary]
    exact .advance (fun length => (expression_cut budget level (by omega)).map)
      expression_broken

theorem index_cut :
    ∀ (budget : Nat) (collection : Expr) {kept : List Lexeme}
      {parser : Parser}, 3 + 8 * kept.length ≤ budget →
      Cut lost kept (Broken lost 0) (index (spare + budget) collection)
        (index budget collection) parser
  | 0, _, _, _, enough => by omega
  | budget + 1, collection, kept, parser, enough => by
    rw [← Nat.add_assoc, index, index]
    refine .advance (fun length => ?_) expression_broken
    exact (expression_cut budget .lowest (by omega)).bind
      (fun _ => .expect (by decide) fun _ => .pure _)
      fun _ => Ends.expect (by decide)

theorem unary_cut :
    ∀ (budget : Nat) (operator : UnaryOp) {kept : List Lexeme}
      {parser : Parser}, 3 + 8 * kept.length ≤ budget →
      Cut lost kept (Broken lost 0) (unary (spare + budget) operator)
        (unary budget operator) parser
  | 0, _, _, _, enough => by omega
  | budget + 1, operator, kept, parser, enough => by
    rw [← Nat.add_assoc, unary, unary]
    exact .advance
      (fun length => (expression_cut budget .unary (by omega)).map)
      expression_broken

theorem grouped_cut :
    ∀ (budget : Nat) {kept : List Lexeme} {parser : Parser},
      3 + 8 * kept.length ≤ budget →
      Cut lost kept (Broken lost 0) (grouped (spare + budget))
        (grouped budget) parser
  | 0, _, _, enough => by omega
  | budget + 1, kept, parser, enough => by
    rw [← Nat.add_assoc, grouped, grouped]
    refine .advance (fun length => ?_) expression_broken
    exact (expression_cut budget .lowest (by omega)).bind
      (fun _ => .expect (by decide) fun _ => .pure _)
      fun _ => Ends.expect (by decide)

theorem conditional_cut :
    ∀ (budget : Nat) {kept : List Lexeme} {parser : Parser},
      7 + 8 * kept.length ≤ budget →
      Cut lost kept (Broken lost 0) (conditional (spare + budget))
        (conditional budget) parser
  | 0, _, _, enough => by omega
  | budget + 1, kept, parser, enough => by
    rw [← Nat.add_assoc, conditional, conditional]
    refine .advance (fun length => ?_) expression_broken
    refine (expression_cut budget .lowest (by omega)).bind
      (fun behind => ?_) fun _ => Ends.expect (by decide)
    refine .expect (by decide) fun lengthBrace => ?_
    refine (block_cut budget (by omega)).bind (fun closed => ?_)
      fun _ => Ends.option (by decide)
    refine .option (by decide) fun _ _ lengthElse => ?_
    refine .expect (by decide) fun lengthSecond => ?_
    exact (block_cut budget (by omega)).map

theorem function_cut :
    ∀ (budget : Nat) {kept : List Lexeme} {parser : Parser},
      7 + 8 * kept.length ≤ budget →
      Cut lost kept (Broken lost 0) (function (spare + budget))
        (function budget) parser
  | 0, _, _, enough => by omega
  | budget + 1, kept, parser, enough => by
    rw [← Nat.add_assoc, function, function]
    refine .expect (by decide) fun length => ?_
    refine (parameters_cut budget (by omega)).bind (fun behind => ?_)
      fun _ => Ends.expect (by decide)
    refine .expect (by decide) fun lengthBrace => ?_
    exact (block_cut budget (by omega)).map

theorem array_cut :
    ∀ (budget : Nat) {kept : List Lexeme} {parser : Parser},
      4 + 8 * kept.length ≤ budget →
      Cut lost kept (Broken lost 0) (array (spare + budget))
        (array budget) parser
  | 0, _, _, enough => by omega
  | budget + 1, kept, parser, enough => by
    rw [← Nat.add_assoc, array, array]
    exact (expressionList_cut budget (by decide) (by omega)).map

theorem hash_cut :
    ∀ (budget : Nat) {kept : List Lexeme} {parser : Parser},
      4 + 8 * kept.length ≤ budget →
      Cut lost kept (Broken lost 0) (hash (spare + budget))
        (hash budget) parser
  | 0, _, _, enough => by omega
  | budget + 1, kept, parser, enough => by
    rw [← Nat.add_assoc, hash, hash]
    exact (hashEntries_cut budget (by omega)).map

theorem expressionList_cut :
    ∀ (budget : Nat) {close : Kind} {kept : List Lexeme} {parser : Parser},
      .expected close .endOfInput ∈ interruptions →
      3 + 8 * kept.length ≤ budget →
      Cut lost kept (Broken lost 0) (expressionList (spare + budget) close)
        (expressionList budget close) parser
  | 0, _, _, _, _, enough => by omega
  | budget + 1, close, kept, parser, listed, enough => by
    rw [← Nat.add_assoc, expressionList, expressionList]
    refine .peek (fun _ => ?_) fun _ => ?_
    · split
      · exact .advance (fun _ => .pure []) (.goes rfl rfl rfl rfl)
      · refine .advance (fun length => ?_) expression_broken
        refine (expression_cut budget .lowest (by omega)).bind
          (fun behind => ?_)
          fun _ => (moreExpressions_ends budget).bind
            fun _ => Ends.expect listed
        exact (moreExpressions_cut budget (by omega)).bind
          (fun _ => .expect listed fun _ => .pure _)
          fun _ => Ends.expect listed
    · rw [if_neg (ne_endOfInput_of_interruptions listed).symm]
      split <;> exact .advance nofun expression_broken

theorem moreExpressions_cut :
    ∀ (budget : Nat) {kept : List Lexeme} {parser : Parser},
      1 + 8 * kept.length ≤ budget →
      Cut lost kept (Broken lost 0) (moreExpressions (spare + budget))
        (moreExpressions budget) parser
  | 0, _, _, enough => by omega
  | budget + 1, kept, parser, enough => by
    rw [← Nat.add_assoc, moreExpressions, moreExpressions]
    refine .option (by decide) fun _ _ lengthComma => ?_
    refine .advance (fun length => ?_) expression_broken
    exact (expression_cut budget .lowest (by omega)).bind
      (fun behind => (moreExpressions_cut budget (by omega)).map)
      fun _ => (moreExpressions_ends budget).bind fun _ => Ends.pure _

theorem hashEntries_cut :
    ∀ (budget : Nat) {kept : List Lexeme} {parser : Parser},
      3 + 8 * kept.length ≤ budget →
      Cut lost kept (Broken lost 0) (hashEntries (spare + budget))
        (hashEntries budget) parser
  | 0, _, _, enough => by omega
  | budget + 1, kept, parser, enough => by
    have entries : ∀ {key value : Expr} {rest : List Lexeme} {place : Parser},
        rest.length < kept.length →
        Cut lost rest (Broken lost 0)
          (hashEntries (spare + budget) >>= fun entries =>
            pure ((key, value) :: entries))
          (hashEntries budget >>= fun entries =>
            pure ((key, value) :: entries)) place :=
      fun length => (hashEntries_cut budget (by omega)).map
    have noBrace : Kind.endOfInput ≠ .symbol .rightBrace := by decide
    rw [← Nat.add_assoc, hashEntries, hashEntries]
    refine .peek (fun _ => ?_) fun _ => ?_
    · split
      · exact .advance (fun _ => .pure []) (.goes rfl rfl rfl rfl)
      · refine .advance (fun length => ?_) expression_broken
        refine (expression_cut budget .lowest (by omega)).bind
          (fun behindKey => ?_) fun _ => Ends.expect (by decide)
        refine .expect (by decide) fun lengthColon => ?_
        refine .advance (fun lengthNext => ?_) expression_broken
        refine (expression_cut budget .lowest (by omega)).bind
          (fun behindValue => ?_) fun _ => ?_
        · refine .peek (fun _ => ?_) fun noneKept => ?_
          · split
            · exact .expect (by decide) fun _ => entries (by omega)
            · exact entries (by omega)
          · subst noneKept
            rw [if_pos noBrace]
            split
            · exact .expect (by decide) fun _ => entries (by omega)
            · exact .atEnd
                (fun nonempty => (hashEntries_movesOn nonempty).bind)
                fun clean => Ends.expect (by decide) _ rfl clean
        · intro _ place nothing clean
          rw [run_bind, run_peek, ParseM.peek_bind, Ends.peek_eq nothing,
            if_pos noBrace]
          exact Ends.expect (by decide) place nothing clean
    · rw [if_neg noBrace]
      split <;> exact .advance nofun expression_broken

theorem block_cut :
    ∀ (budget : Nat) {kept : List Lexeme} {parser : Parser},
      6 + 8 * kept.length ≤ budget →
      Cut lost kept (Broken lost 0) (block (spare + budget))
        (block budget) parser
  | 0, _, _, enough => by omega
  | budget + 1, kept, parser, enough => by
    rw [← Nat.add_assoc, block, block]
    have statements : Cut lost kept (Broken lost 1)
        (advance >>= fun _ => blockStatements (spare + budget))
        (advance >>= fun _ => blockStatements budget) parser :=
      .advance (fun length => blockStatements_cut budget (by omega))
        (blockStatements_before (by omega))
    have length : 8 * (parser.facing kept).upcoming.length ≤ budget := by
      show 8 * kept.length ≤ budget
      omega
    exact statements.asBlock fun stops =>
      nested_of_blockStatements budget length stops

theorem blockStatements_cut :
    ∀ (budget : Nat) {kept : List Lexeme} {parser : Parser},
      13 + 8 * kept.length ≤ budget →
      Cut lost kept (Broken lost 1) (blockStatements (spare + budget))
        (blockStatements budget) parser
  | 0, _, _, enough => by omega
  | budget + 1, kept, parser, enough => by
    rw [← Nat.add_assoc, blockStatements, blockStatements]
    refine .current ?_
    dsimp only
    split
    · exact .pure []
    · split
      · exact .stop nofun
      · refine (statement_cut budget (by omega)).sequence (fun length => ?_)
          fun {blocks place} recorded => ?_
        · exact .advance
            (fun lengthNext => (blockStatements_cut budget (by omega)).map)
            ((blockStatements_before (by omega)).bind fun _ => Ends.pure _)
        · -- The statement has recorded what is wrong, and the block stops.
          rcases recorded.advance with ⟨first, diagnostics, reports, run⟩
          rw [run]
          have broken : Broken lost 1 blocks ((blockStatements budget).run
              ⟨.endOfInput, [], diagnostics⟩) :=
            blockStatements_broken (by omega) rfl rfl reports
          exact broken.bind fun _ => Ends.pure _

theorem statement_cut :
    ∀ (budget : Nat) {kept : List Lexeme} {parser : Parser},
      12 + 8 * kept.length ≤ budget →
      Cut lost kept (Recorded lost) (statement (spare + budget)) (statement budget)
        parser
  | 0, _, _, enough => by omega
  | budget + 1, kept, parser, enough => by
    rw [← Nat.add_assoc, statement, statement]
    refine .asStatement (.current ?_)
    split
    · exact definition_cut budget (by omega)
    · exact definition_cut budget (by omega)
    · exact result_cut budget (by omega)
    · exact expressionStatement_cut budget (by omega)

theorem definition_cut :
    ∀ (budget : Nat) {kept : List Lexeme} {parser : Parser},
      3 + 8 * kept.length ≤ budget →
      Cut lost kept (Broken lost 0) (definition (spare + budget))
        (definition budget) parser
  | 0, _, _, enough => by omega
  | budget + 1, kept, parser, enough => by
    rw [← Nat.add_assoc, definition, definition]
    refine .expect (by decide) fun lengthName => .current ?_
    refine .expect (by decide) fun lengthAssign => ?_
    refine .advance (fun length => ?_) expression_broken
    exact (expression_cut budget .lowest (by omega)).bind
      (fun _ => .skipSemicolon _) fun _ => Ends.skipSemicolon _

theorem result_cut :
    ∀ (budget : Nat) {kept : List Lexeme} {parser : Parser},
      3 + 8 * kept.length ≤ budget →
      Cut lost kept (Broken lost 0) (result (spare + budget))
        (result budget) parser
  | 0, _, _, enough => by omega
  | budget + 1, kept, parser, enough => by
    rw [← Nat.add_assoc, result, result]
    refine .advance (fun length => ?_) expression_broken
    exact (expression_cut budget .lowest (by omega)).bind
      (fun _ => .skipSemicolon _) fun _ => Ends.skipSemicolon _

theorem expressionStatement_cut :
    ∀ (budget : Nat) {kept : List Lexeme} {parser : Parser},
      11 + 8 * kept.length ≤ budget →
      Cut lost kept (Broken lost 0) (expressionStatement (spare + budget))
        (expressionStatement budget) parser
  | 0, _, _, enough => by omega
  | budget + 1, kept, parser, enough => by
    rw [← Nat.add_assoc, expressionStatement, expressionStatement]
    exact (expression_cut budget .lowest (by omega)).bind
      (fun _ => .skipSemicolon _) fun _ => Ends.skipSemicolon _

end

/-- The statements up to the end of the input are always interrupted. -/
theorem statements_cut
    (budget : Nat) {kept : List Lexeme} {parser : Parser}
    (enough : 13 + 8 * kept.length ≤ budget) :
    Cut lost kept (Recorded lost) (statements (spare + budget)) (statements budget)
      parser := by
  induction budget generalizing kept parser with
  | zero => omega
  | succ budget induction =>
      rw [← Nat.add_assoc, statements, statements]
      refine .current ?_
      split
      · exact .pure []
      · refine (statement_cut budget (by omega)).sequence (fun length => ?_)
          fun {blocks place} recorded => ?_
        · refine .advance (fun lengthNext => ?_) ?_
          · exact (induction (by omega)).sequence (fun _ => .pure _)
              fun recorded => recorded.map
          · rw [run_bind, Parser.before, bind_ok (statements_rest budget #[])]
            exact .intro rfl (.between .nil)
        · rcases recorded.advance with ⟨first, diagnostics, reports, run⟩
          rw [run, run_bind, bind_ok (statements_rest budget diagnostics)]
          exact .intro rfl reports

end Steps

end Watched

/-! ## The diagnostics of a truncated source -/

theorem diagnostics_parseLexemes (input : List Lexeme) :
    (parseLexemes input).diagnostics =
      (Parser.ofLexemes input).program.2.diagnostics.toList :=
  rfl

/-- What is reported for the lexemes that are kept. -/
theorem reports_of_append
    {kept lost : List Lexeme}
    (nonempty : lost ≠ [])
    (accepted : (parseLexemes (kept ++ lost)).diagnostics = []) :
    Watched.Reports lost 0
      (Visit.opened lost.length (Visit.ofLexemes (kept ++ lost)))
      (parseLexemes kept).diagnostics := by
  cases kept with
  | nil =>
      have ahead : (Parser.ofLexemes lost).upcoming.length < lost.length := by
        rcases List.exists_cons_of_ne_nil nonempty with ⟨first, rest, rfl⟩
        exact Nat.lt_succ_self _
      rw [List.nil_append, (Visit.path_ofLexemes lost).opened_of_lt ahead]
      exact .between .nil
  | cons first rest =>
      have budget : (Parser.ofLexemes (first :: rest ++ lost)).budget =
          8 * lost.length + (Parser.ofLexemes (first :: rest)).budget := by
        show 8 * ((rest ++ lost).length + 2) =
          8 * lost.length + 8 * (rest.length + 2)
        rw [List.length_append]
        omega
      have enough : 13 + 8 * rest.length ≤
          (Parser.ofLexemes (first :: rest)).budget := by
        show 13 + 8 * rest.length ≤ 8 * (rest.length + 2)
        omega
      have full := Watched.run_ofLexemes (first :: rest ++ lost)
      have part := Watched.run_ofLexemes (first :: rest)
      rw [diagnostics_parseLexemes] at accepted ⊢
      have clean := Array.toList_eq_nil_iff.1 accepted
      rw [Visit.ofLexemes]
      rw [budget] at full ⊢
      -- The lexemes that are kept are what the cut leaves of the input.
      have facing : (Parser.ofLexemes (first :: rest ++ lost)).facing rest =
          Parser.ofLexemes (first :: rest) := rfl
      rcases (Watched.statements_cut _ enough).outcome nonempty rfl full clean
        with ⟨left, later, stays⟩ | ⟨-, recorded⟩
      · rw [facing, part] at stays
        injection stays with _ isAfter
        rw [Watched.opened_of_stays full later, isAfter]
        show Watched.Reports lost 0 []
          (Parser.ofLexemes (first :: rest ++ lost)).program.2.diagnostics.toList
        rw [accepted]
        exact .between .nil
      · rw [facing, part] at recorded
        cases recorded with
        | intro _ reports => exact reports

theorem parseLexemes_take
    {input : List Lexeme}
    (accepted : (parseLexemes input).diagnostics = []) (count : Nat) :
    ∃ interrupted : Option Diagnostic,
      (parseLexemes (input.take count)).diagnostics = interrupted.toList ++
        List.replicate
          (Visit.openBlocks (input.length - count) (Visit.ofLexemes input))
          Watched.missingBrace := by
  have whole := List.take_append_drop count input
  rw [← List.length_drop, Visit.openBlocks_eq]
  by_cases nothing : input.drop count = []
  · rw [nothing, List.append_nil] at whole
    refine ⟨none, ?_⟩
    rw [whole, nothing, List.length_nil,
      (Visit.path_ofLexemes input).opened_of_le (Nat.zero_le _), accepted]
    rfl
  · have reports := reports_of_append nothing (whole.symm ▸ accepted)
    rw [whole] at reports
    generalize (parseLexemes (input.take count)).diagnostics = found at reports
    cases reports with
    | @interrupted diagnostic missing =>
        refine ⟨some diagnostic, ?_⟩
        rw [Nat.zero_add]
        rfl
    | between enclosed =>
        refine ⟨none, ?_⟩
        rw [Nat.zero_add]
        rfl

/--
The number of blocks of a source that are opened among its first tokens and
closed behind them.
-/
def openBlocks (source : String) (count : Nat) : Nat :=
  Visit.openBlocks ((lexemes source).length - count) (Visit.ofSource source)

/-- The blocks of a source are read from brace to brace. -/
theorem braces_of_block
    {source : String} {visit : Visit}
    (member : visit ∈ Visit.all (Visit.ofSource source))
    (isBlock : visit.part = .block) :
    visit.start.current.kind = .symbol .leftBrace ∧
      (visit.finish.current.kind = .symbol .rightBrace ∨
        visit.finish.current.kind = .endOfInput) := by
  have settled := (Watched.tallied_ofLexemes (lexemes source)).settled visit
    member
  rwa [Visit.Settled, isBlock] at settled

/--
The first tokens of a source without diagnostics have at most one diagnostic,
for the statement that is interrupted, and then one for every block that is
open behind them.
-/
theorem diagnostics_of_take
    {source : String}
    (accepted : (parse source).diagnostics = []) (count : Nat) :
    (∀ visit ∈ Visit.all (Visit.ofSource source), visit.part = .block →
      visit.start.current.kind = .symbol .leftBrace ∧
        (visit.finish.current.kind = .symbol .rightBrace ∨
          visit.finish.current.kind = .endOfInput)) ∧
    ∃ interrupted : Option Diagnostic,
      (parseLexemes ((lexemes source).take count)).diagnostics =
        interrupted.toList ++
          List.replicate (openBlocks source count) Watched.missingBrace ∧
      (parseLexemes ((lexemes source).take count)).messages =
        interrupted.toList.map Diagnostic.message ++
          List.replicate (openBlocks source count)
            "expected next token to be \x7d, got EOF instead" := by
  refine ⟨fun visit member isBlock => braces_of_block member isBlock, ?_⟩
  rcases parseLexemes_take accepted count with ⟨interrupted, found⟩
  have message : Watched.missingBrace.message =
      "expected next token to be \x7d, got EOF instead" := by decide +kernel
  refine ⟨interrupted, found, ?_⟩
  rw [Parsed.messages, found, List.map_append, List.map_replicate, message]
  rfl

/-- The cut is in a hash inside of two blocks. -/
theorem diagnostics_of_take_nested :
    let source := "फन(x) \x7b यदि (x) \x7b g(\x7b1: 2\x7d) \x7d \x7d"
    (parse source).diagnostics = [] ∧ openBlocks source 14 = 2 ∧
    (∀ visit ∈ Visit.all (Visit.ofSource source), visit.part = .block →
      visit.start.current.kind = .symbol .leftBrace ∧
        (visit.finish.current.kind = .symbol .rightBrace ∨
          visit.finish.current.kind = .endOfInput)) ∧
    ∃ interrupted : Option Diagnostic,
      (parseLexemes ((lexemes source).take 14)).diagnostics =
        interrupted.toList ++
          List.replicate (openBlocks source 14) Watched.missingBrace ∧
      (parseLexemes ((lexemes source).take 14)).messages =
        interrupted.toList.map Diagnostic.message ++
          List.replicate (openBlocks source 14)
            "expected next token to be \x7d, got EOF instead" :=
  ⟨by decide +kernel, by decide +kernel,
    diagnostics_of_take (by decide +kernel) 14⟩

end Bhasha
