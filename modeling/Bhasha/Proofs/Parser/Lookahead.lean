import Bhasha.Proofs.Parser.Reading
import Bhasha.Proofs.Token.Spelling

/-!
# What a step has seen

A step of the parser decides by the lexemes that it has read and by the one
behind them.  This module states that for one step at one parser, in two parts.
A step that gives a value gives the same value in front of all lexemes that
start with the phrase it has read and the lexeme behind it.  A step that leaves
a diagnostic has read a phrase up to the lexeme that is wrong; it leaves the
same first diagnostic in front of all lexemes that start with this phrase and
the wrong lexeme, and a few more lexemes make the phrase one of the language of
the step.

Both parts are kept by sequences.  A sequence that stops in its first half is
completed in two parts: first what the first half has begun, then everything
that the second half would have read.
-/

namespace Bhasha

/-! ## Parsers that see the same -/

namespace Parser

/-- The same parser in front of other lexemes. -/
def facing (parser : Parser) (upcoming : List Lexeme) : Parser :=
  { parser with upcoming := upcoming }

/-- Two parsers have the same lexeme in hand and the same next one. -/
structure Alike (parser other : Parser) : Prop where
  current : other.current = parser.current
  next : other.upcoming.head? = parser.upcoming.head?

namespace Alike

variable {parser other : Parser}

theorem refl (parser : Parser) : parser.Alike parser :=
  ⟨rfl, rfl⟩

theorem facing
    {upcoming : List Lexeme}
    (same : upcoming.head? = parser.upcoming.head?) :
    parser.Alike (parser.facing upcoming) :=
  ⟨rfl, same⟩

theorem peek
    (alike : parser.Alike other) :
    other.peek = parser.peek := by
  rcases parser with ⟨current, upcoming, diagnostics⟩
  rcases other with ⟨otherCurrent, otherUpcoming, otherDiagnostics⟩
  have next : otherUpcoming.head? = upcoming.head? := alike.next
  rw [Parser.peek, Parser.peek]
  cases upcoming <;> cases otherUpcoming <;> cases next <;> rfl

theorem current_advance
    (alike : parser.Alike other) :
    other.advance.current = parser.advance.current := by
  rcases parser with ⟨current, upcoming, diagnostics⟩
  rcases other with ⟨otherCurrent, otherUpcoming, otherDiagnostics⟩
  have next : otherUpcoming.head? = upcoming.head? := alike.next
  rw [Parser.advance, Parser.advance]
  cases upcoming <;> cases otherUpcoming <;> cases next <;> rfl

end Alike

/-- Moving over the first of other lexemes leaves the rest of them. -/
theorem advance_facing
    {parser : Parser} {first : Lexeme} {rest : List Lexeme}
    (upcoming : parser.upcoming = first :: rest) (other : List Lexeme) :
    (parser.facing (first :: other)).advance = parser.advance.facing other := by
  rcases parser with ⟨current, later, diagnostics⟩
  cases upcoming
  rfl

theorem advance_diagnostics (parser : Parser) :
    parser.advance.diagnostics = parser.diagnostics := by
  rw [advance]
  split <;> rfl

end Parser

/-- Only behind an empty phrase does it matter how a list starts. -/
theorem head?_append_congr
    {first second : List Lexeme}
    (same : first.head? = second.head?) (phrase : List Lexeme) :
    (phrase ++ first).head? = (phrase ++ second).head? := by
  rw [List.head?_append, List.head?_append, same]

/-! ## The first diagnostic -/

namespace ParseM

variable {α β : Type}

/-- A step leaves diagnostics of which this one is the first. -/
def Reports (diagnostic : Diagnostic) (step : ParseM α)
    (parser : Parser) : Prop :=
  (attempt step parser).2.diagnostics.toList.head? = some diagnostic

theorem head?_of_reaches
    {before after : Parser} {diagnostic : Diagnostic}
    (reaches : before.Reaches after)
    (found : before.diagnostics.toList.head? = some diagnostic) :
    after.diagnostics.toList.head? = some diagnostic := by
  rcases reaches.diagnostics with ⟨more, whole⟩
  rw [← whole, List.head?_append, found]
  rfl

namespace Reports

variable {diagnostic : Diagnostic} {parser middle : Parser} {value : α}
variable {step : ParseM α} {next : α → ParseM β}

theorem iff_of_ok
    (outcome : step parser = .ok value middle) :
    Reports diagnostic step parser ↔
      middle.diagnostics.toList.head? = some diagnostic := by
  rw [Reports, attempt, outcome]

theorem iff_of_error
    {reason : Diagnostic}
    (outcome : step parser = .error reason middle)
    (clean : middle.diagnostics = #[]) :
    Reports diagnostic step parser ↔ diagnostic = reason := by
  rw [Reports, attempt, outcome]
  simp only [Parser.record, clean]
  exact Option.some_inj.trans eq_comm

theorem pure_iff :
    Reports diagnostic (pure value) parser ↔
      parser.diagnostics.toList.head? = some diagnostic :=
  Iff.rfl

theorem advance_iff :
    Reports diagnostic (advance >>= fun _ => step) parser ↔
      Reports diagnostic step parser.advance :=
  Iff.rfl

/-- A sequence that goes on reports what its second step reports. -/
theorem bind_iff
    (outcome : step parser = .ok value middle) :
    Reports diagnostic (step >>= next) parser ↔
      Reports diagnostic (next value) middle := by
  rw [Reports, Reports, attempt, attempt, Step.bind_ok outcome]

/-- What a first step reports stays the first diagnostic. -/
theorem bind
    (reports : Reports diagnostic step parser)
    (goes : ∀ value, (next value).Advances) :
    Reports diagnostic (step >>= next) parser := by
  cases outcome : step parser with
  | ok value middle =>
      rw [bind_iff outcome]
      exact head?_of_reaches ((goes value).attempt middle)
        ((iff_of_ok outcome).1 reports)
  | error reason middle =>
      rw [Reports, attempt, Step.bind_error outcome]
      rwa [Reports, attempt, outcome] at reports

/-- The first diagnostic of a sequence is due to one of its two steps. -/
theorem bind_cases
    (reports : Reports diagnostic (step >>= next) parser)
    (goes : ∀ value, (next value).Advances) :
    Reports diagnostic step parser ∨
      ∃ value middle, step parser = .ok value middle ∧
        middle.diagnostics = #[] ∧ Reports diagnostic (next value) middle := by
  cases outcome : step parser with
  | ok value middle =>
      rw [bind_iff outcome] at reports
      cases found : middle.diagnostics.toList.head? with
      | none =>
          exact .inr ⟨value, middle, rfl,
            Array.toList_eq_nil_iff.1 (List.head?_eq_none_iff.1 found),
            reports⟩
      | some earlier =>
          have kept := head?_of_reaches ((goes value).attempt middle) found
          rw [Reports, kept] at reports
          rw [iff_of_ok outcome, found, reports]
          exact .inl rfl
  | error reason middle =>
      rw [Reports, attempt, Step.bind_error outcome] at reports
      rw [Reports, attempt, outcome]
      exact .inl reports

end Reports

end ParseM

/-! ## Phrases that can be completed -/

/-- A lexeme with which an open construct can be completed. -/
inductive Closer where
  | name
  | symbol (mark : Symbol)

/-- The lexeme that completes a construct. -/
def Closer.lexeme : Closer → Lexeme
  | .name => ⟨.identifier, "x"⟩
  | .symbol mark => .ofSymbol mark

/-- A phrase is the start of one that belongs to a language. -/
def Begins {α : Type} (language : List Lexeme → α → Prop)
    (phrase : List Lexeme) : Prop :=
  ∃ (closers : List Closer) (value : α),
    language (phrase ++ closers.map Closer.lexeme) value

theorem Begins.done
    {α : Type} {language : List Lexeme → α → Prop} {phrase : List Lexeme}
    {value : α}
    (derives : language phrase value) :
    Begins language phrase :=
  ⟨[], value, by rwa [List.map_nil, List.append_nil]⟩

theorem Begins.of_append
    {α : Type} {language : List Lexeme → α → Prop} {phrase : List Lexeme}
    {closers : List Closer}
    (begins : Begins language (phrase ++ closers.map Closer.lexeme)) :
    Begins language phrase := by
  rcases begins with ⟨more, value, derives⟩
  refine ⟨closers ++ more, value, ?_⟩
  rwa [List.map_append, ← List.append_assoc]

/-! ## Steps that decide by what they have seen -/

namespace ParseM

/--
A step with a budget decides at a parser by the phrase that it reads and the
next lexeme, for every other budget that pays for the lexemes in front of it.
-/
structure Incremental {α : Type} (cost budget : Nat) (step : Nat → ParseM α)
    (parser : Parser) (language : List Lexeme → α → Prop) : Prop where
  result {value : α} {after : Parser} :
    step budget parser = .ok value after →
    after.diagnostics = #[] →
    ∃ phrase, parser.upcoming = phrase ++ after.upcoming ∧
      ∀ {enough : Nat} {tail : List Lexeme},
        tail.head? = after.upcoming.head? →
        cost + 8 * (phrase ++ tail).length ≤ enough →
        step enough (parser.facing (phrase ++ tail)) =
          .ok value (after.facing tail)
  report {diagnostic : Diagnostic} :
    parser.diagnostics = #[] →
    Reports diagnostic (step budget) parser →
    ∃ phrase rest, parser.upcoming = phrase ++ rest ∧
      Begins language phrase ∧
      ∀ {enough : Nat} {tail : List Lexeme},
        tail.head? = rest.head? →
        cost + 8 * (phrase ++ tail).length ≤ enough →
        Reports diagnostic (step enough) (parser.facing (phrase ++ tail))

namespace Incremental

variable {α β : Type} {cost budget : Nat} {parser : Parser}
variable {step : Nat → ParseM α} {next : Nat → α → ParseM β}
variable {language : List Lexeme → α → Prop}
variable {target : List Lexeme → β → Prop}

/-! ### Costs -/

theorem mono
    {larger : Nat}
    (inner : Incremental cost budget step parser language)
    (order : cost ≤ larger) :
    Incremental larger budget step parser language where
  result outcome clean := by
    rcases inner.result outcome clean with ⟨phrase, upcoming, again⟩
    exact ⟨phrase, upcoming, fun same enough => again same (by omega)⟩
  report clean reports := by
    rcases inner.report clean reports with
      ⟨phrase, rest, upcoming, begins, again⟩
    exact ⟨phrase, rest, upcoming, begins,
      fun same enough => again same (by omega)⟩

theorem imp
    {larger : List Lexeme → α → Prop}
    (inner : Incremental cost budget step parser language)
    (derives : ∀ {phrase value}, language phrase value →
      larger phrase value) :
    Incremental cost budget step parser larger where
  result := inner.result
  report clean reports := by
    rcases inner.report clean reports with
      ⟨phrase, rest, upcoming, ⟨closers, value, begun⟩, again⟩
    exact ⟨phrase, rest, upcoming, ⟨closers, value, derives begun⟩, again⟩

/-- A nested step costs one unit. -/
theorem succ
    (inner : Incremental cost budget (fun left => step (left + 1)) parser
      language) :
    Incremental (cost + 1) (budget + 1) step parser language where
  result outcome clean := by
    rcases inner.result outcome clean with ⟨phrase, upcoming, again⟩
    refine ⟨phrase, upcoming, fun {enough _} same cost => ?_⟩
    cases enough with
    | zero => omega
    | succ enough => exact again same (by omega)
  report clean reports := by
    rcases inner.report clean reports with
      ⟨phrase, rest, upcoming, begins, again⟩
    refine ⟨phrase, rest, upcoming, begins, fun {enough _} same cost => ?_⟩
    cases enough with
    | zero => omega
    | succ enough => exact again same (by omega)

/-! ### Steps that look at the parser -/

/-- Steps that agree on all parsers that see the same decide alike. -/
theorem congr
    {other : Nat → ParseM α}
    (inner : Incremental cost budget other parser language)
    (same : ∀ budget place, parser.Alike place →
      step budget place = other budget place) :
    Incremental cost budget step parser language where
  result outcome clean := by
    rw [same budget parser (.refl parser)] at outcome
    rcases inner.result outcome clean with ⟨phrase, upcoming, again⟩
    refine ⟨phrase, upcoming, fun isHead cost => ?_⟩
    rw [same _ _ (.facing (upcoming ▸ head?_append_congr isHead phrase))]
    exact again isHead cost
  report clean reports := by
    rw [Reports, attempt, same budget parser (.refl parser)] at reports
    rcases inner.report clean reports with
      ⟨phrase, rest, upcoming, begins, again⟩
    refine ⟨phrase, rest, upcoming, begins, fun isHead cost => ?_⟩
    rw [Reports, attempt,
      same _ _ (.facing (upcoming ▸ head?_append_congr isHead phrase))]
    exact again isHead cost

theorem pure (value : α) :
    Incremental cost budget (fun _ => pure value) parser language where
  result := by
    rintro _ _ ⟨⟩ _
    exact ⟨[], rfl, fun _ _ => rfl⟩
  report clean reports := by
    rw [Reports.pure_iff, clean] at reports
    cases reports

theorem peek
    {next : Nat → Kind → ParseM β}
    (inner : Incremental cost budget (fun left => next left parser.peek) parser
      target) :
    Incremental cost budget (fun left => ParseM.peek >>= next left) parser
      target :=
  inner.congr fun _ place alike => by rw [peek_bind, alike.peek]

theorem current
    {next : Nat → Lexeme → ParseM β}
    (inner : Incremental cost budget (fun left => next left parser.current)
      parser target) :
    Incremental cost budget (fun left => ParseM.current >>= next left) parser
      target :=
  inner.congr fun _ place alike => by rw [current_bind, alike.current]

/-- A step that looks at the lexeme to which it has moved. -/
theorem look
    {next : Nat → Lexeme → ParseM β}
    (inner : Incremental cost budget
      (fun left => ParseM.advance >>= fun _ => next left parser.advance.current)
      parser target) :
    Incremental cost budget
      (fun left => ParseM.advance >>= fun _ => ParseM.current >>= next left)
      parser target :=
  inner.congr fun _ place alike => by
    rw [advance_bind, advance_bind, current_bind, alike.current_advance]

theorem branch
    {condition : Prop} [Decidable condition] {other : Nat → ParseM α}
    (yes : condition → Incremental cost budget step parser language)
    (no : ¬ condition → Incremental cost budget other parser language) :
    Incremental cost budget
      (fun left => if condition then step left else other left) parser
      language := by
  by_cases holds : condition
  · exact (yes holds).congr fun _ _ _ => by rw [if_pos holds]
  · exact (no holds).congr fun _ _ _ => by rw [if_neg holds]

/-! ### Steps that read a lexeme -/

/-- A step that goes on behind the next lexeme. -/
theorem advance
    {first : Lexeme} {rest : List Lexeme}
    (upcoming : parser.upcoming = first :: rest)
    (inner : Incremental (cost + 8) budget step parser.advance
      (fun phrase value => language (first :: phrase) value)) :
    Incremental cost budget (fun left => ParseM.advance >>= fun _ => step left)
      parser language where
  result outcome clean := by
    rcases inner.result outcome clean with ⟨phrase, later, again⟩
    refine ⟨first :: phrase, ?_, fun same enough => ?_⟩
    · rw [List.cons_append, ← later, upcoming, Parser.advance, upcoming]
    · rw [List.cons_append, advance_bind, Parser.advance_facing upcoming]
      rw [List.cons_append, List.length_cons] at enough
      exact again same (by omega)
  report clean reports := by
    rw [Reports.advance_iff] at reports
    rcases inner.report (parser.advance_diagnostics.trans clean) reports with
      ⟨phrase, tail, later, ⟨closers, value, derives⟩, again⟩
    refine ⟨first :: phrase, tail, ?_, ⟨closers, value, derives⟩,
      fun same enough => ?_⟩
    · rw [List.cons_append, ← later, upcoming, Parser.advance, upcoming]
    · rw [Reports.advance_iff, List.cons_append,
        Parser.advance_facing upcoming]
      rw [List.cons_append, List.length_cons] at enough
      exact again same (by omega)

/-- A step that stops at the lexeme to which it has moved. -/
theorem stop
    {diagnostic : Diagnostic}
    (begins : Begins language [])
    (stops : ∀ budget (place : Parser),
      place.current = parser.advance.current →
      step budget place = .error diagnostic place) :
    Incremental cost budget (fun left => ParseM.advance >>= fun _ => step left)
      parser language where
  result outcome := by
    rw [advance_bind, stops budget _ rfl] at outcome
    cases outcome
  report clean reports := by
    rw [Reports.advance_iff, Reports.iff_of_error (stops budget _ rfl)
      (parser.advance_diagnostics.trans clean)] at reports
    refine ⟨[], parser.upcoming, rfl, begins, fun {enough tail} same _ => ?_⟩
    rw [Reports.advance_iff, reports, List.nil_append, Reports.iff_of_error
      (stops enough _ (Parser.Alike.facing same).current_advance)
      ((Parser.advance_diagnostics _).trans clean)]

theorem throw
    {diagnostic : Diagnostic}
    (begins : Begins language []) :
    Incremental cost budget
      (fun _ => ParseM.advance >>= fun _ => throw diagnostic) parser
      language :=
  stop begins fun _ _ _ => rfl

theorem noOperand
    (begins : Begins language []) :
    Incremental cost budget
      (fun _ => ParseM.advance >>= fun _ => ParseM.noOperand) parser
      language :=
  stop begins fun _ place same => by
    show EStateM.Result.error (Diagnostic.noOperand place.current.kind) place =
      _
    rw [same]

/-- A step that is done with the next lexeme, or with the end of the input. -/
theorem advance_pure (value : α) :
    Incremental cost budget
      (fun _ => ParseM.advance >>= fun _ => Pure.pure value) parser
      language := by
  cases upcoming : parser.upcoming with
  | cons first rest => exact advance upcoming (pure value)
  | nil =>
      refine ⟨?_, ?_⟩
      · rintro _ _ ⟨⟩ _
        have nothing : parser.advance.upcoming = [] := by
          rw [Parser.advance, upcoming]
        refine ⟨[], upcoming.trans nothing.symm, fun {_ tail} same _ => ?_⟩
        rw [nothing] at same
        rw [List.head?_eq_none_iff.1 same, advance_bind, Parser.advance,
          Parser.advance, upcoming]
        rfl
      · intro _ clean reports
        rw [Reports.advance_iff, Reports.pure_iff,
          Parser.advance_diagnostics, clean] at reports
        cases reports

/-- A step that goes on behind a lexeme of a known kind. -/
theorem behind
    {kind : Kind}
    (found : parser.peek = kind)
    (inside : kind ≠ .endOfInput)
    (inner : ∀ {literal}, parser.advance.current = ⟨kind, literal⟩ →
      parser.upcoming.length = 1 + parser.advance.upcoming.length →
      Incremental (cost + 8) budget step parser.advance
        (fun phrase value => language (⟨kind, literal⟩ :: phrase) value)) :
    Incremental cost budget (fun left => ParseM.advance >>= fun _ => step left)
      parser language := by
  rcases Parser.exists_of_peek found inside with ⟨literal, isFirst, reads⟩
  exact advance reads.upcoming_eq (inner isFirst reads.length_eq)

/-- A lexeme that is expected, and what goes on behind it. -/
theorem expect
    {wanted : Kind}
    (inside : wanted ≠ .endOfInput)
    (begins : Begins language [])
    (inner : ∀ {literal}, parser.advance.current = ⟨wanted, literal⟩ →
      parser.upcoming.length = 1 + parser.advance.upcoming.length →
      Incremental (cost + 8) budget step parser.advance
        (fun phrase value => language (⟨wanted, literal⟩ :: phrase) value)) :
    Incremental cost budget
      (fun left => ParseM.expect wanted >>= fun _ => step left) parser
      language := by
  by_cases found : parser.peek = wanted
  · refine (behind found inside inner).congr fun _ place alike => ?_
    rw [Step.bind_ok (expect_ok (alike.peek.trans found)), advance_bind]
  · have stops : ∀ budget place, parser.Alike place →
        (ParseM.expect wanted >>= fun _ => step budget) place =
          .error (.expected wanted parser.peek) place := by
      intro budget place alike
      refine Step.bind_error ?_
      rw [ParseM.expect, peek_bind, alike.peek, if_neg found]
      rfl
    refine ⟨fun outcome => ?_, fun clean reports => ?_⟩
    · rw [stops budget parser (.refl parser)] at outcome
      cases outcome
    · rw [Reports.iff_of_error (stops budget parser (.refl parser)) clean]
        at reports
      refine ⟨[], parser.upcoming, rfl, begins, fun same _ => ?_⟩
      rw [reports, List.nil_append,
        Reports.iff_of_error (stops _ _ (.facing same)) clean]

/-- A semicolon may follow and changes nothing. -/
theorem skipSemicolon (value : α) :
    Incremental cost budget
      (fun _ => ParseM.skipSemicolon >>= fun _ => Pure.pure value) parser
      language := by
  by_cases found : parser.peek = .symbol .semicolon
  · refine (advance_pure value).congr fun _ place alike => ?_
    rw [skipSemicolon_bind, advance_bind, Parser.skipSemicolon,
      if_pos (alike.peek.trans found)]
  · refine (pure value).congr fun _ place alike => ?_
    rw [skipSemicolon_bind, Parser.skipSemicolon, alike.peek, if_neg found]

/-! ### Sequences -/

/--
A sequence decides by what it has seen if its second step does so behind what
the first one reads.
-/
theorem bind
    (start : Incremental cost budget step parser language)
    (goes : ∀ budget value, (next budget value).Advances)
    (complete : ∀ {phrase}, phrase <+: parser.upcoming →
      Begins language phrase → Begins target phrase)
    (second : ∀ {value after},
      step budget parser = .ok value after →
      after.diagnostics = #[] →
      ∃ phrase, parser.upcoming = phrase ++ after.upcoming ∧
        Incremental (cost + 8 * phrase.length) budget
          (fun left => next left value) after
          (fun rest result => target (phrase ++ rest) result)) :
    Incremental cost budget (fun left => step left >>= next left) parser
      target := by
  -- The first step, once it gives a value, does so in front of all lexemes
  -- that start like those from which the second step goes on.
  have first : ∀ {value after},
      step budget parser = .ok value after →
      after.diagnostics = #[] →
      ∃ phrase, parser.upcoming = phrase ++ after.upcoming ∧
        Incremental (cost + 8 * phrase.length) budget
          (fun left => next left value) after
          (fun rest result => target (phrase ++ rest) result) ∧
        ∀ {enough : Nat} {more rest tail : List Lexeme},
          after.upcoming = more ++ rest →
          tail.head? = rest.head? →
          cost + 8 * (phrase ++ more ++ tail).length ≤ enough →
          step enough (parser.facing (phrase ++ more ++ tail)) =
            .ok value (after.facing (more ++ tail)) := by
    intro value after outcome clean
    rcases second outcome clean with ⟨phrase, upcoming, inner⟩
    rcases start.result outcome clean with ⟨same, upcoming', again⟩
    rw [upcoming, List.append_left_inj] at upcoming'
    subst upcoming'
    refine ⟨phrase, upcoming, inner, fun later isHead enough => ?_⟩
    rw [List.append_assoc] at enough ⊢
    exact again (later ▸ head?_append_congr isHead _) enough
  refine ⟨fun outcome clean => ?_, fun clean reports => ?_⟩
  · rcases Step.bind_eq_ok outcome with ⟨value, middle, begun, outcome⟩
    have cleanMiddle := ((goes budget value).reaches outcome).clean clean
    rcases first begun cleanMiddle with ⟨phrase, upcoming, inner, again⟩
    rcases inner.result outcome clean with ⟨more, later, againMore⟩
    refine ⟨phrase ++ more, ?_, fun {enough tail} same cost => ?_⟩
    · rw [upcoming, later, List.append_assoc]
    · rw [Step.bind_ok (again later same cost)]
      simp only [List.length_append] at cost
      exact againMore same (by rw [List.length_append]; omega)
  · rcases reports.bind_cases (goes budget) with
      early | ⟨value, middle, begun, cleanMiddle, late⟩
    · rcases start.report clean early with
        ⟨phrase, rest, upcoming, begins, again⟩
      exact ⟨phrase, rest, upcoming, complete ⟨rest, upcoming.symm⟩ begins,
        fun same cost => (again same cost).bind (goes _)⟩
    · rcases first begun cleanMiddle with ⟨phrase, upcoming, inner, again⟩
      rcases inner.report cleanMiddle late with
        ⟨more, rest, later, ⟨closers, result, derives⟩, againMore⟩
      refine ⟨phrase ++ more, rest, ?_, ⟨closers, result, ?_⟩,
        fun {enough tail} same cost => ?_⟩
      · rw [upcoming, later, List.append_assoc]
      · rw [List.append_assoc]
        exact derives
      · rw [Reports.bind_iff (again later same cost)]
        simp only [List.length_append] at cost
        exact againMore same (by rw [List.length_append]; omega)

/-- A value that is only put into a larger one. -/
theorem map
    {build : α → β}
    (start : Incremental cost budget step parser language)
    (derives : ∀ {phrase value}, language phrase value →
      target phrase (build value)) :
    Incremental cost budget
      (fun left => step left >>= fun value => Pure.pure (build value)) parser
      target := by
  refine start.bind (fun _ value => Advances.pure _) ?_ ?_
  · rintro phrase - ⟨closers, value, inner⟩
    exact ⟨closers, build value, derives inner⟩
  · intro value after outcome clean
    rcases start.result outcome clean with ⟨phrase, upcoming, -⟩
    exact ⟨phrase, upcoming, pure _⟩

/--
A sequence whose first step is sound: facts about the phrase that it reads are
known to the second step.
-/
theorem seq
    (facts : List Lexeme → α → Parser → Prop)
    (start : Incremental cost budget step parser language)
    (sound : ∀ {value after},
      step budget parser = .ok value after →
      after.diagnostics = #[] →
      ∃ phrase, parser.Reads phrase after ∧ facts phrase value after)
    (goes : ∀ budget value, (next budget value).Advances)
    (complete : ∀ {phrase value}, language phrase value →
      Begins target phrase)
    (second : ∀ {phrase value after}, parser.Reads phrase after →
      facts phrase value after →
      Incremental (cost + 8 * phrase.length) budget
        (fun left => next left value) after
        (fun rest result => target (phrase ++ rest) result)) :
    Incremental cost budget (fun left => step left >>= next left) parser
      target := by
  refine start.bind goes ?_ ?_
  · rintro phrase - ⟨closers, value, derives⟩
    exact (complete derives).of_append
  · intro value after outcome clean
    rcases sound outcome clean with ⟨phrase, reads, known⟩
    exact ⟨phrase, reads.upcoming_eq, second reads known⟩

/-- An attempt decides by what its step has seen. -/
theorem attempt
    (inner : Incremental cost budget step parser language)
    {target : List Lexeme → Option α → Prop}
    (derives : ∀ {phrase value}, language phrase value →
      target phrase (some value)) :
    Incremental cost budget
      (fun left => modifyGet (ParseM.attempt (step left))) parser target where
  result := by
    rintro _ _ ⟨⟩ clean
    cases outcome : step budget parser with
    | ok value after =>
        simp only [outcome] at clean ⊢
        rcases inner.result outcome clean with ⟨phrase, upcoming, again⟩
        refine ⟨phrase, upcoming, fun {enough tail} same cost => ?_⟩
        have givenAgain : ParseM.attempt (step enough)
            (parser.facing (phrase ++ tail)) =
              (some value, after.facing tail) := by
          rw [ParseM.attempt, again same cost]
        exact congrArg (fun pair => EStateM.Result.ok pair.1 pair.2) givenAgain
    | error reason after =>
        simp [outcome, Parser.record] at clean
  report clean reports := by
    rcases inner.report clean reports with
      ⟨phrase, rest, upcoming, ⟨closers, value, begun⟩, again⟩
    exact ⟨phrase, rest, upcoming, ⟨closers, some value, derives begun⟩, again⟩

end Incremental

end ParseM

end Bhasha
