import Bhasha.Program.Equality
import Bhasha.Proofs.Command.Dispatch
import Bhasha.Proofs.Parser.Acceptance
import Bhasha.Proofs.Token.Spelling
import Bhasha.Session

/-!
# Commands and sources

The words of all commands start with a colon.  A line that asks for a command thus
has a colon as its first lexeme, whatever follows, and no program starts with one.
So a line that is read as a program without a diagnostic asks for no command, and
a session evaluates it, unless it is the word that ends the session.
-/

namespace Bhasha

open Text

/-! ## First lexemes of programs -/

/-- A program can start with a lexeme of this kind. -/
inductive Kind.Opens : Kind → Prop where
  | semicolon : Kind.Opens (.symbol .semicolon)
  | binding : Kind.Opens (.keyword .binding)
  | number : Kind.Opens (.keyword .number)
  | result : Kind.Opens (.keyword .result)
  | expression {kind : Kind} : kind.Starts → kind.Opens

theorem Kind.not_opens_colon : ¬ (Kind.symbol .colon).Opens := by
  intro opens
  cases opens with
  | expression starts =>
      generalize isKind : Kind.symbol .colon = kind at starts
      cases starts with
      | unary operator => cases operator <;> cases isKind
      | _ => cases isKind

namespace Phrase

theorem Statement.opens
    {phrase : List Lexeme} {statement : Stmt}
    (derives : Statement phrase statement) :
    ∃ first rest, phrase = first :: rest ∧ first.kind.Opens := by
  cases derives with
  | binding value => exact ⟨_, _, rfl, .binding⟩
  | number value => exact ⟨_, _, rfl, .number⟩
  | result value => exact ⟨_, _, rfl, .result⟩
  | expression value =>
      rcases value.starts with ⟨first, rest, rfl, starts⟩
      exact ⟨first, rest, rfl, .expression starts⟩

/-- The first lexeme of a program, if it has one, is of a kind that opens it. -/
theorem Sequence.opens
    {phrase : List Lexeme} {statements : List Stmt}
    (derives : Sequence phrase statements) :
    ∀ first ∈ phrase.head?, first.kind.Opens := by
  cases derives with
  | empty => rintro first ⟨⟩
  | semicolon more =>
      rintro first ⟨⟩
      exact .semicolon
  | closed statement more =>
      rcases statement.opens with ⟨start, rest, rfl, opens⟩
      rintro first ⟨⟩
      exact opens
  | unclosed statement stops more =>
      rcases statement.opens with ⟨start, rest, rfl, opens⟩
      rintro first ⟨⟩
      exact opens

end Phrase

/-- A source that starts with a colon has a diagnostic. -/
theorem diagnostics_ne_nil_of_colon
    {source : String}
    (colon : source.toList.head? = some ':') :
    (parse source).diagnostics ≠ [] := by
  intro accepted
  rcases List.head?_eq_some_iff.1 colon with ⟨rest, characters⟩
  have found : lexemes source = .ofSymbol .colon :: scan rest := by
    rw [lexemes_eq_scan, characters]
    exact scan_symbol .colon fun extensible => absurd extensible (by decide)
  have derives := derives_of_accepted accepted
  rw [found] at derives
  exact Kind.not_opens_colon (derives.opens _ rfl)

/-! ## Lines that ask for a command -/

namespace Registry

/-- The words of all commands start with a colon. -/
theorem standard_colon :
    ∀ entry ∈ standard.commands, entry.1.toList.head? = some ':' := by
  decide

theorem colon_of_find?
    {line : String} {found : Command × String}
    (asked : standard.find? line = some found) :
    line.toList.head? = some ':' := by
  rcases List.exists_of_findSome?_eq_some asked with
    ⟨⟨word, command⟩, member, matched⟩
  rcases Option.map_eq_some_iff.1 matched with ⟨argument, argued, -⟩
  have starts : word.toList <+: line.toList := by
    refine prefix_of_asks (isSome_argument?_iff.1 ?_)
    rw [argued]
    rfl
  rcases starts with ⟨rest, parts⟩
  rcases List.head?_eq_some_iff.1 (standard_colon _ member) with
    ⟨more, letters⟩
  rw [← parts, letters]
  rfl

/-- A line that is read without a diagnostic is no command. -/
theorem dispatch_of_accepted
    {line : String}
    (accepted : (parse line).diagnostics = []) (view : CommandView) :
    standard.dispatch line view = ("", .notACommand) := by
  cases asked : standard.find? line with
  | none => rw [dispatch, asked]
  | some found =>
      exact absurd accepted (diagnostics_ne_nil_of_colon (colon_of_find? asked))

end Registry

/-! ## Sessions -/

theorem Session.evaluate_of_accepted
    {line : String}
    (accepted : (parse line).diagnostics = [])
    (nonempty : (parse line).program ≠ [])
    (session : Session) :
    session.evaluate line =
      (.evaluated
          ((parse line).program.eval session.config session.machine).1,
        { session with
          machine :=
            ((parse line).program.eval session.config session.machine).2 }) := by
  rw [evaluate]
  dsimp only
  rw [if_neg (by simp [accepted]), if_neg (by simpa using nonempty)]

/-- A line whose text is accepted, and is not the exit word, is evaluated. -/
theorem Session.submit_of_accepted
    {line : String}
    (accepted : (parse (trim line)).diagnostics = [])
    (nonempty : (parse (trim line)).program ≠ [])
    (other : trim line ≠ exitWord)
    (session : Session) :
    session.submit line = session.evaluate (trim line) := by
  have visible : ¬ (trim line).isEmpty = true := by
    rw [String.isEmpty_iff]
    intro empty
    rw [empty] at nonempty
    exact nonempty (List.isEmpty_iff.1 (by decide +kernel))
  rw [submit, if_neg visible, if_neg other,
    Registry.dispatch_of_accepted accepted]

/--
In every session, a line whose trimmed text is read without a diagnostic as a
program with a statement is evaluated, unless it is the word that ends a session:
it leads to what the program gives in the machine of the session, and leaves the
machine that the program leaves.  Whatever is a command has a diagnostic when it is
read as a source.
-/
theorem Session.commands_never_shadow :
    (∀ (session : Session) (line : String),
      (parse (trim line)).diagnostics = [] →
      (parse (trim line)).program ≠ [] →
      trim line ≠ exitWord →
      session.submit line =
        (.evaluated
            ((parse (trim line)).program.eval session.config
              session.machine).1,
          { session with
            machine :=
              ((parse (trim line)).program.eval session.config
                session.machine).2 })) ∧
    ∀ (line : String) (view : CommandView),
      (Registry.standard.dispatch line view).2 ≠ .notACommand →
      (parse line).diagnostics ≠ [] := by
  constructor
  · intro session line accepted nonempty other
    rw [submit_of_accepted accepted nonempty other]
    exact evaluate_of_accepted accepted nonempty session
  · intro line view command accepted
    rw [Registry.dispatch_of_accepted accepted] at command
    exact command rfl

/-- The word that ends a session is a name in a source. -/
theorem Session.commands_never_shadow_name :
    ((start {} .off).submit " लेट अन्त्य = 41; अन्त्य + 1 ").1 =
      .evaluated (some (.integer 42)) := by
  let line := " लेट अन्त्य = 41; अन्त्य + 1 "
  let program : Program :=
    [.define "अन्त्य" (.integer 41),
      .expression (.binary .add (.name "अन्त्य") (.integer 1))]
  have isProgram : (parse (trim line)).program = program :=
    (Program.same_iff _ _).1 (by decide +kernel)
  have nonempty : (parse (trim line)).program ≠ [] := by
    rw [isProgram]
    exact List.cons_ne_nil _ _
  have gives : (program.eval {} .initial).1 = some (.integer 42) := by
    dsimp only [program]
    with_unfolding_all rfl
  rw [commands_never_shadow.1 _ line (by decide +kernel) nonempty
    (by decide +kernel), isProgram]
  exact congrArg Outcome.evaluated gives

end Bhasha
