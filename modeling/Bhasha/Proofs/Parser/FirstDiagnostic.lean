import Bhasha.Proofs.Parser.Acceptance
import Bhasha.Proofs.Parser.ViablePrefix
import Bhasha.Proofs.Token.Separation

/-!
# The first diagnostic of a source

The first diagnostic is about the first token that is wrong.  The tokens in
front of it can be completed to a program, with it they cannot, and no token
behind it has a part in the diagnostic.
-/

namespace Bhasha

/-! ## Tokens that can be completed -/

/-- Tokens go on to those of an input that is read without a diagnostic. -/
def Completable (start : List Lexeme) : Prop :=
  ∃ input, (∀ lexeme ∈ input, lexeme.kind ≠ .endOfInput) ∧
    (parseLexemes input).diagnostics = [] ∧
    start <+: input ++ [.endOfInput]

theorem Completable.of_prefix
    {start longer : List Lexeme}
    (initial : start <+: longer)
    (completable : Completable longer) :
    Completable start := by
  rcases completable with ⟨input, inside, accepted, whole⟩
  exact ⟨input, inside, accepted, initial.trans whole⟩

/--
Two inputs agree on a phrase and the token behind it, which may be the end of
the input.
-/
theorem exists_append_of_take_prefix
    {phrase rest other : List Lexeme}
    (inside : ∀ lexeme ∈ phrase ++ rest, lexeme.kind ≠ .endOfInput)
    (insideOther : ∀ lexeme ∈ other, lexeme.kind ≠ .endOfInput)
    (initial : (phrase ++ rest ++ [Lexeme.endOfInput]).take
      (phrase.length + 1) <+: other ++ [.endOfInput]) :
    ∃ tail, other = phrase ++ tail ∧ tail.head? = rest.head? := by
  rcases initial with ⟨more, whole⟩
  rw [List.append_assoc, List.take_length_add_append, List.append_assoc,
    List.append_eq_append_iff] at whole
  rcases whole with ⟨tail, isOther, behind⟩ | ⟨lost, isPhrase, behind⟩
  · refine ⟨tail, isOther, ?_⟩
    cases rest with
    | nil =>
        cases tail with
        | nil => rfl
        | cons first tail =>
            cases behind
            exact absurd rfl (insideOther .endOfInput (by simp [isOther]))
    | cons next rest =>
        cases tail with
        | nil =>
            cases behind
            exact absurd rfl (inside .endOfInput (by simp))
        | cons first tail =>
            cases behind
            rfl
  · cases lost with
    | cons first lost => simp at behind
    | nil =>
        rw [List.append_nil] at isPhrase
        refine ⟨[], by rw [isPhrase, List.append_nil], ?_⟩
        cases rest with
        | nil => rfl
        | cons next rest =>
            cases behind
            exact absurd rfl (inside .endOfInput (by simp))

/-! ## The wrong token -/

theorem Parser.le_budget_ofLexemes (input : List Lexeme) :
    8 * (input.length + 1) ≤ (ofLexemes input).budget := by
  cases input with
  | nil => decide
  | cons first rest => exact Nat.le_refl _

/-- The first diagnostic of an input is what its statements report. -/
theorem reports_statements_iff
    (input : List Lexeme) (diagnostic : Diagnostic) :
    ParseM.Reports diagnostic
        (ParseM.advance >>= fun _ => modifyGet
          (Grammar.statements (Parser.ofLexemes input).budget))
        (Parser.before input) ↔
      (parseLexemes input).diagnostics.head? = some diagnostic := by
  rw [parseLexemes_eq]
  exact Iff.rfl

/--
The first diagnostic of an input is decided by a phrase that can be completed
and the lexeme behind it.
-/
theorem parseLexemes_first_diagnostic
    {input : List Lexeme} {diagnostic : Diagnostic}
    (found : (parseLexemes input).diagnostics.head? = some diagnostic) :
    ∃ phrase rest, input = phrase ++ rest ∧
      Begins Phrase.Sequence phrase ∧
      ∀ {tail : List Lexeme}, tail.head? = rest.head? →
        (parseLexemes (phrase ++ tail)).diagnostics.head? =
          some diagnostic := by
  rw [← reports_statements_iff] at found
  have bound := Parser.le_budget_ofLexemes input
  have cost : 5 + 8 * (Parser.before input).upcoming.length ≤
      (Parser.ofLexemes input).budget := by
    show 5 + 8 * input.length ≤ _
    omega
  rcases (Grammar.statements_incremental _ cost).report rfl found with
    ⟨phrase, rest, whole, ⟨closers, program, remainder⟩, again⟩
  rcases remainder with ⟨inner, last, isPhrase, rfl, derives, -⟩
  refine ⟨phrase, rest, whole, ⟨closers, program, ?_⟩, fun {tail} same => ?_⟩
  · rw [isPhrase, List.append_nil]
    exact derives
  · have bound := Parser.le_budget_ofLexemes (phrase ++ tail)
    rw [← reports_statements_iff]
    exact again same (by omega)

theorem Closer.exists_spells (closer : Closer) :
    ∃ text, Spells text [closer.lexeme] := by
  cases closer with
  | name => exact ⟨"x", spells_name ((isName_iff "x").2 ⟨by decide, by decide⟩)⟩
  | symbol mark => exact ⟨_, spells_symbol mark⟩

/-- What is begun in a source is completed in another one. -/
theorem exists_source_of_begins
    {source : String} {phrase : List Lexeme}
    (initial : phrase <+: lexemes source)
    (begins : Begins Phrase.Sequence phrase) :
    ∃ text, (parse text).diagnostics = [] ∧ phrase <+: lexemes text := by
  rcases begins with ⟨closers, program, derives⟩
  have written : ∀ lexeme ∈ phrase ++ closers.map Closer.lexeme,
      ∃ text, Spells text [lexeme] := by
    intro lexeme member
    rcases List.mem_append.1 member with inPhrase | inClosers
    · have inSource := initial.subset inPhrase
      rw [lexemes_eq_scan] at inSource
      exact ⟨_, spells_of_mem_scan inSource⟩
    · rcases List.mem_map.1 inClosers with ⟨closer, -, rfl⟩
      exact closer.exists_spells
  rcases exists_lexemes_eq written with ⟨text, isText⟩
  refine ⟨text, ?_, isText ▸ List.prefix_append _ _⟩
  rw [parse, isText, parseLexemes_of_derives derives]

/--
Some tokens of a source can be completed to a source without a diagnostic, and
every input that agrees on them and the next token has the same first
diagnostic.
-/
theorem exists_wrong_token
    {source : String} {diagnostic : Diagnostic}
    (found : (parse source).diagnostics.head? = some diagnostic) :
    ∃ count,
      (∃ text, (parse text).diagnostics = [] ∧
        (stream source).take count <+: stream text) ∧
      ∀ other : List Lexeme,
        (∀ lexeme ∈ other, lexeme.kind ≠ .endOfInput) →
        (stream source).take (count + 1) <+: other ++ [.endOfInput] →
        (parseLexemes other).diagnostics.head? = some diagnostic := by
  rcases parseLexemes_first_diagnostic found with
    ⟨phrase, rest, isInput, begins, again⟩
  have inside : ∀ lexeme ∈ phrase ++ rest, lexeme.kind ≠ .endOfInput := by
    intro lexeme member
    rw [← isInput] at member
    exact kind_ne_endOfInput_of_mem_lexemes member
  refine ⟨phrase.length, ?_, fun other insideOther initial => ?_⟩
  · rcases exists_source_of_begins (isInput ▸ List.prefix_append phrase rest)
      begins with ⟨text, accepted, initial⟩
    refine ⟨text, accepted, ?_⟩
    rw [stream_eq, stream_eq, isInput, List.append_assoc, List.take_left]
    exact initial.trans (List.prefix_append _ _)
  · rw [stream_eq, isInput] at initial
    rcases exists_append_of_take_prefix inside insideOther initial with
      ⟨tail, rfl, same⟩
    exact again same

/-! ## The correct prefix -/

theorem completable_of_accepted
    {source text : String} {count : Nat}
    (accepted : (parse text).diagnostics = [])
    (initial : (stream source).take count <+: stream text) :
    Completable ((stream source).take count) := by
  rw [stream_eq text] at initial
  exact ⟨lexemes text, fun _ => kind_ne_endOfInput_of_mem_lexemes, accepted,
    initial⟩

/-- Completable tokens end at one place. -/
theorem Completable.unique
    {input : List Lexeme} {count other : Nat}
    (completable : Completable (input.take count))
    (wrong : ¬ Completable (input.take (count + 1)))
    (completableOther : Completable (input.take other))
    (wrongOther : ¬ Completable (input.take (other + 1))) :
    other = count := by
  rcases Nat.lt_trichotomy other count with less | equal | more
  · exact absurd (completable.of_prefix (List.take_prefix_take_left less))
      wrongOther
  · exact equal
  · exact absurd
      (completableOther.of_prefix (List.take_prefix_take_left more)) wrong

/--
A source that has diagnostics has exactly one wrong token: those in front of it
can be completed, to another source even, and with it they cannot.  The first
diagnostic is the same in all sources that agree up to the wrong token.
-/
theorem diagnostics_correct_prefix
    {source : String}
    (broken : (parse source).diagnostics ≠ []) :
    (∃! count,
      Completable ((stream source).take count) ∧
        ¬ Completable ((stream source).take (count + 1))) ∧
    ∀ count,
      Completable ((stream source).take count) →
      ¬ Completable ((stream source).take (count + 1)) →
      (∃ text, (parse text).diagnostics = [] ∧
        (stream source).take count <+: stream text) ∧
      ∀ other,
        (stream other).take (count + 1) = (stream source).take (count + 1) →
        (parse other).diagnostics.head? = (parse source).diagnostics.head? := by
  rcases List.exists_cons_of_ne_nil broken with ⟨diagnostic, more, isFirst⟩
  have found : (parse source).diagnostics.head? = some diagnostic := by
    rw [isFirst]
    rfl
  rcases exists_wrong_token found with
    ⟨count, ⟨text, accepted, initial⟩, agrees⟩
  have completable := completable_of_accepted accepted initial
  have wrong : ¬ Completable ((stream source).take (count + 1)) := by
    rintro ⟨other, inside, acceptedOther, initialOther⟩
    have reported := agrees other inside initialOther
    rw [acceptedOther] at reported
    cases reported
  refine ⟨⟨count, ⟨completable, wrong⟩, ?_⟩, ?_⟩
  · rintro other ⟨completableOther, wrongOther⟩
    exact completable.unique wrong completableOther wrongOther
  · intro place completablePlace wrongPlace
    cases completable.unique wrong completablePlace wrongPlace
    refine ⟨⟨text, accepted, initial⟩, fun other same => ?_⟩
    rw [found]
    refine agrees (lexemes other)
      (fun _ => kind_ne_endOfInput_of_mem_lexemes) ?_
    rw [← same, ← stream_eq]
    exact List.take_prefix _ _

theorem diagnostics_correct_prefix_call :
    (parse "f(1, ]; )").diagnostics ≠ [] ∧
    (∃! count,
      Completable ((stream "f(1, ]; )").take count) ∧
        ¬ Completable ((stream "f(1, ]; )").take (count + 1))) ∧
    ∀ count,
      Completable ((stream "f(1, ]; )").take count) →
      ¬ Completable ((stream "f(1, ]; )").take (count + 1)) →
      (∃ text, (parse text).diagnostics = [] ∧
        (stream "f(1, ]; )").take count <+: stream text) ∧
      ∀ other,
        (stream other).take (count + 1) =
          (stream "f(1, ]; )").take (count + 1) →
        (parse other).diagnostics.head? =
          (parse "f(1, ]; )").diagnostics.head? :=
  ⟨by decide +kernel, diagnostics_correct_prefix (by decide +kernel)⟩

end Bhasha
