import Bhasha.Proofs.Parser.Completeness
import Bhasha.Proofs.Parser.Soundness
import Bhasha.Proofs.Token.Scan

/-!
# What the parser accepts

The parser reads a source without a diagnostic exactly when the lexemes of the
source derive a program, and then it gives that program.
-/

namespace Bhasha

/-- The parser in front of the first lexeme of an input. -/
def Parser.before (input : List Lexeme) : Parser :=
  ⟨.endOfInput, input, #[]⟩

theorem Parser.advance_before (input : List Lexeme) :
    (before input).advance = ofLexemes input := by
  cases input <;> rfl

theorem Parser.budget_ofLexemes (input : List Lexeme) :
    8 * input.length + 3 ≤ (ofLexemes input).budget := by
  cases input with
  | nil => decide
  | cons first rest =>
      show 8 * (rest.length + 1) + 3 ≤ 8 * (rest.length + 2)
      omega

theorem parseLexemes_eq (input : List Lexeme) :
    parseLexemes input =
      ⟨(Grammar.statements (Parser.ofLexemes input).budget
          (Parser.before input).advance).1,
        (Grammar.statements (Parser.ofLexemes input).budget
          (Parser.before input).advance).2.diagnostics.toList⟩ := by
  rw [Parser.advance_before]
  rfl

/-- Lexemes that derive a program are read as it. -/
theorem parseLexemes_of_derives
    {input : List Lexeme} {program : Program}
    (derives : Phrase.Sequence input program) :
    parseLexemes input = ⟨program, []⟩ := by
  have derived : Phrase.Sequence (Parser.before input).upcoming program :=
    derives
  rcases Grammar.statements_complete derived
    (Parser.budget_ofLexemes input) with ⟨isProgram, clean⟩
  rw [parseLexemes_eq, isProgram, clean]
  rfl

/-- Lexemes that are read without a diagnostic derive their program. -/
theorem derives_of_parseLexemes
    {input : List Lexeme} {program : Program}
    (inside : ∀ lexeme ∈ input, lexeme.kind ≠ .endOfInput)
    (accepts : parseLexemes input = ⟨program, []⟩) :
    Phrase.Sequence input program := by
  rw [parseLexemes_eq] at accepts
  injection accepts with isProgram clean
  have enough : 8 * input.length ≤ (Parser.ofLexemes input).budget :=
    (Nat.le_add_right _ 3).trans (Parser.budget_ofLexemes input)
  rw [← isProgram]
  exact Grammar.statements_sound _ (Parser.before input) enough inside
    (Array.toList_eq_nil_iff.1 clean)

/-- The lexemes of a source that has no diagnostic derive its program. -/
theorem derives_of_accepted
    {source : String}
    (accepted : (parse source).diagnostics = []) :
    Phrase.Sequence (lexemes source) (parse source).program := by
  refine derives_of_parseLexemes
    (fun _ => kind_ne_endOfInput_of_mem_lexemes) ?_
  show parse source = ⟨(parse source).program, []⟩
  rw [← accepted]

/--
A source is read as a program, without a diagnostic, exactly when its lexemes
derive the program.
-/
theorem parse_eq_iff_derives (source : String) (program : Program) :
    parse source = ⟨program, []⟩ ↔
      Phrase.Sequence (lexemes source) program := by
  constructor
  · intro accepts
    refine derives_of_parseLexemes ?_ accepts
    intro lexeme member
    rw [lexemes_eq_scan] at member
    exact kind_ne_endOfInput_of_mem_scan member
  · intro derives
    exact parseLexemes_of_derives derives

end Bhasha
