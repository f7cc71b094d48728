import Bhasha.Proofs.Program.RoundTrip

/-!
# Integer literals

A source that is a run of digits of one script is one numeral.  It is read as the
integer that its digits denote to the base ten, however many zeros they start
with, if that number is small enough; otherwise it is read as nothing, with one
diagnostic that names the run.  Which of the two scripts the digits are written
in makes no difference, and the canonical text of an integer that is not negative
is read as this integer again.
-/

namespace Bhasha

/-! ## Runs of digits -/

namespace Script

/-- A text that is made of digits of a script, at least one of them. -/
structure IsRun (script : Script) (text : String) : Prop where
  nonempty : text ≠ ""
  digits : ∀ character ∈ text.toList, script.hasDigit character = true

/-- The number that the digits of a script denote to the base ten. -/
def valueOf (script : Script) (text : String) : Nat :=
  Nat.ofDigits 10 (text.toList.map (Numeral.digitIn script)).reverse

/-- The digit of another script that stands for the same number. -/
def counterpart (script target : Script) (character : Char) : Char :=
  Char.ofNat (target.zero.toNat + Numeral.digitIn script character)

/-- A text with each digit replaced by its counterpart in another script. -/
def transliterate (script target : Script) (text : String) : String :=
  text.map (script.counterpart target)

variable {script : Script} {text : String}

theorem toNat_counterpart
    {character : Char}
    (digit : script.hasDigit character = true) (target : Script) :
    Numeral.digitIn script character < 10 ∧
      (script.counterpart target character).toNat =
        target.zero.toNat + Numeral.digitIn script character := by
  simp only [hasDigit, Bool.and_eq_true, decide_eq_true_eq] at digit
  have small : Numeral.digitIn script character < 10 := by
    simp only [Numeral.digitIn]
    omega
  have known : ∀ offset < 10,
      (Char.ofNat (target.zero.toNat + offset)).toNat =
        target.zero.toNat + offset := by
    cases target <;> decide
  exact ⟨small, known _ small⟩

theorem hasDigit_counterpart
    {character : Char}
    (digit : script.hasDigit character = true) (target : Script) :
    target.hasDigit (script.counterpart target character) = true := by
  rcases toNat_counterpart digit target with ⟨small, code⟩
  simp only [hasDigit, code, Bool.and_eq_true, decide_eq_true_eq]
  omega

theorem digitIn_counterpart
    {character : Char}
    (digit : script.hasDigit character = true) (target : Script) :
    Numeral.digitIn target (script.counterpart target character) =
      Numeral.digitIn script character := by
  rw [Numeral.digitIn, (toNat_counterpart digit target).2,
    Nat.add_sub_cancel_left]

theorem IsRun.transliterate
    (isRun : script.IsRun text) (target : Script) :
    target.IsRun (script.transliterate target text) where
  nonempty := by
    intro empty
    apply isRun.nonempty
    simpa [Script.transliterate, ← String.toList_eq_nil_iff] using empty
  digits := by
    intro character member
    simp only [Script.transliterate, String.toList_map, List.mem_map] at member
    rcases member with ⟨original, inText, rfl⟩
    exact hasDigit_counterpart (isRun.digits original inText) target

theorem IsRun.valueOf_transliterate
    (isRun : script.IsRun text) (target : Script) :
    target.valueOf (script.transliterate target text) =
      script.valueOf text := by
  have digits :
      (text.toList.map (script.counterpart target)).map
          (Numeral.digitIn target) =
        text.toList.map (Numeral.digitIn script) := by
    rw [List.map_map]
    exact List.map_congr_left fun character member =>
      digitIn_counterpart (isRun.digits character member) target
  rw [valueOf, Script.transliterate, String.toList_map, digits, valueOf]

end Script

/-! ## Reading a run -/

section

variable {script : Script} {text : String}

theorem Numeral.denotes_run_iff
    (isRun : script.IsRun text) {value : Int64} :
    Denotes text value ↔ value.toInt = script.valueOf text := by
  simp [Denotes, mapM_digitValue? isRun.digits, Script.valueOf]

/-- A numeral on its own that denotes no integer leaves one diagnostic. -/
theorem parseLexemes_integerTooLarge
    {literal : String}
    (unread : Numeral.read? literal = none) :
    parseLexemes [⟨.integer, literal⟩] =
      ⟨[], [.integerTooLarge literal]⟩ := by
  let parser := Parser.ofLexemes [⟨.integer, literal⟩]
  have operand (budget : Nat) :
      Grammar.operand (budget + 1) parser =
        .error (.integerTooLarge literal) parser := by
    rw [Grammar.operand, ParseM.current_bind]
    simp only [parser, Parser.ofLexemes, unread]
    rfl
  have statement (budget : Nat) :
      Grammar.statement (budget + 4) parser =
        (none, parser.record (.integerTooLarge literal)) := by
    have stops :
        Grammar.expressionStatement (budget + 3) parser =
          .error (.integerTooLarge literal) parser :=
      Step.bind_error (Step.bind_error (operand budget))
    show ParseM.attempt (Grammar.expressionStatement (budget + 3)) parser = _
    rw [ParseM.attempt, stops]
  have whole :
      Grammar.statements parser.budget parser =
        ([], (parser.record (.integerTooLarge literal)).advance) := by
    have inside : parser.current.kind ≠ .endOfInput := nofun
    show Grammar.statements (15 + 1) parser = _
    rw [Grammar.statements_succ inside, statement 11,
      Grammar.statements_endOfInput rfl]
    rfl
  rw [parseLexemes, Parser.program, whole]
  rfl

theorem parse_of_small_run
    (isRun : script.IsRun text)
    (small : script.valueOf text ≤ 2 ^ 63 - 1) :
    ∃ value : Int64, value.toInt = script.valueOf text ∧
      parse text = ⟨[.expression (.integer value)], []⟩ := by
  have isValue :
      (Int64.ofNat (script.valueOf text)).toInt = script.valueOf text :=
    Numeral.toInt_ofNat (by simp only [Numeral.bound]; omega)
  have renders :
      RendersExpression text (.integer (Int64.ofNat (script.valueOf text))) :=
    ⟨_, spells_digits script isRun.nonempty isRun.digits,
      .integer ((Numeral.denotes_run_iff isRun).2 isValue)⟩
  exact ⟨_, isValue, renders.parse_eq⟩

theorem parse_of_large_run
    (isRun : script.IsRun text)
    (large : 2 ^ 63 - 1 < script.valueOf text) :
    parse text = ⟨[], [.integerTooLarge text]⟩ := by
  have unread : Numeral.read? text = none := by
    rw [Option.eq_none_iff_forall_ne_some]
    intro value found
    rw [Numeral.read?_eq_some_iff, Numeral.denotes_run_iff isRun] at found
    have largest := value.toInt_lt
    omega
  have spells := spells_digits script isRun.nonempty isRun.digits
  rw [parse, spells.lexemes_eq, parseLexemes_integerTooLarge unread]

/-- Runs with the same value lead to the same program, or none of them does. -/
theorem parse_of_same_value
    {target : Script} {other : String}
    (isRun : script.IsRun text)
    (isOther : target.IsRun other)
    (same : target.valueOf other = script.valueOf text) :
    (parse other).program = (parse text).program ∧
      ((parse other).diagnostics = [] ↔ (parse text).diagnostics = []) := by
  by_cases small : script.valueOf text ≤ 2 ^ 63 - 1
  · rcases parse_of_small_run isRun small with ⟨value, isValue, read⟩
    rcases parse_of_small_run isOther (same ▸ small) with
      ⟨otherValue, isOtherValue, readOther⟩
    have values : otherValue = value := by
      rw [← Int64.toInt_inj, isValue, isOtherValue, same]
    simp [read, readOther, values]
  · have large := Nat.lt_of_not_le small
    simp [parse_of_large_run isRun large,
      parse_of_large_run isOther (same ▸ large)]

end

/--
A run of digits of one script is read as the integer that it denotes to the base
ten, if this is at most the largest one, and otherwise as nothing, with the one
diagnostic that the run could not be read.  The same digits in the other script
are a run of the same value and are read the same way.  An integer that is not
negative is read back from its canonical text.
-/
theorem parse_digits
    {script : Script} {text : String}
    (isRun : script.IsRun text) :
    (script.valueOf text ≤ 2 ^ 63 - 1 →
      ∃ value : Int64, value.toInt = script.valueOf text ∧
        parse text = ⟨[.expression (.integer value)], []⟩) ∧
    (2 ^ 63 - 1 < script.valueOf text →
      parse text = ⟨[], [.integerTooLarge text]⟩ ∧
        (parse text).messages =
          ["could not parse " ++ text ++ " as integer"]) ∧
    (∀ target,
      target.IsRun (script.transliterate target text) ∧
      target.valueOf (script.transliterate target text) =
        script.valueOf text ∧
      (parse (script.transliterate target text)).program =
        (parse text).program ∧
      ((parse (script.transliterate target text)).diagnostics = [] ↔
        (parse text).diagnostics = [])) ∧
    ∀ value : Int64, 0 ≤ value →
      parse (Expr.integer value).print =
        ⟨[.expression (.integer value)], []⟩ := by
  refine ⟨parse_of_small_run isRun, ?_, ?_, ?_⟩
  · intro large
    have missed := parse_of_large_run isRun large
    rw [Parsed.messages, missed]
    exact ⟨rfl, rfl⟩
  · intro target
    have isOther := isRun.transliterate target
    have same := isRun.valueOf_transliterate target
    exact ⟨isOther, same, parse_of_same_value isRun isOther same⟩
  · intro value positive
    rw [Expr.print]
    exact (RendersExpression.integer positive).parse_eq

/-- The largest integer with a zero in front, and the number after it. -/
theorem parse_digits_largest :
    Script.devanagari.IsRun "०९२२३३७२०३६८५४७७५८०७" ∧
    Script.latin.IsRun "9223372036854775808" ∧
    (∃ value : Int64, value.toInt = 9223372036854775807 ∧
      parse "०९२२३३७२०३६८५४७७५८०७" =
        ⟨[.expression (.integer value)], []⟩) ∧
    (parse "9223372036854775808").messages =
      ["could not parse 9223372036854775808 as integer"] := by
  have largest : Script.devanagari.IsRun "०९२२३३७२०३६८५४७७५८०७" :=
    ⟨by decide, by simp [Script.hasDigit, Script.zero]⟩
  have beyond : Script.latin.IsRun "9223372036854775808" :=
    ⟨by decide, by simp [Script.hasDigit, Script.zero]⟩
  have isLargest :
      Script.devanagari.valueOf "०९२२३३७२०३६८५४७७५८०७" =
        9223372036854775807 := by
    decide
  have isBeyond :
      Script.latin.valueOf "9223372036854775808" = 9223372036854775808 := by
    decide
  rcases (parse_digits largest).1 (by rw [isLargest]; decide) with
    ⟨value, isValue, read⟩
  rw [isLargest] at isValue
  exact ⟨largest, beyond, ⟨value, isValue, read⟩,
    ((parse_digits beyond).2.1 (by rw [isBeyond]; decide)).2⟩

end Bhasha
