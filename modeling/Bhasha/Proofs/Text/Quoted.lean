import Bhasha.Text.Quoted

/-!
# Reading quoted text

A quoted text is read from left to right, one character at a time.  A backslash
opens an escape, which is a letter or a code point in braces; every other
character stands for itself.  How one character is written never runs into how
the next one is written, so each text is read back from its quoted form, and
different texts have different quoted forms.

This does not depend on which characters are written by their code points.
-/

namespace Bhasha.Text

/-! ## The reader -/

/-- The value of a lower-case hexadecimal digit. -/
def hexadecimalValue? (digit : Char) : Option Nat :=
  "0123456789abcdef".toList.idxOf? digit

/-- The character that a letter stands for after a backslash. -/
def ofShortEscape? (letter : Char) : Option Char :=
  [('0', '\x00'), ('t', '\t'), ('n', '\n'), ('r', '\r'), ('"', '"'),
    ('\\', '\\')].lookup letter

/-- Where a reader of quoted text is. -/
inductive QuotedState where
  /-- Between two characters. -/
  | between
  /-- Behind a backslash. -/
  | escape
  /-- In front of the braces around a code point. -/
  | codePoint
  /-- Inside the braces, behind digits that have a value. -/
  | digits (value : Nat)

/-- The characters that are written between quotation marks, from a state on. -/
def unescape? : QuotedState → List Char → Option (List Char)
  | .between, [] => some []
  | .between, first :: rest =>
    if first = '\\' then
      unescape? .escape rest
    else if first = '"' then
      none
    else
      (unescape? .between rest).map (first :: ·)
  | .escape, first :: rest =>
    if first = 'u' then
      unescape? .codePoint rest
    else
      match ofShortEscape? first with
      | some character => (unescape? .between rest).map (character :: ·)
      | none => none
  | .codePoint, first :: rest =>
    if first = '\x7b' then unescape? (.digits 0) rest else none
  | .digits value, first :: rest =>
    if first = '\x7d' then
      (unescape? .between rest).map (.ofNat value :: ·)
    else
      match hexadecimalValue? first with
      | some digit => unescape? (.digits (16 * value + digit)) rest
      | none => none
  | _, [] => none

/-- The text that a quoted form stands for. -/
def unquote? (text : String) : Option String :=
  match text.toList with
  | [] => none
  | first :: rest =>
    if first = '"' ∧ rest.getLast? = some '"' then
      (unescape? .between rest.dropLast).map String.ofList
    else
      none

/-! ## Code points -/

/-- Code points are written in hexadecimal digits. -/
theorem exists_digit_of_mem_hexadecimal
    {character : Char} {code : Nat}
    (member : character ∈ hexadecimal code) :
    ∃ digit < 16, character = digit.digitChar := by
  rw [hexadecimal] at member
  induction code using Nat.strongRecOn with
  | _ code induction =>
      by_cases small : code < 16
      · rw [Nat.toDigits_of_lt_base small, List.mem_singleton] at member
        exact ⟨code, small, member⟩
      · have large := Nat.le_of_not_lt small
        rw [Nat.toDigits_of_base_le (by decide) large] at member
        rcases List.mem_append.1 member with front | last
        · exact induction (code / 16) (by omega) front
        · exact ⟨code % 16, Nat.mod_lt _ (by decide),
            List.mem_singleton.1 last⟩

theorem unescape?_digit
    {digit : Nat}
    (small : digit < 16) (value : Nat) (rest : List Char) :
    unescape? (.digits value) (digit.digitChar :: rest) =
      unescape? (.digits (16 * value + digit)) rest := by
  have known : ∀ digit < 16, digit.digitChar ≠ '\x7d' ∧
      hexadecimalValue? digit.digitChar = some digit := by
    decide
  rcases known digit small with ⟨inside, isDigit⟩
  rw [unescape?, if_neg inside, isDigit]

/-- The digits of a code point are read as its value. -/
theorem unescape?_hexadecimal (code : Nat) (rest : List Char) :
    unescape? (.digits 0) (hexadecimal code ++ rest) =
      unescape? (.digits code) rest := by
  rw [hexadecimal]
  induction code using Nat.strongRecOn generalizing rest with
  | _ code induction =>
      by_cases small : code < 16
      · rw [Nat.toDigits_of_lt_base small, List.singleton_append,
          unescape?_digit small, Nat.mul_zero, Nat.zero_add]
      · have large := Nat.le_of_not_lt small
        rw [Nat.toDigits_of_base_le (by decide) large, List.append_assoc,
          induction (code / 16) (by omega), List.singleton_append,
          unescape?_digit (Nat.mod_lt _ (by decide)), Nat.div_add_mod]

/-! ## Characters -/

theorem ofShortEscape?_of_shortEscape?
    {character letter : Char}
    (short : shortEscape? character = some letter) :
    letter ≠ 'u' ∧ letter ≠ '\n' ∧ ofShortEscape? letter = some character := by
  rw [shortEscape?.eq_def] at short
  split at short <;> cases short <;> decide

theorem shortEscape?_eq_none
    {character : Char}
    (long : shortEscape? character = none) :
    character ≠ '\\' ∧ character ≠ '"' ∧ character ≠ '\n' := by
  refine ⟨?_, ?_, ?_⟩ <;> rintro rfl <;> cases long

/-- A character is read from how it is written. -/
theorem unescape?_quoteCharacter (character : Char) (rest : List Char) :
    unescape? .between (quoteCharacter character ++ rest) =
      (unescape? .between rest).map (character :: ·) := by
  rw [quoteCharacter]
  split
  · next letter short =>
    rcases ofShortEscape?_of_shortEscape? short with ⟨differs, -, found⟩
    show unescape? .between ('\\' :: letter :: rest) = _
    rw [unescape?, if_pos rfl, unescape?, if_neg differs, found]
  · next long =>
    rcases shortEscape?_eq_none long with ⟨noBackslash, noMark, -⟩
    split
    · have digits := unescape?_hexadecimal character.toNat ('\x7d' :: rest)
      rw [List.append_assoc, List.append_assoc]
      show unescape? (.digits 0)
        (hexadecimal character.toNat ++ '\x7d' :: rest) = _
      rw [digits, unescape?, if_pos rfl, Char.ofNat_toNat]
    · rw [List.singleton_append, unescape?, if_neg noBackslash, if_neg noMark]

theorem break_not_mem_quoteCharacter (character : Char) :
    '\n' ∉ quoteCharacter character := by
  have digits : ∀ digit < 16, '\n' ≠ digit.digitChar := by decide
  rw [quoteCharacter]
  split
  · next letter short =>
    have noBreak := (ofShortEscape?_of_shortEscape? short).2.1
    simp [noBreak.symm]
  · next long =>
    have noBreak := (shortEscape?_eq_none long).2.2
    split
    · simp only [List.mem_append, List.mem_cons, List.not_mem_nil, or_false]
      rintro ((marks | inside) | mark)
      · revert marks
        decide
      · rcases exists_digit_of_mem_hexadecimal inside with
          ⟨digit, small, isDigit⟩
        exact digits digit small isDigit
      · cases mark
    · simpa using noBreak.symm

/-! ## Texts -/

/-- What is written for a text between the quotation marks is read as it. -/
theorem unescape?_flatMap (text : List Char) :
    unescape? .between (text.flatMap quoteCharacter) = some text := by
  induction text with
  | nil => rfl
  | cons first rest induction =>
      rw [List.flatMap_cons, unescape?_quoteCharacter, induction,
        Option.map_some]

/-- A text is read back from its quoted form. -/
theorem unquote?_quote (text : String) : unquote? (quote text) = some text := by
  rw [unquote?, quote, String.toList_ofList]
  dsimp only
  rw [if_pos ⟨rfl, List.getLast?_concat⟩, List.dropLast_concat,
    unescape?_flatMap, Option.map_some, String.ofList_toList]

theorem quote_injective
    {first second : String}
    (same : quote first = quote second) :
    first = second := by
  have texts := unquote?_quote first
  rw [same, unquote?_quote] at texts
  exact (Option.some.inj texts).symm

/-- A quoted text stands on one line. -/
theorem break_not_mem_quote (text : String) : '\n' ∉ (quote text).toList := by
  rw [quote, String.toList_ofList, List.mem_cons, List.mem_append,
    List.mem_singleton, List.mem_flatMap]
  rintro (mark | ⟨character, -, inside⟩ | mark)
  · cases mark
  · exact break_not_mem_quoteCharacter character inside
  · cases mark

/-- An escape may be part of the text itself. -/
example : unquote? (quote "\\u\x7b41\x7d\n\"") = some "\\u\x7b41\x7d\n\"" := by
  decide

end Bhasha.Text
