import Bhasha.Proofs.Token.Spelling
import Bhasha.Proofs.Token.Tiling

/-!
# Texts side by side

A piece of a source depends on its own characters and on the one character
behind it, which decides that the piece is no longer.  So a piece stays what it
is when the text behind it is replaced by another one that starts with the same
character or with a separator.  Two consequences: the lexemes of two texts side
by side are those of the first and then those of the second, if the second text
starts with a separator and the first does not end inside a string; and every
lexeme of a source can be written again on its own.
-/

namespace Bhasha

/-! ## The character behind a piece -/

/-- What starts neither a blank, a symbol nor a string starts with no mark. -/
theorem not_mem_marks_of_longest?
    {first : Char} {rest : List Char}
    (visible : isBlank first = false)
    (noSymbol : Symbol.longest? (first :: rest) = none)
    (unquoted : first ≠ '"') :
    first ∉ marks := by
  intro member
  have known : marks.all (fun mark => isBlank mark || mark == '"' ||
      Symbol.longestFirst.any fun symbol => symbol.glyphs == [mark]) = true := by
    decide
  have here := List.all_eq_true.1 known first member
  simp only [Bool.or_eq_true, beq_iff_eq, List.any_eq_true] at here
  rcases here with (blank | quote) | ⟨symbol, listed, glyphs⟩
  · rw [visible] at blank
    cases blank
  · exact unquoted quote
  · refine List.find?_eq_none.1 noSymbol symbol listed ?_
    simp [glyphs]

/-- A symbol that was read is not made longer by the character behind it. -/
theorem Symbol.head?_ne_of_longest?
    {input rest : List Char} {symbol : Symbol}
    (found : longest? input = some symbol)
    (whole : input = symbol.glyphs ++ rest)
    (longer : symbol ∈ extensible) :
    rest.head? ≠ some '=' := by
  intro head
  rcases List.head?_eq_some_iff.1 head with ⟨more, rfl⟩
  subst whole
  revert found
  cases symbol
  case assign | bang | less | greater =>
    intro found
    cases found
  all_goals exact absurd longer (by decide)

namespace Piece

/-- Nothing is read on behind a text: it ends, or it goes on the same way. -/
def Bounds (piece : Piece) (other : List Char) : Prop :=
  Separated other ∨ other.head? = piece.rest.head?

/-- A run of characters that was read is read again in front of the text. -/
theorem Bounds.run
    {accepts : Char → Bool} {piece : Piece} {input other : List Char}
    (bounds : piece.Bounds other)
    (isRest : piece.rest = input.dropWhile accepts)
    (refuses : ∀ next, isSeparator next = true → accepts next = false) :
    (input.takeWhile accepts ++ other).takeWhile accepts =
        input.takeWhile accepts ∧
      (input.takeWhile accepts ++ other).dropWhile accepts = other := by
  refine takeWhile_of_stop (List.all_eq_true.1 List.all_takeWhile) ?_
  intro next member
  rcases bounds with separated | same
  · exact refuses next (separated next member)
  · have stopped := List.head?_dropWhile_not accepts input
    rw [← isRest, ← same, Option.mem_def.1 member] at stopped
    simpa using stopped

theorem isWordPart_of_isSeparator
    {next : Char}
    (separator : isSeparator next = true) :
    isWordPart next = false := by
  simp only [isSeparator, Bool.and_eq_true, Bool.not_eq_true'] at separator
  exact separator.1

theorem isDigit_of_hasDigit
    {script : Script} {next : Char}
    (digit : script.hasDigit next = true) :
    Numeral.isDigit next = true := by
  rw [Numeral.isDigit, Script.ofDigit?]
  cases script with
  | latin => rw [if_pos digit]; rfl
  | devanagari =>
      rw [if_pos digit]
      split <;> rfl

theorem hasDigit_of_isSeparator
    {script : Script} {next : Char}
    (separator : isSeparator next = true) :
    script.hasDigit next = false := by
  have outside := isWordPart_of_isSeparator separator
  rw [isWordPart, Bool.or_eq_false_iff] at outside
  cases digit : script.hasDigit next with
  | false => rfl
  | true =>
      rw [isDigit_of_hasDigit digit] at outside
      cases outside.1

/-- A string is read up to the first quotation mark behind the opening one. -/
theorem quoted_eq
    {run : List Char}
    (unquoted : '"' ∉ run)
    (rest : List Char) :
    quoted (run ++ '"' :: rest) =
      ⟨⟨.string, String.ofList run⟩, '"' :: (run ++ ['"']), rest⟩ := by
  have inside : ∀ character ∈ run, decide (character ≠ '"') = true := by
    intro character member
    rw [decide_eq_true_eq]
    rintro rfl
    exact unquoted member
  have stop : ∀ next ∈ ('"' :: rest).head?, decide (next ≠ '"') = false := by
    rintro next ⟨⟩
    decide
  rcases takeWhile_of_stop inside stop with ⟨isRun, isRest⟩
  rw [quoted, isRun, isRest]

/-- A string that is closed is read from its own characters. -/
theorem quoted_closed
    {input : List Char}
    (closes : '"' ∈ input)
    (other : List Char) :
    ∃ body, (quoted input).text = '"' :: body ∧
      quoted (body ++ other) = ⟨(quoted input).lexeme, '"' :: body, other⟩ := by
  rcases List.eq_append_cons_of_mem closes with ⟨run, rest, rfl, unquoted⟩
  rw [quoted_eq unquoted]
  refine ⟨run ++ ['"'], rfl, ?_⟩
  rw [List.append_assoc, List.singleton_append, quoted_eq unquoted]

theorem read_of_longest?
    {first : Char} {rest : List Char} {symbol : Symbol}
    (found : Symbol.longest? (first :: rest) = some symbol) :
    read first rest =
      plain (.symbol symbol) symbol.glyphs
        ((first :: rest).drop symbol.glyphs.length) := by
  rw [read, found]

/-- A symbol is read from its own characters. -/
theorem read_symbol
    {first : Char} {rest other : List Char} {symbol : Symbol}
    (found : Symbol.longest? (first :: rest) = some symbol)
    (bounds : (read first rest).Bounds other) :
    ∃ body, (read first rest).text = first :: body ∧
      read first (body ++ other) =
        ⟨(read first rest).lexeme, first :: body, other⟩ := by
  have isPiece := read_of_longest? found
  have whole := read_append first rest
  have differs : symbol ∈ Symbol.extensible → other.head? ≠ some '=' := by
    intro longer
    rcases bounds with separated | same
    · intro head
      exact absurd (separated '=' head) (by decide)
    · rw [same]
      refine Symbol.head?_ne_of_longest? found ?_ longer
      rw [← whole, isPiece]
      rfl
  have longest := symbol.longest?_glyphs differs
  cases glyphs : symbol.glyphs with
  | nil => exact absurd glyphs (glyphs_ne_nil symbol)
  | cons head body =>
      have isFirst : head = first := by
        rw [isPiece, plain, glyphs] at whole
        exact (List.cons.inj whole).1
      rw [glyphs, isFirst] at longest
      rw [List.cons_append] at longest
      refine ⟨body, ?_, ?_⟩
      · rw [isPiece, plain, glyphs, isFirst]
      · rw [isPiece, read_of_longest? longest, plain, plain, glyphs, isFirst,
          ← List.cons_append, List.drop_left]

/-- A word, a numeral or an illegal character is read from its own characters. -/
theorem read_plain
    {first : Char} {rest other : List Char}
    (noMark : first ∉ marks)
    (bounds : (read first rest).Bounds other) :
    ∃ body, (read first rest).text = first :: body ∧
      read first (body ++ other) =
        ⟨(read first rest).lexeme, first :: body, other⟩ := by
  by_cases starts : isWordStart first = true
  · have isWord : ∀ input, read first input = word first input := by
      intro input
      rw [read_of_not_mem_marks _ noMark, if_pos starts]
    rw [isWord] at bounds ⊢
    rcases bounds.run rfl fun _ => isWordPart_of_isSeparator with ⟨run, after⟩
    refine ⟨_, rfl, ?_⟩
    rw [isWord, word, run, after]
    rfl
  · cases digit : Script.ofDigit? first with
    | some script =>
        have isNumeral :
            ∀ input, read first input = numeral script first input := by
          intro input
          rw [read_of_not_mem_marks _ noMark, if_neg starts, digit]
        rw [isNumeral] at bounds ⊢
        rcases bounds.run rfl fun _ => hasDigit_of_isSeparator with
          ⟨run, after⟩
        refine ⟨_, rfl, ?_⟩
        rw [isNumeral, numeral, run, after]
        rfl
    | none =>
        have isIllegal :
            ∀ input, read first input = plain .illegal [first] input := by
          intro input
          rw [read_of_not_mem_marks _ noMark, if_neg starts, digit]
        refine ⟨[], ?_, ?_⟩
        · rw [isIllegal]
          rfl
        · rw [isIllegal, isIllegal]
          rfl

/--
A piece that is no open string is read from its own characters, if what is
behind them makes it no longer.
-/
theorem read_of_bounds
    {first : Char} {rest other : List Char}
    (visible : isBlank first = false)
    (closed : first = '"' → '"' ∈ rest)
    (bounds : (read first rest).Bounds other) :
    ∃ body, (read first rest).text = first :: body ∧
      read first (body ++ other) =
        ⟨(read first rest).lexeme, first :: body, other⟩ := by
  cases found : Symbol.longest? (first :: rest) with
  | some symbol => exact read_symbol found bounds
  | none =>
      by_cases quote : first = '"'
      · have isQuoted : ∀ input, read first input = quoted input := by
          intro input
          subst quote
          rfl
        rw [isQuoted rest]
        rcases quoted_closed (closed quote) other with ⟨body, text, again⟩
        refine ⟨body, ?_, ?_⟩
        · rw [text, quote]
        · rw [isQuoted, again, quote]
      · exact read_plain (not_mem_marks_of_longest? visible found quote) bounds

end Piece

/-! ## Two texts -/

/-- A text ends inside a string: its last piece is a string without an end. -/
inductive EndsInString : List Char → Prop where
  | here
      (unclosed : '"' ∉ body) :
      EndsInString ('"' :: body)
  | blank
      (isBlank : isBlank first = true)
      (later : EndsInString rest) :
      EndsInString (first :: rest)
  | piece
      (visible : isBlank first = false)
      (later : EndsInString (Piece.read first rest).rest) :
      EndsInString (first :: rest)

/-- The lexemes of two texts are those of the first and then of the second. -/
theorem scan_append
    {text after : List Char}
    (closed : ¬ EndsInString text)
    (separated : Separated after) :
    scan (text ++ after) = scan text ++ scan after := by
  fun_induction scan text with
  | case1 => rfl
  | case2 first rest blank induction =>
      rw [List.cons_append, scan_blank blank]
      exact induction fun ends => closed (.blank blank ends)
  | case3 first rest visible induction =>
      have visible : isBlank first = false := Bool.eq_false_iff.2 visible
      have closes : first = '"' → '"' ∈ rest := by
        rintro rfl
        exact Decidable.not_not.1 fun unclosed => closed (.here unclosed)
      have bounds : (Piece.read first rest).Bounds
          ((Piece.read first rest).rest ++ after) := by
        cases isRest : (Piece.read first rest).rest with
        | nil => exact .inl separated
        | cons next more =>
            refine .inr ?_
            rw [isRest]
            rfl
      rcases Piece.read_of_bounds visible closes bounds with
        ⟨body, text, again⟩
      have whole := Piece.read_append first rest
      rw [text] at whole
      rw [← whole, List.cons_append, List.cons_append, List.append_assoc,
        scan_piece visible, again,
        induction fun ends => closed (.piece visible ends), List.cons_append]

/-! ### Quotation marks -/

theorem Piece.quotation_not_mem (input : List Char) :
    '"' ∉ (quoted input).lexeme.literal.toList := by
  have isLiteral : (quoted input).lexeme.literal.toList =
      input.takeWhile (· ≠ '"') := by
    rw [quoted]
    split <;> exact String.toList_ofList
  intro member
  rw [isLiteral] at member
  exact absurd (List.all_eq_true.1 List.all_takeWhile _ member) (by decide)

theorem Piece.quotation_not_mem_text
    {first : Char}
    (other : first ≠ '"')
    (rest : List Char) :
    '"' ∉ (read first rest).text := by
  have outside : ∀ {accepts : Char → Bool}, accepts '"' = false →
      '"' ∉ first :: rest.takeWhile accepts := by
    intro accepts refuses member
    rcases List.mem_cons.1 member with isFirst | later
    · exact other isFirst.symm
    · have accepted := List.all_eq_true.1 List.all_takeWhile _ later
      rw [refuses] at accepted
      cases accepted
  rw [read]
  split
  · next symbol _ =>
    show '"' ∉ symbol.glyphs
    cases symbol <;> decide
  · rw [if_neg other]
    split
    · exact outside (by decide)
    · split
      · next script _ =>
        exact outside (by cases script <;> decide)
      · simpa [plain] using other.symm

/-- A piece that is no open string holds no quotation mark or two of them. -/
theorem Piece.count_text
    {first : Char} {rest : List Char}
    (closed : first = '"' → '"' ∈ rest) :
    (read first rest).text.count '"' % 2 = 0 := by
  by_cases quote : first = '"'
  · rcases List.eq_append_cons_of_mem (closed quote) with
      ⟨run, more, rfl, unquoted⟩
    subst quote
    show (quoted (run ++ '"' :: more)).text.count '"' % 2 = 0
    rw [quoted_eq unquoted]
    simp [List.count_eq_zero.2 unquoted]
  · rw [List.count_eq_zero.2 (quotation_not_mem_text quote rest)]

/-- A text ends inside a string if its quotation marks do not come in pairs. -/
theorem endsInString_iff (text : List Char) :
    EndsInString text ↔ text.count '"' % 2 = 1 := by
  fun_induction scan text with
  | case1 =>
      constructor
      · rintro ⟨⟩
      · rintro ⟨⟩
  | case2 first rest blank induction =>
      have other : first ≠ '"' := by
        rintro rfl
        cases blank
      rw [List.count_cons_of_ne other, ← induction]
      constructor
      · intro ends
        cases ends with
        | here unclosed => exact absurd rfl other
        | blank _ later => exact later
        | piece visible later =>
            rw [visible] at blank
            cases blank
      · exact .blank blank
  | case3 first rest visible induction =>
      have visible : isBlank first = false := Bool.eq_false_iff.2 visible
      by_cases closed : first = '"' → '"' ∈ rest
      · have same : (first :: rest).count '"' % 2 =
            (Piece.read first rest).rest.count '"' % 2 := by
          rw [← Piece.read_append first rest, List.count_append, Nat.add_mod,
            Piece.count_text closed, Nat.zero_add, Nat.mod_mod]
        rw [same, ← induction]
        constructor
        · intro ends
          cases ends with
          | here unclosed => exact absurd (closed rfl) unclosed
          | blank blank _ =>
              rw [visible] at blank
              cases blank
          | piece _ later => exact later
        · exact .piece visible
      · rw [Classical.not_imp] at closed
        rcases closed with ⟨rfl, unclosed⟩
        rw [List.count_cons_self, List.count_eq_zero.2 unclosed]
        exact ⟨fun _ => rfl, fun _ => .here unclosed⟩

/-! ## Lexemes on their own -/

/--
How a lexeme is written on its own: a string between quotation marks, and any
other lexeme as its literal.
-/
def Lexeme.written (lexeme : Lexeme) : String :=
  if lexeme.kind = .string then
    "\"" ++ lexeme.literal ++ "\""
  else
    lexeme.literal

/-- A piece that is no string is written as it stands in the source. -/
theorem Piece.written_eq_text
    {first : Char}
    (other : first ≠ '"')
    (rest : List Char) :
    (read first rest).lexeme.written.toList = (read first rest).text := by
  have unquoted := quotation_not_mem_text other rest
  have covers := read_covers first rest
  rw [Lexeme.Covers] at covers
  rw [Lexeme.written]
  split at covers
  · rcases covers with closed | ⟨opened, -⟩
    · rw [closed] at unquoted
      exact absurd List.mem_cons_self unquoted
    · rw [opened] at unquoted
      exact absurd List.mem_cons_self unquoted
  · next noString => rw [if_neg noString, covers]

/-- The lexeme of a piece is read again where it is written on its own. -/
theorem Piece.read_spells
    {first : Char}
    (visible : isBlank first = false)
    (rest : List Char) :
    Spells (read first rest).lexeme.written [(read first rest).lexeme] := by
  by_cases quote : first = '"'
  · subst quote
    have isString : (read '"' rest).lexeme =
        ⟨.string, (quoted rest).lexeme.literal⟩ := by
      show (quoted rest).lexeme = _
      rw [quoted]
      split <;> rfl
    rw [isString]
    exact (delimits_string (quotation_not_mem rest)).spells
  · intro after separated
    have bounds : (read first rest).Bounds after := .inl separated
    rcases read_of_bounds visible (absurd · quote) bounds with
      ⟨body, text, again⟩
    rw [written_eq_text quote, text, List.cons_append, scan_piece visible,
      again, List.singleton_append]

/-- Every lexeme of a text can be written on its own. -/
theorem spells_of_mem_scan
    {input : List Char} {lexeme : Lexeme}
    (member : lexeme ∈ scan input) :
    Spells lexeme.written [lexeme] := by
  fun_induction scan input with
  | case1 => cases member
  | case2 first rest blank induction => exact induction member
  | case3 first rest visible induction =>
      rcases List.mem_cons.1 member with rfl | later
      · exact Piece.read_spells (Bool.eq_false_iff.2 visible) rest
      · exact induction later

/-- Lexemes that can be written on their own are the lexemes of a source. -/
theorem exists_lexemes_eq
    {phrase : List Lexeme}
    (written : ∀ lexeme ∈ phrase, ∃ text, Spells text [lexeme]) :
    ∃ source, lexemes source = phrase := by
  have delimited : ∃ source, Delimits source phrase := by
    induction phrase with
    | nil => exact ⟨"", .empty⟩
    | cons first rest induction =>
        rcases List.forall_mem_cons.1 written with ⟨⟨text, spells⟩, later⟩
        rcases induction later with ⟨source, delimits⟩
        have blank : Delimits " " [] := delimits_punctuation rfl
        exact ⟨_, (spells.close blank rfl).append delimits⟩
  rcases delimited with ⟨source, delimits⟩
  exact ⟨source, delimits.spells.lexemes_eq⟩

end Bhasha
