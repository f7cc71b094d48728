import Bhasha.Proofs.Sorted
import Bhasha.Proofs.Token.Separation

/-!
# Longest matches

The lexemes fall into classes that are told without a reader: symbols, quoted
strings, words and runs of digits.  At each place of a source, behind the blanks,
the reader takes the longest text that belongs to one of the classes, and a single
illegal character where there is none.

The reader decides by the first character, in a fixed order of tests.  The classes
have no first character in common, so whatever belongs to a class is read by the
test of that class, which goes at least as far.
-/

namespace Bhasha

/-! ## Classes of lexemes -/

/--
A text in front of a rest belongs to a class, as a given lexeme.  A word is a
keyword if the whole of it spells one; a string without a closing quotation mark
goes on to the end of the input.
-/
inductive Lexeme.Fits : Lexeme → List Char → List Char → Prop where
  | symbol {rest : List Char} (symbol : Symbol) :
      Fits (.ofSymbol symbol) symbol.glyphs rest
  | closed {body rest : List Char}
      (unquoted : '"' ∉ body) :
      Fits ⟨.string, String.ofList body⟩ ('"' :: (body ++ ['"'])) rest
  | unclosed {body : List Char}
      (unquoted : '"' ∉ body) :
      Fits ⟨.string, String.ofList body⟩ ('"' :: body) []
  | keyword {first : Char} {more rest : List Char} {keyword : Keyword}
      (starts : isWordStart first = true)
      (inside : ∀ character ∈ more, isWordPart character = true)
      (spelled :
        (String.ofList (first :: more), keyword) ∈ Keyword.spellings) :
      Fits ⟨.keyword keyword, String.ofList (first :: more)⟩
        (first :: more) rest
  | name {first : Char} {more rest : List Char}
      (starts : isWordStart first = true)
      (inside : ∀ character ∈ more, isWordPart character = true)
      (unspelled : ∀ keyword,
        (String.ofList (first :: more), keyword) ∉ Keyword.spellings) :
      Fits ⟨.identifier, String.ofList (first :: more)⟩ (first :: more) rest
  | numeral {first : Char} {more rest : List Char} (script : Script)
      (starts : script.hasDigit first = true)
      (inside : ∀ character ∈ more, script.hasDigit character = true) :
      Fits ⟨.integer, String.ofList (first :: more)⟩ (first :: more) rest

/-- No longer text at the same place belongs to a class. -/
structure Lexeme.IsLongest (lexeme : Lexeme) (text rest : List Char) :
    Prop where
  fits : lexeme.Fits text rest
  longest {other behind : List Char} {rival : Lexeme} :
    text ++ rest = other ++ behind → rival.Fits other behind →
      other.length ≤ text.length

/--
The tokens from a position on: blanks are skipped, and then the longest text that
belongs to a class is taken, or one character if no text does.
-/
inductive LongestMatch : Position → List Char → List Token → Prop where
  | done {position : Position} : LongestMatch position [] []
  | skip {position : Position} {first : Char} {rest : List Char}
      {more : List Token}
      (blank : first ∈ [' ', '\t', '\r', '\n'])
      (later : LongestMatch (position.step first) rest more) :
      LongestMatch position (first :: rest) more
  | take {position : Position} {lexeme : Lexeme} {text rest : List Char}
      {more : List Token}
      (isLongest : lexeme.IsLongest text rest)
      (later : LongestMatch (position.after text) rest more) :
      LongestMatch position (text ++ rest) (⟨lexeme, position⟩ :: more)
  | illegal {position : Position} {first : Char} {rest : List Char}
      {more : List Token}
      (visible : first ∉ [' ', '\t', '\r', '\n'])
      (unfit : ∀ {text behind lexeme},
        first :: rest = text ++ behind → ¬ Lexeme.Fits lexeme text behind)
      (later : LongestMatch (position.step first) rest more) :
      LongestMatch position (first :: rest)
        (⟨⟨.illegal, String.singleton first⟩, position⟩ :: more)

theorem isBlank_iff (character : Char) :
    isBlank character = true ↔ character ∈ [' ', '\t', '\r', '\n'] := by
  simp only [isBlank, Bool.or_eq_true, decide_eq_true_eq, List.mem_cons,
    List.not_mem_nil, or_false]
  constructor
  · rintro (((blank | blank) | blank) | blank) <;> simp [blank]
  · rintro (blank | blank | blank | blank) <;> simp [blank]

/-! ## Words -/

theorem Keyword.ofWord?_eq_some_iff {word : String} {keyword : Keyword} :
    ofWord? word = some keyword ↔ (word, keyword) ∈ spellings :=
  Sorted.lookup_eq_some_iff (by decide)

theorem Kind.ofWord_eq_keyword_iff {word : String} {keyword : Keyword} :
    ofWord word = .keyword keyword ↔ (word, keyword) ∈ Keyword.spellings := by
  rw [ofWord, ← Keyword.ofWord?_eq_some_iff]
  cases Keyword.ofWord? word <;> simp

theorem Kind.ofWord_eq_identifier_iff {word : String} :
    ofWord word = .identifier ↔
      ∀ keyword, (word, keyword) ∉ Keyword.spellings := by
  simp only [ofWord, ← Keyword.ofWord?_eq_some_iff]
  cases Keyword.ofWord? word <;> simp

/-! ## Symbols -/

namespace Symbol

theorem mem_longestFirst (symbol : Symbol) : symbol ∈ longestFirst := by
  cases symbol <;> decide

theorem glyphs_injective {first second : Symbol}
    (same : first.glyphs = second.glyphs) :
    first = second := by
  have known : ∀ one ∈ longestFirst, ∀ other ∈ longestFirst,
      one.glyphs = other.glyphs → one = other := by
    decide
  exact known first (mem_longestFirst first) second (mem_longestFirst second)
    same

/-- The symbol that is found is at least as long as any other one there. -/
theorem longest?_of_prefix
    {symbol : Symbol} {input : List Char}
    (starts : symbol.glyphs <+: input) :
    ∃ found, longest? input = some found ∧
      symbol.glyphs.length ≤ found.glyphs.length := by
  have matched : symbol.glyphs.isPrefixOf input = true :=
    List.isPrefixOf_iff_prefix.2 starts
  cases search : longest? input with
  | none =>
      exact absurd matched
        (List.find?_eq_none.1 search symbol (mem_longestFirst symbol))
  | some found =>
      refine ⟨found, rfl, ?_⟩
      rcases List.find?_eq_some_iff_append.1 search with
        ⟨-, before, behind, parts, unmatched⟩
      have descending : longestFirst.Pairwise fun one other =>
          other.glyphs.length ≤ one.glyphs.length := by
        decide
      have member := mem_longestFirst symbol
      rw [parts] at descending member
      rcases List.mem_append.1 member with earlier | later
      · have refused := unmatched symbol earlier
        rw [matched] at refused
        cases refused
      · rcases List.mem_cons.1 later with rfl | later
        · exact Nat.le_refl _
        · exact (List.pairwise_cons.1
            (List.pairwise_append.1 descending).2.1).1 symbol later

end Symbol

/-! ## Whatever fits is read -/

namespace Piece

/-- A piece goes at least as far as a text, and if no farther, it is the lexeme. -/
structure Reaches (piece : Piece) (lexeme : Lexeme) (text : List Char) :
    Prop where
  legal : piece.lexeme.kind ≠ .illegal
  length_le : text.length ≤ piece.text.length
  lexeme_eq : piece.text = text → piece.lexeme = lexeme

theorem length_le_takeWhile
    {accepts : Char → Bool} {run : List Char} (rest : List Char)
    (inside : ∀ character ∈ run, accepts character = true) :
    run.length ≤ ((run ++ rest).takeWhile accepts).length := by
  rw [List.takeWhile_append_of_pos inside, List.length_append]
  omega

theorem reaches_symbol
    {symbol : Symbol} {first : Char} {more : List Char} (rest : List Char)
    (glyphs : symbol.glyphs = first :: more) :
    (read first (more ++ rest)).Reaches (.ofSymbol symbol) (first :: more) := by
  have starts : symbol.glyphs <+: first :: (more ++ rest) := by
    rw [glyphs]
    exact ⟨rest, rfl⟩
  rcases Symbol.longest?_of_prefix starts with ⟨found, search, length⟩
  rw [read_of_longest? search]
  constructor
  · nofun
  · rwa [← glyphs]
  · intro same
    rw [← glyphs] at same
    rw [← Symbol.glyphs_injective same]
    rfl

theorem read_quotation (rest : List Char) : read '"' rest = quoted rest :=
  rfl

theorem quoted_of_unclosed
    {body : List Char}
    (unquoted : '"' ∉ body) :
    quoted body = ⟨⟨.string, String.ofList body⟩, '"' :: body, []⟩ := by
  have inside : ∀ character ∈ body, decide (character ≠ '"') = true := by
    intro character member
    rw [decide_eq_true_eq]
    rintro rfl
    exact unquoted member
  rcases @takeWhile_of_stop _ body [] inside nofun with ⟨isBody, isRest⟩
  rw [List.append_nil] at isBody isRest
  rw [quoted, isBody, isRest]

theorem reaches_self
    {piece : Piece} {lexeme : Lexeme} {text rest : List Char}
    (isPiece : piece = ⟨lexeme, text, rest⟩)
    (legal : lexeme.kind ≠ .illegal) :
    piece.Reaches lexeme text := by
  subst isPiece
  exact ⟨legal, Nat.le_refl _, fun _ => rfl⟩

theorem read_word
    {first : Char} (rest : List Char)
    (starts : isWordStart first = true) :
    read first rest = word first rest := by
  have other : first ∉ marks := not_mem_marks (by decide) starts
  rw [read_of_not_mem_marks _ other, if_pos starts]

theorem read_numeral
    {script : Script} {first : Char} (rest : List Char)
    (digit : script.hasDigit first = true) :
    read first rest = numeral script first rest := by
  have other : first ∉ marks :=
    not_mem_marks (by cases script <;> decide) digit
  rw [read_of_not_mem_marks _ other,
    if_neg (Bool.eq_false_iff.1 (isWordStart_of_hasDigit digit)),
    Numeral.ofDigit?_of_hasDigit digit]

theorem reaches_word
    {first : Char} {more : List Char} {lexeme : Lexeme} (rest : List Char)
    (starts : isWordStart first = true)
    (inside : ∀ character ∈ more, isWordPart character = true)
    (isLexeme : lexeme =
      ⟨.ofWord (String.ofList (first :: more)),
        String.ofList (first :: more)⟩) :
    (read first (more ++ rest)).Reaches lexeme (first :: more) := by
  rw [read_word _ starts]
  constructor
  · simp only [word, plain, Kind.ofWord]
    split <;> simp
  · exact Nat.succ_le_succ (length_le_takeWhile rest inside)
  · intro same
    have text : first :: (more ++ rest).takeWhile isWordPart = first :: more :=
      same
    rw [isLexeme, word, plain, text]

theorem reaches_numeral
    {script : Script} {first : Char} {more : List Char} (rest : List Char)
    (starts : script.hasDigit first = true)
    (inside : ∀ character ∈ more, script.hasDigit character = true) :
    (read first (more ++ rest)).Reaches
      ⟨.integer, String.ofList (first :: more)⟩ (first :: more) := by
  rw [read_numeral _ starts]
  constructor
  · nofun
  · exact Nat.succ_le_succ (length_le_takeWhile rest inside)
  · intro same
    have text :
        first :: (more ++ rest).takeWhile script.hasDigit = first :: more :=
      same
    rw [numeral, plain, text]

end Piece

/-- What belongs to a class starts visibly, and reading goes as far. -/
theorem Lexeme.Fits.reaches
    {lexeme : Lexeme} {text rest : List Char}
    (fits : lexeme.Fits text rest) :
    ∃ first more, text = first :: more ∧ isBlank first = false ∧
      (Piece.read first (more ++ rest)).Reaches lexeme text := by
  cases fits with
  | symbol symbol =>
      cases glyphs : symbol.glyphs with
      | nil => exact absurd glyphs (Piece.glyphs_ne_nil symbol)
      | cons first more =>
          refine ⟨first, more, rfl, ?_, Piece.reaches_symbol rest glyphs⟩
          revert glyphs
          cases symbol <;> rintro ⟨⟩ <;> decide
  | @closed body _ unquoted =>
      have isPiece :
          Piece.read '"' (body ++ ['"'] ++ rest) =
            ⟨⟨.string, String.ofList body⟩, '"' :: (body ++ ['"']), rest⟩ := by
        rw [Piece.read_quotation, List.append_assoc, List.singleton_append,
          Piece.quoted_eq unquoted]
      exact ⟨'"', body ++ ['"'], rfl, rfl, Piece.reaches_self isPiece nofun⟩
  | @unclosed body unquoted =>
      have isPiece :
          Piece.read '"' (body ++ []) =
            ⟨⟨.string, String.ofList body⟩, '"' :: body, []⟩ := by
        rw [Piece.read_quotation, List.append_nil,
          Piece.quoted_of_unclosed unquoted]
      exact ⟨'"', body, rfl, rfl, Piece.reaches_self isPiece nofun⟩
  | @keyword first more _ keyword starts inside spelled =>
      have other : first ∉ marks := not_mem_marks (by decide) starts
      refine ⟨first, more, rfl, isBlank_of_not_mem_marks other, ?_⟩
      apply Piece.reaches_word rest starts inside
      rw [Kind.ofWord_eq_keyword_iff.2 spelled]
  | @name first more _ starts inside unspelled =>
      have other : first ∉ marks := not_mem_marks (by decide) starts
      refine ⟨first, more, rfl, isBlank_of_not_mem_marks other, ?_⟩
      apply Piece.reaches_word rest starts inside
      rw [Kind.ofWord_eq_identifier_iff.2 unspelled]
  | @numeral first more _ script starts inside =>
      have other : first ∉ marks :=
        not_mem_marks (by cases script <;> decide) starts
      exact ⟨first, more, rfl, isBlank_of_not_mem_marks other,
        Piece.reaches_numeral rest starts inside⟩

/-! ## Whatever is read fits -/

namespace Piece

theorem quoted_fits (input : List Char) :
    (quoted input).lexeme.Fits (quoted input).text (quoted input).rest := by
  by_cases closes : '"' ∈ input
  · rcases List.eq_append_cons_of_mem closes with ⟨run, rest, rfl, unquoted⟩
    rw [quoted_eq unquoted]
    exact .closed unquoted
  · rw [quoted_of_unclosed closes]
    exact .unclosed closes

theorem word_fits
    {first : Char} (input : List Char)
    (starts : isWordStart first = true) :
    (word first input).lexeme.Fits (word first input).text
      (word first input).rest := by
  have inside : ∀ character ∈ input.takeWhile isWordPart,
      isWordPart character = true :=
    List.all_eq_true.1 List.all_takeWhile
  simp only [word, plain]
  cases kind : Keyword.ofWord?
      (String.ofList (first :: input.takeWhile isWordPart)) with
  | some keyword =>
      rw [Kind.ofWord, kind]
      exact .keyword starts inside (Keyword.ofWord?_eq_some_iff.1 kind)
  | none =>
      have identifier := Kind.ofWord_eq_identifier_iff.1
        (show Kind.ofWord _ = .identifier by rw [Kind.ofWord, kind])
      rw [Kind.ofWord, kind]
      exact .name starts inside identifier

theorem hasDigit_of_ofDigit?
    {script : Script} {character : Char}
    (found : Script.ofDigit? character = some script) :
    script.hasDigit character = true := by
  rw [Script.ofDigit?] at found
  split at found
  · cases found
    assumption
  · split at found
    · cases found
      assumption
    · cases found

/-- What is read fits, or it is one character where nothing fits. -/
theorem read_cases (first : Char) (rest : List Char) :
    (read first rest).lexeme.Fits (read first rest).text
        (read first rest).rest ∨
      read first rest = plain .illegal [first] rest := by
  cases search : Symbol.longest? (first :: rest) with
  | some symbol =>
      rw [read_of_longest? search]
      exact .inl (.symbol symbol)
  | none =>
      by_cases quote : first = '"'
      · subst quote
        exact .inl (quoted_fits rest)
      · by_cases starts : isWordStart first = true
        · rw [read_word rest starts]
          exact .inl (word_fits rest starts)
        · cases digit : Script.ofDigit? first with
          | some script =>
              have isDigit := hasDigit_of_ofDigit? digit
              rw [read_numeral rest isDigit]
              exact .inl (.numeral script isDigit
                (List.all_eq_true.1 List.all_takeWhile))
          | none =>
              rw [read, search]
              simp [quote, starts, digit]

/-- What fits is read as the longest match. -/
theorem isLongest_read
    {first : Char} {rest : List Char}
    (fits : (read first rest).lexeme.Fits (read first rest).text
      (read first rest).rest) :
    (read first rest).lexeme.IsLongest (read first rest).text
      (read first rest).rest where
  fits := fits
  longest := by
    intro other behind rival whole rivalFits
    rcases rivalFits.reaches with ⟨head, more, rfl, -, reaches⟩
    rw [read_append] at whole
    cases whole
    exact reaches.length_le

/-- Nothing fits where an illegal character is read. -/
theorem unfit_of_illegal
    {first : Char} {rest text behind : List Char} {lexeme : Lexeme}
    (illegal : read first rest = plain .illegal [first] rest)
    (whole : first :: rest = text ++ behind) :
    ¬ lexeme.Fits text behind := by
  intro fits
  rcases fits.reaches with ⟨head, more, rfl, -, reaches⟩
  injection whole with isFirst isRest
  subst isFirst
  have legal := reaches.legal
  rw [show more ++ behind = rest from isRest.symm, illegal] at legal
  exact legal rfl

end Piece

/-- The longest match at a place is what is read there. -/
theorem Lexeme.IsLongest.read_eq
    {lexeme : Lexeme} {text rest : List Char}
    (isLongest : lexeme.IsLongest text rest) :
    ∃ first more, text = first :: more ∧ isBlank first = false ∧
      Piece.read first (more ++ rest) = ⟨lexeme, text, rest⟩ := by
  rcases isLongest.fits.reaches with ⟨first, more, rfl, visible, reaches⟩
  have whole := Piece.read_append first (more ++ rest)
  rcases Piece.read_cases first (more ++ rest) with fits | illegal
  · have longest := isLongest.longest whole.symm fits
    have length := Nat.le_antisymm reaches.length_le longest
    rcases List.append_inj whole length.symm with ⟨isText, isRest⟩
    have isLexeme := reaches.lexeme_eq isText
    refine ⟨first, more, rfl, visible, ?_⟩
    generalize Piece.read first (more ++ rest) = piece at isText isRest isLexeme
    cases piece
    cases isText
    cases isRest
    cases isLexeme
    rfl
  · exact absurd isLongest.fits (Piece.unfit_of_illegal illegal rfl)

/-! ## The cursor -/

namespace Cursor

variable {position : Position} {first : Char} {rest : List Char}

theorem collect_of_next?_some
    {cursor after : Cursor} {token : Token}
    (step : cursor.next? = some (token, after)) (seen : Array Token) :
    cursor.collect seen = after.collect (seen.push token) := by
  rw [collect]
  split
  · next found =>
    rw [step] at found
    cases found
    rfl
  · next found =>
    rw [step] at found
    cases found

theorem collect_of_next?_none
    {cursor : Cursor}
    (atEnd : cursor.next? = none) (seen : Array Token) :
    cursor.collect seen = (seen, cursor.skipBlanks) := by
  rw [collect]
  split
  · next found =>
    rw [atEnd] at found
    cases found
  · rfl

/-- A blank may be skipped beforehand. -/
theorem collect_blank
    (blank : isBlank first = true) (seen : Array Token) :
    collect ⟨position, first :: rest⟩ seen =
      collect ⟨position.step first, rest⟩ seen := by
  have skips :
      skipBlanks ⟨position, first :: rest⟩ =
        skipBlanks ⟨position.step first, rest⟩ := by
    simp [skipBlanks, blank, Position.after]
  have same :
      next? ⟨position, first :: rest⟩ =
        next? ⟨position.step first, rest⟩ := by
    rw [next?, next?, skips]
  cases step : next? ⟨position.step first, rest⟩ with
  | none =>
      rw [collect_of_next?_none step, collect_of_next?_none (same.trans step),
        skips]
  | some pair =>
      rw [collect_of_next?_some step, collect_of_next?_some (same.trans step)]

/-- Where no blank is in front, a piece is read. -/
theorem collect_piece
    (visible : isBlank first = false) (seen : Array Token) :
    collect ⟨position, first :: rest⟩ seen =
      collect
        ⟨position.after (Piece.read first rest).text,
          (Piece.read first rest).rest⟩
        (seen.push ⟨(Piece.read first rest).lexeme, position⟩) := by
  have stays :
      skipBlanks ⟨position, first :: rest⟩ = ⟨position, first :: rest⟩ := by
    simp [skipBlanks, visible]
  apply collect_of_next?_some
  rw [next?, stays]

end Cursor

namespace LongestMatch

variable {position : Position} {input : List Char} {found : List Token}

/-- Every text has tokens that are longest matches. -/
theorem exists_tokens (position : Position) (input : List Char) :
    ∃ found, LongestMatch position input found := by
  induction length : input.length using Nat.strongRecOn
    generalizing position input with
  | _ size induction =>
      subst length
      cases input with
      | nil => exact ⟨[], .done⟩
      | cons first rest =>
          by_cases blank : first ∈ [' ', '\t', '\r', '\n']
          · rcases induction rest.length (Nat.lt_succ_self _)
              (position.step first) rest rfl with ⟨found, later⟩
            exact ⟨found, .skip blank later⟩
          · have whole := Piece.read_append first rest
            rcases Piece.read_cases first rest with fits | illegal
            · rcases induction _ (Piece.read_rest_length first rest)
                (position.after (Piece.read first rest).text) _ rfl with
                ⟨found, later⟩
              rw [← whole]
              exact ⟨_, .take (Piece.isLongest_read fits) later⟩
            · rcases induction rest.length (Nat.lt_succ_self _)
                (position.step first) rest rfl with ⟨found, later⟩
              exact ⟨_, .illegal blank (Piece.unfit_of_illegal illegal) later⟩

/-- Tokens that are longest matches are collected by the cursor. -/
theorem collect_eq
    (longest : LongestMatch position input found) (seen : Array Token) :
    (Cursor.collect ⟨position, input⟩ seen).1.toList =
      seen.toList ++ found := by
  induction longest generalizing seen with
  | done =>
      rw [Cursor.collect_of_next?_none rfl]
      simp
  | skip blank later induction =>
      rw [Cursor.collect_blank ((isBlank_iff _).2 blank), induction]
  | take isLongest later induction =>
      rcases isLongest.read_eq with ⟨first, more, rfl, visible, isPiece⟩
      rw [List.cons_append, Cursor.collect_piece visible, isPiece, induction]
      simp
  | @illegal position first rest more visible unfit later induction =>
      have isIllegal :
          Piece.read first rest = .plain .illegal [first] rest := by
        rcases Piece.read_cases first rest with fits | illegal
        · exact absurd fits (unfit (Piece.read_append first rest).symm)
        · exact illegal
      have unblank : isBlank first = false := by
        rw [Bool.eq_false_iff, Ne, isBlank_iff]
        exact visible
      rw [Cursor.collect_piece unblank, isIllegal]
      simpa [Piece.plain, Position.after] using induction
        (seen.push ⟨⟨.illegal, String.singleton first⟩, position⟩)

end LongestMatch

/-! ## Keywords -/

/-- Only a word can be spelled like a keyword. -/
theorem Keyword.isWord_of_mem_spellings
    {word : String} {keyword : Keyword}
    (spelled : (word, keyword) ∈ spellings) :
    isWord word = true ∧ word.length ≠ 1 := by
  have known : ∀ entry ∈ spellings,
      isWord entry.1 = true ∧ entry.1.length ≠ 1 := by
    decide
  exact known _ spelled

theorem Lexeme.Fits.keyword_iff
    {lexeme : Lexeme} {text rest : List Char} {keyword : Keyword}
    (fits : lexeme.Fits text rest) :
    lexeme.kind = .keyword keyword ↔
      lexeme.kind ≠ .string ∧
        (lexeme.literal, keyword) ∈ Keyword.spellings := by
  cases fits with
  | symbol symbol =>
      refine iff_of_false nofun ?_
      rintro ⟨-, spelled⟩
      have isWord := (Keyword.isWord_of_mem_spellings spelled).1
      revert isWord
      cases symbol <;> decide
  | closed unquoted => exact iff_of_false nofun fun both => both.1 rfl
  | unclosed unquoted => exact iff_of_false nofun fun both => both.1 rfl
  | @keyword first more _ present starts inside spelled =>
      simp only [Kind.keyword.injEq, ne_eq, reduceCtorEq, not_false_eq_true,
        true_and, ← Keyword.ofWord?_eq_some_iff] at spelled ⊢
      rw [spelled, Option.some.injEq]
  | name starts inside unspelled =>
      exact iff_of_false nofun fun both => unspelled keyword both.2
  | numeral script starts inside =>
      refine iff_of_false nofun ?_
      rintro ⟨-, spelled⟩
      have isWord := (Keyword.isWord_of_mem_spellings spelled).1
      simp [Bhasha.isWord, isWordStart_of_hasDigit starts] at isWord

/-- A token is a keyword exactly if the whole of it spells the keyword. -/
theorem LongestMatch.keyword_iff
    {position : Position} {input : List Char} {found : List Token}
    (longest : LongestMatch position input found) (keyword : Keyword) :
    ∀ token ∈ found, token.kind = .keyword keyword ↔
      token.kind ≠ .string ∧
        (token.literal, keyword) ∈ Keyword.spellings := by
  induction longest with
  | done => nofun
  | skip blank later induction => exact induction
  | take isLongest later induction =>
      exact List.forall_mem_cons.2 ⟨isLongest.fits.keyword_iff, induction⟩
  | illegal visible unfit later induction =>
      refine List.forall_mem_cons.2 ⟨iff_of_false nofun ?_, induction⟩
      rintro ⟨-, spelled⟩
      have length := (Keyword.isWord_of_mem_spellings spelled).2
      simp at length

/-! ## Sources -/

/--
The tokens of a source in front of the end of the input are those that are found
by skipping blanks and taking the longest text that belongs to a class of lexemes,
or one illegal character, again and again.  A token that is no string is a keyword
exactly if the whole of it is a spelling of the keyword.
-/
theorem tokens_longest_match (source : String) :
    (∀ found, tokens source = found ↔
      LongestMatch .start source.toList found) ∧
    (∃ last, tokenize source = tokens source ++ [last] ∧
      last.toLexeme = .endOfInput) ∧
    ∀ token ∈ tokens source, ∀ keyword,
      token.kind = .keyword keyword ↔
        token.kind ≠ .string ∧
          (token.literal, keyword) ∈ Keyword.spellings := by
  have collected : ∀ {found}, LongestMatch .start source.toList found →
      tokens source = found := by
    intro found longest
    simpa [tokens, Cursor.ofSource] using longest.collect_eq #[]
  rcases LongestMatch.exists_tokens .start source.toList with
    ⟨found, longest⟩
  have isFound := collected longest
  refine ⟨fun other => ⟨?_, collected⟩, ?_, ?_⟩
  · rintro rfl
    rwa [isFound]
  · refine ⟨((Cursor.ofSource source).collect #[]).2.endToken, ?_, rfl⟩
    simp [tokenize, Cursor.drain, tokens]
  · intro token member keyword
    rw [isFound] at member
    exact longest.keyword_iff keyword token member

/-- A word that goes on after the spelling of a keyword is no keyword. -/
example :
    (tokens "फनको फन").map (·.kind) = [.identifier, .keyword .function] := by
  decide +kernel

end Bhasha
