import Bhasha.Proofs.Numeral
import Bhasha.Proofs.Token.Scan

/-!
# How texts are read

Some texts are read as the same lexemes whatever follows them, such as blanks,
brackets and quoted strings.  Others are read as intended only in front of a
character that makes them no longer: words, numerals and the operators that
start a longer one.  Both properties are kept when texts are put together.
-/

namespace Bhasha

/-! ## Boundaries -/

/-- A character that makes nothing in front of it longer. -/
def isSeparator (character : Char) : Bool :=
  !isWordPart character && character != '='

/-- The text, if there is one, starts with a separator. -/
def Separated (text : List Char) : Prop :=
  ∀ next ∈ text.head?, isSeparator next = true

/-- The text starts with a separator. -/
def opensSeparated (text : String) : Bool :=
  text.toList.head?.any isSeparator

/-- Whatever follows, the text is read as the phrase. -/
def Delimits (text : String) (phrase : List Lexeme) : Prop :=
  ∀ after, scan (text.toList ++ after) = phrase ++ scan after

/-- In front of a separator the text is read as the phrase. -/
def Spells (text : String) (phrase : List Lexeme) : Prop :=
  ∀ after, Separated after →
    scan (text.toList ++ after) = phrase ++ scan after

theorem separated_append
    {text : String}
    (opens : opensSeparated text = true)
    (after : List Char) :
    Separated (text.toList ++ after) := by
  intro next member
  rw [opensSeparated] at opens
  cases characters : text.toList with
  | nil =>
      rw [characters] at opens
      cases opens
  | cons first rest =>
      rw [characters] at opens member
      cases member
      exact opens

namespace Delimits

variable {text next : String} {phrase second : List Lexeme}

theorem spells
    (delimits : Delimits text phrase) :
    Spells text phrase :=
  fun after _ => delimits after

theorem empty : Delimits "" [] :=
  fun _ => rfl

theorem append
    (left : Delimits text phrase)
    (right : Delimits next second) :
    Delimits (text ++ next) (phrase ++ second) := by
  intro after
  rw [String.toList_append, List.append_assoc, left, right, List.append_assoc]

theorem append_spells
    (left : Delimits text phrase)
    (right : Spells next second) :
    Spells (text ++ next) (phrase ++ second) := by
  intro after separated
  rw [String.toList_append, List.append_assoc, left, right after separated,
    List.append_assoc]

end Delimits

/-- A text that is closed by a separator is read the same whatever follows. -/
theorem Spells.close
    {text mark : String} {phrase second : List Lexeme}
    (spells : Spells text phrase)
    (delimits : Delimits mark second)
    (opens : opensSeparated mark = true) :
    Delimits (text ++ mark) (phrase ++ second) := by
  intro after
  rw [String.toList_append, List.append_assoc,
    spells _ (separated_append opens after), delimits, List.append_assoc]

/-- A text that spells the whole of a source is its lexemes. -/
theorem Spells.lexemes_eq
    {text : String} {phrase : List Lexeme}
    (spells : Spells text phrase) :
    lexemes text = phrase := by
  have whole := spells [] (by nofun)
  rw [lexemes_eq_scan]
  simpa using whole

/-! ## Symbols -/

/-- The lexeme of a symbol. -/
def Lexeme.ofSymbol (symbol : Symbol) : Lexeme :=
  ⟨.symbol symbol, symbol.spelling⟩

/-- The symbols that an equals sign makes longer. -/
def Symbol.extensible : List Symbol :=
  [.assign, .bang, .less, .greater]

/-- A symbol is the longest one, if no equals sign makes it longer. -/
theorem Symbol.longest?_glyphs
    (symbol : Symbol) {after : List Char}
    (differs : symbol ∈ extensible → after.head? ≠ some '=') :
    longest? (symbol.glyphs ++ after) = some symbol := by
  by_cases longer : symbol ∈ extensible
  · cases after with
    | nil => cases symbol <;> decide
    | cons next rest =>
        have other : ('=' == next) = false := by
          rw [beq_eq_false_iff_ne]
          rintro rfl
          exact differs longer rfl
        cases symbol <;>
          simp [longest?, longestFirst, glyphs, List.find?, List.isPrefixOf,
            other]
  · cases symbol
    case assign | bang | less | greater => exact absurd (by decide) longer
    all_goals rfl

theorem scan_symbol
    (symbol : Symbol) {after : List Char}
    (differs : symbol ∈ Symbol.extensible → after.head? ≠ some '=') :
    scan (symbol.glyphs ++ after) = .ofSymbol symbol :: scan after := by
  have longest := symbol.longest?_glyphs differs
  cases characters : symbol.glyphs with
  | nil => exact absurd characters (Piece.glyphs_ne_nil symbol)
  | cons first rest =>
      have visible : isBlank first = false := by
        revert characters
        cases symbol <;> rintro ⟨⟩ <;> decide
      rw [characters, List.cons_append] at longest
      rw [List.cons_append, scan_piece visible, Piece.read, longest]
      dsimp only
      rw [Piece.plain, ← List.cons_append, characters, List.drop_left,
        ← characters]
      rfl

theorem spells_symbol (symbol : Symbol) :
    Spells symbol.spelling [.ofSymbol symbol] := by
  intro after separated
  rw [Symbol.spelling, String.toList_ofList]
  apply scan_symbol
  intro _ equal
  exact absurd (separated '=' equal) (by decide)

/-- The symbols that stand around and between other constructs. -/
def Symbol.brackets : List Symbol :=
  [.comma, .semicolon, .colon, .leftParen, .rightParen, .leftBrace,
    .rightBrace, .leftBracket, .rightBracket]

/-- The lexemes of a text of blanks and brackets. -/
def punctuation? : List Char → Option (List Lexeme)
  | [] => some []
  | first :: rest =>
    if isBlank first then
      punctuation? rest
    else
      match Symbol.brackets.find? fun symbol => symbol.glyphs = [first] with
      | some symbol => (punctuation? rest).map (Lexeme.ofSymbol symbol :: ·)
      | none => none

theorem scan_punctuation
    {text : List Char} {phrase : List Lexeme}
    (found : punctuation? text = some phrase)
    (after : List Char) :
    scan (text ++ after) = phrase ++ scan after := by
  fun_induction punctuation? text generalizing phrase with
  | case1 =>
      cases found
      rfl
  | case2 first rest blank induction =>
      rw [List.cons_append, scan_blank blank]
      exact induction found
  | case3 first rest visible symbol isSymbol induction =>
      rcases Option.map_eq_some_iff.1 found with ⟨more, foundMore, rfl⟩
      have glyphs : symbol.glyphs = [first] := by
        simpa using List.find?_some isSymbol
      have fixed : ∀ bracket ∈ Symbol.brackets,
          bracket ∉ Symbol.extensible := by
        decide
      rw [List.cons_append, ← List.singleton_append, ← glyphs,
        scan_symbol symbol
          (absurd · (fixed symbol (List.mem_of_find?_eq_some isSymbol))),
        induction foundMore]
      rfl
  | case4 => cases found

/-- Blanks and brackets are read the same whatever follows. -/
theorem delimits_punctuation
    {text : String} {phrase : List Lexeme}
    (found : punctuation? text.toList = some phrase) :
    Delimits text phrase :=
  scan_punctuation found

/-! ## Strings -/

theorem takeWhile_of_stop
    {accepts : Char → Bool} {run after : List Char}
    (inside : ∀ character ∈ run, accepts character = true)
    (stop : ∀ next ∈ after.head?, accepts next = false) :
    (run ++ after).takeWhile accepts = run ∧
      (run ++ after).dropWhile accepts = after := by
  rw [List.takeWhile_append_of_pos inside, List.dropWhile_append_of_pos inside]
  cases after with
  | nil => simp
  | cons next rest => simp [stop next rfl]

/-- A quoted text is read as a string, unless it holds a quotation mark. -/
theorem delimits_string
    {text : String}
    (unquoted : '"' ∉ text.toList) :
    Delimits ("\"" ++ text ++ "\"") [⟨.string, text⟩] := by
  intro after
  have inside :
      ∀ character ∈ text.toList, decide (character ≠ '"') = true := by
    intro character member
    rw [decide_eq_true_eq]
    rintro rfl
    exact unquoted member
  have stop :
      ∀ next ∈ ('"' :: after).head?, decide (next ≠ '"') = false := by
    rintro next ⟨⟩
    decide
  rcases takeWhile_of_stop inside stop with ⟨body, rest⟩
  have characters :
      ("\"" ++ text ++ "\"").toList ++ after =
        '"' :: (text.toList ++ '"' :: after) := by
    simp
  rw [characters, scan_piece (by decide), Piece.read]
  have none : Symbol.longest? ('"' :: (text.toList ++ '"' :: after)) = none :=
    rfl
  rw [none]
  dsimp only
  rw [if_pos rfl, Piece.quoted, body, rest, String.ofList_toList]
  rfl

/-! ## Words -/

/-- A text that starts like a word and goes on like one. -/
def isWord (text : String) : Bool :=
  match text.toList with
  | [] => false
  | first :: rest => isWordStart first && rest.all isWordPart

/-- The characters with which blanks, symbols and strings start. -/
def marks : List Char :=
  [' ', '\t', '\n', '\r', '"', '=', '+', '-', '!', '*', '/', '<', '>', ',',
    ';', ':', '(', ')', '\x7b', '\x7d', '[', ']']

theorem not_mem_marks
    {accepts : Char → Bool} {first : Char}
    (refuses : marks.all (fun mark => !accepts mark) = true)
    (accepted : accepts first = true) :
    first ∉ marks := by
  intro member
  have refused := List.all_eq_true.1 refuses first member
  rw [accepted] at refused
  cases refused

theorem isBlank_of_not_mem_marks
    {first : Char}
    (other : first ∉ marks) :
    isBlank first = false := by
  cases blank : isBlank first with
  | false => rfl
  | true =>
      simp only [isBlank, Bool.or_eq_true, decide_eq_true_eq] at blank
      rcases blank with ((rfl | rfl) | rfl) | rfl <;>
        exact absurd (by decide) other

theorem longest?_eq_none
    {first : Char} (rest : List Char)
    (other : first ∉ marks) :
    Symbol.longest? (first :: rest) = none := by
  rw [Symbol.longest?, List.find?_eq_none]
  intro symbol _ starts
  have isMark : ∀ head ∈ symbol.glyphs.head?, head ∈ marks := by
    cases symbol <;> rintro head ⟨⟩ <;> decide
  rcases List.isPrefixOf_iff_prefix.1 starts with ⟨more, whole⟩
  cases characters : symbol.glyphs with
  | nil => exact Piece.glyphs_ne_nil symbol characters
  | cons head tail =>
      rw [characters] at whole
      cases whole
      exact other (isMark first (by rw [characters]; rfl))

/-- What starts with no mark is a word, a numeral or illegal. -/
theorem Piece.read_of_not_mem_marks
    {first : Char} (rest : List Char)
    (other : first ∉ marks) :
    read first rest =
      if isWordStart first then
        word first rest
      else
        match Script.ofDigit? first with
        | some script => numeral script first rest
        | none => plain .illegal [first] rest := by
  have unquoted : first ≠ '"' := by
    rintro rfl
    exact other (by decide)
  rw [read, longest?_eq_none rest other]
  exact if_neg unquoted

/-- A word in front of a separator is read whole. -/
theorem spells_word
    {word : String}
    (whole : isWord word = true) :
    Spells word [⟨.ofWord word, word⟩] := by
  intro after separated
  rw [isWord] at whole
  cases characters : word.toList with
  | nil =>
      rw [characters] at whole
      cases whole
  | cons first rest =>
      rw [characters] at whole
      simp only [Bool.and_eq_true, List.all_eq_true] at whole
      rcases whole with ⟨starts, inside⟩
      have stop : ∀ next ∈ after.head?, isWordPart next = false := by
        intro next member
        have separator := separated next member
        simp only [isSeparator, Bool.and_eq_true, Bool.not_eq_true']
          at separator
        exact separator.1
      rcases takeWhile_of_stop inside stop with ⟨body, more⟩
      have other : first ∉ marks := not_mem_marks (by decide) starts
      rw [List.cons_append, scan_piece (isBlank_of_not_mem_marks other),
        Piece.read_of_not_mem_marks _ other, if_pos starts, Piece.word, body,
        more, Piece.plain, ← characters, String.ofList_toList,
        List.singleton_append]

theorem isWord_spelling (keyword : Keyword) :
    isWord keyword.spelling = true := by
  cases keyword <;> decide

/-- The lexeme of a keyword. -/
def Lexeme.ofKeyword (keyword : Keyword) : Lexeme :=
  ⟨.keyword keyword, keyword.spelling⟩

theorem Kind.ofWord_spelling (keyword : Keyword) :
    Kind.ofWord keyword.spelling = .keyword keyword := by
  cases keyword <;> decide

theorem spells_keyword (keyword : Keyword) :
    Spells keyword.spelling [.ofKeyword keyword] := by
  rw [Lexeme.ofKeyword, ← Kind.ofWord_spelling]
  exact spells_word (isWord_spelling keyword)

/-! ### Names -/

/-- A word that is read whole as one identifier. -/
def IsName (word : String) : Prop :=
  lexemes word = [⟨.identifier, word⟩]

theorem Piece.isWord_of_read
    {first : Char} {rest : List Char}
    (isIdentifier : (read first rest).lexeme.kind = .identifier) :
    isWord (read first rest).lexeme.literal = true := by
  rw [read] at isIdentifier ⊢
  split at isIdentifier
  · cases isIdentifier
  · split at isIdentifier
    · rw [quoted] at isIdentifier
      split at isIdentifier <;> cases isIdentifier
    · next plainStart =>
      split at isIdentifier
      · next starts =>
        simp [starts, plainStart, word, plain, isWord]
      · split at isIdentifier <;> cases isIdentifier

/-- The identifiers of a text are words. -/
theorem isWord_of_mem_scan
    {input : List Char} {lexeme : Lexeme}
    (member : lexeme ∈ scan input)
    (isIdentifier : lexeme.kind = .identifier) :
    isWord lexeme.literal = true := by
  fun_induction scan input with
  | case1 => cases member
  | case2 first rest blank induction => exact induction member
  | case3 first rest visible induction =>
      rcases List.mem_cons.1 member with rfl | later
      · exact Piece.isWord_of_read isIdentifier
      · exact induction later

/-- A word is a name exactly when it is spelled as one and is not reserved. -/
theorem isName_iff (word : String) :
    IsName word ↔
      isWord word = true ∧ Keyword.ofWord? word = none := by
  constructor
  · intro isName
    have member : (⟨.identifier, word⟩ : Lexeme) ∈ scan word.toList := by
      rw [← lexemes_eq_scan, isName]
      exact List.mem_singleton_self _
    have whole : isWord word = true := isWord_of_mem_scan member rfl
    have same := (spells_word whole).lexemes_eq
    rw [isName] at same
    refine ⟨whole, ?_⟩
    cases reserved : Keyword.ofWord? word with
    | none => rfl
    | some keyword =>
        rw [Kind.ofWord, reserved] at same
        cases same
  · rintro ⟨whole, notReserved⟩
    have same := (spells_word whole).lexemes_eq
    rw [Kind.ofWord, notReserved] at same
    exact same

theorem spells_name
    {name : String}
    (isName : IsName name) :
    Spells name [⟨.identifier, name⟩] := by
  rcases (isName_iff name).1 isName with ⟨whole, notReserved⟩
  have spells := spells_word whole
  rw [Kind.ofWord, notReserved] at spells
  exact spells

/-! ## Numerals -/

/-- No word starts with a digit. -/
theorem isWordStart_of_hasDigit
    {script : Script} {first : Char}
    (digit : script.hasDigit first = true) :
    isWordStart first = false := by
  have range := digit
  simp only [Script.hasDigit, Bool.and_eq_true, decide_eq_true_eq] at range
  have underscore : first ≠ '_' := by
    rintro rfl
    cases script <;> exact absurd digit (by decide)
  have letter :
      (isDevanagari first && !Script.devanagari.hasDigit first) = false := by
    cases script with
    | latin =>
        have below : first.toNat ≤ 57 := range.2
        rw [isDevanagari, decide_eq_false (by omega)]
        rfl
    | devanagari => rw [digit, Bool.not_true, Bool.and_false]
  have alphabetic : Text.isAlphabetic first = false := by
    have known : ∀ offset < 10,
        Text.alphabeticRanges.contains (script.zero.toNat + offset) =
          false := by
      cases script <;> decide
    have here := known (first.toNat - script.zero.toNat) (by omega)
    rwa [Nat.add_sub_cancel' range.1] at here
  rw [isWordStart, letter, alphabetic, decide_eq_false underscore]
  rfl

/-- A run of digits of one script is read as a numeral. -/
theorem spells_digits
    (script : Script) {run : String}
    (nonempty : run ≠ "")
    (digits : ∀ character ∈ run.toList, script.hasDigit character = true) :
    Spells run [⟨.integer, run⟩] := by
  intro after separated
  cases characters : run.toList with
  | nil => exact absurd (String.toList_eq_nil_iff.1 characters) nonempty
  | cons first rest =>
      rw [characters] at digits
      rcases List.forall_mem_cons.1 digits with ⟨digit, inside⟩
      have stop : ∀ next ∈ after.head?, script.hasDigit next = false := by
        intro next member
        have separator := separated next member
        cases isDigit : script.hasDigit next with
        | false => rfl
        | true =>
            simp [isSeparator, isWordPart, Numeral.isDigit,
              Numeral.ofDigit?_of_hasDigit isDigit] at separator
      rcases takeWhile_of_stop inside stop with ⟨body, more⟩
      have other : first ∉ marks :=
        not_mem_marks (by cases script <;> decide) digit
      have read :
          Piece.read first (rest ++ after) =
            Piece.numeral script first (rest ++ after) := by
        rw [Piece.read_of_not_mem_marks _ other,
          if_neg (Bool.eq_false_iff.1 (isWordStart_of_hasDigit digit)),
          Numeral.ofDigit?_of_hasDigit digit]
      rw [List.cons_append, scan_piece (isBlank_of_not_mem_marks other), read,
        Piece.numeral, body, more, Piece.plain, ← characters,
        String.ofList_toList, List.singleton_append]

/-- The decimal text of a number is read as a numeral. -/
theorem spells_numeral (value : Nat) :
    Spells value.repr [⟨.integer, value.repr⟩] := by
  apply spells_digits .latin
  · intro empty
    have characters := congrArg String.toList empty
    rw [Nat.toList_repr] at characters
    exact Nat.toDigits_ne_nil characters
  · intro character member
    rw [Nat.toList_repr] at member
    exact Numeral.hasDigit_of_mem_toDigits member

end Bhasha
