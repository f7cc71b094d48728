import Bhasha.Numeral
import Bhasha.Text.Alphabetic
import Bhasha.Token.Basic

/-!
# Reading tokens from text

A cursor is a position and the text from there on.  It skips blanks and then
takes one piece: a symbol, a quoted string, a word, a run of digits of one
script, or a single illegal character.  Each piece is a nonempty start of the
remaining text, so a cursor reaches the end of its text.  At the end it gives
the end-of-input token, at the same position each time.
-/

namespace Bhasha

/-! ## Classes of characters -/

/-- The characters that separate tokens: space, tab and the line ends. -/
def isBlank (character : Char) : Bool :=
  character = ' ' || character = '\t' || character = '\n' || character = '\r'

/-- Whether a character is in the Devanagari block. -/
def isDevanagari (character : Char) : Bool :=
  0x900 ≤ character.toNat && character.toNat ≤ 0x97F

/-- The danda and the double danda, which end sentences. -/
def isDanda (character : Char) : Bool :=
  character = '।' || character = '॥'

/-- Whether a word can start with a character. -/
def isWordStart (character : Char) : Bool :=
  character = '_' ||
    (isDevanagari character && !Script.devanagari.hasDigit character &&
      !isDanda character) ||
    Text.isAlphabetic character

/-- Whether a word can go on with a character. -/
def isWordPart (character : Char) : Bool :=
  Numeral.isDigit character || isWordStart character

/-! ## One piece of text -/

/--
A piece of the source: the lexeme that it spells, its own characters, and the
characters after it.
-/
structure Piece where
  lexeme : Lexeme
  text : List Char
  rest : List Char

namespace Piece

/-- A piece whose literal is its own text. -/
def plain (kind : Kind) (text rest : List Char) : Piece :=
  ⟨⟨kind, String.ofList text⟩, text, rest⟩

/--
A string after its opening quotation mark.  It runs to the next quotation
mark, or to the end of the input when there is none.
-/
def quoted (input : List Char) : Piece :=
  let body := input.takeWhile (· ≠ '"')
  let lexeme := ⟨.string, String.ofList body⟩
  match input.dropWhile (· ≠ '"') with
  | [] => ⟨lexeme, '"' :: body, []⟩
  | mark :: rest => ⟨lexeme, '"' :: (body ++ [mark]), rest⟩

/-- A word from its first character on. -/
def word (first : Char) (input : List Char) : Piece :=
  let text := first :: input.takeWhile isWordPart
  plain (.ofWord (String.ofList text)) text (input.dropWhile isWordPart)

/-- A run of digits of one script from its first digit on. -/
def numeral (script : Script) (first : Char) (input : List Char) : Piece :=
  plain .integer (first :: input.takeWhile script.hasDigit)
    (input.dropWhile script.hasDigit)

/-- The piece at the start of a text that is not empty and starts no blank. -/
def read (first : Char) (input : List Char) : Piece :=
  match Symbol.longest? (first :: input) with
  | some symbol =>
    plain (.symbol symbol) symbol.glyphs
      ((first :: input).drop symbol.glyphs.length)
  | none =>
    if first = '"' then
      quoted input
    else if isWordStart first then
      word first input
    else
      match Script.ofDigit? first with
      | some script => numeral script first input
      | none => plain .illegal [first] input

theorem quoted_append (input : List Char) :
    (quoted input).text ++ (quoted input).rest = '"' :: input := by
  have whole := List.takeWhile_append_dropWhile (p := (· ≠ '"')) (l := input)
  rw [quoted]
  split
  · next nothing =>
    rw [nothing] at whole
    simpa using whole
  · next mark rest found =>
    rw [found] at whole
    simpa using whole

theorem word_append (first : Char) (input : List Char) :
    (word first input).text ++ (word first input).rest = first :: input := by
  simp [word, plain]

theorem numeral_append (script : Script) (first : Char) (input : List Char) :
    (numeral script first input).text ++ (numeral script first input).rest =
      first :: input := by
  simp [numeral, plain]

/-- A piece and what follows it are the text that was read. -/
theorem read_append (first : Char) (input : List Char) :
    (read first input).text ++ (read first input).rest = first :: input := by
  rw [read]
  split
  · next symbol found =>
    have start := List.find?_some found
    obtain ⟨rest, whole⟩ := List.isPrefixOf_iff_prefix.1 start
    simp [plain, ← whole]
  · split
    · next mark =>
      rw [quoted_append, mark]
    · split
      · exact word_append first input
      · split
        · exact numeral_append _ first input
        · simp [plain]

theorem glyphs_ne_nil (symbol : Symbol) : symbol.glyphs ≠ [] := by
  cases symbol <;> simp [Symbol.glyphs]

/-- A piece holds at least one character. -/
theorem read_text_ne_nil (first : Char) (input : List Char) :
    (read first input).text ≠ [] := by
  rw [read]
  split
  · exact glyphs_ne_nil _
  · split
    · rw [quoted]
      split <;> simp
    · split
      · simp [word, plain]
      · split
        · simp [numeral, plain]
        · simp [plain]

/-- What follows a piece is shorter than the text that was read. -/
theorem read_rest_length (first : Char) (input : List Char) :
    (read first input).rest.length < (first :: input).length := by
  have whole := congrArg List.length (read_append first input)
  have nonempty := List.length_pos_iff.2 (read_text_ne_nil first input)
  rw [List.length_append] at whole
  omega

end Piece

/-! ## The cursor -/

/-- A place in a source and the text from there on. -/
structure Cursor where
  position : Position
  input : List Char

namespace Cursor

/-- The cursor at the start of a source. -/
def ofSource (source : String) : Cursor :=
  ⟨.start, source.toList⟩

/-- The cursor after the blanks in front of it. -/
def skipBlanks (cursor : Cursor) : Cursor :=
  ⟨cursor.position.after (cursor.input.takeWhile isBlank),
    cursor.input.dropWhile isBlank⟩

/-- The next token before the end of the input. -/
def next? (cursor : Cursor) : Option (Token × Cursor) :=
  let ⟨position, input⟩ := cursor.skipBlanks
  match input with
  | [] => none
  | first :: rest =>
    let piece := Piece.read first rest
    some (⟨piece.lexeme, position⟩, ⟨position.after piece.text, piece.rest⟩)

/-- The token that stands at the end of the input. -/
def endToken (cursor : Cursor) : Token :=
  ⟨.endOfInput, cursor.skipBlanks.position⟩

/-- The next token; at the end of the input, the end-of-input token. -/
def next (cursor : Cursor) : Token × Cursor :=
  match cursor.next? with
  | some step => step
  | none => (cursor.endToken, cursor.skipBlanks)

/-- The next token, if it is not the end-of-input token. -/
def iterate (cursor : Cursor) : Option Token × Cursor :=
  let (token, after) := cursor.next
  (if token.kind = .endOfInput then none else some token, after)

/-- Reading a token leaves less text. -/
theorem next?_length {cursor after : Cursor} {token : Token}
    (step : cursor.next? = some (token, after)) :
    after.input.length < cursor.input.length := by
  have skipped : cursor.skipBlanks.input.length ≤ cursor.input.length :=
    (List.dropWhile_sublist isBlank).length_le
  rw [next?] at step
  split at step
  next position input view =>
    rw [view] at skipped
    split at step
    · simp at step
    · next first rest =>
      simp only [Option.some.injEq, Prod.mk.injEq] at step
      rw [← step.2]
      exact Nat.lt_of_lt_of_le (Piece.read_rest_length first rest) skipped

/-- The tokens from here to the end of the input, after those already seen. -/
def collect (cursor : Cursor) (seen : Array Token) : Array Token × Cursor :=
  match _ : cursor.next? with
  | some (token, after) => collect after (seen.push token)
  | none => (seen, cursor.skipBlanks)
termination_by cursor.input.length
decreasing_by exact next?_length ‹_›

/-- The tokens that are left, with the end-of-input token as the last. -/
def drain (cursor : Cursor) : List Token × Cursor :=
  let (seen, after) := cursor.collect #[]
  ((seen.push after.endToken).toList, after)

end Cursor

/-! ## Whole sources -/

/-- The tokens of a source before the end of the input. -/
def tokens (source : String) : List Token :=
  ((Cursor.ofSource source).collect #[]).1.toList

/-- The tokens of a source, the end of the input included. -/
def tokenize (source : String) : List Token :=
  (Cursor.ofSource source).drain.1

/-- The lexemes of a source, without their positions. -/
def lexemes (source : String) : List Lexeme :=
  (tokens source).map Token.toLexeme

/-- The tokens of a source, one on each line. -/
def tokenListing (source : String) : String :=
  "\n".intercalate ((tokens source).map Token.describe)

end Bhasha
