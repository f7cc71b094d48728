import Bhasha.Text.Quoted
import Bhasha.Token.Kind

/-!
# Tokens

A lexeme is a kind and a literal text; a token is a lexeme at a position of
the source.  Positions count bytes for the offset and characters for the
column, and start a new line after each line feed.
-/

namespace Bhasha

/-- A place in a source text. -/
structure Position where
  /-- The number of bytes before the place. -/
  offset : Nat
  /-- The line, counted from one. -/
  line : Nat
  /-- The column in characters, counted from one. -/
  column : Nat
deriving DecidableEq

namespace Position

/-- The start of a text. -/
def start : Position :=
  ⟨0, 1, 1⟩

/-- The place after one more character. -/
def step (position : Position) (character : Char) : Position :=
  if character = '\n' then
    ⟨position.offset + character.utf8Size, position.line + 1, 1⟩
  else
    ⟨position.offset + character.utf8Size, position.line, position.column + 1⟩

/-- The place after more characters. -/
def after (position : Position) (characters : List Char) : Position :=
  characters.foldl step position

@[simp]
theorem after_nil (position : Position) : position.after [] = position :=
  rfl

@[simp]
theorem after_append (position : Position) (first second : List Char) :
    position.after (first ++ second) = (position.after first).after second :=
  List.foldl_append

end Position

/-- A kind of token with its literal text. -/
structure Lexeme where
  kind : Kind
  literal : String
deriving DecidableEq

/-- The lexeme that stands for everything after the last token. -/
def Lexeme.endOfInput : Lexeme :=
  ⟨.endOfInput, ""⟩

/-- A lexeme at a position of the source. -/
structure Token extends Lexeme where
  position : Position
deriving DecidableEq

/-- A token on one line: its position, its kind and its quoted literal. -/
def Token.describe (token : Token) : String :=
  toString token.position.line ++ ":" ++ toString token.position.column ++
    " " ++ token.kind.display ++ " " ++ Text.quote token.literal

end Bhasha
