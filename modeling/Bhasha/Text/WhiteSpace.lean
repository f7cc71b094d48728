import Bhasha.Text.Ranges

/-!
# White space

The Unicode property White_Space and the trimming of a text at both ends.
Lines typed at the prompt and the arguments of commands are trimmed with it.
The blanks that separate tokens are a smaller set and belong to the lexer.
-/

namespace Bhasha.Text

/-- The code points with the property White_Space. -/
def whiteSpaceRanges : Ranges :=
  [(0x9, 0xD), (0x20, 0x20), (0x85, 0x85), (0xA0, 0xA0), (0x1680, 0x1680),
   (0x2000, 0x200A), (0x2028, 0x2029), (0x202F, 0x202F), (0x205F, 0x205F),
   (0x3000, 0x3000)]

/-- Whether a character has the Unicode property White_Space. -/
def isWhiteSpace (character : Char) : Bool :=
  whiteSpaceRanges.contains character.toNat

/-- The characters of a text without the white space at its start. -/
def dropLeadingSpace (characters : List Char) : List Char :=
  characters.dropWhile isWhiteSpace

/-- A text without the white space at its start and at its end. -/
def trim (text : String) : String :=
  String.ofList
    (dropLeadingSpace (dropLeadingSpace text.toList).reverse).reverse

end Bhasha.Text
