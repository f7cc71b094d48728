import Bhasha.Text.Extending
import Bhasha.Text.Unprintable

/-!
# Quoted text

The quoted form of a text stands between quotation marks on one line.  The
quotation mark, the backslash and the common controls are written with a
backslash and one letter.  A character that has no glyph, or that would be
drawn onto its neighbour, is written by its code point in hexadecimal.  Every
other character stands for itself.
-/

namespace Bhasha.Text

/-- The letter written after a backslash for a character that has one. -/
def shortEscape? : Char → Option Char
  | '\x00' => some '0'
  | '\t' => some 't'
  | '\n' => some 'n'
  | '\r' => some 'r'
  | '"' => some '"'
  | '\\' => some '\\'
  | _ => none

/-- Whether a character without a short escape is written by its code point. -/
def needsCodePoint (character : Char) : Bool :=
  isExtendingMark character || isUnprintable character

/-- A code point in lower-case hexadecimal without leading zeros. -/
def hexadecimal (code : Nat) : List Char :=
  Nat.toDigits 16 code

/-- How one character is written in a quoted text. -/
def quoteCharacter (character : Char) : List Char :=
  match shortEscape? character with
  | some letter => ['\\', letter]
  | none =>
    if needsCodePoint character then
      ['\\', 'u', '\x7b'] ++ hexadecimal character.toNat ++ ['\x7d']
    else
      [character]

/-- The quoted form of a text. -/
def quote (text : String) : String :=
  String.ofList ('"' :: (text.toList.flatMap quoteCharacter ++ ['"']))

end Bhasha.Text
