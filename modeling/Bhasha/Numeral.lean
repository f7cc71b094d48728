/-!
# Numerals

Integers are written in decimal, in the digits of one of two scripts.  A
numeral has the value of its digits read from left to right, whatever its
length; it denotes an integer of the language when that value fits into the
nonnegative half of a signed 64-bit word.
-/

namespace Bhasha

/-- The scripts that have digits. -/
inductive Script where
  | latin
  | devanagari
deriving DecidableEq

namespace Script

/-- The digit zero of a script. -/
def zero : Script → Char
  | .latin => '0'
  | .devanagari => '०'

/-- Whether a character is one of the ten digits of a script. -/
def hasDigit (script : Script) (character : Char) : Bool :=
  script.zero.toNat ≤ character.toNat &&
    character.toNat ≤ script.zero.toNat + 9

/-- The script of a digit, and nothing for other characters. -/
def ofDigit? (character : Char) : Option Script :=
  if latin.hasDigit character then
    some latin
  else if devanagari.hasDigit character then
    some devanagari
  else
    none

end Script

namespace Numeral

/-- Whether a character is a digit of either script. -/
def isDigit (character : Char) : Bool :=
  (Script.ofDigit? character).isSome

/-- The value of a digit of either script. -/
def digitValue? (character : Char) : Option Nat :=
  (Script.ofDigit? character).map fun script =>
    character.toNat - script.zero.toNat

/-- The first number that is too large for an integer, two to the power 63. -/
def bound : Nat :=
  0x8000000000000000

/-- The integer that is a given number, if there is one. -/
def ofInt? (number : Int) : Option Int64 :=
  if -(bound : Int) ≤ number ∧ number < bound then
    some (Int64.ofInt number)
  else
    none

/-- A value with one more digit behind it, unless a step gets too large. -/
def append? (value : Int64) (digit : Nat) : Option Int64 := do
  let shifted ← ofInt? (value.toInt * 10)
  ofInt? (shifted.toInt + digit)

/--
The integer that a numeral denotes.  Its digits are read from left to right, up
to the first character that is no digit or makes the value too large.
-/
def read? (literal : String) : Option Int64 :=
  literal.toList.foldlM
    (fun value character => do append? value (← digitValue? character)) 0

/-- The decimal text of an integer. -/
def write (value : Int64) : String :=
  toString value.toInt

end Numeral

end Bhasha
