import Bhasha.Token.Kind

/-!
# Diagnostics

The reasons for which a source is no program.
-/

namespace Bhasha

/-- What is wrong with a source at one place. -/
inductive Diagnostic where
  /-- Another kind of token stands where one kind is needed. -/
  | expected (wanted found : Kind)
  /-- No expression starts with this kind of token. -/
  | noOperand (found : Kind)
  /-- The value of a numeral is too large. -/
  | integerTooLarge (literal : String)
deriving DecidableEq

namespace Diagnostic

/-- The text of a diagnostic. -/
def message : Diagnostic → String
  | .expected wanted found =>
    "expected next token to be " ++ wanted.display ++ ", got " ++
      found.display ++ " instead"
  | .noOperand found =>
    "no prefix parse function for " ++ found.display ++ " found"
  | .integerTooLarge literal =>
    "could not parse " ++ literal ++ " as integer"

/-- The line above a list of diagnostics. -/
def header : String :=
  "कोडमा त्रुटि छन्:"

/-- The header and then each message on an indented line of its own. -/
def report (messages : List String) : String :=
  header ++ String.join (messages.map ("\n\t" ++ ·))

end Diagnostic

end Bhasha
