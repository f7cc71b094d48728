/-!
# Styled text

A style is a weight and a colour for a terminal.  Where colours are on, a
styled text stands between the sequence that selects its style and the one
that resets it; where they are off, it is the text alone.
-/

namespace Bhasha.Text

/-- Whether styles are written out. -/
inductive Coloring where
  | off
  | on
deriving DecidableEq

/-- The colours in use. -/
inductive Color where
  | red
  | green
  | yellow
  | cyan
  | brightRed
  | brightGreen
  | brightCyan
deriving DecidableEq

/-- The code that selects a colour. -/
def Color.code : Color → String
  | .red => "31"
  | .green => "32"
  | .yellow => "33"
  | .cyan => "36"
  | .brightRed => "91"
  | .brightGreen => "92"
  | .brightCyan => "96"

/-- The style of a piece of text: heavy or not, and a colour or none. -/
structure Style where
  bold : Bool
  color : Option Color
deriving DecidableEq

namespace Style

/-- A colour at normal weight. -/
def colored (color : Color) : Style :=
  ⟨false, some color⟩

/-- A colour in bold. -/
def boldColored (color : Color) : Style :=
  ⟨true, some color⟩

/-- Bold in the terminal's own colour. -/
def heavy : Style :=
  ⟨true, none⟩

/-- The codes that select a style, the weight first. -/
def codes (style : Style) : List String :=
  (if style.bold then ["1"] else []) ++
    style.color.toList.map Color.code

/-- A text in a style. -/
def apply (style : Style) (coloring : Coloring) (text : String) : String :=
  match coloring with
  | .off => text
  | .on =>
    "\x1b[" ++ ";".intercalate style.codes ++ "m" ++ text ++ "\x1b[0m"

end Style

end Bhasha.Text
