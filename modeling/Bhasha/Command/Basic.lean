import Bhasha.Evaluation.Machine
import Bhasha.Text.Style
import Bhasha.Token.Lexer
import Bhasha.Value.Inspect

/-!
# Commands at the prompt

The commands explain the language, end the session, list tokens, and show the
global bindings or the builtins.  A command sees the state of the session but
does not change it.
-/

namespace Bhasha

open Text

/-- What a command does. -/
inductive Command where
  | help
  | quit
  | tokens
  | bindings
  | builtins
deriving DecidableEq

/-- What came of a line that may be a command. -/
inductive Reply where
  /-- The command did its work. -/
  | success
  /-- The command has something to show. -/
  | message (text : String)
  /-- The session is to end. -/
  | exit
  /-- The line is no command. -/
  | notACommand
  /-- The command was misused. -/
  | error (text : String)
deriving DecidableEq

/-- What a command can see. -/
structure CommandView where
  scopes : Scopes
  config : Config
  coloring : Coloring

/-- The line that ends a session, besides the commands that do. -/
def exitWord : String :=
  "अन्त्य"

namespace Command

/-- The lines that explain the language and the commands. -/
def helpLines (view : CommandView) : List String :=
  let style (style : Style) (text : String) := style.apply view.coloring text
  let title := style .heavy
  let heading := style (.colored .green)
  let code := style (.colored .cyan)
  let word := style (.colored .brightGreen)
  let ending := style (.colored .brightRed)
  let depth :=
    style (.colored .yellow) (toString view.config.maxDepth)
  [title "नेपाली प्रोग्रामिङ भाषा",
   title "=======================",
   "",
   heading "Basic Usage:",
   "  " ++ code "लेट x = ५;" ++ "               - Bind a value",
   "  " ++ code "संख्या y = 10;" ++
     "         - Same, with the alternate keyword",
   "  " ++ code "लेट जोड = फन(क, ख) \x7b क + ख \x7d;" ++
     "  - Function literal",
   "  " ++ code "यदि x > 1 \x7b x \x7d अन्यथा \x7b 0 \x7d" ++
     "          - Conditional",
   "  " ++ code "लेख्नुहोस्(x)" ++ "              - Print a value",
   "",
   heading "Values:",
   "  " ++ code "42" ++ "  " ++ code "\"पाठ\"" ++ "  " ++ code "सत्य" ++
     "  " ++ code "मिथ्या",
   "  " ++ code "[1, 2, 3][0]" ++ "          - Array",
   "  " ++ code "\x7b\"नाम\": \"राम\"\x7d[\"नाम\"]" ++ "    - Hash",
   "",
   heading "Builtins:"] ++
  Builtin.all.map (fun builtin => "  " ++ code builtin.signature) ++
  ["",
   "Function calls may nest " ++ depth ++ " deep.",
   "",
   heading "Commands:",
   "  " ++ word ":tokens <src>" ++ "     - List the tokens of some source",
   "  " ++ word ":env" ++ "              - Show global bindings",
   "  " ++ word ":builtins" ++ "         - List builtin functions",
   "  " ++ word ":help" ++ "             - Show this help",
   "  " ++ ending ":quit" ++ " or " ++ ending exitWord ++
     " - Exit the REPL"]

/-- The bindings of the global scope, one on each line. -/
def bindingLines (scopes : Scopes) : List String :=
  (scopes.names Scopes.global).filterMap fun name =>
    (scopes.lookup Scopes.global name).map fun value =>
      name ++ " = " ++ value.inspect

/-- The builtins and what they do, one on each line. -/
def builtinLines (coloring : Coloring) : List String :=
  Builtin.all.map fun builtin =>
    "  " ++ (Style.colored .cyan).apply coloring builtin.signature ++ " - " ++
      builtin.description

/-- Run a command: the text that it prints itself, and its reply. -/
def run (command : Command) (argument : String) (view : CommandView) :
    String × Reply :=
  match command with
  | .help =>
    (String.join ((helpLines view).map (· ++ "\n")), .success)
  | .quit => ("", .exit)
  | .tokens =>
    if argument.isEmpty then
      ("", .error "Usage: :tokens <source>")
    else
      ("", .message (tokenListing argument))
  | .bindings =>
    match bindingLines view.scopes with
    | [] => ("", .message "(no bindings)")
    | lines => ("", .message ("\n".intercalate lines))
  | .builtins =>
    ("", .message ("\n".intercalate (builtinLines view.coloring)))

end Command

end Bhasha
