import Bhasha.Command.Basic
import Bhasha.Text.WhiteSpace

/-!
# The registry of commands

A command is asked for by a word at the start of a line.  The registry tries
its words from the longest to the shortest, words of the same length in the
order in which they were added.  A word matches a line that is the word or
goes on with a space after it; the rest of the line, trimmed, is the argument.
-/

namespace Bhasha

open Text

/-- What can be registered for a word: it runs with the argument of a line. -/
class Handler (α : Type) where
  /-- The text that is printed, and the reply. -/
  run : α → String → CommandView → String × Reply

instance : Handler Command :=
  ⟨Command.run⟩

/-- The words of commands, from the longest to the shortest. -/
structure Registry (α : Type := Command) where
  commands : List (String × α)

namespace Registry

variable {α : Type}

/-- A registry without commands. -/
def empty : Registry α :=
  ⟨[]⟩

/-- Put a word behind all words that are at least as long in bytes. -/
def insertWord (word : String) (command : α) :
    List (String × α) → List (String × α)
  | [] => [(word, command)]
  | (other, present) :: rest =>
    if other.utf8ByteSize < word.utf8ByteSize then
      (word, command) :: (other, present) :: rest
    else
      (other, present) :: insertWord word command rest

/-- Add a word for a command. -/
def add (registry : Registry α) (word : String) (command : α) :
    Registry α :=
  ⟨insertWord word command registry.commands⟩

/-- A registry of words that are registered one after another. -/
def ofList (commands : List (String × α)) : Registry α :=
  commands.foldl
    (fun registry (word, command) => registry.add word command) empty

/-- The words of the commands. -/
def words (registry : Registry α) : List String :=
  registry.commands.map Prod.fst

/-- The commands of the prompt. -/
def standard : Registry :=
  ofList
    [(":help", .help), (":quit", .quit), (":exit", .quit),
     (":tokens", .tokens), (":env", .bindings), (":builtins", .builtins)]

/-- The argument after a word that a line starts with. -/
def argument? (word line : String) : Option String :=
  match word.toList.isPrefixOf? line.toList with
  | some [] => some ""
  | some (' ' :: rest) => some (trim (String.ofList rest))
  | _ => none

/-- The command that a line asks for, and its argument. -/
def find? (registry : Registry α) (line : String) :
    Option (α × String) :=
  registry.commands.findSome? fun (word, command) =>
    (argument? word line).map fun argument => (command, argument)

/-- Run the command that a line asks for, if it asks for one. -/
def dispatch [Handler α] (registry : Registry α) (line : String)
    (view : CommandView) : String × Reply :=
  match registry.find? line with
  | some (command, argument) => Handler.run command argument view
  | none => ("", .notACommand)

end Registry

end Bhasha
