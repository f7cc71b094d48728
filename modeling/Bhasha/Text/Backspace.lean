import Bhasha.Text.Cluster

/-!
# Backspaces in a line

A line of input may hold backspaces.  Each one takes back the grapheme cluster
before it, or nothing at the start of the line.  The length of every cluster
is remembered in one byte, so a cluster of 256 bytes counts as empty and a
longer one as what it has beyond a multiple of that.
-/

namespace Bhasha.Text

/-- The backspace character. -/
def backspace : Char :=
  '\x08'

/-- The number of bytes of some characters. -/
def byteLength (characters : List Char) : Nat :=
  (String.ofList characters).utf8ByteSize

/-- Characters without as many at the front as make up a number of bytes. -/
def dropBytes : Nat → List Char → List Char
  | 0, characters => characters
  | _ + 1, [] => []
  | bytes + 1, character :: rest =>
    dropBytes (bytes + 1 - character.utf8Size) rest

/-- A line as it is edited: its characters from the end, and the lengths of
its clusters, the last one first. -/
structure EditedLine where
  reversed : List Char
  lengths : List Nat

namespace EditedLine

/-- A line without characters. -/
def empty : EditedLine :=
  ⟨[], []⟩

/-- Take back the last cluster. -/
def erase (line : EditedLine) : EditedLine :=
  match line.lengths with
  | [] => line
  | bytes :: lengths => ⟨dropBytes bytes line.reversed, lengths⟩

/-- Add a cluster. -/
def append (line : EditedLine) (cluster : List Char) : EditedLine :=
  ⟨cluster.reverse ++ line.reversed,
    byteLength cluster % 256 :: line.lengths⟩

/-- Enter a cluster, which may be a backspace. -/
def enter (line : EditedLine) (cluster : List Char) : EditedLine :=
  if cluster = [backspace] then line.erase else line.append cluster

end EditedLine

/-- A line after its backspaces have taken effect. -/
def applyBackspaces (line : String) : String :=
  let edited := (clusters line.toList).foldl EditedLine.enter .empty
  String.ofList edited.reversed.reverse

end Bhasha.Text
