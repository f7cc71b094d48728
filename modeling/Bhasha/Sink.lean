/-!
# Where printed text goes

A sink keeps the bytes that were written to it.  It may have room for a given
number of bytes only; it then keeps as many bytes as fit and reports a write
that does not fit whole.
-/

namespace Bhasha

/-- The bytes written so far and the room that is left, if it is limited. -/
structure Sink where
  written : ByteArray
  room : Option Nat

namespace Sink

/-- An empty sink with unlimited room. -/
def unbounded : Sink :=
  ⟨.empty, none⟩

/-- An empty sink with room for some bytes. -/
def withRoom (room : Nat) : Sink :=
  ⟨.empty, some room⟩

/-- Write a text; the answer tells whether all of it fitted. -/
def write (sink : Sink) (text : String) : Bool × Sink :=
  let bytes := text.toUTF8
  match sink with
  | ⟨written, none⟩ => (true, ⟨written ++ bytes, none⟩)
  | ⟨written, some room⟩ =>
    if bytes.size ≤ room then
      (true, ⟨written ++ bytes, some (room - bytes.size)⟩)
    else
      (false, ⟨written ++ bytes.extract 0 room, some 0⟩)

/-- Write a text and end the line. -/
def writeLine (sink : Sink) (text : String) : Bool × Sink :=
  sink.write (text ++ "\n")

end Sink

end Bhasha
