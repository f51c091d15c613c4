/-!
# Positions in a text

A place in a text is counted in bytes of its UTF-8 form. `Position.after` turns such a count into a
line and a column: lines are counted from one, and a column is the number of bytes since the last
line break, so that it is zero right behind one.
-/

namespace Retarget.Text

/-- The number of bytes that a text takes. -/
def byteSize : List Char → Nat
  | [] => 0
  | c :: cs => c.utf8Size + byteSize cs

/-- A place in a text: the number of the line, from one, and the number of bytes since it began. -/
structure Position where
  line : Nat
  column : Nat
deriving DecidableEq, Repr

namespace Position

/-- The place at the beginning of a text. -/
def start : Position :=
  ⟨1, 0⟩

/-- Moves over one character. -/
def advance (pos : Position) (c : Char) : Position :=
  if c = '\n' then ⟨pos.line + 1, 0⟩ else ⟨pos.line, pos.column + c.utf8Size⟩

/-- Moves over the given number of bytes; a place inside a character counts its first bytes. -/
def move (pos : Position) : Nat → List Char → Position
  | _, [] => pos
  | bytes, c :: cs =>
    if c.utf8Size ≤ bytes then (pos.advance c).move (bytes - c.utf8Size) cs
    else ⟨pos.line, pos.column + bytes⟩

/-- The place that lies the given number of bytes behind the beginning of the text. -/
def after (bytes : Nat) (s : List Char) : Position :=
  start.move bytes s

end Position

end Retarget.Text
