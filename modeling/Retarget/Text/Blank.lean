import Retarget.Text.Escaped

/-!
# Blank text

A text is blank when it holds white space only, in the wide sense that counts the no-break space,
the typographic spaces and the line and paragraph separators.
-/

namespace Retarget.Text

/-- The ranges of the white-space code points. -/
def whiteRanges : List (Nat × Nat) :=
  [(0x9, 0xD), (0x20, 0x20), (0x85, 0x85), (0xA0, 0xA0), (0x1680, 0x1680), (0x2000, 0x200A),
   (0x2028, 0x2029), (0x202F, 0x202F), (0x205F, 0x205F), (0x3000, 0x3000)]

/-- Whether a character is white space. -/
def isWhite (c : Char) : Bool :=
  inRanges whiteRanges c.toNat

/-- Whether a text holds nothing but white space. -/
def isBlank (s : List Char) : Bool :=
  s.all isWhite

end Retarget.Text
