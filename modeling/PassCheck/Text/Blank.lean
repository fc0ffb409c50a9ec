/-
White space: the class that separates atoms, and the smaller class that may stand around a
written integer.
-/
import PassCheck.Text.Range

namespace PassCheck.Text

/-- The code points of white space. -/
def blankRanges : List (Nat × Nat) :=
  [(0x9, 0xd), (0x1c, 0x20), (0x85, 0x85), (0xa0, 0xa0),
    (0x1680, 0x1680), (0x2000, 0x200a), (0x2028, 0x2029), (0x202f, 0x202f),
    (0x205f, 0x205f), (0x3000, 0x3000)]

/-- White space, as it separates atoms. -/
def isBlank (c : Char) : Bool := inRanges blankRanges c

/-- White space that may stand around a written integer: the information separators
U+001C to U+001F do not count here. -/
def isPadding (c : Char) : Bool :=
  isBlank c && !inRanges [(0x1c, 0x1f)] c

end PassCheck.Text
