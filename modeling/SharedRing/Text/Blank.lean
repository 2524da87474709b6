/-
  White space of all scripts.

  The set is the property White_Space of the Unicode standard.  It has not changed for many versions.
-/
import SharedRing.Text.Ranges

namespace SharedRing.Text

/-- All characters that are white space. -/
def blankRanges : Ranges :=
  [(0x09, 0x0D), (0x20, 0x20), (0x85, 0x85), (0xA0, 0xA0), (0x1680, 0x1680), (0x2000, 0x200A),
    (0x2028, 0x2029), (0x202F, 0x202F), (0x205F, 0x205F), (0x3000, 0x3000)]

def isBlank (c : Char) : Bool := blankRanges.contains c

/-- Characters without the white space around them. -/
def trim (cs : List Char) : List Char :=
  ((cs.dropWhile isBlank).reverse.dropWhile isBlank).reverse

example : blankRanges.isAscending ∧ blankRanges.count = 25 := by decide

example : isBlank 'a' = false ∧ isBlank '\u200b' = false := by decide
example : trim [' ', 'a', ' ', 'b', '\t'] = ['a', ' ', 'b'] := by decide

end SharedRing.Text
