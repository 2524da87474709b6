/-
  Sets of characters, given as ranges of their numbers.

  A set is a list of closed ranges that ascend and do not touch, so that each set has one list and
  its size can be read off.  `isAscending` says that a list is of this form.
-/
namespace SharedRing.Text

/-- Closed ranges of character numbers. -/
abbrev Ranges := List (Nat × Nat)

namespace Ranges

def contains (rs : Ranges) (c : Char) : Bool := rs.any fun r => r.1 ≤ c.toNat && c.toNat ≤ r.2

/-- The ranges ascend, and two of them never touch. -/
def isAscending : Ranges → Bool
  | [] => true
  | [r] => r.1 ≤ r.2
  | r :: s :: rest => r.1 ≤ r.2 && r.2 + 1 < s.1 && isAscending (s :: rest)

/-- How many numbers lie in the ranges. -/
def count (rs : Ranges) : Nat := rs.foldl (fun n r => n + (r.2 + 1 - r.1)) 0

end Ranges

end SharedRing.Text
