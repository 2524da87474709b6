/-
  How deep a pattern nests.

  A part with parts is one level deeper than the deepest of them.  Things that merely stand side by
  side are a level of their own as soon as they are two.
-/
namespace SharedRing.Pattern

/-- The deepest pattern that is taken. -/
def maxDepth : Nat := 250

/-- Things side by side: how many they are, and how deep the deepest is. -/
structure Row where
  count : Nat := 0
  deepest : Nat := 0
deriving DecidableEq, Repr

namespace Row

/-- One more. -/
def add (r : Row) (depth : Nat) : Row := ⟨r.count + 1, max r.deepest depth⟩

/-- How deep a row is as a whole. -/
def depth (r : Row) : Nat := if r.count < 2 then r.deepest else r.deepest + 1

example : (({} : Row).add 3).depth = 3 ∧ ((({} : Row).add 3).add 0).depth = 4 := by decide

end Row

end SharedRing.Pattern
