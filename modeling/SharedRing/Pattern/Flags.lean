/-
  The flags of a pattern.

  A pattern can be read in more than one way, and flags say which: letters may match in either case,
  characters may stand for bytes only, and blanks may be left out.  There are more flags, which change
  what a pattern matches but not what a pattern is; they are read and not kept.
-/
import SharedRing.Text.Blank

namespace SharedRing.Pattern

/-- How a pattern is read. -/
structure Flags where
  /-- letters match in either case -/
  anyCase : Bool := false
  /-- characters are those of all scripts, and not bytes -/
  allScripts : Bool := true
  /-- blanks are left out, and comments with them -/
  spaced : Bool := false
deriving DecidableEq, Repr

namespace Flags

/-- The letters that stand for flags. -/
def letters : List Char := ['i', 'm', 's', 'U', 'u', 'R', 'x']

/-- Whether characters are flags: letters that set them, and after a hyphen letters that clear them.
    No letter stands there twice. -/
def areFlags (cs : List Char) : Bool :=
  cs.all (fun c => c == '-' || letters.contains c) && decide cs.Nodup && cs.getLast? != some '-'

/-- The flags after a change. -/
def change? (f : Flags) (cs : List Char) : Option Flags :=
  if areFlags cs then
    let (on, off) := cs.span (· != '-')
    let after (flag : Bool) (letter : Char) : Bool :=
      (flag || on.contains letter) && !off.contains letter
    some {
      anyCase := after f.anyCase 'i'
      allScripts := after f.allScripts 'u'
      spaced := after f.spaced 'x' }
  else none

/-! ## Blanks -/

/-- Leaves out blanks and comments.  A comment goes to the end of its line. -/
def skipBlanks (inComment : Bool) : List Char → List Char
  | [] => []
  | c :: cs =>
    if inComment then skipBlanks (c != '\n') cs
    else if Text.isBlank c then skipBlanks false cs
    else if c == '#' then skipBlanks true cs
    else c :: cs

/-- Leaves out what the flags leave out. -/
def skip (f : Flags) (cs : List Char) : List Char := if f.spaced then skipBlanks false cs else cs

theorem length_skipBlanks_le (inComment : Bool) (cs : List Char) :
    (skipBlanks inComment cs).length ≤ cs.length := by
  fun_induction skipBlanks inComment cs <;> grind

theorem length_skip_le (f : Flags) (cs : List Char) : (f.skip cs).length ≤ cs.length := by
  unfold skip
  split
  · exact length_skipBlanks_le _ _
  · exact Nat.le_refl _

/-- What follows a character that was not left out is shorter than all. -/
theorem length_lt_of_skip {f : Flags} {cs rest : List Char} {c : Char} (h : f.skip cs = c :: rest) :
    rest.length < cs.length := by
  have := f.length_skip_le cs
  rw [h, List.length_cons] at this
  omega

/-- The character that comes next, as far as it matters after a hyphen in a class.  Of a comment only
    its mark is left out there. -/
def peek (f : Flags) (cs : List Char) : Option Char :=
  if f.spaced then match cs.dropWhile Text.isBlank with
    | '#' :: rest => (rest.dropWhile Text.isBlank).head?
    | rest => rest.head?
  else cs.head?

example : ({} : Flags).change? "ix-u".toList
    = some { anyCase := true, allScripts := false, spaced := true } := by decide +kernel
example : ["ii", "i-i", "-", "i-", "--i", "q"].any (areFlags ·.toList) = false := by decide +kernel
example : ({ spaced := true } : Flags).skip " # note\n a".toList = ['a'] := by decide +kernel

end Flags

end SharedRing.Pattern
