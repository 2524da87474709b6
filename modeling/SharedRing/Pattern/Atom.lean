/-
  The smallest parts of a pattern, and which of them can be used.

  Some are written as they are, others after a backslash.  Not all that can be written can be used.
  No table is kept of the cases and properties of the characters of all scripts, so a part that needs
  one is refused; and where characters stand for bytes, what matches must still be text.
-/
import SharedRing.Pattern.Flags

namespace SharedRing.Pattern

/-- A part without parts. -/
inductive Atom where
  /-- a character; `byte` says that it was written as a byte -/
  | char (c : Char) (byte : Bool)
  /-- any character -/
  | any
  /-- any digit, blank or letter of a word, or anything else -/
  | kind (negated : Bool)
  /-- a place between characters; `ofWord` says that it is one where words begin or end -/
  | place (ofWord : Bool)
deriving DecidableEq, Repr

namespace Atom

/-! ## After a backslash -/

def hexDigit? (c : Char) : Option Nat :=
  if c.isDigit then some (c.toNat - '0'.toNat)
  else if 'a' ≤ c && c ≤ 'f' then some (c.toNat - 'a'.toNat + 10)
  else if 'A' ≤ c && c ≤ 'F' then some (c.toNat - 'A'.toNat + 10)
  else none

/-- Reads so many more digits of a number; `n` are those before. -/
def hexNumber? (f : Flags) : Nat → Nat → List Char → Option (Nat × List Char)
  | 0, n, cs => some (n, cs)
  | digits + 1, n, cs => match f.skip cs with
    | [] => none
    | c :: rest => do hexNumber? f digits (n * 16 + (← hexDigit? c)) rest

/-- A character by its number. -/
def numbered? (f : Flags) (digits : Nat) (byte : Bool) (cs : List Char) :
    Option (Atom × List Char) := do
  let (n, rest) ← hexNumber? f digits 0 cs
  if n.isValidChar then some (.char (Char.ofNat n) byte, rest) else none

/-- Letters that stand for characters without a form of their own. -/
def controls : List (Char × Char) :=
  [('a', '\x07'), ('f', '\x0c'), ('t', '\t'), ('n', '\n'), ('r', '\r'), ('v', '\x0b')]

/-- What one character stands for after a backslash: a mark stands for itself. -/
def escaped? (c : Char) : Option Atom :=
  if ['d', 's', 'w'].contains c then some (.kind false)
  else if ['D', 'S', 'W'].contains c then some (.kind true)
  else if ['A', 'z'].contains c then some (.place false)
  else if ['b', 'B', '<', '>'].contains c then some (.place true)
  else match controls.lookup c with
    | some control => some (.char control false)
    | none => if c.toNat < 0x80 && !c.isAlphanum then some (.char c false) else none

/-- Reads what stands after a backslash. -/
def ofEscape? (f : Flags) : List Char → Option (Atom × List Char)
  | [] => none
  | 'x' :: rest => numbered? f 2 true rest
  | 'u' :: rest => numbered? f 4 false rest
  | 'U' :: rest => numbered? f 8 false rest
  | c :: rest => do return (← escaped? c, rest)

theorem length_le_of_hexNumber? {f : Flags} {digits n number : Nat} {cs rest : List Char}
    (h : hexNumber? f digits n cs = some (number, rest)) : rest.length ≤ cs.length := by
  induction digits generalizing n cs with
  | zero => simp_all [hexNumber?]
  | succ digits ih =>
    rw [hexNumber?] at h
    split at h
    · contradiction
    · rename_i hskip
      obtain ⟨digit, -, h⟩ := Option.bind_eq_some_iff.1 h
      exact Nat.le_of_lt (Nat.lt_of_le_of_lt (ih h) (Flags.length_lt_of_skip hskip))

theorem length_le_of_numbered? {f : Flags} {digits : Nat} {byte : Bool} {cs rest : List Char}
    {a : Atom} (h : numbered? f digits byte cs = some (a, rest)) : rest.length ≤ cs.length := by
  obtain ⟨⟨n, after⟩, hnumber, h⟩ := Option.bind_eq_some_iff.1 h
  have := length_le_of_hexNumber? hnumber
  grind

theorem length_le_of_ofEscape? {f : Flags} {cs rest : List Char} {a : Atom}
    (h : ofEscape? f cs = some (a, rest)) : rest.length ≤ cs.length := by
  unfold ofEscape? at h
  split at h
  · contradiction
  · exact Nat.le_succ_of_le (length_le_of_numbered? h)
  · exact Nat.le_succ_of_le (length_le_of_numbered? h)
  · exact Nat.le_succ_of_le (length_le_of_numbered? h)
  · obtain ⟨atom, -, h⟩ := Option.bind_eq_some_iff.1 h
    simp_all

/-! ## Use -/

/-- Whether a part can be used by itself. -/
def isUsable (f : Flags) : Atom → Bool
  | .char c byte => if f.allScripts then !f.anyCase else !byte || c.toNat < 0x80
  | .any => f.allScripts
  | .kind negated => !f.allScripts && !negated
  | .place _ => true

/-- Whether a part can be used in a class. -/
def isUsableInClass (f : Flags) : Atom → Bool
  | .char c _ => if f.allScripts then !f.anyCase else c.toNat < 0x80
  | .kind negated => !f.allScripts && !negated
  | .any | .place _ => false

/-- Whether a part needs to know the words of all scripts. -/
def needsWords (f : Flags) : Atom → Bool
  | .place ofWord => ofWord && f.allScripts
  | _ => false

example : ofEscape? {} "x41b".toList = some (.char 'A' true, ['b']) := by decide +kernel
example : ["", "q", "8", "ud800", "x4", "é"].all fun s => (ofEscape? {} s.toList).isNone := by
  decide +kernel

end Atom

end SharedRing.Pattern
