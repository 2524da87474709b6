/-
  Classes: sets of characters in brackets.

  A class holds characters, ranges, kinds and further classes, and operators may stand between them.
  At its very beginning some marks have a meaning of their own: a caret turns the class into what it
  does not hold, hyphens are characters, and so is a closing bracket that would leave the class empty.
-/
import SharedRing.Pattern.Atom
import SharedRing.Pattern.Depth

namespace SharedRing.Pattern

/-- A class that is being read. -/
structure OpenClass where
  /-- still at its beginning -/
  fresh : Bool := true
  negated : Bool := false
  /-- the depth of all that stands before the last operator -/
  before : Option Nat := none
  /-- the items after it -/
  items : Row := {}
deriving DecidableEq, Repr

/-- What becomes of a class while it is read. -/
inductive ClassTurn where
  | goOn
  /-- another class begins in it -/
  | enter
  /-- it ends -/
  | leave
deriving DecidableEq, Repr

namespace OpenClass

/-- How deep the contents are. -/
def depth (c : OpenClass) : Nat :=
  match c.before with
  | none => c.items.depth
  | some before => max before c.items.depth + 1

/-- One more item. -/
def add (c : OpenClass) (depth : Nat) : OpenClass :=
  { c with fresh := false, items := c.items.add depth }

/-- An operator: it stands between all before it and what follows. -/
def operator (c : OpenClass) : OpenClass :=
  { c with fresh := false, before := some c.depth, items := {} }

/-! ## Items -/

/-- The classes that have names. -/
def names : List String :=
  ["alnum", "alpha", "ascii", "blank", "cntrl", "digit", "graph", "lower", "print", "punct", "space",
    "upper", "word", "xdigit"]

/-- Reads a name to the end of its class, and gives what follows. -/
def name? (cs : List Char) : Option (List Char) :=
  match cs.dropWhile (· != ':') with
  | ':' :: ']' :: rest =>
    if names.contains (String.ofList (cs.takeWhile (· != ':'))) then some rest else none
  | _ => none

/-- Reads a class that has a name, after the bracket that opens it: whether it is negated. -/
def named? : List Char → Option (Bool × List Char)
  | ':' :: '^' :: cs => (name? cs).map fun rest => (true, rest)
  | ':' :: cs => (name? cs).map fun rest => (false, rest)
  | _ => none

/-- Whether a class with a name can be used. -/
def isUsableNamed (f : Flags) (negated : Bool) : Bool :=
  if f.allScripts then !f.anyCase else !negated

/-- Reads one end of a range. -/
def end? (f : Flags) (c : Char) (rest : List Char) : Option (Atom × List Char) :=
  if c == '\\' then Atom.ofEscape? f rest else some (.char c false, rest)

/-- Whether two ends make a range. -/
def isRange : Atom → Atom → Bool
  | .char first _, .char last _ => first ≤ last
  | _, _ => false

/-- Reads the other end of a range, after the hyphen, and gives what follows. -/
def rangeTo? (f : Flags) (first : Atom) (cs : List Char) : Option (List Char) :=
  match f.skip cs with
  | [] => none
  | c :: after => do
    let (last, rest) ← end? f c after
    if isRange first last && last.isUsableInClass f then some rest else none

/-- Reads a part or a range, and gives what follows.  A hyphen makes no range before a bracket or
    another hyphen. -/
def item? (f : Flags) (c : Char) (cs : List Char) : Option (List Char) := do
  let (first, rest) ← end? f c cs
  if first.isUsableInClass f then
    match f.skip rest with
    | '-' :: after =>
      if [some ']', some '-'].contains (f.peek after) then some rest else rangeTo? f first after
    | _ => some rest
  else none

/-! ## Reading -/

/-- Whether an operator stands here: one of three marks, twice. -/
def isOperator (c : Char) (rest : List Char) : Bool :=
  ['&', '-', '~'].contains c && rest.head? == some c

/-- Whether a mark is a character because it stands at the beginning. -/
def isPlain (c : OpenClass) (a : Char) : Bool :=
  c.fresh && (a == '-' || (a == ']' && c.items.count == 0))

/-- Reads on from one character. -/
def step? (f : Flags) (c : OpenClass) (a : Char) (rest : List Char) :
    Option (OpenClass × ClassTurn × List Char) :=
  if c.fresh && a == '^' && !c.negated && c.items.count == 0 then
    some ({ c with negated := true }, .goOn, rest)
  else if c.isPlain a then
    if (Atom.char a false).isUsableInClass f then
      some ({ c.add 0 with fresh := a == '-' }, .goOn, rest)
    else none
  else match a with
    | '[' => match named? rest with
      | some (negated, rest) =>
        if isUsableNamed f negated then some (c.add 0, .goOn, rest) else none
      | none => some (c, .enter, rest)
    | ']' => if c.negated && !f.allScripts then none else some (c, .leave, rest)
    | _ =>
      if isOperator a rest then some (c.operator, .goOn, rest.drop 1)
      else do return (c.add 0, .goOn, ← item? f a rest)

/-! Each step takes the character that it reads on from, and perhaps more. -/

theorem length_le_of_name? {cs rest : List Char} (h : name? cs = some rest) :
    rest.length ≤ cs.length := by
  have hdrop := (List.dropWhile_suffix (l := cs) (· != ':')).length_le
  unfold name? at h
  split at h
  · grind
  · contradiction

theorem length_le_of_named? {cs rest : List Char} {negated : Bool}
    (h : named? cs = some (negated, rest)) : rest.length ≤ cs.length := by
  unfold named? at h
  split at h
  · obtain ⟨after, hname, h⟩ := Option.map_eq_some_iff.1 h
    have := length_le_of_name? hname
    grind
  · obtain ⟨after, hname, h⟩ := Option.map_eq_some_iff.1 h
    have := length_le_of_name? hname
    grind
  · contradiction

theorem length_le_of_end? {f : Flags} {c : Char} {cs rest : List Char} {a : Atom}
    (h : end? f c cs = some (a, rest)) : rest.length ≤ cs.length := by
  unfold end? at h
  split at h
  · exact Atom.length_le_of_ofEscape? h
  · simp_all

theorem length_le_of_rangeTo? {f : Flags} {first : Atom} {cs rest : List Char}
    (h : rangeTo? f first cs = some rest) : rest.length ≤ cs.length := by
  unfold rangeTo? at h
  split at h
  · contradiction
  · rename_i hskip
    obtain ⟨⟨last, after⟩, hlast, h⟩ := Option.bind_eq_some_iff.1 h
    have := length_le_of_end? hlast
    have := Flags.length_lt_of_skip hskip
    grind

theorem length_le_of_item? {f : Flags} {c : Char} {cs rest : List Char}
    (h : item? f c cs = some rest) : rest.length ≤ cs.length := by
  unfold item? at h
  obtain ⟨⟨first, after⟩, hfirst, h⟩ := Option.bind_eq_some_iff.1 h
  have hle := length_le_of_end? hfirst
  simp only at h
  split at h
  · split at h
    · rename_i hskip
      have := Flags.length_lt_of_skip hskip
      split at h
      · grind
      · have := length_le_of_rangeTo? h
        omega
    · grind
  · contradiction

theorem length_le_of_step? {f : Flags} {c after : OpenClass} {turn : ClassTurn} {a : Char}
    {cs rest : List Char} (h : c.step? f a cs = some (after, turn, rest)) :
    rest.length ≤ cs.length := by
  unfold step? at h
  split at h
  · simp_all
  · split at h
    · grind
    · split at h
      · split at h
        · rename_i hname
          have := length_le_of_named? hname
          grind
        · simp_all
      · grind
      · split at h
        · grind
        · obtain ⟨item, hitem, h⟩ := Option.bind_eq_some_iff.1 h
          have := length_le_of_item? hitem
          simp_all

/-- Reads a class to its end: how deep it is, and what follows.  `outer` are the classes around it. -/
def finish? (f : Flags) (c : OpenClass) (outer : List OpenClass) (cs : List Char) :
    Option (Nat × List Char) :=
  match hskip : f.skip cs with
  | [] => none
  | a :: rest => match hstep : c.step? f a rest with
    | none => none
    | some (c, turn, rest) =>
      have : rest.length < cs.length :=
        Nat.lt_of_le_of_lt (length_le_of_step? hstep) (Flags.length_lt_of_skip hskip)
      match turn, outer with
      | .goOn, _ => finish? f c outer rest
      | .enter, _ => finish? f {} (c :: outer) rest
      | .leave, [] => some (c.depth + 1, rest)
      | .leave, around :: outer => finish? f (around.add (c.depth + 1)) outer rest
termination_by cs.length

theorem length_le_of_finish? {f : Flags} {c : OpenClass} {outer : List OpenClass} {cs rest : List Char}
    {depth : Nat} (h : finish? f c outer cs = some (depth, rest)) : rest.length ≤ cs.length := by
  fun_induction finish? f c outer cs with
  | case1 => contradiction
  | case2 => contradiction
  | case3 => grind
  | case4 => grind
  | case5 => grind
  | case6 => grind

/-- Reads a class, after the bracket that opens it. -/
def read? (f : Flags) (cs : List Char) : Option (Nat × List Char) := finish? f {} [] cs

example : ["a]", "]]", "^-a-z]", "[:alpha:]_]", "a-z&&[^x]]", "--]", "\\n-\\r]"].all
    fun s => ((read? {} s.toList).any (·.2.isEmpty)) := by decide +kernel
example : ["", "]", "a", "z-a]", "\\A]", "\\d]", "[a]", "a-\\d]"].all
    fun s => (read? {} s.toList).isNone := by decide +kernel

end OpenClass

end SharedRing.Pattern
