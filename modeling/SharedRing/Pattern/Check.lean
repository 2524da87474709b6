/-
  Whether text is a pattern.

  A filter may demand that a field match a pattern.  Nothing here is ever matched against one, so a
  pattern need only be told from what is none.  Text is read from left to right, and of what has been
  read only so much is remembered as may still matter: which groups are open, how deep they are, and
  what a repetition would repeat.

  A counted repetition and a number in braces need a closing brace, which would end the field before
  it ended the pattern; so neither is ever complete, and neither is read.
-/
import SharedRing.Pattern.Class
import SharedRing.Text.Alphanumeric

namespace SharedRing.Pattern

/-- Why text cannot be used as a pattern. -/
inductive Fault where
  | malformed
  /-- it needs to know where the words of all scripts begin and end -/
  | needsWords
deriving DecidableEq, Repr

def Fault.message : Fault → String
  | .malformed => "error building NFA"
  | .needsWords => "unsupported regex feature for DFAs: cannot build DFAs for regexes with " ++
    "Unicode word boundaries; switch to ASCII word boundaries, or heuristically enable Unicode " ++
    "word boundaries or use a different regex engine"

/-! ## Groups -/

/-- A group that is being read, or the whole pattern. -/
structure Scope where
  flags : Flags := {}
  /-- the branches before the last bar -/
  branches : Row := {}
  /-- the items after it -/
  items : Row := {}
  /-- how deep the item is that a repetition would repeat -/
  last : Option Nat := none
deriving DecidableEq, Repr

namespace Scope

/-- One more item. -/
def add (s : Scope) (depth : Nat) : Scope :=
  { s with items := s.items.add depth, last := some depth }

/-- Other flags for all that follows.  They count as an item, but cannot be repeated. -/
def setFlags (s : Scope) (f : Flags) : Scope :=
  { s with flags := f, items := s.items.add 0, last := none }

/-- A bar: the branch is over, and the next one begins. -/
def bar (s : Scope) : Scope :=
  { s with branches := s.branches.add s.items.depth, items := {}, last := none }

/-- A repetition of the last item, which is then one level deeper. -/
def repeat? (s : Scope) : Option Scope := do
  let depth := (← s.last) + 1
  return { s with items := { s.items with deepest := max s.items.deepest depth }, last := some depth }

/-- How deep the contents are. -/
def depth (s : Scope) : Nat := (s.branches.add s.items.depth).depth

end Scope

/-- Whether characters can be the name of a group. -/
def isGroupName : List Char → Bool
  | [] => false
  | c :: cs =>
    (c == '_' || Text.isLetter c)
      && cs.all fun c => ['_', '.', '[', ']'].contains c || Text.isAlphanumeric c

/-! ## Reading -/

/-- What has been read. -/
structure Progress where
  scope : Scope := {}
  /-- the groups around the innermost, and the whole pattern last -/
  outer : List Scope := []
  /-- the names of all groups so far -/
  names : List (List Char) := []
  /-- some part needs to know the words of all scripts -/
  needsWords : Bool := false
deriving DecidableEq, Repr

namespace Progress

/-- One more item in the innermost group. -/
def add (p : Progress) (depth : Nat) : Progress := { p with scope := p.scope.add depth }

/-- One more part without parts, if it can be used; `rest` follows it. -/
def addAtom? (p : Progress) (a : Atom) (rest : List Char) : Option (Progress × List Char) :=
  if a.isUsable p.scope.flags then
    some ({ p.add 0 with needsWords := p.needsWords || a.needsWords p.scope.flags }, rest)
  else none

/-- A group begins. -/
def enter (p : Progress) (f : Flags) : Progress :=
  { p with scope := { flags := f }, outer := p.scope :: p.outer }

/-- The innermost group ends, and `rest` follows.  The flags are again what they were before it. -/
def leave? (p : Progress) (rest : List Char) : Option (Progress × List Char) :=
  match p.outer with
  | [] => none
  | around :: outer => some ({ p with scope := around.add (p.scope.depth + 1), outer }, rest)

/-- Reads the name of a group, after the bracket that opens it. -/
def named? (p : Progress) (cs : List Char) : Option (Progress × List Char) :=
  let name := cs.takeWhile (· != '>')
  match cs.dropWhile (· != '>') with
  | [] => none
  | _ :: rest =>
    if isGroupName name && !p.names.contains name then
      some ({ p.enter p.scope.flags with names := name :: p.names }, rest)
    else none

/-- Reads flags: before a colon they are for a group that begins, and else for all that follows. -/
def flagged? (p : Progress) (cs : List Char) : Option (Progress × List Char) :=
  let letters := cs.takeWhile fun c => c != ':' && c != ')'
  match p.scope.flags.change? letters, cs.dropWhile fun c => c != ':' && c != ')' with
  | some flags, ':' :: rest => some (p.enter flags, rest)
  | some flags, ')' :: rest =>
    if letters.isEmpty then none else some ({ p with scope := p.scope.setFlags flags }, rest)
  | _, _ => none

/-- Reads how a group begins, after its parenthesis. -/
def group? (p : Progress) : List Char → Option (Progress × List Char)
  | '?' :: 'P' :: '<' :: rest => p.named? rest
  | '?' :: '<' :: rest => p.named? rest
  | '?' :: rest => p.flagged? rest
  | cs => some (p.enter p.scope.flags, cs)

/-- Reads a repetition.  A question mark right after it belongs to it. -/
def repeat? (p : Progress) (cs : List Char) : Option (Progress × List Char) := do
  let scope ← p.scope.repeat?
  some ({ p with scope }, if cs.head? == some '?' then cs.drop 1 else cs)

/-- Reads on from one character. -/
def step? (p : Progress) (c : Char) (cs : List Char) : Option (Progress × List Char) :=
  let flags := p.scope.flags
  match c with
  | '(' => p.group? (flags.skip cs)
  | ')' => p.leave? cs
  | '|' => some ({ p with scope := p.scope.bar }, cs)
  | '[' => (OpenClass.read? flags cs).map fun (depth, rest) => (p.add depth, rest)
  | '?' | '*' | '+' => p.repeat? cs
  | '\x7b' => none
  | '\\' => do
    let (atom, rest) ← Atom.ofEscape? flags cs
    p.addAtom? atom rest
  | '.' => p.addAtom? .any cs
  | '^' | '$' => p.addAtom? (.place false) cs
  | _ => p.addAtom? (.char c false) cs

/-! Each step takes the character that it reads on from, and perhaps more. -/

theorem length_le_of_named? {p after : Progress} {cs rest : List Char}
    (h : p.named? cs = some (after, rest)) : rest.length ≤ cs.length := by
  have hdrop := (List.dropWhile_suffix (l := cs) (· != '>')).length_le
  unfold named? at h
  grind

theorem length_le_of_flagged? {p after : Progress} {cs rest : List Char}
    (h : p.flagged? cs = some (after, rest)) : rest.length ≤ cs.length := by
  have hdrop := (List.dropWhile_suffix (l := cs) fun c => c != ':' && c != ')').length_le
  unfold flagged? at h
  grind

theorem length_le_of_group? {p after : Progress} {cs rest : List Char}
    (h : p.group? cs = some (after, rest)) : rest.length ≤ cs.length := by
  unfold group? at h
  split at h
  · have := length_le_of_named? h
    grind
  · have := length_le_of_named? h
    grind
  · exact Nat.le_succ_of_le (length_le_of_flagged? h)
  · simp_all

theorem length_le_of_repeat? {p after : Progress} {cs rest : List Char}
    (h : p.repeat? cs = some (after, rest)) : rest.length ≤ cs.length := by
  obtain ⟨scope, -, h⟩ := Option.bind_eq_some_iff.1 h
  grind

theorem length_le_of_step? {p after : Progress} {c : Char} {cs rest : List Char}
    (h : p.step? c cs = some (after, rest)) : rest.length ≤ cs.length := by
  have hatom {a : Atom} {cs : List Char} (h : p.addAtom? a cs = some (after, rest)) : rest = cs := by
    grind [addAtom?]
  unfold step? at h
  split at h
  · exact Nat.le_trans (length_le_of_group? h) (Flags.length_skip_le _ _)
  · grind [leave?]
  · grind
  · obtain ⟨⟨depth, rest⟩, hclass, h⟩ := Option.map_eq_some_iff.1 h
    have := OpenClass.length_le_of_finish? hclass
    grind
  · exact length_le_of_repeat? h
  · exact length_le_of_repeat? h
  · exact length_le_of_repeat? h
  · contradiction
  · obtain ⟨⟨atom, left⟩, hescape, h⟩ := Option.bind_eq_some_iff.1 h
    exact hatom h ▸ Atom.length_le_of_ofEscape? hescape
  all_goals exact Nat.le_of_eq (congrArg List.length (hatom h))

/-- Reads to the end. -/
def finish? (p : Progress) (cs : List Char) : Option Progress :=
  match hskip : p.scope.flags.skip cs with
  | [] => some p
  | c :: rest => match hstep : p.step? c rest with
    | none => none
    | some (p, rest) =>
      have : rest.length < cs.length :=
        Nat.lt_of_le_of_lt (length_le_of_step? hstep) (Flags.length_lt_of_skip hskip)
      p.finish? rest
termination_by cs.length

end Progress

/-! ## The answer -/

/-- What is wrong with a pattern.  All its groups must be closed, and it must not be too deep; that it
    cannot be used for its words is said only if nothing else is wrong. -/
def fault? (text : String) : Option Fault :=
  match ({} : Progress).finish? text.toList with
  | none => some .malformed
  | some p =>
    if !p.outer.isEmpty || p.scope.depth > maxDepth then some .malformed
    else if p.needsWords then some .needsWords
    else none

example : ["", "a.*b", "(x|y)+?", "[]a]", "a\\.b", "(?P<n>a)(?<m>b)", "(?-u:\\w\\b)",
    "(?x) a # )"].all fun s => (fault? s).isNone := by decide +kernel
example : ["(", ")", "*", "[a", "a\\", "a|*", "(?i)a", "(?i)*", "(?)", "(?<n>a)(?<n>b)", "\\d",
    "(?-u).", "(?-u)[^a]", "a\x7b1\x7d"].all fun s => fault? s = some .malformed := by decide +kernel
example : fault? "\\ba" = some .needsWords ∧ fault? "\\ba(" = some .malformed := by decide +kernel

end SharedRing.Pattern
