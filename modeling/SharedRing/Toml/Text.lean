/-
  Quoted text in a TOML document.

  There are four forms: between double quotes escapes are understood, between single quotes nothing
  is; and each may be written with three quotes on either side, in which case it may hold line ends.
  All four are read in two stages.  `delimit` finds where the text ends, for which it need only know
  that an escaped quote ends nothing; `unescape` and `verbatim` then say which text that is, and
  refuse what may not stand there.
-/
namespace SharedRing.Toml

/-! ## Characters -/

/-- Characters that may stand in text and in comments: a tab, and all that is no control character.
    Text with three quotes may also hold line ends. -/
def isTextChar (long : Bool) (c : Char) : Bool :=
  c == '\t' || (c.toNat ≥ 0x20 && c.toNat != 0x7F) || (long && (c == '\n' || c == '\r'))

def isBlank (c : Char) : Bool := c == ' ' || c == '\t'

/-- Blanks and line ends: what may be skipped after a line that is continued. -/
def isSpace (c : Char) : Bool := isBlank c || c == '\n' || c == '\r'

/-- A carriage return is half of a line end and stands nowhere alone. -/
def hasLoneReturn : List Char → Bool
  | [] => false
  | '\r' :: '\n' :: rest => hasLoneReturn rest
  | '\r' :: _ => true
  | _ :: rest => hasLoneReturn rest

/-- The value of a digit in a base up to sixteen. -/
def digit? (base : Nat) (c : Char) : Option Nat :=
  let value? :=
    if '0' ≤ c && c ≤ '9' then some (c.toNat - '0'.toNat)
    else if 'a' ≤ c && c ≤ 'f' then some (c.toNat - 'a'.toNat + 10)
    else if 'A' ≤ c && c ≤ 'F' then some (c.toNat - 'A'.toNat + 10)
    else none
  value?.filter (· < base)

/-- The number that some digits stand for. -/
def ofDigits (base : Nat) (digits : List Nat) : Nat :=
  digits.foldl (fun n d => n * base + d) 0

/-! ## Where text ends -/

/-- Splits what follows an opening quote into the raw text and what comes after the closing quote.
    In the long form up to two quotes may stand inside the text, also right before the three that
    close it.  `escaped` says that a backslash came just before. -/
def delimit (quote : Char) (long escapes : Bool) (escaped : Bool) :
    List Char → Option (List Char × List Char)
  | [] => none
  | c :: rest =>
    let keep (next : Bool) :=
      (delimit quote long escapes next rest).map fun (text, after) => (c :: text, after)
    if escaped then keep false
    else if c == quote then
      if !long then some ([], rest)
      else
        let run := ((c :: rest).takeWhile (· == quote)).length
        if run < 3 then keep false
        else
          let inside := min (run - 3) 2
          some (List.replicate inside quote, rest.drop (inside + 2))
    else keep (escapes && c == '\\')

/-! ## Which text it is -/

/-- The character with a given number; surrogates and numbers past the end have none. -/
def charOf? (n : Nat) : Option Char := if n.isValidChar then some (Char.ofNat n) else none

/-- The character that hexadecimal digits stand for. -/
def hexChar? (digits : List Char) : Option Char := do
  charOf? (ofDigits 16 (← digits.mapM (digit? 16)))

/-- Escapes of a single letter. -/
def shortEscape? : Char → Option Char
  | 'b' => some '\x08'
  | 't' => some '\t'
  | 'n' => some '\n'
  | 'f' => some '\x0c'
  | 'r' => some '\r'
  | 'e' => some '\x1b'
  | '"' => some '"'
  | '\\' => some '\\'
  | _ => none

/-- Raw text with its escapes resolved.  In the long form a backslash at the end of a line joins the
    line with what comes next, past all blanks and empty lines. -/
def unescape (long : Bool) (raw : List Char) : Option (List Char) :=
  match raw with
  | [] => some []
  | '\\' :: 'x' :: a :: b :: rest => do
    return (← hexChar? [a, b]) :: (← unescape long rest)
  | '\\' :: 'u' :: a :: b :: c :: d :: rest => do
    return (← hexChar? [a, b, c, d]) :: (← unescape long rest)
  | '\\' :: 'U' :: a :: b :: c :: d :: e :: f :: g :: h :: rest => do
    return (← hexChar? [a, b, c, d, e, f, g, h]) :: (← unescape long rest)
  | '\\' :: c :: rest =>
    match shortEscape? c with
    | some e => (e :: ·) <$> unescape long rest
    | none =>
      let lineEnd := ((c :: rest).dropWhile isBlank).dropWhile (· == '\r')
      if long && lineEnd.head? == some '\n' then unescape long (rest.dropWhile isSpace) else none
  | c :: rest => if c != '\\' && isTextChar long c then (c :: ·) <$> unescape long rest else none
termination_by raw.length
decreasing_by
  all_goals simp only [List.length_cons]
  all_goals try omega
  have h : (rest.dropWhile isSpace).length ≤ rest.length := (List.dropWhile_sublist _).length_le
  omega

/-- Raw text that stands for itself. -/
def verbatim (long : Bool) (raw : List Char) : Option (List Char) :=
  if raw.all (isTextChar long) then some raw else none

/-- A line end right after three opening quotes is not part of the text. -/
def dropFirstLineEnd : List Char → List Char
  | '\n' :: rest => rest
  | '\r' :: '\n' :: rest => rest
  | cs => cs

/-- The text after an opening quote, and what follows its closing quote. -/
def quoted (quote : Char) (long : Bool) (cs : List Char) : Option (String × List Char) := do
  let escapes := quote == '"'
  let (raw, rest) ← delimit quote long escapes false cs
  let raw := if long then dropFirstLineEnd raw else raw
  let text ← if escapes then unescape long raw else verbatim long raw
  return (String.ofList text, rest)

/-- Text in any of the four forms. -/
def readText : List Char → Option (String × List Char)
  | '"' :: '"' :: '"' :: rest => quoted '"' true rest
  | '\x27' :: '\x27' :: '\x27' :: rest => quoted '\x27' true rest
  | '"' :: rest => quoted '"' false rest
  | '\x27' :: rest => quoted '\x27' false rest
  | _ => none

end SharedRing.Toml
