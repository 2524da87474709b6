/-
  Flat TOML documents: lines that give a key a plain value.

  A flat document has keys and values and nothing below them, so everything by which TOML builds
  tables out of tables (headers, dotted keys, arrays, inline tables) is refused here, together with
  what is no TOML at all.  Dates are refused with them.  No key may come twice.
-/
import SharedRing.Toml.Number

namespace SharedRing.Toml

/-- A value. -/
inductive Value where
  | text (value : String)
  | integer (value : Int)
  | real (value : Float)
  | boolean (value : Bool)
  /-- a date, an array or a table, which a flat document has none of -/
  | compound

/-- The keys of a document and their values, in order. -/
abbrev Table := List (String × Value)

/-! ## Parts of a line -/

def skipBlanks (cs : List Char) : List Char := cs.dropWhile isBlank

/-- A comment reaches to the end of its line and holds no control characters. -/
def skipComment (cs : List Char) : Option (List Char) :=
  match cs with
  | '#' :: _ =>
    let (comment, rest) := cs.span (· != '\n')
    if comment.all fun c => isTextChar false c || c == '\r' then some rest else none
  | _ => some cs

def isKeyChar (c : Char) : Bool := c.isAlphanum || c == '_' || c == '-'

/-- A key is a bare word or quoted text on one line. -/
def readKey (cs : List Char) : Option (String × List Char) :=
  match cs with
  | '"' :: rest => quoted '"' false rest
  | '\x27' :: rest => quoted '\x27' false rest
  | _ =>
    let (word, rest) := cs.span isKeyChar
    if word.isEmpty then none else some (String.ofList word, rest)

/-- The characters of which words and numbers consist. -/
def isTokenChar (c : Char) : Bool := isKeyChar c || c == '+' || c == '.'

/-- A word or a number. -/
def plainValue? (token : List Char) : Option Value :=
  if token == "true".toList then some (.boolean true)
  else if token == "false".toList then some (.boolean false)
  else match integer? token with
    | some n => some (.integer n)
    | none => Value.real <$> real? token

def readValue (cs : List Char) : Option (Value × List Char) :=
  if cs.head? == some '"' || cs.head? == some '\x27' then
    (fun (text, rest) => (.text text, rest)) <$> readText cs
  else do
    let (token, rest) := cs.span isTokenChar
    return (← plainValue? token, rest)

/-- A key, an equals sign and a value. -/
def readEntry (cs : List Char) : Option ((String × Value) × List Char) := do
  let (key, rest) ← readKey cs
  match skipBlanks rest with
  | '=' :: rest =>
    let (value, rest) ← readValue (skipBlanks rest)
    return ((key, value), rest)
  | _ => none

/-- What may stand at the end of a line, with the line end. -/
def endLine (cs : List Char) : Option (List Char) := do
  match ← skipComment (skipBlanks cs) with
  | [] => return []
  | '\n' :: rest => return rest
  | '\r' :: '\n' :: rest => return rest
  | _ => none

/-! ## Documents -/

/-- One line: an entry or none, and what comes after the line. -/
def readLine (cs : List Char) : Option (Option (String × Value) × List Char) := do
  let cs := skipBlanks cs
  match cs.head? with
  | some c =>
    if c == '#' || c == '\n' || c == '\r' then return (none, ← endLine cs)
    else
      let (entry, rest) ← readEntry cs
      return (some entry, ← endLine rest)
  | none => return (none, [])

/-- All lines.  A line takes at least one character, so what comes after it is shorter. -/
def readLines (cs : List Char) : Option Table :=
  if cs.isEmpty then some []
  else match readLine cs with
    | none => none
    | some (entry, rest) =>
      if _h : rest.length < cs.length then (entry.toList ++ ·) <$> readLines rest else none
termination_by cs.length

/-- The table of a flat document.  A mark of byte order at the very beginning is skipped. -/
def readTable (text : String) : Option Table := do
  let cs := match text.toList with
    | '\uFEFF' :: rest => rest
    | cs => cs
  if hasLoneReturn cs then none
  let table ← readLines cs
  if (table.map (·.1)).eraseDups.length == table.length then return table else none

end SharedRing.Toml
