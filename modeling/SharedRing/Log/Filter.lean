/-
  Which events a log keeps.

  A filter is a list of directives, separated by commas.  A directive names a part of the program, or
  nothing and so means everybody; it may ask for a span or for a field, in brackets; and it ends with
  a level:

      info        sharing=debug        [{len}]        sharing[{len}]=debug        [span{len=1}]=trace

  A directive without a level is heard in full.

  Of the directives that fit an event the most specific one decides: the longest target first, then
  the one that asks for a field, then the later name of that field, and of two that ask for the same
  the one that was given later.  An event that no directive fits is not heard.  No directive at all
  leaves only errors.

  Directives that ask for a span, or for the value of a field, are about what happens within spans.
  This program opens none, so such directives are read but decide nothing.
-/
import SharedRing.Log.Event
import SharedRing.Pattern.Check
import SharedRing.Text.Alphanumeric
import SharedRing.Text.Blank

namespace SharedRing.Log

/-! ## Directives -/

/-- A field that a directive asks for, perhaps with a value. -/
structure FieldDemand where
  name : String
  value : Option String
deriving DecidableEq, Repr

/-- Events that fit pass up to a rank; rank zero lets none pass. -/
structure Directive where
  /-- how the name of the part begins that the directive is about -/
  target : String := ""
  /-- the span that it asks for -/
  span : Option String := none
  /-- the field that it asks for -/
  field : Option FieldDemand := none
  rank : Nat := Level.trace.rank
deriving DecidableEq, Repr

/-- Why a directive cannot be used. -/
inductive DirectiveError where
  | malformed
  | badPattern (fault : Pattern.Fault)
  | noLevel
deriving DecidableEq, Repr

def DirectiveError.message : DirectiveError → String
  | .malformed => "invalid filter directive"
  | .badPattern fault => "invalid field filter: " ++ fault.message
  | .noLevel => "error parsing level filter: expected one of \"off\", \"error\", \"warn\", " ++
    "\"info\", \"debug\", \"trace\", or a number 0-5"

/-! ## Reading a directive -/

/-- The rank that a number or a word stands for; words may be in any case. -/
def rank? (text : String) : Option Nat :=
  let digits := if text.startsWith "+" then text.toList.drop 1 else text.toList
  if !digits.isEmpty && digits.all Char.isDigit then
    let n := digits.foldl (fun n c => n * 10 + (c.toNat - '0'.toNat)) 0
    if n ≤ 5 then some n else none
  else match text.toLower with
    | "off" => some 0
    | "error" => some 1
    | "warn" => some 2
    | "info" => some 3
    | "debug" => some 4
    | "trace" => some 5
    | _ => none

/-- Characters without the sign before them. -/
def unsigned : List Char → List Char
  | '+' :: cs | '-' :: cs => cs
  | cs => cs

/-- Whether characters are nothing, or the exponent of a number. -/
def isExponent : List Char → Bool
  | [] => true
  | e :: cs => (e == 'e' || e == 'E') && !(unsigned cs).isEmpty && (unsigned cs).all Char.isDigit

/-- Whether characters are a number: digits, perhaps with a point among or beside them and an
    exponent behind, or a word for infinity or for no number. -/
def isNumber (text : List Char) : Bool :=
  let cs := unsigned text
  let (whole, rest) := cs.span Char.isDigit
  let (fraction, exponent) := match rest with
    | '.' :: rest => rest.span Char.isDigit
    | _ => ([], rest)
  ((!whole.isEmpty || !fraction.isEmpty) && isExponent exponent)
    || ["inf", "infinity", "nan"].contains (String.ofList (cs.map Char.toLower))

/-- Characters with which a target or a level can begin. -/
def startsName (c : Char) : Bool :=
  Text.isAlphanumeric c || c == '-' || c == ':' || c == '_'

/-- The bytes that characters take. -/
def width (cs : List Char) : Nat := cs.foldl (fun n c => n + c.utf8Size) 0

namespace Directive

/-- The bytes of a text from one number to another, if they are text. -/
def cut (text : String) (start stop : Nat) : Except DirectiveError String :=
  match String.fromUTF8? (text.toUTF8.extract start stop) with
  | some part => .ok part
  | none => .error .malformed

/-- The rank at the end of a directive, from a byte on.  No level at all is the highest. -/
def rankFrom (text : String) (start : Nat) : Except DirectiveError Nat := do
  let level ← cut text start text.utf8ByteSize
  if level.isEmpty then return Level.trace.rank
  match rank? level with
  | some rank => return rank
  | none => throw .noLevel

/-- The rank after a closing bracket: an equals sign and a level, or nothing. -/
def rankAfter (text : String) (start : Nat) : List Char → Except DirectiveError Nat
  | [] => .ok Level.trace.rank
  | '=' :: _ => rankFrom text (start + 1)
  | _ => .error .malformed

/-- A field that is asked for: a name, or a name and a value with an equals sign between.  What
    follows another equals sign is left out.  A value is a number or a pattern. -/
def fieldDemand (text : String) : Except DirectiveError FieldDemand :=
  match text.splitOn "=" with
  | name :: value :: _ =>
    if isNumber value.toList then .ok ⟨name, some value⟩
    else match Pattern.fault? value with
      | none => .ok ⟨name, some value⟩
      | some fault => .error (.badPattern fault)
  | _ => if text.isEmpty then .error .malformed else .ok ⟨text, none⟩

/-- What stands in brackets, and the rank after them.  `start` is where the characters begin. -/
def bracketed (text target : String) (start : Nat) (cs : List Char) :
    Except DirectiveError Directive := do
  let (name, rest) := cs.span fun c => c != ']' && c != '\x7b'
  let stop := start + width name
  let span ← cut text start stop
  match rest with
  | ']' :: rest => return { target, span := some span, rank := ← rankAfter text (stop + 1) rest }
  | '\x7b' :: rest =>
    let (demand, rest) := rest.span (· != '\x7d')
    let fieldStop := stop + 1 + width demand
    match rest with
    | '\x7d' :: rest =>
      let field ← fieldDemand (← cut text (stop + 1) fieldStop)
      match rest with
      | ']' :: rest =>
        return {
          target, field
          span := if name.isEmpty then none else some span
          rank := ← rankAfter text (fieldStop + 2) rest }
      | _ => throw .malformed
    | _ => throw .malformed
  | _ => throw .malformed

/-- Reads a directive.  Its parts are found without the blanks around it, but they are cut out of the
    text with them: blanks in front push every cut too far to the left, and blanks at the end belong
    to the last part. -/
def ofText (text : String) : Except DirectiveError Directive := do
  let cs := Text.trim text.toList
  if !(cs.head?.any fun c => c == '[' || startsName c) then throw .malformed
  let (name, rest) := cs.span fun c => c != '=' && c != '['
  match rest with
  | [] => match rank? text with
    | some rank => return { rank }
    | none => return { target := text }
  | '=' :: _ => return { target := ← cut text 0 (width name), rank := ← rankFrom text (width name + 1) }
  | _ :: rest => bracketed text (← cut text 0 (width name)) (width name + 1) rest

end Directive

/-! ## Directives and events -/

namespace Directive

/-- Whether a directive is about events, and not only about what happens within spans. -/
def isForEvents (d : Directive) : Bool := d.span.isNone && d.field.all (·.value.isNone)

/-- Whether a directive fits an event. -/
def fits (d : Directive) (e : Event) : Bool :=
  d.isForEvents && e.target.name.startsWith d.target
    && d.field.all fun field => e.names.contains field.name

/-- The field that is asked for, with none before all others. -/
def fieldName (d : Directive) : String := (d.field.map (·.name)).getD ""

/-- Whether a directive that was given later decides in place of an earlier one, when both fit. -/
def overrules (later earlier : Directive) : Bool :=
  earlier.target.length < later.target.length
    || (earlier.target.length == later.target.length && earlier.fieldName ≤ later.fieldName)

end Directive

/-! ## Filters -/

/-- Directives in the order in which they were given. -/
abbrev Filter := List Directive

namespace Filter

/-- The directives that a text gives, still unread; nothing between two commas is none. -/
def parts (text : String) : List String := (text.splitOn ",").filter (!·.isEmpty)

/-- A filter all of whose directives must be right. -/
def ofText (text : String) : Except DirectiveError Filter := (parts text).mapM Directive.ofText

/-- A filter that leaves out the directives that cannot be used, and a complaint for each. -/
def ofTextLossy (text : String) : Filter × List String :=
  (parts text).foldr (fun part (filter, complaints) => match Directive.ofText part with
    | .ok d => (d :: filter, complaints)
    | .error e => (filter, s!"ignoring `{part}`: {e.message}" :: complaints)) ([], [])

/-- The directive that decides about an event. -/
def deciding (f : Filter) (e : Event) : Option Directive :=
  (f.filter (·.fits e)).foldl (fun best d => match best with
    | none => some d
    | some b => if d.overrules b then some d else best) none

/-- Whether a filter keeps an event. -/
def keeps (f : Filter) (e : Event) : Bool :=
  if f.isEmpty then e.level.rank ≤ Level.error.rank
  else (f.deciding e).any fun d => e.level.rank ≤ d.rank

/-- The filter of a run: the one from the environment if there is one and all of it can be used, else
    what the settings say. -/
def choose (environment : Option String) (setting : String) : Filter × List String :=
  match environment.map ofText with
  | some (.ok f) => (f, [])
  | _ => ofTextLossy setting

end Filter

end SharedRing.Log
