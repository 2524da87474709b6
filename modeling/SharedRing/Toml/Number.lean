/-
  Numbers in a TOML document.

  A number is read from a token, all of it or not at all.  Underscores may separate digits, one at a
  time and only between two of them.  A decimal integer has no leading zero; the other bases have a
  mark and no sign.  A fractional number needs digits on both sides of its point, and is rounded to
  the nearest double; one too large to be a double is refused, one too small is zero.
-/
import SharedRing.Toml.Text

namespace SharedRing.Toml

/-! ## Digits -/

/-- The values of digits that may be separated by underscores.  `afterDigit` says that the last
    character was a digit, so that an underscore or the end may follow. -/
def digits? (base : Nat) (afterDigit : Bool) : List Char → Option (List Nat)
  | [] => if afterDigit then some [] else none
  | c :: rest =>
    if c == '_' then
      if afterDigit then digits? base false rest else none
    else do return (← digit? base c) :: (← digits? base true rest)

/-- Decimal digits without a leading zero. -/
def decimal? (cs : List Char) : Option (List Nat) := do
  let ds ← digits? 10 false cs
  if ds.head? == some 0 && ds.length > 1 then none else return ds

/-- A sign and what follows it; no sign is a plus. -/
def sign : List Char → Bool × List Char
  | '-' :: rest => (true, rest)
  | '+' :: rest => (false, rest)
  | cs => (false, cs)

/-! ## Integers -/

/-- An integer in one of the four bases. -/
def integer? : List Char → Option Int
  | '0' :: 'x' :: rest => (fun ds => Int.ofNat (ofDigits 16 ds)) <$> digits? 16 false rest
  | '0' :: 'o' :: rest => (fun ds => Int.ofNat (ofDigits 8 ds)) <$> digits? 8 false rest
  | '0' :: 'b' :: rest => (fun ds => Int.ofNat (ofDigits 2 ds)) <$> digits? 2 false rest
  | cs => do
    let (negative, cs) := sign cs
    let n := Int.ofNat (ofDigits 10 (← decimal? cs))
    return if negative then -n else n

example : integer? "-1_000".toList = some (-1000) := by decide
example : integer? "0xfF".toList = some 255 := by decide
example : integer? "007".toList = none := by decide
example : integer? "1__0".toList = none := by decide

/-! ## Fractional numbers -/

/-- The double nearest to `mantissa * 10 ^ exponent`, if there is one.  Numbers far outside the range
    of doubles are told by their order of magnitude alone. -/
def double? (mantissa : Nat) (exponent : Int) : Option Float :=
  let magnitude := Int.ofNat (toString mantissa).length + exponent
  if mantissa = 0 || magnitude < -400 then some 0.0
  else if magnitude > 400 then none
  else
    let value := Float.ofScientific mantissa (exponent < 0) exponent.natAbs
    if value.isInf then none else some value

/-- The exponent of a fractional number; unlike an integer it may begin with zeros. -/
def exponent? : List Char → Option Int
  | [] => some 0
  | _ :: cs => do
    let (negative, cs) := sign cs
    let n := Int.ofNat (ofDigits 10 (← digits? 10 false cs))
    return if negative then -n else n

/-- The digits after the point, if there is a point. -/
def fraction? : List Char → Option (List Nat)
  | [] => some []
  | _ :: cs => digits? 10 false cs

/-- A fractional number, or one of the two words for what is not a finite number. -/
def real? (cs : List Char) : Option Float := do
  let (negative, cs) := sign cs
  let apply (x : Float) := if negative then -x else x
  match cs with
  | ['i', 'n', 'f'] => return apply (1.0 / 0.0)
  | ['n', 'a', 'n'] => return apply (0.0 / 0.0)
  | _ =>
    let (mantissa, power) := cs.span fun c => c != 'e' && c != 'E'
    let (whole, point) := mantissa.span (· != '.')
    let whole ← decimal? whole
    let fraction ← fraction? point
    let value ← double? (ofDigits 10 (whole ++ fraction)) ((← exponent? power) - fraction.length)
    return apply value

end SharedRing.Toml
