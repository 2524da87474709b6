/-
  Measured times and speeds, and how they are written.

  A time is written in the largest unit of which it has at least one, with as many places as it
  needs.  A speed is a double; it is written with one place, rounded from the exact number that the
  double stands for and not from some other text of it.
-/
namespace SharedRing

/-! ## Times -/

/-- A measured time: whole seconds, and less than a second more. -/
structure Elapsed where
  secs : UInt64
  nanos : UInt32
  nanos_lt_second : nanos.toNat < 1000000000 := by decide
deriving DecidableEq, Repr

namespace Elapsed

/-- So many seconds and so many nanoseconds, which may be seconds themselves. -/
def ofParts (secs : UInt64) (nanos : UInt32) : Elapsed where
  secs := secs + (nanos / 1000000000).toUInt64
  nanos := nanos % 1000000000
  nanos_lt_second := by
    rw [UInt32.toNat_mod]
    exact Nat.mod_lt _ (by decide)

/-- The time in seconds. -/
def seconds (e : Elapsed) : Float := e.secs.toFloat + e.nanos.toFloat / 1e9

/-- So many parts of `10 ^ places`, as digits after a point, without zeros at the end. -/
def fraction (parts places : Nat) : String :=
  let digits := (toString parts).toList
  let padded := List.replicate (places - digits.length) '0' ++ digits
  match (padded.reverse.dropWhile (· == '0')).reverse with
  | [] => ""
  | ds => "." ++ String.ofList ds

/-- How a time is written. -/
def text (e : Elapsed) : String :=
  let n := e.nanos.toNat
  if e.secs ≠ 0 then s!"{e.secs}" ++ fraction n 9 ++ "s"
  else if n ≥ 1000000 then s!"{n / 1000000}" ++ fraction (n % 1000000) 6 ++ "ms"
  else if n ≥ 1000 then s!"{n / 1000}" ++ fraction (n % 1000) 3 ++ "µs"
  else s!"{n}ns"

example : (ofParts 1 2500000000).secs = 3 ∧ (ofParts 1 2500000000).nanos = 500000000 := by decide
example : fraction 1500 6 = ".0015" ∧ fraction 0 9 = "" := by decide +kernel

end Elapsed

/-! ## Speeds -/

/-- The least time that is divided by: the distance from one to the next double. -/
def leastSeconds : Float := 1.0 / 4503599627370496.0

/-- Megabytes per second. -/
def megabytesPerSecond (bytes : UInt64) (e : Elapsed) : Float :=
  let seconds := if e.seconds < leastSeconds then leastSeconds else e.seconds
  bytes.toFloat / 1e6 / seconds

/-- A quotient rounded to the nearest integer, halves to the even one. -/
def roundQuotient (num den : Nat) : Nat :=
  let q := num / den
  let twice := 2 * (num % den)
  if twice > den || (twice == den && q % 2 == 1) then q + 1 else q

example : (List.range 7).map (roundQuotient · 2) = [0, 0, 1, 2, 2, 2, 3] := by decide

/-- A finite number that is not negative, with one place. -/
def onePlace (x : Float) : String :=
  let bits := x.toBits.toNat
  let exponent := (bits >>> 52) % 0x800
  let mantissa := bits % 0x10000000000000 + if exponent = 0 then 0 else 0x10000000000000
  let power := max exponent 1
  let tenths :=
    if power ≥ 1075 then (mantissa * 10) <<< (power - 1075)
    else roundQuotient (mantissa * 10) (1 <<< (1075 - power))
  s!"{tenths / 10}.{tenths % 10}"

end SharedRing
