/-
  Why a ring refuses.

  A ring is described by numbers that may be impossible (a capacity that is no power of two, units
  of no bytes), it borrows memory and counters that may not have been lent to it yet, and a header
  found in shared memory may not be a ring's header at all.  Each such cause is a constructor that
  carries the numbers its wording needs; the wording itself is in `Refusal.message` alone, so a proof
  about causes never meets text.
-/

namespace SharedRing

/-- What a ring borrows from outside before it can be used. -/
inductive Part where
  | region
  | head
  | tail
  | signal
deriving DecidableEq, Repr

/-- How a missing part is called in messages. -/
def Part.name : Part → String
  | .region => "backing region"
  | .head => "head index"
  | .tail => "tail index"
  | .signal => "consume signal counter"

/-- The causes for which a ring cannot be configured, bound or split.  Transfers have none: a full
    ring takes no bytes and an empty one gives none, and neither is a refusal. -/
inductive Refusal where
  /-- the capacity is no power of two -/
  | badCapacity (value : UInt32)
  /-- a unit would have no bytes -/
  | emptyUnit
  /-- a part was not lent -/
  | missing (part : Part)
  /-- the region has no address -/
  | nullAddress
  /-- the region does not hold the whole ring -/
  | shortRegion (required : UInt64) (actual : Nat)
  /-- what should be a header is none -/
  | noHeader
  /-- the header is of a version that is not understood -/
  | otherVersion (found expected : UInt64)
deriving DecidableEq, Repr

/-- The text of a cause. -/
def Refusal.message : Refusal → String
  | .badCapacity value => s!"capacity {value} is not a power of two"
  | .emptyUnit => "scale must be non-zero"
  | .missing part => s!"{part.name} is not bound"
  | .nullAddress => "backing region pointer is null"
  | .shortRegion required actual =>
    s!"backing region holds {actual} bytes, ring needs {required}"
  | .noHeader => "bad magic"
  | .otherVersion found expected => s!"wrong version {found}, expected {expected}"

end SharedRing
