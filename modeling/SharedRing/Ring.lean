/-
  A ring: a geometry and what it has been bound to.

  A ring starts with nothing bound.  Its counters, its region and its flow-control counter are lent
  to it one by one, in any order and again at any time; the last binding counts.  Before bytes can
  move the ring is split, and that is where all is checked, so that the halves need no check of
  their own: head, tail and region must be bound, and the region must hold the whole ring.

  A ring also carries a few things for whoever moves the bytes further, and never acts on them.
-/
import SharedRing.Halves

namespace SharedRing

/-! ## What a ring carries for others -/

/-- Settings of the transport. -/
structure Flags where
  /-- the ring carries control messages, not payload -/
  carriesControl : Bool := false
  /-- transfers out of the ring are paced by a timer -/
  paced : Bool := false
  /-- a snapshot is being recorded -/
  recording : Bool := false
  /-- the position recorded for the snapshot -/
  recordedPosition : UInt32 := 0
  /-- the peer expects the reader to count what it frees -/
  expectsSignal : Bool := false
deriving DecidableEq, Repr

/-- The address under which a buffer is registered.  Address zero is none. -/
structure BufferAddress where
  address : UInt64
  address_ne_zero : address ≠ 0
deriving DecidableEq

def BufferAddress.ofWord? (address : UInt64) : Option BufferAddress :=
  if h : address ≠ 0 then some ⟨address, h⟩ else none

/-- The buffers that are registered for a ring, on this side and on the other. -/
structure Registration where
  ours : Option BufferAddress := none
  theirs : Option BufferAddress := none
deriving DecidableEq

/-! ## Bindings -/

/-- A ring and its bindings: counters and signal by number, the region by place. -/
structure Ring where
  geometry : Geometry := default
  region : Option Region := none
  head : Option Nat := none
  tail : Option Nat := none
  signal : Option Nat := none
  flags : Flags := {}
  registration : Registration := {}
deriving DecidableEq

namespace Ring

/-- The part that was lent, or the complaint that it was not. -/
def bound (part : Part) : Option α → Except Refusal α
  | some a => .ok a
  | none => .error (.missing part)

def useRegion (r : Ring) (region : Region) : Ring := { r with region := some region }

def useHead (r : Ring) (i : Nat) : Ring := { r with head := some i }

def useTail (r : Ring) (i : Nat) : Ring := { r with tail := some i }

def useSignal (r : Ring) (i : Nat) : Ring := { r with signal := some i }

/-- A new capacity; a refused one leaves the ring as it is. -/
def resize (r : Ring) (value : UInt32) : Except Refusal Ring := do
  return { r with geometry := ← r.geometry.resize value }

/-- A new unit size; a refused one leaves the ring as it is. -/
def rescale (r : Ring) (value : UInt32) : Except Refusal Ring := do
  return { r with geometry := ← r.geometry.rescale value }

/-! ## Counters of an unsplit ring -/

/-- Both counters; the head is asked for first. -/
def counters (r : Ring) : Except Refusal (Nat × Nat) := do
  return (← bound .head r.head, ← bound .tail r.tail)

/-- The bytes that wait to be read. -/
def pending (r : Ring) (m : Memory) : Except Refusal UInt64 := do
  let (head, tail) ← r.counters
  return r.geometry.pending (m.counter head) (m.counter tail)

/-- The bytes that a write would take. -/
def free (r : Ring) (m : Memory) : Except Refusal UInt64 := do
  let (head, tail) ← r.counters
  return r.geometry.free (m.counter head) (m.counter tail)

/-- Adds to the flow-control counter and gives back what it held before. -/
def addSignal (r : Ring) (value : UInt64) (m : Memory) : Except Refusal (UInt64 × Memory) :=
  m.addSignal r.signal value

/-! ## Splitting -/

/-- The two halves.  Of several things missing the first is reported, in the order head, tail,
    region; a region too short comes last. -/
def halves (r : Ring) : Except Refusal Halves := do
  let (head, tail) ← r.counters
  let region ← bound .region r.region
  if region.len < r.geometry.size.toNat then
    throw (.shortRegion r.geometry.size region.len)
  return { geometry := r.geometry, region, head, tail, signal := r.signal }

/-! ## Dumps -/

/-- A byte as two digits. -/
def hexByte (b : UInt8) : String :=
  String.ofList [Nat.digitChar (b.toNat / 16), Nat.digitChar (b.toNat % 16)]

/-- The first `len` bytes of the region, all of it if it is shorter. -/
def dump (r : Ring) (len : Nat) (m : Memory) : Except Refusal String := do
  let region ← bound .region r.region
  return " ".intercalate ((m.bytes.read region.offset (min len region.len)).map hexByte)

example : hexByte 0xa7 = "a7" := by decide

/-- Nothing bound: the head is missed first, then the tail, then the region. -/
example : ({} : Ring).halves = .error (.missing .head)
    ∧ (({} : Ring).useHead 0).halves = .error (.missing .tail)
    ∧ ((({} : Ring).useHead 0).useTail 1).halves = .error (.missing .region) := ⟨rfl, rfl, rfl⟩

end Ring

end SharedRing
