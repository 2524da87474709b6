/-
  The two halves of a split ring: a writer that alone moves the tail, and a reader that alone moves
  the head.

  Splitting freezes what the halves need: the geometry, the region, and which counters they are
  bound to.  What moves is in the memory, so each operation takes the memory, looks at both
  counters, makes its plan (`Transfer`) and carries it out.  Storing the counter is always the last
  step: that store is the one moment at which bytes change hands.

  A transfer comes in two forms.  The copying one (`write`, `read`) is done at once.  A chunk is a
  plan that its owner keeps open: a writer fills the bytes in place and then publishes them, a
  reader looks at them in place and then releases them.  A chunk that is given up leaves the
  counters as they are.
-/
import SharedRing.Transfer

namespace SharedRing

/-- What both halves of a split ring know. -/
structure Halves where
  geometry : Geometry
  region : Region
  head : Nat
  tail : Nat
  signal : Option Nat
deriving DecidableEq

/-- The counters as one half sees them. -/
structure Counts where
  head : UInt32
  tail : UInt32
  headInBytes : UInt64
  tailInBytes : UInt64
  pending : UInt64
  free : UInt64
deriving DecidableEq, Repr

namespace Halves

/-! ## Looking -/

def headCount (h : Halves) (m : Memory) : UInt32 := m.counter h.head

def tailCount (h : Halves) (m : Memory) : UInt32 := m.counter h.tail

/-- The bytes that wait to be read.  A peer may publish more at any moment. -/
def pending (h : Halves) (m : Memory) : UInt64 :=
  h.geometry.pending (h.headCount m) (h.tailCount m)

/-- The bytes that a write would take.  A peer may free more at any moment. -/
def free (h : Halves) (m : Memory) : UInt64 :=
  h.geometry.free (h.headCount m) (h.tailCount m)

def counts (h : Halves) (m : Memory) : Counts where
  head := h.headCount m
  tail := h.tailCount m
  headInBytes := h.geometry.bytesOf (h.headCount m)
  tailInBytes := h.geometry.bytesOf (h.tailCount m)
  pending := h.pending m
  free := h.free m

/-! ## The bytes of a plan -/

/-- The bytes that a plan covers, as they are now. -/
def contents (h : Halves) (t : Transfer) (m : Memory) : List UInt8 :=
  m.bytes.gather h.region.offset t.spans

/-- Puts `data` where a plan says, as much of it as the plan covers. -/
def fill (h : Halves) (t : Transfer) (data : List UInt8) (m : Memory) : Memory :=
  { m with bytes := m.bytes.scatter h.region.offset t.spans data }

/-- Completes a transfer of the writer: all its bytes are published at once. -/
def publish (h : Halves) (t : Transfer) (m : Memory) : Memory := m.setCounter h.tail t.next

/-- Completes a transfer of the reader: all its bytes are free again. -/
def release (h : Halves) (t : Transfer) (m : Memory) : Memory := m.setCounter h.head t.next

/-! ## Copying transfers -/

/-- Writes as much of `data` as fits, in whole units; a short write is no failure.  Gives back the
    number of bytes written. -/
def write (h : Halves) (data : List UInt8) (m : Memory) : UInt64 × Memory :=
  match Transfer.write? h.geometry (h.headCount m) (h.tailCount m) data.length with
  | some t => (t.len, h.publish t (h.fill t data m))
  | none => (0, m)

/-- How many of `offered` bytes a write takes. -/
def accepts (h : Halves) (offered : Nat) (m : Memory) : UInt64 :=
  match Transfer.write? h.geometry (h.headCount m) (h.tailCount m) offered with
  | some t => t.len
  | none => 0

theorem accepts_le (h : Halves) (offered : Nat) (m : Memory) :
    (h.accepts offered m).toNat ≤ offered := by
  unfold accepts
  split
  · exact Transfer.len_le_of_write? (by assumption)
  · exact Nat.zero_le _

/-- A write is the same when only the bytes that it takes are offered. -/
theorem write_take_accepts (h : Halves) (data : List UInt8) (m : Memory) :
    h.write (data.take (h.accepts data.length m).toNat) m = h.write data m := by
  unfold write accepts
  cases hplan : Transfer.write? h.geometry (h.headCount m) (h.tailCount m) data.length with
  | none =>
    simp only [UInt64.toNat_zero, List.take_zero, List.length_nil, Transfer.write?_zero]
  | some t =>
    have hlen : (data.take t.len.toNat).length = t.len.toNat := by
      rw [List.length_take, Nat.min_eq_left (Transfer.len_le_of_write? hplan)]
    have hfill : h.fill t (data.take t.len.toNat) m = h.fill t data m := by
      rw [fill, fill, ← Transfer.total_of_write? hplan, Bytes.scatter_take]
    simp only [hlen, Transfer.write?_len hplan, hfill]

/-- Reads at most `room` bytes in whole units, and at most `count` if that is given and not zero. -/
def read (h : Halves) (room : Nat) (count : Option UInt64) (m : Memory) : List UInt8 × Memory :=
  match Transfer.read? h.geometry (h.headCount m) (h.tailCount m) room count with
  | some t => (h.contents t m, h.release t m)
  | none => ([], m)

/-- Reads into a buffer: the bytes read take its beginning, the rest of it stays. -/
def readInto (h : Halves) (buffer : List UInt8) (count : Option UInt64) (m : Memory) :
    Nat × List UInt8 × Memory :=
  let (got, m) := h.read buffer.length count m
  (got.length, got ++ buffer.drop got.length, m)

/-! ## Chunks -/

/-- Free bytes at the tail, exactly `len` and contiguous, to be filled in place. -/
def reserve? (h : Halves) (len : UInt64) (m : Memory) : Option Transfer :=
  Transfer.reserve? h.geometry (h.headCount m) (h.tailCount m) len

/-- The longest contiguous run of readable bytes. -/
def view? (h : Halves) (m : Memory) : Option Transfer :=
  Transfer.view? h.geometry (h.headCount m) (h.tailCount m)

/-- Exactly `len` contiguous readable bytes. -/
def viewOf? (h : Halves) (len : UInt64) (m : Memory) : Option Transfer :=
  Transfer.viewOf? h.geometry (h.headCount m) (h.tailCount m) len

end Halves

/-! ## The flow-control counter

    The reader adds what it has freed; whoever reports it to the writer's side takes the sum and
    starts again from zero.  No transfer looks at this counter. -/

namespace Memory

/-- Adds to a bound counter, wrapping, and gives back what it held before. -/
def addSignal (m : Memory) (signal : Option Nat) (value : UInt64) :
    Except Refusal (UInt64 × Memory) :=
  match signal with
  | some i => .ok (m.signal i, m.setSignal i (m.signal i + value))
  | none => .error (.missing .signal)

/-- Clears a bound counter and gives back what it held. -/
def takeSignal (m : Memory) (signal : Option Nat) : Except Refusal (UInt64 × Memory) :=
  match signal with
  | some i => .ok (m.signal i, m.setSignal i 0)
  | none => .error (.missing .signal)

end Memory

end SharedRing
