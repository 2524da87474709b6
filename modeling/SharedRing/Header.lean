/-
  The header in front of a shared ring, and its place in a file.

  Two processes that map one file share a ring through this header: it says what the ring's geometry
  is and holds the counters that the ring is bound to.  In the file the numbers stand one after the
  other, the lowest byte first, and the ring's bytes follow:

      magic 8 | version 8 | capacity 4 | unit size 4 | head 4 | tail 4 | signal 8 | data ...

  A header found in shared memory is checked before it is believed, since anybody may have written
  there: first that it is a header at all, then that its version is known, then its geometry.
-/
import SharedRing.LittleEndian
import SharedRing.Ring

namespace SharedRing

/-- The fields of a header. -/
structure Header where
  magic : UInt64
  version : UInt64
  capacity : UInt32
  unitSize : UInt32
  head : UInt32
  tail : UInt32
  signal : UInt64
deriving DecidableEq, Repr

namespace Header

/-- The number that tells a header from anything else. -/
def mark : UInt64 := 0x52454652494E4742

/-- The version of this layout. -/
def layoutVersion : UInt64 := 1

/-- Where the data begins: the size of a header. -/
def size : Nat := 40

/-- The bytes of a whole shared ring. -/
def fileSize (g : Geometry) : UInt64 := 40 + g.size

/-! ## Making and checking -/

/-- The header of an empty ring. -/
def ofGeometry (g : Geometry) : Header where
  magic := mark
  version := layoutVersion
  capacity := g.capacity
  unitSize := g.unitSize
  head := 0
  tail := 0
  signal := 0

/-- The geometry that a header declares, if it is to be believed. -/
def declared (h : Header) : Except Refusal Geometry :=
  if h.magic ≠ mark then .error .noHeader
  else if h.version ≠ layoutVersion then .error (.otherVersion h.version layoutVersion)
  else Geometry.ofNumbers h.capacity h.unitSize

/-- A ring over the given data whose counters are the header's: its head is counter 0, its tail
    counter 1, and its flow-control counter is signal 0. -/
def ringOver (h : Header) (data : Region) : Except Refusal Ring := do
  let ring : Ring := { geometry := ← h.declared }
  return (((ring.useRegion data).useHead 0).useTail 1).useSignal 0

/-! ## Sharing -/

/-- The memory that a ring with this header's counters works on. -/
def lend (h : Header) (bytes : Bytes) : Memory where
  bytes := bytes
  counters := [h.head, h.tail]
  signals := [h.signal]

/-- The header after a ring has worked on that memory. -/
def collect (h : Header) (m : Memory) : Header :=
  { h with head := m.counter 0, tail := m.counter 1, signal := m.signal 0 }

/-! ## In a file -/

/-- The header as it is written. -/
def encode (h : Header) : List UInt8 :=
  LittleEndian.encode 8 h.magic.toNat ++ LittleEndian.encode 8 h.version.toNat
    ++ LittleEndian.encode 4 h.capacity.toNat ++ LittleEndian.encode 4 h.unitSize.toNat
    ++ LittleEndian.encode 4 h.head.toNat ++ LittleEndian.encode 4 h.tail.toNat
    ++ LittleEndian.encode 8 h.signal.toNat

/-- The header that stands at the beginning of some bytes, right or wrong. -/
def decode (bytes : Bytes) : Header where
  magic := UInt64.ofNat (LittleEndian.decode (bytes.read 0 8))
  version := UInt64.ofNat (LittleEndian.decode (bytes.read 8 8))
  capacity := UInt32.ofNat (LittleEndian.decode (bytes.read 16 4))
  unitSize := UInt32.ofNat (LittleEndian.decode (bytes.read 20 4))
  head := UInt32.ofNat (LittleEndian.decode (bytes.read 24 4))
  tail := UInt32.ofNat (LittleEndian.decode (bytes.read 28 4))
  signal := UInt64.ofNat (LittleEndian.decode (bytes.read 32 8))

theorem length_encode (h : Header) : h.encode.length = size := by
  simp [encode, size]

end Header

/-! ## A mapped file as memory -/

namespace Memory

/-- A mapped file as a ring sees it: all its bytes, and the counters that its header holds. -/
def ofFile (bytes : Bytes) : Memory := (Header.decode bytes).lend bytes

/-- The file that a ring leaves behind: its bytes, with the counters in their places. -/
def toFile (m : Memory) : Bytes :=
  m.bytes.write 24 (LittleEndian.encode 4 (m.counter 0).toNat
    ++ LittleEndian.encode 4 (m.counter 1).toNat ++ LittleEndian.encode 8 (m.signal 0).toNat)

end Memory

end SharedRing
