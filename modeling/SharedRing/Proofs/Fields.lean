/-
  The fields of a header, byte by byte.

  A field is a number at its own place among the first bytes of a file, and no two fields share a
  byte (`Field.apart`).  So a field that is stored is read back (`Field.load_store_self`), and all
  others are read as before (`Field.load_store_ne`).

  What a ring leaves behind in a file is three stores, one for each counter of the header
  (`Memory.toFile_eq`).  The header then says what the ring's counters say and otherwise what it
  said before (`Header.decode_toFile`), and a ring that did nothing leaves the very bytes that it
  found (`Memory.toFile_ofFile`).
-/
import SharedRing.Proofs.SharedHeader

namespace SharedRing

/-! ## Reading and writing -/

namespace Bytes

variable {m m' : Bytes} {pos n : Nat}

/-- Only the bytes that are read matter. -/
theorem read_congr (h : ∀ i < n, m.byte (pos + i) = m'.byte (pos + i)) :
    m.read pos n = m'.read pos n :=
  List.map_congr_left fun i hi => h i (List.mem_range.1 hi)

theorem write_append (m : Bytes) (pos : Nat) (bs cs : List UInt8) :
    m.write pos (bs ++ cs) = (m.write pos bs).write (pos + bs.length) cs := by
  induction bs generalizing m pos with
  | nil => rfl
  | cons b rest ih =>
    rw [List.cons_append, write, ih, write, List.length_cons, Nat.add_right_comm, Nat.add_assoc]

/-- What was written is read back as a whole. -/
theorem read_write_self (m : Bytes) (pos : Nat) (bs : List UInt8)
    (hsize : pos + bs.length ≤ m.size) : (m.write pos bs).read pos bs.length = bs := by
  have h := m.read_write pos bs (i := 0) (n := bs.length) hsize (by omega)
  rwa [Nat.add_zero, List.drop_zero, List.take_length] at h

/-- Writing what stands there changes nothing. -/
theorem write_read_self (m : Bytes) (pos len : Nat) (hsize : pos + len ≤ m.size) :
    m.write pos (m.read pos len) = m := by
  refine ext_byte (size_write ..) fun i => ?_
  rw [byte_write _ _ _ _ (by rw [length_read]; exact hsize), length_read]
  split
  · rename_i hin
    rw [read, List.getD_eq_getElem?_getD, List.getElem?_map, List.getElem?_range (by omega),
      Option.map_some, Option.getD_some, Nat.add_sub_cancel' hin.1]
  · rfl

end Bytes

namespace Header

/-! ## Fields -/

inductive Field where
  | magic
  | version
  | capacity
  | unitSize
  | head
  | tail
  | signal
deriving DecidableEq, Repr

namespace Field

/-- Where a field begins. -/
def offset : Field → Nat
  | magic => 0
  | version => 8
  | capacity => 16
  | unitSize => 20
  | head => 24
  | tail => 28
  | signal => 32

/-- How many bytes a field has. -/
def width : Field → Nat
  | magic | version | signal => 8
  | capacity | unitSize | head | tail => 4

/-- The number in a field. -/
def load (f : Field) (b : Bytes) : Nat := LittleEndian.decode (b.read f.offset f.width)

/-- Puts a number into a field, as much of it as fits. -/
def store (f : Field) (n : Nat) (b : Bytes) : Bytes :=
  b.write f.offset (LittleEndian.encode f.width n)

variable (f : Field) {f' : Field} {b b' : Bytes} {n i : Nat}

/-- All fields lie within the header. -/
theorem stop_le_size : f.offset + f.width ≤ size := by cases f <;> decide

/-- No two fields share a byte. -/
theorem apart {f f' : Field} (hne : f' ≠ f) :
    f'.offset + f'.width ≤ f.offset ∨ f.offset + f.width ≤ f'.offset := by
  revert hne; cases f <;> cases f' <;> decide

theorem load_lt (b : Bytes) : f.load b < 256 ^ f.width := by
  have h := LittleEndian.decode_lt (b.read f.offset f.width)
  rwa [Bytes.length_read] at h

/-- Only a field's own bytes matter. -/
theorem load_congr (h : ∀ i, f.offset ≤ i → i < f.offset + f.width → b.byte i = b'.byte i) :
    f.load b = f.load b' :=
  congrArg LittleEndian.decode <| Bytes.read_congr fun i hi =>
    h (f.offset + i) (Nat.le_add_right _ _) (by omega)

@[simp] theorem size_store (n : Nat) (b : Bytes) : (f.store n b).size = b.size := Bytes.size_write ..

/-- Storing a field leaves all other bytes. -/
theorem byte_store_outside (hsize : size ≤ b.size)
    (hi : i < f.offset ∨ f.offset + f.width ≤ i) : (f.store n b).byte i = b.byte i := by
  have hstop := f.stop_le_size
  rw [store, Bytes.byte_write _ _ _ _ (by rw [LittleEndian.length_encode]; omega),
    LittleEndian.length_encode, if_neg (by omega)]

/-- **A field that was stored is read back.** -/
theorem load_store_self (n : Nat) (hsize : size ≤ b.size) :
    f.load (f.store n b) = n % 256 ^ f.width := by
  have hstop := f.stop_le_size
  have h := b.read_write_self f.offset (LittleEndian.encode f.width n)
    (by rw [LittleEndian.length_encode]; omega)
  rw [LittleEndian.length_encode] at h
  rw [load, store, h, LittleEndian.decode_encode]

/-- The other fields are read as before. -/
theorem load_store_ne (hne : f' ≠ f) (n : Nat) (hsize : size ≤ b.size) :
    f'.load (f.store n b) = f'.load b := by
  have hapart := apart hne
  exact f'.load_congr fun i hfirst hlast => f.byte_store_outside hsize (by omega)

/-- Storing what a field holds changes nothing. -/
theorem store_load_self (hsize : size ≤ b.size) : f.store (f.load b) b = b := by
  have hstop := f.stop_le_size
  have hbytes := LittleEndian.encode_decode (b.read f.offset f.width)
  rw [Bytes.length_read] at hbytes
  rw [store, load, hbytes, Bytes.write_read_self _ _ _ (by omega)]

end Field

/-! ## The header that a ring leaves behind -/

/-- A header is its fields, each as wide as it is. -/
theorem decode_eq_load (b : Bytes) : decode b =
    { magic := UInt64.ofNat (Field.magic.load b)
      version := UInt64.ofNat (Field.version.load b)
      capacity := UInt32.ofNat (Field.capacity.load b)
      unitSize := UInt32.ofNat (Field.unitSize.load b)
      head := UInt32.ofNat (Field.head.load b)
      tail := UInt32.ofNat (Field.tail.load b)
      signal := UInt64.ofNat (Field.signal.load b) } := rfl

end Header

namespace Memory

open Header (Field)

variable {m : Memory} {b : Bytes}

/-- A ring leaves three stores behind. -/
theorem toFile_eq (m : Memory) : m.toFile = Field.signal.store (m.signal 0).toNat
    (Field.tail.store (m.counter 1).toNat (Field.head.store (m.counter 0).toNat m.bytes)) := by
  rw [toFile, Bytes.write_append, Bytes.write_append, List.length_append,
    LittleEndian.length_encode, LittleEndian.length_encode]
  rfl

@[simp] theorem size_toFile (m : Memory) : m.toFile.size = m.bytes.size := Bytes.size_write ..

/-- Behind the header, and before its counters, there is only what the ring wrote itself. -/
theorem byte_toFile_outside (hsize : Header.size ≤ m.bytes.size) {i : Nat}
    (hi : i < Field.head.offset ∨ Header.size ≤ i) : m.toFile.byte i = m.bytes.byte i := by
  rw [toFile_eq, Field.byte_store_outside _ (by simpa using hsize)
      (hi.imp (fun h => Nat.lt_trans h (by decide)) (fun h => h)),
    Field.byte_store_outside _ (by simpa using hsize)
      (hi.imp (fun h => Nat.lt_trans h (by decide)) (fun h => Nat.le_trans (by decide) h)),
    Field.byte_store_outside _ hsize (hi.imp_right fun h => Nat.le_trans (by decide) h)]

/-- **The header after a ring has worked on a file**: the counters are the ring's, and all else is
    what the ring left of it. -/
theorem decode_toFile (hsize : Header.size ≤ m.bytes.size) :
    Header.decode m.toFile = (Header.decode m.bytes).collect m := by
  rw [toFile_eq, Header.decode_eq_load, Header.decode_eq_load]
  simp [Field.load_store_ne, Field.load_store_self, hsize, Header.collect, Field.width]

/-- A ring that did nothing leaves what it found. -/
theorem toFile_ofFile (hsize : Header.size ≤ b.size) : (ofFile b).toFile = b := by
  have h32 : ∀ f : Field, f.width = 4 → (UInt32.ofNat (f.load b)).toNat = f.load b := by
    intro f hf
    rw [UInt32.toNat_ofNat']
    exact Nat.mod_eq_of_lt (Nat.lt_of_lt_of_le (f.load_lt b) (by rw [hf]; decide))
  have h64 : (UInt64.ofNat (Field.signal.load b)).toNat = Field.signal.load b := by
    rw [UInt64.toNat_ofNat']
    exact Nat.mod_eq_of_lt (Nat.lt_of_lt_of_le (Field.signal.load_lt b) (by decide))
  have hhead : ((ofFile b).counter 0).toNat = Field.head.load b := h32 .head rfl
  have htail : ((ofFile b).counter 1).toNat = Field.tail.load b := h32 .tail rfl
  have hsignal : ((ofFile b).signal 0).toNat = Field.signal.load b := h64
  rw [toFile_eq, hhead, htail, hsignal]
  show Field.signal.store _ (Field.tail.store _ (Field.head.store _ b)) = b
  rw [Field.head.store_load_self hsize, Field.tail.store_load_self hsize,
    Field.signal.store_load_self hsize]

/-! The counters that another ring then sees. -/

theorem head_ofFile_toFile (hsize : Header.size ≤ m.bytes.size) :
    (ofFile m.toFile).counter 0 = m.counter 0 := congrArg Header.head (decode_toFile hsize)

theorem tail_ofFile_toFile (hsize : Header.size ≤ m.bytes.size) :
    (ofFile m.toFile).counter 1 = m.counter 1 := congrArg Header.tail (decode_toFile hsize)

theorem signal_ofFile_toFile (hsize : Header.size ≤ m.bytes.size) :
    (ofFile m.toFile).signal 0 = m.signal 0 := congrArg Header.signal (decode_toFile hsize)

end Memory

end SharedRing
