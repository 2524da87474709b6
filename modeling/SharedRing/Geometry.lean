/-
  The geometry of a ring: how many units it holds, how many bytes a unit is, and where a counter
  points.

  Head and tail are 32-bit counters of *units*.  They only ever grow and wrap at `2 ^ 32`.  A ring of
  `capacity` units of `unitSize` bytes is `capacity * unitSize` bytes long, which need not be a power
  of two although the capacity always is.  The power of two is what makes the wrap harmless: the
  capacity divides `2 ^ 32`, so a counter taken modulo the capacity does not notice it.

  Byte quantities are 64-bit words, as the machine computes them.  A counter and a unit size are both
  below `2 ^ 32`, so their product fits.  The laws at the end of this file say that the words below
  are the exact numbers.
-/
import SharedRing.Refusal

namespace SharedRing

/-! ## Capacity and unit size -/

/-- The shape of a ring.  Both facts that every transfer relies on are part of the value: the
    capacity is a power of two, and a unit is not empty. -/
structure Geometry where
  capacity : UInt32
  unitSize : UInt32
  capacity_isPowerOfTwo : capacity.toNat.isPowerOfTwo
  unitSize_ne_zero : unitSize ≠ 0
deriving DecidableEq

namespace Geometry

/-- The capacity of a ring that was given none. -/
def standardCapacity : UInt32 := 1024

/-- A ring that was given no geometry holds `standardCapacity` units of one byte. -/
def standard : Geometry where
  capacity := standardCapacity
  unitSize := 1
  capacity_isPowerOfTwo := ⟨10, rfl⟩
  unitSize_ne_zero := by decide

instance : Inhabited Geometry := ⟨standard⟩

/-- Another capacity, if it is a power of two; zero is none. -/
def resize (g : Geometry) (value : UInt32) : Except Refusal Geometry :=
  if h : value.toNat.isPowerOfTwo then
    .ok { g with capacity := value, capacity_isPowerOfTwo := h }
  else .error (.badCapacity value)

/-- Another number of bytes per unit, if it is not zero. -/
def rescale (g : Geometry) (value : UInt32) : Except Refusal Geometry :=
  if h : value ≠ 0 then .ok { g with unitSize := value, unitSize_ne_zero := h }
  else .error .emptyUnit

/-- A geometry with the given capacity and units of one byte. -/
def ofCapacity (capacity : UInt32) : Except Refusal Geometry := standard.resize capacity

/-- A geometry from two numbers.  The capacity is looked at first. -/
def ofNumbers (capacity unitSize : UInt32) : Except Refusal Geometry := do
  (← ofCapacity capacity).rescale unitSize

/-! ## Bytes -/

/-- The bytes of so many units.  The count is widened before the product is taken, so that a counter
    near `2 ^ 32` does not overflow. -/
def bytesOf (g : Geometry) (units : UInt32) : UInt64 := units.toUInt64 * g.unitSize.toUInt64

/-- The length of the ring in bytes. -/
def size (g : Geometry) : UInt64 := g.bytesOf g.capacity

/-- A length without the bytes that do not fill a unit. -/
def truncate (g : Geometry) (len : UInt64) : UInt64 := len - len % g.unitSize.toUInt64

/-- The whole units that a length holds. -/
def unitsIn (g : Geometry) (len : UInt64) : UInt32 := (len / g.unitSize.toUInt64).toUInt32

/-- How far `front` is ahead of `behind`, in bytes.  The counters wrap, so their difference is taken
    in 32 bits before it is widened. -/
def gap (g : Geometry) (behind front : UInt32) : UInt64 := g.bytesOf (front - behind)

/-- Where in the ring the byte with this number since the beginning lies. -/
def position (g : Geometry) (bytes : UInt64) : UInt64 := bytes % g.size

/-- Where in the ring the unit with this number lies. -/
def unitPosition (g : Geometry) (units : UInt32) : UInt64 := g.position (g.bytesOf units)

/-! ## The words are exact

    Every law below trades a word for the number that it stands for, so that no later proof has to
    think about overflow again. -/

variable (g : Geometry)

theorem unitSize_pos : 0 < g.unitSize.toNat := by
  have h : g.unitSize.toNat ≠ (0 : UInt32).toNat := fun e =>
    g.unitSize_ne_zero (UInt32.toNat_inj.1 e)
  exact Nat.pos_of_ne_zero (by simpa using h)

theorem capacity_pos : 0 < g.capacity.toNat := by
  obtain ⟨k, hk⟩ := g.capacity_isPowerOfTwo
  rw [hk]; exact Nat.pow_pos (by decide)

/-- Two words of 32 bits have a product of at most 64. -/
theorem mul_lt_word (a b : UInt32) : a.toNat * b.toNat < UInt64.size := by
  have ha : a.toNat ≤ 2 ^ 32 - 1 := Nat.le_pred_of_lt a.toNat_lt
  have hb : b.toNat ≤ 2 ^ 32 - 1 := Nat.le_pred_of_lt b.toNat_lt
  exact Nat.lt_of_le_of_lt (Nat.mul_le_mul ha hb) (by decide)

theorem toNat_bytesOf (u : UInt32) : (g.bytesOf u).toNat = u.toNat * g.unitSize.toNat := by
  have h := mul_lt_word u g.unitSize
  simp only [bytesOf, UInt64.toNat_mul, UInt32.toNat_toUInt64]
  exact Nat.mod_eq_of_lt h

theorem toNat_size : g.size.toNat = g.capacity.toNat * g.unitSize.toNat :=
  g.toNat_bytesOf g.capacity

theorem size_pos : 0 < g.size.toNat := by
  rw [toNat_size]; exact Nat.mul_pos g.capacity_pos g.unitSize_pos

theorem toNat_truncate (len : UInt64) :
    (g.truncate len).toNat = len.toNat / g.unitSize.toNat * g.unitSize.toNat := by
  have hle : len % g.unitSize.toUInt64 ≤ len := by
    rw [UInt64.le_iff_toNat_le, UInt64.toNat_mod]; exact Nat.mod_le _ _
  have hdiv := Nat.div_add_mod len.toNat g.unitSize.toNat
  rw [truncate, UInt64.toNat_sub_of_le _ _ hle, UInt64.toNat_mod, UInt32.toNat_toUInt64,
    Nat.mul_comm (len.toNat / g.unitSize.toNat)]
  omega

theorem toNat_unitPosition (u : UInt32) :
    (g.unitPosition u).toNat = u.toNat * g.unitSize.toNat % g.size.toNat := by
  rw [unitPosition, position, UInt64.toNat_mod, toNat_bytesOf]

example : (standard.resize 48).toOption = none := by decide
example : (standard.rescale 3).toOption.map size = some 3072 := by decide

end Geometry

end SharedRing
