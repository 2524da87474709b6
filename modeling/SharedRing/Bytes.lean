/-
  Bytes by index.

  Memory that is mapped from a file can be far larger than all that is ever written to it.  So only
  the first bytes are kept one by one, and beyond them a byte is kept if it is not zero.  Both parts
  have one form for the same bytes, so bytes that read alike are equal (`ext_byte`).

  The operations are total: a byte outside reads as zero and is never written.  What they do is said
  byte by byte (`byte_zeros`, `byte_set`, `byte_write`, `byte_grow`), and nothing else need be known
  about the two parts.
-/
import Std.Data.ExtTreeMap.Lemmas

namespace SharedRing

/-- Below this index every byte is kept, from it on those that are not zero. -/
def Bytes.nearLimit : Nat := 0x100000

/-- So many bytes. -/
structure Bytes where
  size : Nat
  near : Array UInt8
  far : Std.ExtTreeMap Nat UInt8
  size_near : near.size = min size Bytes.nearLimit
  far_inside : ∀ i : Nat, i ∈ far → Bytes.nearLimit ≤ i ∧ i < size
  far_ne_zero : ∀ i : Nat, far[i]? ≠ some 0

namespace Bytes

/-! ## Making, reading, writing -/

/-- Zero bytes. -/
def zeros (len : Nat) : Bytes where
  size := len
  near := Array.replicate (min len nearLimit) 0
  far := ∅
  size_near := Array.size_replicate
  far_inside := by simp
  far_ne_zero := by simp

instance : Inhabited Bytes := ⟨zeros 0⟩

/-- The byte at an index. -/
def byte (m : Bytes) (i : Nat) : UInt8 :=
  if i < nearLimit then m.near.getD i 0 else m.far.getD i 0

/-- Puts one byte in place. -/
def set (m : Bytes) (i : Nat) (b : UInt8) : Bytes :=
  if hnear : i < nearLimit then
    { m with
      near := m.near.setIfInBounds i b
      size_near := by rw [Array.size_setIfInBounds, m.size_near] }
  else if hzero : b = 0 then
    { m with
      far := m.far.erase i
      far_inside := fun j hj => m.far_inside j (Std.ExtTreeMap.mem_of_mem_erase hj)
      far_ne_zero := fun j => by
        have := m.far_ne_zero j
        grind }
  else if hsize : i < m.size then
    { m with
      far := m.far.insert i b
      far_inside := fun j hj => by
        have := m.far_inside j
        grind
      far_ne_zero := fun j => by
        have := m.far_ne_zero j
        grind }
  else m

/-- The `len` bytes from `pos` on. -/
def read (m : Bytes) (pos len : Nat) : List UInt8 :=
  (List.range len).map fun i => m.byte (pos + i)

/-- Puts bytes in place from `pos` on. -/
def write (m : Bytes) (pos : Nat) : List UInt8 → Bytes
  | [] => m
  | b :: rest => write (m.set pos b) (pos + 1) rest

/-- The same bytes and zeros behind them, so that they are `len` at least. -/
def grow (m : Bytes) (len : Nat) : Bytes where
  size := max m.size len
  near := m.near ++ Array.replicate (min len nearLimit - m.near.size) 0
  far := m.far
  size_near := by
    have := m.size_near
    rw [Array.size_append, Array.size_replicate]
    omega
  far_inside := fun i hi => by
    have := m.far_inside i hi
    omega
  far_ne_zero := m.far_ne_zero

def ofList (bs : List UInt8) : Bytes := (zeros bs.length).write 0 bs

def toList (m : Bytes) : List UInt8 := m.read 0 m.size

def toByteArray (m : Bytes) : ByteArray := ⟨m.toList.toArray⟩

/-! ## Sizes -/

@[simp] theorem size_zeros (len : Nat) : (zeros len).size = len := rfl

@[simp] theorem size_set (m : Bytes) (i : Nat) (b : UInt8) : (m.set i b).size = m.size := by
  unfold set
  split
  · rfl
  · split
    · rfl
    · split <;> rfl

@[simp] theorem size_write (m : Bytes) (pos : Nat) (bs : List UInt8) :
    (m.write pos bs).size = m.size := by
  induction bs generalizing m pos with
  | nil => rfl
  | cons b rest ih => rw [write, ih, size_set]

@[simp] theorem size_grow (m : Bytes) (len : Nat) : (m.grow len).size = max m.size len := rfl

@[simp] theorem size_ofList (bs : List UInt8) : (ofList bs).size = bs.length := by
  rw [ofList, size_write, size_zeros]

@[simp] theorem length_read (m : Bytes) (pos len : Nat) : (m.read pos len).length = len := by
  simp [read]

/-! ## Byte by byte -/

/-- Nothing lies outside. -/
theorem byte_outside (m : Bytes) {i : Nat} (h : m.size ≤ i) : m.byte i = 0 := by
  have hnear := m.size_near
  have hfar := m.far_inside i
  unfold byte
  split
  · rw [Array.getD_eq_getD_getElem?, Array.getElem?_eq_none (by omega)]; rfl
  · rw [Std.ExtTreeMap.getD_eq_fallback (fun hmem => by have := hfar hmem; omega)]

@[simp] theorem byte_zeros (len i : Nat) : (zeros len).byte i = 0 := by
  unfold byte zeros
  split
  · rw [Array.getD_eq_getD_getElem?, Array.getElem?_replicate]
    split <;> rfl
  · exact Std.ExtTreeMap.getD_empty

/-- The byte that was put in place, and the others as they were. -/
theorem byte_set (m : Bytes) (pos i : Nat) (b : UInt8) (h : pos < m.size) :
    (m.set pos b).byte i = if i = pos then b else m.byte i := by
  have hsize := m.size_near
  unfold set
  split
  · rename_i hpos
    simp only [byte, Array.getD_eq_getD_getElem?, Array.getElem?_setIfInBounds]
    by_cases hi : i = pos
    · subst hi
      have hin : i < m.near.size := by omega
      simp [hpos, hin]
    · simp [hi, Ne.symm hi]
  · rename_i hpos
    by_cases hi : i = pos
    · subst hi
      split
      · rename_i hb
        simp [byte, hpos, hb]
      · simp [byte, hpos]
    · have hne : compare pos i ≠ .eq := by rw [ne_eq, Nat.compare_eq_eq]; exact Ne.symm hi
      split
      · simp [byte, Std.ExtTreeMap.getD_erase, hne]
      · simp [byte, Std.ExtTreeMap.getD_insert, hne]

/-- Reading back: inside the written span the new bytes, outside it the old ones. -/
theorem byte_write (m : Bytes) (pos i : Nat) (bs : List UInt8) (h : pos + bs.length ≤ m.size) :
    (m.write pos bs).byte i
      = if pos ≤ i ∧ i < pos + bs.length then bs.getD (i - pos) 0 else m.byte i := by
  induction bs generalizing m pos with
  | nil =>
    have hout : ¬ (pos ≤ i ∧ i < pos + ([] : List UInt8).length) := by
      simp only [List.length_nil]
      omega
    rw [write, if_neg hout]
  | cons b rest ih =>
    simp only [List.length_cons] at h ⊢
    have hpos : pos < m.size := by omega
    rw [write, ih _ _ (by rw [size_set]; omega), byte_set m pos i b hpos]
    by_cases hi : i = pos
    · subst hi
      rw [if_neg (by omega), if_pos rfl, if_pos (by omega), Nat.sub_self]; rfl
    · by_cases hin : pos + 1 ≤ i ∧ i < pos + 1 + rest.length
      · rw [if_pos hin, if_pos (by omega), show i - pos = (i - (pos + 1)) + 1 from by omega]; rfl
      · rw [if_neg hin, if_neg hi, if_neg (by omega)]

/-- What is new is zero, as it was before. -/
@[simp] theorem byte_grow (m : Bytes) (len i : Nat) : (m.grow len).byte i = m.byte i := by
  simp only [byte, grow, Array.getD_eq_getD_getElem?, Array.getElem?_append]
  split
  · split
    · rfl
    · rename_i hout
      rw [Array.getElem?_replicate, Array.getElem?_eq_none (by omega)]
      split <;> rfl
  · rfl

theorem byte_ofList (bs : List UInt8) (i : Nat) : (ofList bs).byte i = bs.getD i 0 := by
  rw [ofList, byte_write _ _ _ _ (by simp), byte_zeros]
  split
  · simp
  · rename_i hout
    rw [List.getD_eq_getElem?_getD, List.getElem?_eq_none (by omega)]; rfl

/-- Bytes that read alike are equal. -/
theorem ext_byte {m n : Bytes} (hsize : m.size = n.size) (h : ∀ i, m.byte i = n.byte i) :
    m = n := by
  obtain ⟨size, near, far, size_near, far_inside, far_ne_zero⟩ := m
  obtain ⟨size', near', far', size_near', far_inside', far_ne_zero'⟩ := n
  subst hsize
  have hnear : near = near' := by
    apply Array.ext (by rw [size_near, size_near'])
    intro i hi hi'
    have := h i
    simp only [byte] at this
    rw [if_pos (by omega), if_pos (by omega)] at this
    simpa [Array.getD, hi, hi'] using this
  have hfar : far = far' := by
    apply Std.ExtTreeMap.ext_getElem?
    intro i
    have := h i
    simp only [byte] at this
    by_cases hi : i < nearLimit
    · rw [Std.ExtTreeMap.getElem?_eq_none fun hmem => by have := far_inside i hmem; omega,
        Std.ExtTreeMap.getElem?_eq_none fun hmem => by have := far_inside' i hmem; omega]
    · rw [if_neg hi, if_neg hi, Std.ExtTreeMap.getD_eq_getD_getElem?,
        Std.ExtTreeMap.getD_eq_getD_getElem?] at this
      have := far_ne_zero i
      have := far_ne_zero' i
      grind
  subst hnear hfar
  rfl

/-- A file of a million millions of bytes, of which one was written. -/
example : ((zeros (10 ^ 12)).set (10 ^ 11) 7).byte (10 ^ 11) = 7 := by
  rw [byte_set _ _ _ _ (by decide), if_pos rfl]

end Bytes

end SharedRing
