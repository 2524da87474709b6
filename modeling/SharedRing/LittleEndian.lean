/-
  Numbers as bytes, the lowest byte first.

  `encode` gives a fixed number of bytes and drops what does not fit; `decode` takes as many bytes as
  it is given.  The two undo each other on numbers that fit.
-/
namespace SharedRing.LittleEndian

/-- The `width` low bytes of a number. -/
def encode : Nat → Nat → List UInt8
  | 0, _ => []
  | width + 1, n => UInt8.ofNat n :: encode width (n / 256)

/-- The number that bytes stand for. -/
def decode : List UInt8 → Nat
  | [] => 0
  | b :: rest => b.toNat + 256 * decode rest

@[simp] theorem length_encode (width n : Nat) : (encode width n).length = width := by
  induction width generalizing n with
  | zero => rfl
  | succ width ih => rw [encode, List.length_cons, ih]

theorem encode_decode (bs : List UInt8) : encode bs.length (decode bs) = bs := by
  induction bs with
  | nil => rfl
  | cons b rest ih =>
    have hb : b.toNat < 256 := b.toNat_lt
    have hrest : (b.toNat + 256 * decode rest) / 256 = decode rest := by omega
    have hlow : UInt8.ofNat (b.toNat + 256 * decode rest) = b := by
      rw [← UInt8.toNat_inj, UInt8.toNat_ofNat']; omega
    rw [decode, List.length_cons, encode, hrest, ih, hlow]

example : encode 4 0x01020304 = [4, 3, 2, 1] := by decide

end SharedRing.LittleEndian
