/-
  How the units of a ring lie side by side.

  A writer goes by the position of the tail and a reader by the position of the head, and a position
  is one function of a counter.  It joins two things that wrap at different ends: counters at
  `2 ^ 32`, and offsets at the size of the ring, which need not be a power of two.  They fit because
  the capacity divides `2 ^ 32` (`place_add`).

  So it does not matter which unit one counts from.  The units from there on, as many as the ring
  holds (`lap`), begin at the multiples of the unit size, each at one of its own (`nodup_lap`,
  `mem_lap_iff`).  None of them passes the end of the ring, and each byte of the ring belongs to
  exactly one (`existsUnique_owner`).
-/
import SharedRing.Proofs.Places

namespace SharedRing

/-- Of the multiples of `s` the one that a division finds is the greatest that does not pass `n`. -/
theorem isGreatest_div_mul {s : Nat} (hs : 0 < s) (n : Nat) :
    IsGreatest {m | s ∣ m ∧ m ≤ n} (n / s * s) := by
  refine ⟨⟨Nat.dvd_mul_left _ _, Nat.div_mul_le_self _ _⟩, ?_⟩
  rintro m ⟨⟨k, rfl⟩, hle⟩
  rw [Nat.mul_comm] at hle ⊢
  exact Nat.mul_le_mul_right s ((Nat.le_div_iff_mul_le hs).2 hle)

namespace Geometry

variable (g : Geometry)

/-! ## One unit -/

/-- The unit `n` further on begins `n` units further on, and if that passes the end of the ring, so
    much behind its beginning. -/
theorem toNat_unitPosition_add (x n : UInt32) : (g.unitPosition (x + n)).toNat
    = ((g.unitPosition x).toNat + n.toNat * g.unitSize.toNat) % g.size.toNat := by
  rw [toNat_unitPosition_eq_place, toNat_unitPosition_eq_place, place_add, Nat.add_zero, place_eq_mod]

theorem unitSize_dvd_unitPosition (x : UInt32) :
    g.unitSize.toNat ∣ (g.unitPosition x).toNat := by
  rw [toNat_unitPosition_eq_place]
  exact g.unitSize_dvd_place_zero x

/-- No unit passes the end of the ring. -/
theorem unitPosition_add_unitSize_le (x : UInt32) :
    (g.unitPosition x).toNat + g.unitSize.toNat ≤ g.size.toNat := by
  have hlt : (g.unitPosition x).toNat < g.size.toNat := by
    rw [toNat_unitPosition_eq_place]
    exact g.place_lt x 0
  have hend : g.unitSize.toNat ∣ (g.unitPosition x).toNat + g.unitSize.toNat :=
    Nat.dvd_add_self_right.2 (g.unitSize_dvd_unitPosition x)
  exact Nat.le_of_lt_add_of_dvd (Nat.add_lt_add_right hlt _) hend g.unitSize_dvd_size

/-- The byte at this offset belongs to this unit. -/
def Owns (u : UInt32) (p : Nat) : Prop :=
  (g.unitPosition u).toNat ≤ p ∧ p < (g.unitPosition u).toNat + g.unitSize.toNat

variable {g} in
/-- The unit that has a byte begins at the last multiple of the unit size that does not pass it. -/
theorem Owns.isGreatest {u : UInt32} {p : Nat} (h : g.Owns u p) :
    IsGreatest {m | g.unitSize.toNat ∣ m ∧ m ≤ p} (g.unitPosition u).toNat := by
  refine ⟨⟨g.unitSize_dvd_unitPosition u, h.1⟩, ?_⟩
  rintro m ⟨hdvd, hle⟩
  exact Nat.le_of_lt_add_of_dvd (Nat.lt_of_le_of_lt hle h.2) hdvd (g.unitSize_dvd_unitPosition u)

/-! ## As many units as the ring holds -/

/-- Where the units of a ring begin, as many as it holds, from a unit on. -/
def lap (x : UInt32) : List Nat :=
  (List.range g.capacity.toNat).map fun i => (g.unitPosition (x + UInt32.ofNat i)).toNat

variable (x : UInt32)

theorem toNat_unitPosition_ofNat (i : Nat) :
    (g.unitPosition (x + UInt32.ofNat i)).toNat = g.place x (i * g.unitSize.toNat) := by
  rw [toNat_unitPosition_eq_place, place_add_ofNat, Nat.add_zero]

theorem unitPosition_inj {i j : Nat} (hi : i < g.capacity.toNat) (hj : j < g.capacity.toNat)
    (h : (g.unitPosition (x + UInt32.ofNat i)).toNat = (g.unitPosition (x + UInt32.ofNat j)).toNat) :
    i = j := by
  have hbytes : ∀ k < g.capacity.toNat, k * g.unitSize.toNat < g.size.toNat := by
    intro k hk
    rw [toNat_size]
    exact Nat.mul_lt_mul_of_pos_right hk g.unitSize_pos
  rw [toNat_unitPosition_ofNat, toNat_unitPosition_ofNat] at h
  exact Nat.eq_of_mul_eq_mul_right g.unitSize_pos (g.place_inj x (hbytes i hi) (hbytes j hj) h)

theorem nodup_lap : (g.lap x).Nodup := by
  refine List.Nodup.map_on ?_ List.nodup_range
  intro i hi j hj h
  exact g.unitPosition_inj x (List.mem_range.1 hi) (List.mem_range.1 hj) h

/-- Every multiple of the unit size is where a unit begins. -/
theorem exists_unitPosition {p : Nat} (hdvd : g.unitSize.toNat ∣ p) (hp : p < g.size.toNat) :
    ∃ i < g.capacity.toNat, (g.unitPosition (x + UInt32.ofNat i)).toNat = p := by
  obtain ⟨n, hn, rfl⟩ := g.exists_place x hp
  -- the byte that lies there is counted from `x` on by whole units, since places are
  have hwhole : g.unitSize.toNat ∣ n := by
    rw [place_eq_mod, Nat.dvd_mod_iff g.unitSize_dvd_size] at hdvd
    exact (Nat.dvd_add_right (g.unitSize_dvd_place_zero x)).1 hdvd
  obtain ⟨i, rfl⟩ := hwhole
  refine ⟨i, ?_, ?_⟩
  · rw [toNat_size, Nat.mul_comm] at hn
    exact Nat.lt_of_mul_lt_mul_right hn
  · rw [toNat_unitPosition_ofNat, Nat.mul_comm]

theorem mem_lap_iff (p : Nat) : p ∈ g.lap x ↔ g.unitSize.toNat ∣ p ∧ p < g.size.toNat := by
  constructor
  · intro hp
    obtain ⟨i, -, rfl⟩ := List.mem_map.1 hp
    have hend := g.unitPosition_add_unitSize_le (x + UInt32.ofNat i)
    have hunit := g.unitSize_pos
    exact ⟨g.unitSize_dvd_unitPosition _, by omega⟩
  · rintro ⟨hdvd, hp⟩
    obtain ⟨i, hi, rfl⟩ := g.exists_unitPosition x hdvd hp
    exact List.mem_map.2 ⟨i, List.mem_range.2 hi, rfl⟩

/-- Each byte of the ring belongs to one unit of a lap, and to no other. -/
theorem existsUnique_owner {p : Nat} (hp : p < g.size.toNat) :
    ∃! i, i < g.capacity.toNat ∧ g.Owns (x + UInt32.ofNat i) p := by
  have hlast := isGreatest_div_mul g.unitSize_pos p
  obtain ⟨i, hi, hposition⟩ :=
    g.exists_unitPosition x hlast.1.1 (Nat.lt_of_le_of_lt hlast.1.2 hp)
  have howns : g.Owns (x + UInt32.ofNat i) p := by
    rw [Owns, hposition]
    exact ⟨hlast.1.2, Nat.lt_div_mul_add g.unitSize_pos⟩
  refine ⟨i, ⟨hi, howns⟩, ?_⟩
  rintro j ⟨hj, hother⟩
  exact g.unitPosition_inj x hj hi (hother.isGreatest.unique howns.isGreatest)

/-! ## The ring -/

/-- How the units of a ring lie in it, and how bytes are counted in units. -/
structure Tiled : Prop where
  size_eq : g.size.toNat = g.capacity.toNat * g.unitSize.toNat
  /-- the offset counts on with the counter, also where either of them wraps -/
  position_add : ∀ x n : UInt32, (g.unitPosition (x + n)).toNat
    = ((g.unitPosition x).toNat + n.toNat * g.unitSize.toNat) % g.size.toNat
  /-- a unit lies in one piece, at a multiple of its size -/
  unitSize_dvd : ∀ x : UInt32, g.unitSize.toNat ∣ (g.unitPosition x).toNat
  position_add_le : ∀ x : UInt32, (g.unitPosition x).toNat + g.unitSize.toNat ≤ g.size.toNat
  /-- whichever unit one counts from, the units of a lap begin at all these offsets, each at one of
      its own -/
  nodup : ∀ x : UInt32, (g.lap x).Nodup
  mem_iff : ∀ (x : UInt32) (p : Nat), p ∈ g.lap x ↔ g.unitSize.toNat ∣ p ∧ p < g.size.toNat
  /-- and leave no byte out and share none -/
  owner : ∀ (x : UInt32) (p : Nat), p < g.size.toNat →
    ∃! i, i < g.capacity.toNat ∧ g.Owns (x + UInt32.ofNat i) p
  /-- the bytes between two counters are those of the units between them -/
  gap_eq : ∀ x n : UInt32, (g.gap x (x + n)).toNat = n.toNat * g.unitSize.toNat
  /-- truncating leaves as many whole units as there are -/
  truncate_isGreatest : ∀ len : UInt64,
    IsGreatest {m | g.unitSize.toNat ∣ m ∧ m ≤ len.toNat} (g.truncate len).toNat

/-- **Units tile the ring**, whatever its capacity and its unit size, and whatever number the
    counters have come to. -/
theorem units_tile_ring : g.Tiled where
  size_eq := g.toNat_size
  position_add := g.toNat_unitPosition_add
  unitSize_dvd := g.unitSize_dvd_unitPosition
  position_add_le := g.unitPosition_add_unitSize_le
  nodup := g.nodup_lap
  mem_iff := g.mem_lap_iff
  owner := fun x _ hp => g.existsUnique_owner x hp
  gap_eq := by
    intro x n
    rw [gap, add_sub_cancel_left, toNat_bytesOf]
  truncate_isGreatest := by
    intro len
    rw [toNat_truncate]
    exact isGreatest_div_mul g.unitSize_pos len.toNat

/-- Four units of three bytes, counted past the end of the counters. -/
example : ((ofNumbers 4 3).toOption.map fun g => g.lap 0xFFFFFFFE) = some [6, 9, 0, 3] := by decide

end Geometry

end SharedRing
