/-
  Where the bytes of a ring lie.

  A counter names a unit.  Counted from there, byte `i` of the ring lies at `place u i`, and all that
  wraps is inside this one function: the end of the ring, since a place is a remainder by the size,
  and the end of the counters, since the capacity divides `2 ^ 32` (`place_add`).  Less than a ring
  apart, two bytes have different places (`place_inj`), and every offset of the ring is the place of
  some byte, whatever unit one counts from (`exists_place`).

  The spans of a plan are nothing but places in order (`Transfer.places_starting`), one span if they
  end before the ring does and two if not.  What gathering and scattering do to memory is then said
  place by place.
-/
import Mathlib
import SharedRing.Halves

namespace SharedRing

/-! ## Places -/

/-- The powers of two that a word holds. -/
theorem UInt32.isPowerOfTwo_iff (v : UInt32) :
    v.toNat.isPowerOfTwo ↔ ∃ k < 32, v.toNat = 2 ^ k := by
  constructor
  · rintro ⟨k, hk⟩
    have hlt : 2 ^ k < 2 ^ 32 := by rw [← hk]; exact v.toNat_lt
    exact ⟨k, (Nat.pow_lt_pow_iff_right (by decide)).1 hlt, hk⟩
  · rintro ⟨k, -, hk⟩
    exact ⟨k, hk⟩

namespace Geometry

variable (g : Geometry)

/-- Where in the ring byte `i` from a unit on lies. -/
def place (u : UInt32) (i : Nat) : Nat := (u.toNat * g.unitSize.toNat + i) % g.size.toNat

theorem place_lt (u : UInt32) (i : Nat) : g.place u i < g.size.toNat := Nat.mod_lt _ g.size_pos

theorem toNat_unitPosition_eq_place (u : UInt32) : (g.unitPosition u).toNat = g.place u 0 := by
  rw [toNat_unitPosition, place, Nat.add_zero]

/-- A capacity is a power of two that fits a word. -/
theorem capacity_eq_pow : ∃ k < 32, g.capacity.toNat = 2 ^ k :=
  (UInt32.isPowerOfTwo_iff _).1 g.capacity_isPowerOfTwo

/-- The whole range of a counter is a number of rings: a power of two that fits a word divides what
    the word can count to. -/
theorem capacity_dvd : g.capacity.toNat ∣ 2 ^ 32 := by
  obtain ⟨k, hk32, hk⟩ := g.capacity_eq_pow
  rw [hk]; exact Nat.pow_dvd_pow 2 (Nat.le_of_lt hk32)

/-- Units of a ring can be counted in a word. -/
theorem toNat_ofNat_of_le_capacity {k : Nat} (hk : k ≤ g.capacity.toNat) :
    (UInt32.ofNat k).toNat = k := by
  have hword := g.capacity.toNat_lt
  rw [UInt32.toNat_ofNat']; exact Nat.mod_eq_of_lt (by omega)

/-- A ring is less than half as long as a word can count. -/
theorem toNat_size_lt : g.size.toNat < 2 ^ 63 := by
  have hcapacity : g.capacity.toNat ≤ 2 ^ 31 := by
    obtain ⟨k, hk32, hk⟩ := g.capacity_eq_pow
    rw [hk]; exact Nat.pow_le_pow_right (by decide) (by omega)
  have hunit : g.unitSize.toNat < 2 ^ 32 := g.unitSize.toNat_lt
  calc g.size.toNat = g.capacity.toNat * g.unitSize.toNat := g.toNat_size
    _ ≤ 2 ^ 31 * g.unitSize.toNat := Nat.mul_le_mul_right _ hcapacity
    _ < 2 ^ 31 * 2 ^ 32 := Nat.mul_lt_mul_of_pos_left hunit (by decide)
    _ = 2 ^ 63 := by norm_num

theorem size_dvd : g.size.toNat ∣ 2 ^ 32 * g.unitSize.toNat := by
  rw [toNat_size]; exact Nat.mul_dvd_mul_right g.capacity_dvd _

theorem unitSize_dvd_size : g.unitSize.toNat ∣ g.size.toNat := by
  rw [toNat_size]; exact Nat.dvd_mul_left _ _

/-- Any number of units may be passed, also more than a counter can count. -/
theorem place_add_ofNat (u : UInt32) (k i : Nat) :
    g.place (u + UInt32.ofNat k) i = g.place u (k * g.unitSize.toNat + i) := by
  have hcounter : (u + UInt32.ofNat k).toNat ≡ u.toNat + k [MOD 2 ^ 32] := by
    rw [UInt32.toNat_add, UInt32.toNat_ofNat', Nat.add_mod_mod]
    exact Nat.mod_modEq _ _
  -- where the counter has wrapped, the bytes are off by whole rings only
  have hbytes : (u + UInt32.ofNat k).toNat * g.unitSize.toNat
      ≡ (u.toNat + k) * g.unitSize.toNat [MOD g.size.toNat] :=
    (hcounter.mul_right' _).of_dvd g.size_dvd
  rw [Nat.add_mul] at hbytes
  rw [place, place, ← Nat.add_assoc]
  exact hbytes.add_right i

/-- **No counter notices its wrap.**  Byte `i` from unit `u + v` on is the byte that lies `v` units
    further from `u`, also if `u + v` has started again from zero. -/
theorem place_add (u v : UInt32) (i : Nat) :
    g.place (u + v) i = g.place u (v.toNat * g.unitSize.toNat + i) := by
  rw [← place_add_ofNat, UInt32.ofNat_toNat]

/-- A place counts on from the first one. -/
theorem place_eq_mod (u : UInt32) (i : Nat) :
    g.place u i = (g.place u 0 + i) % g.size.toNat := by
  rw [place, place, Nat.add_zero, Nat.mod_add_mod]

/-- A place goes back to the beginning of the ring at its end. -/
theorem place_eq (u : UInt32) (i : Nat) (hi : i ≤ g.size.toNat) :
    g.place u i = if g.place u 0 + i < g.size.toNat then g.place u 0 + i
      else g.place u 0 + i - g.size.toNat := by
  have hfirst := g.place_lt u 0
  rw [place_eq_mod]
  split
  · exact Nat.mod_eq_of_lt (by assumption)
  · rw [Nat.mod_eq_sub_mod (by omega), Nat.mod_eq_of_lt (by omega)]

/-- Less than a ring apart no two bytes share a place. -/
theorem place_inj (u : UInt32) {i j : Nat} (hi : i < g.size.toNat) (hj : j < g.size.toNat)
    (h : g.place u i = g.place u j) : i = j := by
  rw [g.place_eq u i (Nat.le_of_lt hi), g.place_eq u j (Nat.le_of_lt hj)] at h
  have hfirst := g.place_lt u 0
  -- two bytes on the same side of the end differ as their numbers do; on different sides they would
  -- be a whole ring apart
  split at h <;> split at h <;> omega

/-- Every offset of the ring is the place of a byte, counted from any unit. -/
theorem exists_place (u : UInt32) {p : Nat} (hp : p < g.size.toNat) :
    ∃ i, i < g.size.toNat ∧ g.place u i = p := by
  have hfirst := g.place_lt u 0
  rcases Nat.lt_or_ge p (g.place u 0) with hlt | hge
  · -- the unit begins behind `p`, which is met again after the end of the ring
    refine ⟨p + g.size.toNat - g.place u 0, by omega, ?_⟩
    rw [g.place_eq u _ (by omega), if_neg (by omega)]; omega
  · refine ⟨p - g.place u 0, by omega, ?_⟩
    rw [g.place_eq u _ (by omega), if_pos (by omega)]; omega

/-- Units begin at multiples of their size. -/
theorem unitSize_dvd_place_zero (u : UInt32) : g.unitSize.toNat ∣ g.place u 0 := by
  rw [place, Nat.add_zero]
  exact (Nat.dvd_mod_iff g.unitSize_dvd_size).2 (Nat.dvd_mul_left _ _)

theorem toNat_toEnd (u : UInt32) : (g.toEnd u).toNat = g.size.toNat - g.place u 0 := by
  have hle : g.unitPosition u ≤ g.size := by
    rw [UInt64.le_iff_toNat_le, toNat_unitPosition_eq_place]
    exact Nat.le_of_lt (g.place_lt u 0)
  rw [toEnd, UInt64.toNat_sub_of_le _ _ hle, toNat_unitPosition_eq_place]

/-- What passes the end of the ring, in bytes. -/
theorem toNat_sub_toEnd (u : UInt32) {len : UInt64} (hlt : g.toEnd u < len) :
    (len - g.toEnd u).toNat = len.toNat - (g.toEnd u).toNat :=
  UInt64.toNat_sub_of_le _ _ (UInt64.le_iff_toNat_le.2 (Nat.le_of_lt (UInt64.lt_iff_toNat_lt.1 hlt)))

theorem not_toEnd_lt_iff (u : UInt32) {len : UInt64} :
    ¬ g.toEnd u < len ↔ len.toNat ≤ (g.toEnd u).toNat := by
  rw [UInt64.lt_iff_toNat_lt, Nat.not_lt]

theorem unitSize_dvd_toEnd (u : UInt32) : g.unitSize.toNat ∣ (g.toEnd u).toNat := by
  rw [toNat_toEnd]
  exact Nat.dvd_sub g.unitSize_dvd_size (g.unitSize_dvd_place_zero u)

end Geometry

/-! ## The places of a plan -/

namespace Transfer

/-- The offsets that a plan covers, in order. -/
def places (t : Transfer) : List Nat := t.spans.flatMap fun s => List.range' s.start s.len

/-- A plan of at most a ring covers the first places from its unit on. -/
theorem places_starting (g : Geometry) (u : UInt32) (len : UInt64)
    (hlen : len.toNat ≤ g.size.toNat) :
    (starting g u len).places = (List.range len.toNat).map (g.place u) := by
  have hfirst := g.place_lt u 0
  have hend := g.toNat_toEnd u
  have hpos := g.toNat_unitPosition_eq_place u
  simp only [places, starting]
  split
  · rename_i hlt
    have hsub := g.toNat_sub_toEnd u hlt
    rw [UInt64.lt_iff_toNat_lt] at hlt
    have hsplit : len.toNat = (g.toEnd u).toNat + (len.toNat - (g.toEnd u).toNat) := by omega
    rw [List.flatMap_cons, List.flatMap_singleton, hsub, hpos]
    conv => rhs; rw [hsplit, List.range_add, List.map_append, List.map_map]
    rw [List.range'_eq_map_range, List.range'_eq_map_range]
    congr 1
    · -- before the end of the ring
      refine List.map_congr_left ?_
      intro i hi
      have hi : i < (g.toEnd u).toNat := List.mem_range.1 hi
      rw [g.place_eq u i (by omega), if_pos (by omega)]
    · -- behind it: these places are counted from the beginning of the ring
      refine List.map_congr_left ?_
      intro i hi
      have hi : i < len.toNat - (g.toEnd u).toNat := List.mem_range.1 hi
      rw [Function.comp, g.place_eq u _ (by omega), if_neg (by omega)]
      show 0 + i = _
      omega
  · rename_i hge
    rw [g.not_toEnd_lt_iff] at hge
    rw [List.flatMap_singleton, List.range'_eq_map_range, hpos]
    refine List.map_congr_left ?_
    intro i hi
    have hi : i < len.toNat := List.mem_range.1 hi
    rw [g.place_eq u i (by omega), if_pos (by omega)]

end Transfer

/-! ## Memory, place by place -/

namespace Bytes

/-- Puts bytes at offsets, one after the other, as long as there are both. -/
def putAll (m : Bytes) (base : Nat) : List Nat → List UInt8 → Bytes
  | p :: places, b :: data => putAll (m.set (base + p) b) base places data
  | _, _ => m

theorem putAll_nil (m : Bytes) (base : Nat) (places : List Nat) : m.putAll base places [] = m := by
  cases places <;> rfl

/-- Writing a run of bytes is putting each in its place. -/
theorem write_eq_putAll (m : Bytes) (base start len : Nat) (rest : List Nat) (data : List UInt8) :
    m.putAll base (List.range' start len ++ rest) data
      = (m.write (base + start) (data.take len)).putAll base rest (data.drop len) := by
  -- the data may end before the run of offsets does, and then nothing is left to put
  induction len generalizing m start data with
  | zero => rfl
  | succ len ih =>
    cases data with
    | nil => rw [putAll_nil, List.drop_nil, putAll_nil]; rfl
    | cons b data =>
      rw [List.range'_succ, List.cons_append, putAll, ih, List.take_succ_cons, write,
        List.drop_succ_cons, Nat.add_assoc]

/-- Filling spans is putting bytes at the places they cover. -/
theorem scatter_eq_putAll (m : Bytes) (base : Nat) (spans : List Span) (data : List UInt8) :
    m.scatter base spans data
      = m.putAll base (spans.flatMap fun s => List.range' s.start s.len) data := by
  induction spans generalizing m data with
  | nil => rfl
  | cons s rest ih => rw [scatter, ih, List.flatMap_cons, write_eq_putAll]

/-- What spans hold is what the places they cover hold. -/
theorem gather_eq_map (m : Bytes) (base : Nat) (spans : List Span) :
    m.gather base spans
      = (spans.flatMap fun s => List.range' s.start s.len).map fun p => m.byte (base + p) := by
  rw [gather, List.map_flatMap]
  congr 1; funext s
  rw [read, List.range'_eq_map_range, List.map_map]
  refine List.map_congr_left ?_
  intro i _
  rw [Function.comp, Nat.add_assoc]

end Bytes

namespace Halves

/-- `n` bytes of the ring from a unit on, past its end as often as they reach it. -/
def stretch (h : Halves) (m : Memory) (u : UInt32) (n : Nat) : List UInt8 :=
  (List.range n).map fun i => m.bytes.byte (h.region.offset + h.geometry.place u i)

@[simp] theorem length_stretch (h : Halves) (m : Memory) (u : UInt32) (n : Nat) :
    (h.stretch m u n).length = n := by
  rw [stretch, List.length_map, List.length_range]

theorem getElem_stretch (h : Halves) (m : Memory) (u : UInt32) {n i : Nat}
    (hi : i < (h.stretch m u n).length) :
    (h.stretch m u n)[i] = m.bytes.byte (h.region.offset + h.geometry.place u i) := by
  simp only [stretch, List.getElem_map, List.getElem_range]

/-- A stretch is what its bytes are. -/
theorem stretch_congr (h : Halves) {m m' : Memory} (u : UInt32) (n : Nat)
    (hsame : ∀ i, i < n → m'.bytes.byte (h.region.offset + h.geometry.place u i)
      = m.bytes.byte (h.region.offset + h.geometry.place u i)) :
    h.stretch m' u n = h.stretch m u n :=
  List.map_congr_left fun i hi => hsame i (List.mem_range.1 hi)

theorem take_stretch (h : Halves) (m : Memory) (u : UInt32) {k n : Nat} (hk : k ≤ n) :
    (h.stretch m u n).take k = h.stretch m u k := by
  rw [stretch, ← List.map_take, List.take_range, Nat.min_eq_left hk, stretch]

/-- A stretch goes on at the unit behind the units that it has passed. -/
theorem stretch_add (h : Halves) (m : Memory) (u v : UInt32) (n : Nat) :
    h.stretch m u (v.toNat * h.geometry.unitSize.toNat + n)
      = h.stretch m u (v.toNat * h.geometry.unitSize.toNat) ++ h.stretch m (u + v) n := by
  rw [stretch, List.range_add, List.map_append, List.map_map]
  refine congrArg _ (List.map_congr_left ?_)
  intro i _
  rw [Function.comp, Geometry.place_add]

/-- A plan of at most a ring covers the stretch from its unit on. -/
theorem contents_starting (h : Halves) (m : Memory) (u : UInt32) (len : UInt64)
    (hlen : len.toNat ≤ h.geometry.size.toNat) :
    h.contents (.starting h.geometry u len) m = h.stretch m u len.toNat := by
  have hplaces := Transfer.places_starting h.geometry u len hlen
  rw [Transfer.places] at hplaces
  rw [contents, Bytes.gather_eq_map, hplaces, List.map_map, stretch]; rfl

end Halves

/-- In a ring of four units of three bytes the last unit that a counter can name begins at offset 9,
    and the byte after its three is the first of the ring. -/
example : ((Geometry.ofNumbers 4 3).toOption.map fun g =>
    (g.place 0xFFFFFFFF 0, g.place 0xFFFFFFFF 3)) = some (9, 0) := by decide

end SharedRing
