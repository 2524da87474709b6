/-
  How much every transfer moves, in whole numbers of units.

  The plans are worked out in 64-bit words, by clamping and truncating.  Here each of them is one
  formula over `Nat`, for all values of the two counters, possible or not: with `d` units between
  head and tail, a write has room for `capacity - 1 - d` of them, a read finds `min d capacity`, and
  what is offered, asked for or left before the end of the ring only makes that less.

  A plan that a reader or a writer may hold is then described once, as a number of whole units from
  its counter on (`IsRun`), and each of the five plans is shown to be such a run.
-/
import SharedRing.Proofs.Places

namespace SharedRing

/-- Whole units of the smaller of two lengths are the smaller number of whole units. -/
theorem min_div_unit (a b s : Nat) : min a b / s = min (a / s) (b / s) := by
  rcases Nat.le_total a b with h | h
  · rw [Nat.min_eq_left h, Nat.min_eq_left (Nat.div_le_div_right h)]
  · rw [Nat.min_eq_right h, Nat.min_eq_right (Nat.div_le_div_right h)]

/-! ## The words of a plan are exact -/

namespace Geometry

variable (g : Geometry) (head tail : UInt32)

theorem toNat_pending :
    (g.pending head tail).toNat = (tail - head).toNat * g.unitSize.toNat := g.toNat_bytesOf _

/-- The free bytes are what the capacity leaves beside the pending units and the one that is always
    kept empty. -/
theorem toNat_free : (g.free head tail).toNat
    = (g.capacity.toNat - 1 - (tail - head).toNat) * g.unitSize.toNat := by
  rw [free, toNat_remaining, toNat_remaining, toNat_size, toNat_pending, UInt32.toNat_toUInt64,
    Nat.sub_right_comm, Nat.sub_mul, Nat.sub_mul, Nat.one_mul]

theorem isWhole_iff (len : UInt64) : g.isWhole len = true
    ↔ 0 < len.toNat ∧ g.unitSize.toNat ∣ len.toNat := by
  have htrunc : g.truncate len = len ↔ g.unitSize.toNat ∣ len.toNat := by
    rw [← UInt64.toNat_inj, toNat_truncate]
    constructor
    · intro h
      rw [← h]; exact Nat.dvd_mul_left _ _
    · intro h
      exact Nat.div_mul_cancel h
  have hzero : len ≠ 0 ↔ 0 < len.toNat := by
    rw [ne_eq, ← UInt64.toNat_inj, UInt64.toNat_zero, Nat.pos_iff_ne_zero]
  rw [isWhole, Bool.and_eq_true, bne_iff_ne, beq_iff_eq, hzero, htrunc]

theorem toNat_unitsIn_of_le {len : UInt64} (h : len.toNat ≤ g.size.toNat) :
    (g.unitsIn len).toNat = len.toNat / g.unitSize.toNat := by
  have hunits : len.toNat / g.unitSize.toNat ≤ g.capacity.toNat := by
    rw [toNat_size] at h
    exact Nat.div_le_of_le_mul (by rw [Nat.mul_comm]; exact h)
  have hword := g.capacity.toNat_lt
  rw [unitsIn, UInt64.toNat_toUInt32, UInt64.toNat_div, UInt32.toNat_toUInt64]
  exact Nat.mod_eq_of_lt (by omega)

end Geometry

/-! ## Every plan as a formula -/

namespace Transfer

/-- The plan for so many bytes from a unit on; none for no bytes. -/
def ofLength (g : Geometry) (u : UInt32) (n : Nat) : Option Transfer :=
  if n = 0 then none else some (starting g u (UInt64.ofNat n))

variable (g : Geometry) (head tail : UInt32)

theorem whole?_eq (u : UInt32) (available : UInt64) :
    whole? g u available
      = ofLength g u (available.toNat / g.unitSize.toNat * g.unitSize.toNat) := by
  have hlen := g.toNat_truncate available
  have hzero : g.truncate available = 0 ↔ (g.truncate available).toNat = 0 := by
    rw [← UInt64.toNat_inj, UInt64.toNat_zero]
  simp only [whole?, ofLength, ← hlen, hzero, UInt64.ofNat_toNat]

/-- A write moves what is offered, as far as there is room. -/
theorem write?_eq (offered : Nat) : write? g head tail offered
    = ofLength g tail (min (offered / g.unitSize.toNat)
        (g.capacity.toNat - 1 - (tail - head).toNat) * g.unitSize.toNat) := by
  rw [write?, whole?_eq, toNat_atMost, min_div_unit, Geometry.toNat_free,
    Nat.mul_div_cancel _ g.unitSize_pos]

/-- The units that a read moves: what is there and fits into the buffer, and no more than was asked
    for if that was anything. -/
def readUnits (g : Geometry) (pending room : Nat) (count : Option UInt64) : Nat :=
  let there := min (min pending g.capacity.toNat) (room / g.unitSize.toNat)
  match count with
  | some n => if n = 0 then there else min there (n.toNat / g.unitSize.toNat)
  | none => there

theorem read?_eq (room : Nat) (count : Option UInt64) : read? g head tail room count
    = ofLength g head (readUnits g (tail - head).toNat room count * g.unitSize.toNat) := by
  have hthere : (atMost g.size.toNat (g.pending head tail)).toNat / g.unitSize.toNat
      = min (tail - head).toNat g.capacity.toNat := by
    rw [toNat_atMost, Geometry.toNat_pending, Geometry.toNat_size, min_div_unit,
      Nat.mul_div_cancel _ g.unitSize_pos, Nat.mul_div_cancel _ g.unitSize_pos, Nat.min_comm]
  unfold read?
  simp only [whole?_eq, toNat_atMost room, min_div_unit]
  congr 2
  cases count with
  | none => rw [hthere, readUnits, Nat.min_comm]
  | some n =>
    by_cases hn : n = 0
    · -- zero asks for all there is
      simp only [readUnits, if_pos hn, hthere, Nat.min_comm]
    · simp only [readUnits, if_neg hn]
      rw [toNat_atMost, min_div_unit, hthere]
      omega

/-- A view covers what is there before the end of the ring. -/
theorem view?_eq : view? g head tail
    = ofLength g head (min ((tail - head).toNat * g.unitSize.toNat)
        (g.size.toNat - g.place head 0)) := by
  have hend := Nat.div_mul_cancel (g.unitSize_dvd_toEnd head)
  have hthere := Nat.mul_div_cancel (tail - head).toNat g.unitSize_pos
  rw [view?, whole?_eq, toNat_atMost, min_div_unit, Geometry.toNat_pending, hthere,
    ← Nat.mul_min_mul_right, hend, Geometry.toNat_toEnd, Nat.min_comm]

theorem exactly?_eq (u : UInt32) (available len : UInt64) : exactly? g u available len
    = if (0 < len.toNat ∧ g.unitSize.toNat ∣ len.toNat)
          ∧ len.toNat ≤ min available.toNat (g.size.toNat - g.place u 0) then
        some (starting g u len)
      else none := by
  simp only [exactly?, Bool.and_eq_true, decide_eq_true_eq, Geometry.isWhole_iff,
    UInt64.le_iff_toNat_le, toNat_atMost, Geometry.toNat_toEnd, Nat.min_comm]

/-- Exactly `len` bytes can be reserved if they are whole units, and if they are free before the end
    of the ring. -/
theorem reserve?_eq (len : UInt64) : reserve? g head tail len
    = if (0 < len.toNat ∧ g.unitSize.toNat ∣ len.toNat) ∧ len.toNat
          ≤ min ((g.capacity.toNat - 1 - (tail - head).toNat) * g.unitSize.toNat)
              (g.size.toNat - g.place tail 0) then
        some (starting g tail len)
      else none := by
  rw [reserve?, exactly?_eq, Geometry.toNat_free]

/-- Exactly `len` bytes can be viewed if they are whole units, and if they are there before the end
    of the ring. -/
theorem viewOf?_eq (len : UInt64) : viewOf? g head tail len
    = if (0 < len.toNat ∧ g.unitSize.toNat ∣ len.toNat) ∧ len.toNat
          ≤ min ((tail - head).toNat * g.unitSize.toNat) (g.size.toNat - g.place head 0) then
        some (starting g head len)
      else none := by
  rw [viewOf?, exactly?_eq, Geometry.toNat_pending]

/-! ## Plans are runs of units -/

/-- The plan for `k` units from a unit on: some, and no more than a ring. -/
structure IsRun (g : Geometry) (u : UInt32) (k : Nat) (t : Transfer) : Prop where
  eq_starting : t = starting g u t.len
  len_eq : t.len.toNat = k * g.unitSize.toNat
  pos : 0 < k
  fits : k ≤ g.capacity.toNat

namespace IsRun

variable {g : Geometry} {u : UInt32} {k : Nat} {t : Transfer}

theorem len_le_size (h : IsRun g u k t) : t.len.toNat ≤ g.size.toNat := by
  rw [h.len_eq, Geometry.toNat_size]; exact Nat.mul_le_mul_right _ h.fits

theorem unitSize_dvd_len (h : IsRun g u k t) : g.unitSize.toNat ∣ t.len.toNat := by
  rw [h.len_eq]; exact Nat.dvd_mul_left _ _

theorem len_pos (h : IsRun g u k t) : 0 < t.len.toNat := by
  rw [h.len_eq]; exact Nat.mul_pos h.pos g.unitSize_pos

theorem places_eq (h : IsRun g u k t) :
    t.places = (List.range (k * g.unitSize.toNat)).map (g.place u) := by
  rw [h.eq_starting, places_starting g u t.len h.len_le_size, h.len_eq]

theorem length_places (h : IsRun g u k t) : t.places.length = t.len.toNat := by
  rw [h.places_eq, List.length_map, List.length_range, h.len_eq]

theorem places_lt (h : IsRun g u k t) {p : Nat} (hp : p ∈ t.places) : p < g.size.toNat := by
  rw [h.places_eq, List.mem_map] at hp
  obtain ⟨i, -, rfl⟩ := hp
  exact g.place_lt u i

/-- The counter value that completes a run is `k` units further. -/
theorem next_eq (h : IsRun g u k t) : t.next = u + UInt32.ofNat k := by
  have hunits : g.unitsIn t.len = UInt32.ofNat k := by
    rw [← UInt32.toNat_inj, g.toNat_unitsIn_of_le h.len_le_size, h.len_eq,
      Nat.mul_div_cancel _ g.unitSize_pos, g.toNat_ofNat_of_le_capacity h.fits]
  rw [h.eq_starting, starting, hunits]

end IsRun

/-- A plan that was made is the run that it was to be. -/
theorem IsRun.of_cases {g : Geometry} {u : UInt32} {k : Nat} {plan : Option Transfer}
    {t : Transfer} (hcases : (k = 0 ∧ plan = none) ∨ ∃ t, plan = some t ∧ IsRun g u k t)
    (hplan : plan = some t) : IsRun g u k t := by
  rcases hcases with ⟨-, hnone⟩ | ⟨t', ht', run⟩
  · rw [hnone] at hplan
    contradiction
  · obtain rfl : t' = t := Option.some.inj (ht'.symm.trans hplan)
    exact run

theorem ofLength_cases (g : Geometry) (u : UInt32) {k : Nat} (hk : k ≤ g.capacity.toNat) :
    (k = 0 ∧ ofLength g u (k * g.unitSize.toNat) = none)
      ∨ ∃ t, ofLength g u (k * g.unitSize.toNat) = some t ∧ IsRun g u k t := by
  have hs := g.unitSize_pos
  rcases Nat.eq_zero_or_pos k with rfl | hpos
  · exact Or.inl ⟨rfl, by rw [ofLength, if_pos (Nat.zero_mul _)]⟩
  · -- the length is a product of two words of 32 bits, so 64 bits hold it
    have hne : k * g.unitSize.toNat ≠ 0 := Nat.ne_of_gt (Nat.mul_pos hpos hs)
    have hword : k * g.unitSize.toNat < 2 ^ 64 :=
      Nat.lt_of_le_of_lt (Nat.mul_le_mul_right _ hk) (Geometry.mul_lt_word _ _)
    refine Or.inr ⟨starting g u (UInt64.ofNat (k * g.unitSize.toNat)),
      by rw [ofLength, if_neg hne], ?_, ?_, hpos, hk⟩
    · rfl
    · show (UInt64.ofNat (k * g.unitSize.toNat)).toNat = _
      rw [UInt64.toNat_ofNat', Nat.mod_eq_of_lt hword]

/-- What a write plans: nothing, or the run of units that it has room for. -/
theorem write?_cases (offered : Nat) {k : Nat}
    (hk : k = min (offered / g.unitSize.toNat) (g.capacity.toNat - 1 - (tail - head).toNat)) :
    (k = 0 ∧ write? g head tail offered = none)
      ∨ ∃ t, write? g head tail offered = some t ∧ IsRun g tail k t := by
  rw [write?_eq, ← hk]
  exact ofLength_cases g tail (by omega)

theorem readUnits_le (pending room : Nat) (count : Option UInt64) :
    readUnits g pending room count ≤ min pending g.capacity.toNat := by
  cases count with
  | none => exact Nat.min_le_left _ _
  | some n =>
    by_cases hn : n = 0
    · simp only [readUnits, if_pos hn]; exact Nat.min_le_left _ _
    · simp only [readUnits, if_neg hn]; omega

/-- What a read plans: nothing, or a run of units. -/
theorem read?_cases (room : Nat) (count : Option UInt64) {k : Nat}
    (hk : k = readUnits g (tail - head).toNat room count) :
    (k = 0 ∧ read? g head tail room count = none)
      ∨ ∃ t, read? g head tail room count = some t ∧ IsRun g head k t := by
  have hle := readUnits_le g (tail - head).toNat room count
  rw [read?_eq, ← hk]
  exact ofLength_cases g head (by omega)

/-- What a view plans: nothing, or the run of units that are there before the end of the ring. -/
theorem view?_cases {k : Nat} (hk : k = min (tail - head).toNat
      ((g.size.toNat - g.place head 0) / g.unitSize.toNat)) :
    (k = 0 ∧ view? g head tail = none) ∨ ∃ t, view? g head tail = some t ∧ IsRun g head k t := by
  -- units do not straddle the end of the ring, so what lies before it is whole units already
  have hend : (g.size.toNat - g.place head 0) / g.unitSize.toNat * g.unitSize.toNat
      = g.size.toNat - g.place head 0 :=
    Nat.div_mul_cancel (Nat.dvd_sub g.unitSize_dvd_size (g.unitSize_dvd_place_zero head))
  have hle : (g.size.toNat - g.place head 0) / g.unitSize.toNat ≤ g.capacity.toNat :=
    Nat.div_le_of_le_mul (by rw [Nat.mul_comm, ← g.toNat_size]; exact Nat.sub_le _ _)
  have hbytes : min ((tail - head).toNat * g.unitSize.toNat) (g.size.toNat - g.place head 0)
      = k * g.unitSize.toNat := by
    rw [hk, ← Nat.mul_min_mul_right, hend]
  rw [view?_eq, hbytes]
  exact ofLength_cases g head (by omega)

/-- A whole number of units within a ring is a run. -/
theorem isRun_starting (g : Geometry) (u : UInt32) {len : UInt64}
    (hwhole : 0 < len.toNat ∧ g.unitSize.toNat ∣ len.toNat) (hle : len.toNat ≤ g.size.toNat) :
    IsRun g u (len.toNat / g.unitSize.toNat) (starting g u len) where
  eq_starting := rfl
  len_eq := (Nat.div_mul_cancel hwhole.2).symm
  pos := Nat.div_pos (Nat.le_of_dvd hwhole.1 hwhole.2) g.unitSize_pos
  fits := Nat.div_le_of_le_mul (by rw [Nat.mul_comm, ← g.toNat_size]; exact hle)

/-- What is reserved or viewed exactly: all the bytes that were asked for, before the end of the
    ring. -/
theorem isRun_of_exactly? {g : Geometry} {u : UInt32} {available len : UInt64} {t : Transfer}
    (hplan : exactly? g u available len = some t) :
    t.len = len ∧ IsRun g u (len.toNat / g.unitSize.toNat) t
      ∧ len.toNat ≤ min available.toNat (g.size.toNat - g.place u 0) := by
  rw [exactly?_eq, Option.ite_none_right_eq_some] at hplan
  obtain ⟨⟨hwhole, hle⟩, hsome⟩ := hplan
  obtain rfl := Option.some.inj hsome
  have hring : len.toNat ≤ g.size.toNat :=
    Nat.le_trans hle (Nat.le_trans (Nat.min_le_right _ _) (Nat.sub_le _ _))
  exact ⟨rfl, isRun_starting g u hwhole hring, hle⟩

end Transfer

end SharedRing
