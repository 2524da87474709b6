/-
  The bytes that wait in a ring, and what a transfer does to them.

  Between head and tail lie the bytes that were published and not yet released: `unread`.  As long as
  at most `capacity - 1` units wait (`InOrder`), everything a half does is a small change of this one
  list.  Bytes put behind the tail leave it alone (`unread_fill`), publishing them appends them
  (`unread_publish`), and releasing takes from its front (`unread_release`).

  The reason is always the same.  The tail's unit is the unit behind the waiting ones, so byte `i`
  from the tail is byte `occupied * unitSize + i` from the head (`place_tail`); and what fits into
  the free units stays less than a ring away from the head, so that no place is met twice.
-/
import SharedRing.Proofs.Plans
import SharedRing.Ring

namespace SharedRing

/-! ## One byte at a time -/

namespace Bytes

/-- Putting a byte anywhere leaves the other bytes, even where there is no place for it. -/
theorem byte_set_of_ne (m : Bytes) {pos i : Nat} (b : UInt8) (h : i ≠ pos) :
    (m.set pos b).byte i = m.byte i := by
  rcases Nat.lt_or_ge pos m.size with hin | hout
  · rw [byte_set m pos i b hin, if_neg h]
  · have hsize : (m.set pos b).size = m.size := size_set m pos b
    rcases Nat.lt_or_ge i m.size with hi | hi
    · -- a byte that is stored is one of an array or one of a tree; only `pos` is written in either
      have hne : compare pos i ≠ .eq := by rw [ne_eq, Nat.compare_eq_eq]; exact Ne.symm h
      unfold set
      split
      · simp [byte, Ne.symm h]
      · split
        · simp [byte, Std.ExtTreeMap.getD_erase, hne]
        · rw [dif_neg (by omega)]
    · rw [byte_outside _ (by omega), byte_outside _ hi]

theorem byte_putAll_of_notMem (m : Bytes) (base : Nat) (places : List Nat) (data : List UInt8)
    {j : Nat} (h : ∀ p ∈ places, j ≠ base + p) :
    (m.putAll base places data).byte j = m.byte j := by
  induction places generalizing m data with
  | nil => rfl
  | cons p places ih =>
    cases data with
    | nil => rfl
    | cons b data =>
      rw [putAll, ih _ _ fun q hq => h q (List.mem_cons_of_mem p hq),
        byte_set_of_ne m b (h p List.mem_cons_self)]

end Bytes

/-! ## Counters a few units apart -/

/-- Moving the front counter on adds to the distance. -/
theorem toNat_add_sub (front behind : UInt32) {k : Nat}
    (hk : (front - behind).toNat + k < 2 ^ 32) :
    (front + UInt32.ofNat k - behind).toNat = (front - behind).toNat + k := by
  have hfront := front.toNat_lt
  have hbehind := behind.toNat_lt
  rw [UInt32.toNat_sub] at hk ⊢
  -- three remainders by `2 ^ 32`; the new distance is still below it, so none of them shows
  rw [UInt32.toNat_sub, UInt32.toNat_add, UInt32.toNat_ofNat']
  omega

/-- Moving the counter behind on takes from the distance. -/
theorem toNat_sub_add (front behind : UInt32) {k : Nat} (hk : k ≤ (front - behind).toNat) :
    (front - (behind + UInt32.ofNat k)).toNat = (front - behind).toNat - k := by
  have hfront := front.toNat_lt
  have hbehind := behind.toNat_lt
  rw [UInt32.toNat_sub] at hk ⊢
  rw [UInt32.toNat_sub, UInt32.toNat_add, UInt32.toNat_ofNat']
  omega

namespace Halves

variable {h : Halves} {m : Memory}

/-! ## Rings in order -/

/-- How many units wait between head and tail. -/
def occupied (h : Halves) (m : Memory) : Nat := (h.tailCount m - h.headCount m).toNat

/-- The bytes between head and tail, in the order in which they were published. -/
def unread (h : Halves) (m : Memory) : List UInt8 :=
  h.stretch m (h.headCount m) (h.occupied m * h.geometry.unitSize.toNat)

/-- Halves whose ring lies in the memory, with a counter for the head and another for the tail, and
    one unit at least free. -/
structure InOrder (h : Halves) (m : Memory) : Prop where
  ring_le_region : h.geometry.size.toNat ≤ h.region.len
  region_le_memory : h.region.offset + h.region.len ≤ m.bytes.size
  head_ne_tail : h.head ≠ h.tail
  occupied_le : h.occupied m ≤ h.geometry.capacity.toNat - 1

/-- A ring that could be split lies inside its region. -/
theorem ring_le_region_of_split {r : Ring} (split : r.halves = .ok h) :
    h.geometry.size.toNat ≤ h.region.len := by
  unfold Ring.halves Ring.counters Ring.bound at split
  -- whatever is not bound is refused, and so is a region that is too short
  cases hhead : r.head with
  | none => rw [hhead] at split; nomatch split
  | some head =>
    cases htail : r.tail with
    | none => rw [hhead, htail] at split; nomatch split
    | some tail =>
      cases hregion : r.region with
      | none => rw [hhead, htail, hregion] at split; nomatch split
      | some region =>
        rw [hhead, htail, hregion] at split
        rcases Nat.lt_or_ge region.len r.geometry.size.toNat with hshort | hlong
        · simp only [bind, Except.bind, pure, Except.pure, if_pos hshort] at split
          nomatch split
        · simp only [bind, Except.bind, pure, Except.pure, if_neg (Nat.not_lt.2 hlong)] at split
          rw [← Except.ok.inj split]; exact hlong

theorem length_unread (h : Halves) (m : Memory) :
    (h.unread m).length = h.occupied m * h.geometry.unitSize.toNat := length_stretch ..

theorem toNat_pending (h : Halves) (m : Memory) : (h.pending m).toNat = (h.unread m).length := by
  rw [length_unread]; exact h.geometry.toNat_pending _ _

theorem InOrder.ring_le_memory (ok : h.InOrder m) :
    h.region.offset + h.geometry.size.toNat ≤ m.bytes.size := by
  have := ok.ring_le_region
  have := ok.region_le_memory
  omega

theorem InOrder.occupied_lt (ok : h.InOrder m) : h.occupied m < h.geometry.capacity.toNat := by
  have := ok.occupied_le
  have := h.geometry.capacity_pos
  omega

/-- From the head it is so far to the tail. -/
theorem headCount_add (h : Halves) (m : Memory) :
    h.headCount m + (h.tailCount m - h.headCount m) = h.tailCount m := by
  rw [UInt32.add_comm, UInt32.sub_add_cancel]

/-- Counted from the head, the tail's unit is the unit behind the waiting ones. -/
theorem place_tail (h : Halves) (m : Memory) (i : Nat) : h.geometry.place (h.tailCount m) i
    = h.geometry.place (h.headCount m) (h.occupied m * h.geometry.unitSize.toNat + i) := by
  conv => lhs; rw [← headCount_add]
  exact h.geometry.place_add _ _ _

/-- Bytes of the free units and bytes that wait have no place in common. -/
theorem place_tail_ne_place_head {k i j : Nat} (hk : h.occupied m + k ≤ h.geometry.capacity.toNat)
    (hi : i < k * h.geometry.unitSize.toNat)
    (hj : j < h.occupied m * h.geometry.unitSize.toNat) :
    h.geometry.place (h.tailCount m) i ≠ h.geometry.place (h.headCount m) j := by
  have hring : h.occupied m * h.geometry.unitSize.toNat + k * h.geometry.unitSize.toNat
      ≤ h.geometry.size.toNat := by
    rw [← Nat.add_mul, Geometry.toNat_size]; exact Nat.mul_le_mul_right _ hk
  intro heq
  rw [place_tail] at heq
  have := h.geometry.place_inj _ (by omega) (by omega) heq
  omega

/-! ## What the steps of a transfer leave alone -/

@[simp] theorem headCount_fill (t : Transfer) (data : List UInt8) :
    h.headCount (h.fill t data m) = h.headCount m := rfl

@[simp] theorem tailCount_fill (t : Transfer) (data : List UInt8) :
    h.tailCount (h.fill t data m) = h.tailCount m := rfl

@[simp] theorem size_bytes_fill (t : Transfer) (data : List UInt8) :
    (h.fill t data m).bytes.size = m.bytes.size := Bytes.size_scatter ..

@[simp] theorem bytes_publish (t : Transfer) : (h.publish t m).bytes = m.bytes := rfl

@[simp] theorem bytes_release (t : Transfer) : (h.release t m).bytes = m.bytes := rfl

@[simp] theorem tailCount_publish (t : Transfer) : h.tailCount (h.publish t m) = t.next :=
  Cells.load_store_self _ _ _

@[simp] theorem headCount_release (t : Transfer) : h.headCount (h.release t m) = t.next :=
  Cells.load_store_self _ _ _

theorem headCount_publish (hne : h.head ≠ h.tail) (t : Transfer) :
    h.headCount (h.publish t m) = h.headCount m := Cells.load_store_ne _ _ hne

theorem tailCount_release (hne : h.head ≠ h.tail) (t : Transfer) :
    h.tailCount (h.release t m) = h.tailCount m := Cells.load_store_ne _ _ (Ne.symm hne)

theorem stretch_publish (t : Transfer) (u : UInt32) (n : Nat) :
    h.stretch (h.publish t m) u n = h.stretch m u n := rfl

theorem stretch_release (t : Transfer) (u : UInt32) (n : Nat) :
    h.stretch (h.release t m) u n = h.stretch m u n := rfl

/-! ## What a run holds -/

theorem contents_run {u : UInt32} {k : Nat} {t : Transfer} (run : t.IsRun h.geometry u k) :
    h.contents t m = h.stretch m u (k * h.geometry.unitSize.toNat) := by
  rw [← run.len_eq]
  conv => lhs; rw [run.eq_starting]
  exact h.contents_starting m u t.len run.len_le_size

theorem length_contents {u : UInt32} {k : Nat} {t : Transfer} (run : t.IsRun h.geometry u k) :
    (h.contents t m).length = t.len.toNat := by
  rw [contents_run run, length_stretch, run.len_eq]

/-! ## Filling -/

/-- Filling a plan puts bytes at its places. -/
theorem bytes_fill (t : Transfer) (data : List UInt8) :
    (h.fill t data m).bytes = m.bytes.putAll h.region.offset t.places data :=
  Bytes.scatter_eq_putAll ..

/-- Bytes away from the places of a plan stay when it is filled. -/
theorem byte_fill_of_notMem (t : Transfer) (data : List UInt8) {j : Nat}
    (hj : ∀ p ∈ t.places, j ≠ h.region.offset + p) :
    (h.fill t data m).bytes.byte j = m.bytes.byte j := by
  rw [bytes_fill]; exact Bytes.byte_putAll_of_notMem _ _ _ _ hj

/-- Putting bytes from the one numbered `start` on, place after place. -/
theorem byte_putAll_places (g : Geometry) (u : UInt32) (base : Nat) (m : Bytes) (start n : Nat)
    (data : List UInt8) (hmem : base + g.size.toNat ≤ m.size) (hn : start + n ≤ g.size.toNat)
    {i : Nat} (hi : i < g.size.toNat) :
    (m.putAll base ((List.range' start n).map (g.place u)) data).byte (base + g.place u i)
      = if start ≤ i ∧ i < start + min n data.length then data.getD (i - start) 0
        else m.byte (base + g.place u i) := by
  -- the induction moves `start` on, so that byte `i` lies before it, at it, or behind it
  induction n generalizing start m data with
  | zero => rw [if_neg (by omega)]; rfl
  | succ n ih =>
    cases data with
    | nil => rw [Bytes.putAll_nil, if_neg (by simp only [List.length_nil]; omega)]
    | cons b data =>
      have hplace := g.place_lt u start
      -- only byte `start` has the place that is put first
      have hne : i ≠ start → base + g.place u i ≠ base + g.place u start := by
        intro hother heq
        exact hother (g.place_inj u hi (by omega) (Nat.add_left_cancel heq))
      rw [List.range'_succ, List.map_cons, Bytes.putAll,
        ih _ _ _ (by rw [Bytes.size_set]; exact hmem) (by omega),
        Bytes.byte_set _ _ _ _ (by omega), List.length_cons]
      rcases Nat.lt_trichotomy i start with hlt | rfl | hgt
      · rw [if_neg (by omega), if_neg (hne (by omega)), if_neg (by omega)]
      · rw [if_neg (by omega), if_pos rfl, if_pos (by omega), Nat.sub_self]; rfl
      · by_cases hin : i < start + 1 + min n data.length
        · rw [if_pos ⟨hgt, hin⟩, if_pos (by omega),
            show i - start = (i - (start + 1)) + 1 from by omega]; rfl
        · rw [if_neg (by omega), if_neg (hne (by omega)), if_neg (by omega)]

/-- Byte `i` of a run after it was filled: a new one as far as the data reached. -/
theorem byte_fill_place {u : UInt32} {k : Nat} {t : Transfer}
    (hmem : h.region.offset + h.geometry.size.toNat ≤ m.bytes.size)
    (run : t.IsRun h.geometry u k) (data : List UInt8) {i : Nat} (hi : i < t.len.toNat) :
    (h.fill t data m).bytes.byte (h.region.offset + h.geometry.place u i)
      = if i < data.length then data.getD i 0
        else m.bytes.byte (h.region.offset + h.geometry.place u i) := by
  have hring := run.len_le_size
  rw [bytes_fill, run.places_eq, List.range_eq_range', ← run.len_eq,
    byte_putAll_places _ _ _ _ _ _ _ hmem (by omega) (by omega), Nat.sub_zero]
  by_cases hin : i < data.length
  · rw [if_pos (by omega), if_pos hin]
  · rw [if_neg (by omega), if_neg hin]

/-- What a run holds after it was filled. -/
theorem contents_fill {u : UInt32} {k : Nat} {t : Transfer}
    (hmem : h.region.offset + h.geometry.size.toNat ≤ m.bytes.size)
    (run : t.IsRun h.geometry u k) (data : List UInt8) :
    h.contents t (h.fill t data m)
      = data.take t.len.toNat ++ (h.contents t m).drop data.length := by
  rw [contents_run run, contents_run run, ← run.len_eq]
  -- byte by byte, on either side of where the data ends
  apply List.ext_getElem
  · simp only [List.length_append, List.length_take, List.length_drop, length_stretch]; omega
  · intro i hi hi'
    rw [length_stretch] at hi
    rw [getElem_stretch, byte_fill_place hmem run data hi, List.getElem_append]
    by_cases hin : i < data.length
    · rw [if_pos hin, dif_pos (by rw [List.length_take]; omega), List.getElem_take,
        List.getD_eq_getElem?_getD, List.getElem?_eq_getElem hin, Option.getD_some]
    · rw [if_neg hin, dif_neg (by rw [List.length_take]; omega), List.getElem_drop,
        getElem_stretch]
      congr 3
      rw [List.length_take]; omega

/-- Filling the free units behind the tail changes no byte that waits. -/
theorem unread_fill {k : Nat} {t : Transfer} (run : t.IsRun h.geometry (h.tailCount m) k)
    (hk : h.occupied m + k ≤ h.geometry.capacity.toNat) (data : List UInt8) :
    h.unread (h.fill t data m) = h.unread m := by
  refine h.stretch_congr _ _ ?_
  intro j hj
  refine byte_fill_of_notMem t data ?_
  intro p hp heq
  rw [run.places_eq, List.mem_map] at hp
  obtain ⟨i, hi, rfl⟩ := hp
  exact place_tail_ne_place_head hk (List.mem_range.1 hi) hj (Nat.add_left_cancel heq).symm

/-! ## Publishing and releasing -/

theorem occupied_publish {k : Nat} {t : Transfer} (hne : h.head ≠ h.tail)
    (run : t.IsRun h.geometry (h.tailCount m) k)
    (hk : h.occupied m + k ≤ h.geometry.capacity.toNat) :
    h.occupied (h.publish t m) = h.occupied m + k := by
  have hword := h.geometry.capacity.toNat_lt
  rw [occupied, tailCount_publish, headCount_publish hne, run.next_eq]
  exact toNat_add_sub _ _ (Nat.lt_of_le_of_lt hk hword)

/-- Publishing appends what the run holds. -/
theorem unread_publish {k : Nat} {t : Transfer} (hne : h.head ≠ h.tail)
    (run : t.IsRun h.geometry (h.tailCount m) k)
    (hk : h.occupied m + k ≤ h.geometry.capacity.toNat) :
    h.unread (h.publish t m) = h.unread m ++ h.contents t m := by
  rw [unread, occupied_publish hne run hk, headCount_publish hne, stretch_publish, Nat.add_mul,
    occupied, stretch_add, headCount_add, contents_run run]
  rfl

theorem occupied_release {k : Nat} {t : Transfer} (hne : h.head ≠ h.tail)
    (run : t.IsRun h.geometry (h.headCount m) k) (hk : k ≤ h.occupied m) :
    h.occupied (h.release t m) = h.occupied m - k := by
  rw [occupied, headCount_release, tailCount_release hne, run.next_eq]
  exact toNat_sub_add _ _ hk

/-- Releasing takes what the run holds from the front. -/
theorem unread_release {k : Nat} {t : Transfer} (hne : h.head ≠ h.tail)
    (run : t.IsRun h.geometry (h.headCount m) k) (hk : k ≤ h.occupied m) :
    h.unread m = h.contents t m ++ h.unread (h.release t m) := by
  have hunits := h.geometry.toNat_ofNat_of_le_capacity run.fits
  have hsplit : h.occupied m * h.geometry.unitSize.toNat = (UInt32.ofNat k).toNat
      * h.geometry.unitSize.toNat + (h.occupied m - k) * h.geometry.unitSize.toNat := by
    rw [hunits, ← Nat.add_mul]; congr 1; omega
  rw [contents_run run, unread, hsplit, stretch_add, hunits, unread, headCount_release,
    occupied_release hne run hk, stretch_release, run.next_eq]

/-- What a reader may release is the front of what waits. -/
theorem contents_eq_take_unread {k : Nat} {t : Transfer}
    (run : t.IsRun h.geometry (h.headCount m) k) (hk : k ≤ h.occupied m) :
    h.contents t m = (h.unread m).take t.len.toNat := by
  rw [unread, take_stretch _ _ _ (by rw [run.len_eq]; exact Nat.mul_le_mul_right _ hk),
    contents_run run, run.len_eq]

end Halves

/-! ## A small ring -/

/-- Four units of three bytes, with a byte of memory before them and another behind them. -/
def Ring.small : Ring where
  geometry := ⟨4, 3, ⟨2, rfl⟩, by decide⟩
  region := some ⟨1, 12⟩
  head := some 0
  tail := some 1

/-- The halves of the small ring. -/
def Halves.small : Halves where
  geometry := Ring.small.geometry
  region := ⟨1, 12⟩
  head := 0
  tail := 1
  signal := none

/-- Memory in which one unit of the small ring waits.  It is the last one before the end of the
    ring, and the tail is the last value of its counter before that starts again from zero. -/
def Memory.small : Memory where
  bytes := Bytes.ofList [0xEE, 1, 2, 3, 4, 5, 6, 7, 8, 9, 10, 11, 12, 0xEE]
  counters := [0xFFFFFFFE, 0xFFFFFFFF]
  signals := []

example : Halves.small.unread Memory.small = [7, 8, 9] := by decide

end SharedRing
