/-
  The footprint of a transfer: which bytes and which counter it stores to, and what it stores there.

  A transfer of the writer puts byte `i` at the place `i` from the tail on and moves the tail
  (`Wrote`); a transfer of the reader looks at the places from the head on and moves the head
  (`Took`).  Nothing else changes, neither in the region nor outside it.  This is so for the copying
  calls and for the chunks, for a stretch that passes the end of the ring and for one that does not,
  and for counters that hold anything at all.

  Since every transfer is `enqueue` or `dequeue`, the footprint is worked out for these two
  (`wrote_enqueue`, `took_dequeue`).  What a writer may touch ends before the unit that always stays
  empty: counted from that unit, its own bytes are the first of the ring, the waiting ones come next,
  and what is written comes last (`place_tail_eq_place_spare`).
-/
import SharedRing.Proofs.Amounts
import SharedRing.Proofs.Recovery

namespace SharedRing

theorem Bytes.size_putAll (m : Bytes) (base : Nat) (places : List Nat) (data : List UInt8) :
    (m.putAll base places data).size = m.size := by
  induction places generalizing m data with
  | nil => rfl
  | cons p places ih =>
    cases data with
    | nil => rfl
    | cons b data => rw [putAll, ih, size_set]

namespace Halves

variable {h : Halves} {m m' : Memory} {t : Transfer} {u : UInt32} {bytes : List UInt8}

/-! ## What is laid down -/

theorem byte_lay_place (hmem : h.region.offset + h.geometry.size.toNat ≤ m.bytes.size)
    (hring : bytes.length ≤ h.geometry.size.toNat) {i : Nat} (hi : i < bytes.length) :
    (h.lay u bytes m).bytes.byte (h.region.offset + h.geometry.place u i) = bytes[i] := by
  show (m.bytes.putAll h.region.offset (h.geometry.placesFrom u bytes.length) bytes).byte _ = _
  rw [Geometry.placesFrom, List.range_eq_range', byte_putAll_places _ _ _ _ _ _ _ hmem (by omega)
    (by omega), if_pos (by omega), Nat.sub_zero, List.getD_eq_getElem _ _ hi]

theorem byte_lay_of_ne {j : Nat}
    (hj : ∀ i < bytes.length, j ≠ h.region.offset + h.geometry.place u i) :
    (h.lay u bytes m).bytes.byte j = m.bytes.byte j := by
  refine Bytes.byte_putAll_of_notMem _ _ _ _ ?_
  intro p hp
  obtain ⟨i, hi, rfl⟩ := List.mem_map.1 hp
  exact hj i (List.mem_range.1 hi)

/-! ## What the writer leaves alone -/

/-- The unit before the head, which a writer leaves empty. -/
def spare (h : Halves) (m : Memory) : UInt32 := h.headCount m - 1

/-- Counted from the spare unit, the waiting bytes come after its own. -/
theorem place_head_eq_place_spare (h : Halves) (m : Memory) (i : Nat) :
    h.geometry.place (h.headCount m) i
      = h.geometry.place (h.spare m) (h.geometry.unitSize.toNat + i) := by
  have hnext : h.headCount m = h.spare m + 1 := (UInt32.sub_add_cancel _ _).symm
  have hadd := h.geometry.place_add (h.spare m) 1 i
  rw [UInt32.toNat_one, Nat.one_mul] at hadd
  conv => lhs; rw [hnext]
  exact hadd

/-- Counted from the spare unit, the bytes from the tail on come after the waiting ones. -/
theorem place_tail_eq_place_spare (h : Halves) (m : Memory) (i : Nat) :
    h.geometry.place (h.tailCount m) i = h.geometry.place (h.spare m)
      (h.geometry.unitSize.toNat + (h.occupied m * h.geometry.unitSize.toNat + i)) := by
  rw [place_tail, place_head_eq_place_spare]

/-- With a unit in use at least and one that stays empty, what is free is less than a ring. -/
theorem spare_add_lt_size {i : Nat}
    (hi : i < (h.geometry.capacity.toNat - 1 - h.occupied m) * h.geometry.unitSize.toNat) :
    h.geometry.unitSize.toNat + (h.occupied m * h.geometry.unitSize.toNat + i)
      < h.geometry.size.toNat := by
  have hfree : 0 < h.geometry.capacity.toNat - 1 - h.occupied m :=
    Nat.pos_of_mul_pos_right (Nat.lt_of_le_of_lt (Nat.zero_le i) hi)
  have hunits : h.geometry.capacity.toNat
      = 1 + (h.occupied m + (h.geometry.capacity.toNat - 1 - h.occupied m)) := by omega
  have hring : h.geometry.size.toNat = h.geometry.unitSize.toNat
      + (h.occupied m * h.geometry.unitSize.toNat
        + (h.geometry.capacity.toNat - 1 - h.occupied m) * h.geometry.unitSize.toNat) := by
    conv => lhs; rw [Geometry.toNat_size, hunits]
    rw [Nat.add_mul, Nat.add_mul, Nat.one_mul]
  omega

/-- What is written is neither in the spare unit nor among the bytes that wait. -/
theorem place_tail_ne_place_spare {i j : Nat}
    (hi : i < (h.geometry.capacity.toNat - 1 - h.occupied m) * h.geometry.unitSize.toNat)
    (hj : j < h.geometry.unitSize.toNat + h.occupied m * h.geometry.unitSize.toNat) :
    h.geometry.place (h.tailCount m) i ≠ h.geometry.place (h.spare m) j := by
  have hring := spare_add_lt_size hi
  intro heq
  rw [place_tail_eq_place_spare] at heq
  have hsame := h.geometry.place_inj _ hring (by omega) heq
  omega

/-! ## Footprints -/

/-- The writer has put `bytes` into the ring, and has done nothing else to the memory. -/
structure Wrote (h : Halves) (m m' : Memory) (bytes : List UInt8) : Prop where
  /-- whole units, no more than are free beside the one that stays empty -/
  whole : h.geometry.unitSize.toNat ∣ bytes.length
  length_le : bytes.length
    ≤ (h.geometry.capacity.toNat - 1 - h.occupied m) * h.geometry.unitSize.toNat
  /-- each byte is in its place -/
  byte_eq : ∀ i (hi : i < bytes.length), m'.bytes.byte (h.region.offset
    + ((h.tailCount m).toNat * h.geometry.unitSize.toNat + i) % h.geometry.size.toNat) = bytes[i]
  /-- the bytes at all other places are as they were -/
  byte_eq_of_ne : ∀ j, (∀ i < bytes.length, j ≠ h.region.offset
      + ((h.tailCount m).toNat * h.geometry.unitSize.toNat + i) % h.geometry.size.toNat) →
    m'.bytes.byte j = m.bytes.byte j
  /-- so are those outside the ring, in the region or not -/
  byte_eq_of_outside : ∀ j, h.Outside j → m'.bytes.byte j = m.bytes.byte j
  size_eq : m'.bytes.size = m.bytes.size
  /-- so are those that wait, and the unit before them -/
  unread_eq : h.stretch m' (h.headCount m) (h.occupied m * h.geometry.unitSize.toNat) = h.unread m
  spare_eq : h.stretch m' (h.spare m) h.geometry.unitSize.toNat
    = h.stretch m (h.spare m) h.geometry.unitSize.toNat
  tail_eq : h.tailCount m'
    = h.tailCount m + UInt32.ofNat (bytes.length / h.geometry.unitSize.toNat)
  head_eq : h.headCount m' = h.headCount m
  counter_eq : ∀ i, i ≠ h.tail → m'.counter i = m.counter i
  signals_eq : m'.signals = m.signals
  eq_of_nil : bytes = [] → m' = m

/-- The reader has got `bytes` from the ring, and has only moved the head. -/
structure Took (h : Halves) (m m' : Memory) (bytes : List UInt8) : Prop where
  whole : h.geometry.unitSize.toNat ∣ bytes.length
  length_le : bytes.length
    ≤ min (h.occupied m) h.geometry.capacity.toNat * h.geometry.unitSize.toNat
  byte_eq : ∀ i (hi : i < bytes.length), bytes[i] = m.bytes.byte (h.region.offset
    + ((h.headCount m).toNat * h.geometry.unitSize.toNat + i) % h.geometry.size.toNat)
  memory_eq : m'.bytes = m.bytes
  head_eq : h.headCount m'
    = h.headCount m + UInt32.ofNat (bytes.length / h.geometry.unitSize.toNat)
  tail_eq : h.tailCount m' = h.tailCount m
  counter_eq : ∀ i, i ≠ h.head → m'.counter i = m.counter i
  signals_eq : m'.signals = m.signals
  eq_of_nil : bytes = [] → m' = m

theorem counter_enqueue (h : Halves) (bytes : List UInt8) (m : Memory) {i : Nat}
    (hi : i ≠ h.tail) : (h.enqueue bytes m).counter i = m.counter i := by
  unfold enqueue
  split
  · rfl
  · exact Cells.load_store_ne _ _ hi

theorem counter_dequeue (h : Halves) (n : Nat) (m : Memory) {i : Nat} (hi : i ≠ h.head) :
    (h.dequeue n m).counter i = m.counter i := by
  unfold dequeue
  split
  · rfl
  · exact Cells.load_store_ne _ _ hi

theorem signals_enqueue (h : Halves) (bytes : List UInt8) (m : Memory) :
    (h.enqueue bytes m).signals = m.signals := by
  unfold enqueue
  split <;> rfl

theorem signals_dequeue (h : Halves) (n : Nat) (m : Memory) :
    (h.dequeue n m).signals = m.signals := by
  unfold dequeue
  split <;> rfl

/-- The bytes that are counted from the spare unit, before the tail is reached, are as they were. -/
theorem byte_enqueue_of_lt (hfree : bytes.length
      ≤ (h.geometry.capacity.toNat - 1 - h.occupied m) * h.geometry.unitSize.toNat) {j : Nat}
    (hj : j < h.geometry.unitSize.toNat + h.occupied m * h.geometry.unitSize.toNat) :
    (h.enqueue bytes m).bytes.byte (h.region.offset + h.geometry.place (h.spare m) j)
      = m.bytes.byte (h.region.offset + h.geometry.place (h.spare m) j) := by
  rw [bytes_enqueue]
  refine byte_lay_of_ne ?_
  intro i hi heq
  exact place_tail_ne_place_spare (Nat.lt_of_lt_of_le hi hfree) hj (Nat.add_left_cancel heq).symm

/-- So are those that wait. -/
theorem stretch_enqueue (hfree : bytes.length
      ≤ (h.geometry.capacity.toNat - 1 - h.occupied m) * h.geometry.unitSize.toNat) :
    h.stretch (h.enqueue bytes m) (h.headCount m) (h.occupied m * h.geometry.unitSize.toNat)
      = h.unread m := by
  refine h.stretch_congr _ _ ?_
  intro i hi
  rw [place_head_eq_place_spare]
  exact byte_enqueue_of_lt hfree (Nat.add_lt_add_left hi _)

/-- **What enqueueing touches.** -/
theorem wrote_enqueue (lent : h.Lent m) (whole : h.geometry.unitSize.toNat ∣ bytes.length)
    (hfree : bytes.length
      ≤ (h.geometry.capacity.toNat - 1 - h.occupied m) * h.geometry.unitSize.toNat) :
    h.Wrote m (h.enqueue bytes m) bytes := by
  have hmem : h.region.offset + h.geometry.size.toNat ≤ m.bytes.size :=
    Nat.le_trans (Nat.add_le_add_left lent.ring_le_region _) lent.region_le_memory
  have hring : bytes.length ≤ h.geometry.size.toNat := by
    rw [Geometry.toNat_size]
    exact Nat.le_trans hfree (Nat.mul_le_mul_right _ (by omega))
  -- a byte away from the places behind the tail is as it was
  have hother : ∀ j, (∀ i < bytes.length,
      j ≠ h.region.offset + h.geometry.place (h.tailCount m) i) →
        (h.enqueue bytes m).bytes.byte j = m.bytes.byte j := by
    intro j hj
    rw [bytes_enqueue]
    exact byte_lay_of_ne hj
  refine
    { whole, length_le := hfree
      byte_eq := ?_
      byte_eq_of_ne := hother
      byte_eq_of_outside := ?_
      size_eq := ?_
      unread_eq := stretch_enqueue hfree
      spare_eq := ?_
      tail_eq := h.tailCount_enqueue bytes m
      head_eq := headCount_enqueue lent.head_ne_tail bytes m
      counter_eq := fun _ hi => h.counter_enqueue bytes m hi
      signals_eq := h.signals_enqueue bytes m
      eq_of_nil := ?_ }
  · intro i hi
    rw [bytes_enqueue]
    exact byte_lay_place hmem hring hi
  · intro j hj
    refine hother j ?_
    intro i _
    have hplace := h.geometry.place_lt (h.tailCount m) i
    unfold Outside at hj
    omega
  · rw [bytes_enqueue]
    exact Bytes.size_putAll ..
  · refine h.stretch_congr _ _ ?_
    intro i hi
    exact byte_enqueue_of_lt hfree (by omega)
  · intro hnil
    rw [hnil, enqueue_nil]

/-- **What dequeueing touches.** -/
theorem took_dequeue (hne : h.head ≠ h.tail) {n : Nat} (whole : h.geometry.unitSize.toNat ∣ n)
    (hthere : n ≤ min (h.occupied m) h.geometry.capacity.toNat * h.geometry.unitSize.toNat) :
    h.Took m (h.dequeue n m) (h.stretch m (h.headCount m) n) where
  whole := by rw [length_stretch]; exact whole
  length_le := by rw [length_stretch]; exact hthere
  byte_eq := fun _ hi => h.getElem_stretch m _ hi
  memory_eq := h.bytes_dequeue n m
  head_eq := by rw [length_stretch]; exact h.headCount_dequeue n m
  tail_eq := tailCount_dequeue hne n m
  counter_eq := fun _ hi => h.counter_dequeue n m hi
  signals_eq := h.signals_dequeue n m
  eq_of_nil := by
    intro hnil
    have hzero : n = 0 := by rw [← h.length_stretch m (h.headCount m) n, hnil, List.length_nil]
    rw [hzero, dequeue_zero]

/-! ## Every transfer leaves its footprint -/

/-- Two fills of a plan after which it holds the same are the same. -/
theorem fill_eq_of_contents_eq {first second : List UInt8}
    (hsame : h.contents t (h.fill t first m) = h.contents t (h.fill t second m)) :
    h.fill t first m = h.fill t second m := by
  rw [contents_eq_map, contents_eq_map, List.map_inj_left] at hsame
  have hbytes : (h.fill t first m).bytes = (h.fill t second m).bytes := by
    refine Bytes.ext_byte ?_ ?_
    · rw [size_bytes_fill, size_bytes_fill]
    · intro j
      by_cases hj : ∃ p ∈ t.places, j = h.region.offset + p
      · obtain ⟨p, hp, rfl⟩ := hj
        exact hsame p hp
      · have hout : ∀ p ∈ t.places, j ≠ h.region.offset + p := fun p hp heq => hj ⟨p, hp, heq⟩
        rw [byte_fill_of_notMem t first hout, byte_fill_of_notMem t second hout]
  exact congrArg (fun bytes : Bytes => { m with bytes }) hbytes

theorem length_overlay (held data : List UInt8) : (overlay held data).length = held.length := by
  rw [overlay, List.length_append, List.length_take, List.length_drop]
  omega

/-- What a chunk holds in the end is what is published, also if it was filled in part. -/
theorem wrote_publish_fill (lent : h.Lent m) (hold : h.Vacant m t) (data : List UInt8) :
    h.Wrote m (h.publish t (h.fill t data m)) (overlay (h.contents t m) data) := by
  have ok := lent.inOrder hold
  have hlen : (overlay (h.contents t m) data).length = t.len.toNat := by
    rw [length_overlay, hold.length_contents]
  have hfill : h.fill t data m = h.fill t (overlay (h.contents t m) data) m := by
    have hheld : h.contents t (h.fill t data m) = overlay (h.contents t m) data := by
      rw [hold.contents_fill ok, overlay, hold.length_contents]
    refine fill_eq_of_contents_eq ?_
    rw [hheld, hold.contents_fill ok, List.take_of_length_le (Nat.le_of_eq hlen),
      List.drop_of_length_le (by rw [hlen, hold.length_contents]), List.append_nil]
  obtain ⟨k, run, hk⟩ := hold
  rw [hfill, publish_fill run hlen]
  refine wrote_enqueue lent ?_ ?_
  · rw [hlen]
    exact run.unitSize_dvd_len
  · rw [hlen, run.len_eq]
    exact Nat.mul_le_mul_right _ (by omega)

theorem took_release (hne : h.head ≠ h.tail) (hold : h.Waiting m t) :
    h.Took m (h.release t m) (h.contents t m) := by
  obtain ⟨k, run, hk⟩ := hold
  have hfits := run.fits
  rw [release_eq run, contents_run run, run.len_eq]
  exact took_dequeue hne (Nat.dvd_mul_left _ _) (Nat.mul_le_mul_right _ (by omega))

theorem wrote_write (lent : h.Lent m) (data : List UInt8) :
    (h.write data m).1.toNat = Transfer.writeUnits h.geometry (h.occupied m) data.length
        * h.geometry.unitSize.toNat
      ∧ h.Wrote m (h.write data m).2 (data.take (h.write data m).1.toNat) := by
  obtain ⟨hcount, hmemory⟩ := h.write_eq data m rfl
  have hunits : Transfer.writeUnits h.geometry (h.occupied m) data.length
      ≤ h.geometry.capacity.toNat - 1 - h.occupied m := Nat.min_le_right _ _
  have hlen := h.length_take_writeUnits data m
  refine ⟨hcount, ?_⟩
  rw [hcount, hmemory]
  refine wrote_enqueue lent ?_ ?_
  · rw [hlen]
    exact Nat.dvd_mul_left _ _
  · rw [hlen]
    exact Nat.mul_le_mul_right _ hunits

theorem took_read (hne : h.head ≠ h.tail) (room : Nat) (count : Option UInt64) :
    (h.read room count m).1.length = Transfer.readUnits h.geometry (h.occupied m) room count
        * h.geometry.unitSize.toNat
      ∧ h.Took m (h.read room count m).2 (h.read room count m).1 := by
  have hunits := Transfer.readUnits_le h.geometry (h.occupied m) room count
  rw [h.read_eq room count m rfl]
  exact ⟨length_stretch .., took_dequeue hne (Nat.dvd_mul_left _ _) (Nat.mul_le_mul_right _ hunits)⟩

end Halves

/-! ## Calls -/

namespace Session

variable {s : Session} {m : Memory} {t : Transfer} {c : Call}

theorem step_reserve (idle : s.writing = none) (len : UInt64) (m : Memory) :
    s.step (.reserve len) m = s.openWriting (s.halves.reserve? len m) m := by
  unfold Session.step
  rw [idle]
  rfl

theorem step_view (idle : s.reading = none) (m : Memory) :
    s.step .view m = s.openReading (s.halves.view? m) m := by
  unfold Session.step
  rw [idle]
  rfl

theorem step_viewOf (idle : s.reading = none) (len : UInt64) (m : Memory) :
    s.step (.viewOf len) m = s.openReading (s.halves.viewOf? len m) m := by
  unfold Session.step
  rw [idle]
  rfl

/-- The calls that put bytes into the ring without a copy. -/
def inPlace (len : UInt64) (data : List UInt8) : List Call := [.reserve len, .fill data, .publish]

theorem run_inPlace (idle : s.writing = none) {len : UInt64}
    (hplan : s.halves.reserve? len m = some t) (data : List UInt8) :
    s.run (inPlace len data) m = ([.chunk (some (s.halves.contents t m)), .done, .moved len], s,
      s.halves.publish t (s.halves.fill t data m)) := by
  have hs : { s with writing := none } = s := by rw [← idle]
  have hlen : t.len = len := Halves.len_of_reserve? hplan
  rw [inPlace, run_cons, step_reserve idle, hplan]
  show (Answer.chunk (some (s.halves.contents t m)) :: [.done, .moved t.len],
    ({ s with writing := none } : Session), _) = _
  rw [hs, hlen]
  rfl

theorem run_release (idle : s.reading = none) (hopen : s.step c m = s.openReading (some t) m) :
    s.run [c, .release] m = ([.chunk (some (s.halves.contents t m)), .moved t.len], s,
      s.halves.release t m) := by
  have hs : { s with reading := none } = s := by rw [← idle]
  rw [run_cons, hopen]
  show (Answer.chunk (some (s.halves.contents t m)) :: [.moved t.len],
    ({ s with reading := none } : Session), _) = _
  rw [hs]
  rfl

/-- A chunk that is shown was planned, and it shows what the plan covers. -/
theorem openWriting_eq_iff {plan : Option Transfer} {shown : List UInt8} :
    (s.openWriting plan m).1 = .chunk (some shown)
      ↔ ∃ t, plan = some t ∧ shown = s.halves.contents t m := by
  rw [openWriting, Answer.chunk.injEq, Option.map_eq_some_iff]
  simp only [eq_comm]

theorem openReading_eq_iff {plan : Option Transfer} {shown : List UInt8} :
    (s.openReading plan m).1 = .chunk (some shown)
      ↔ ∃ t, plan = some t ∧ shown = s.halves.contents t m := by
  rw [openReading, Answer.chunk.injEq, Option.map_eq_some_iff]
  simp only [eq_comm]

/-- What the transfers of a session leave behind. -/
structure Footprints (s : Session) (m : Memory) : Prop where
  /-- a write puts the beginning of its data into the ring, whole units as far as some are free -/
  write : s.writing = none → ∀ data : List UInt8, ∃ n m',
    s.step (.write data) m = (.moved n, s, m') ∧ n.toNat ≤ data.length
      ∧ n.toNat = Transfer.writeUnits s.halves.geometry (s.halves.occupied m) data.length
          * s.halves.geometry.unitSize.toNat
      ∧ s.halves.Wrote m m' (data.take n.toNat)
  /-- a read puts what it has got into the beginning of its buffer, and leaves the rest of that -/
  read : s.reading = none → ∀ (buffer : List UInt8) (count : Option UInt64), ∃ got m',
    s.step (.read buffer count) m
        = (.received got.length (got ++ buffer.drop got.length), s, m')
      ∧ got.length ≤ buffer.length
      ∧ got.length = Transfer.readUnits s.halves.geometry (s.halves.occupied m) buffer.length count
          * s.halves.geometry.unitSize.toNat
      ∧ s.halves.Took m m' got
  /-- a chunk of the writer that is completed puts into the ring what it holds then: what was filled
      in, and behind that what was shown -/
  inPlace : s.writing = none → ∀ (len : UInt64) (shown data : List UInt8),
    (s.step (.reserve len) m).1 = .chunk (some shown) → ∃ m',
      s.run (inPlace len data) m = ([.chunk (some shown), .done, .moved len], s, m')
        ∧ shown.length = len.toNat ∧ s.halves.Wrote m m' (overlay shown data)
  /-- a chunk of the reader that is completed takes what it shows -/
  release : s.reading = none → ∀ c : Call, (c = .view ∨ ∃ len, c = .viewOf len) →
    ∀ shown : List UInt8, (s.step c m).1 = .chunk (some shown) → ∃ m',
      s.run [c, .release] m
          = ([.chunk (some shown), .moved (UInt64.ofNat shown.length)], s, m')
        ∧ s.halves.Took m m' shown

/-- A chunk of the reader, whatever call has opened it. -/
theorem released_took (idle : s.reading = none) (hne : s.halves.head ≠ s.halves.tail)
    (hopen : s.step c m = s.openReading (some t) m) (hold : s.halves.Waiting m t) : ∃ m',
      s.run [c, .release] m = ([.chunk (some (s.halves.contents t m)),
          .moved (UInt64.ofNat (s.halves.contents t m).length)], s, m')
        ∧ s.halves.Took m m' (s.halves.contents t m) := by
  refine ⟨s.halves.release t m, ?_, Halves.took_release hne hold⟩
  rw [run_release idle hopen, hold.length_contents, UInt64.ofNat_toNat]

/-- **Every transfer leaves its footprint and nothing else.**  Take any ring that can be split, its
    region anywhere in memory, and its counters two different cells that hold anything at all. -/
theorem transfers_leave_footprints {r : Ring} {s : Session} (split : r.halves = .ok s.halves)
    {m : Memory} (lent : s.halves.region.offset + s.halves.region.len ≤ m.bytes.size)
    (cells : s.halves.head ≠ s.halves.tail) : Footprints s m := by
  have hlent : s.halves.Lent m := ⟨Halves.ring_le_region_of_split split, lent, cells⟩
  refine { write := ?_, read := ?_, inPlace := ?_, release := ?_ }
  · intro idle data
    obtain ⟨hcount, wrote⟩ := Halves.wrote_write hlent data
    have hle := Halves.length_take_writeUnits s.halves data m
    rw [← hcount, List.length_take] at hle
    exact ⟨_, _, step_write idle data m, by omega, hcount, wrote⟩
  · intro idle buffer count
    obtain ⟨hcount, took⟩ := Halves.took_read (m := m) cells buffer.length count
    have hunits := Transfer.readUnits_le_room s.halves.geometry (s.halves.occupied m)
      buffer.length count
    have hle := Nat.le_trans (Nat.mul_le_mul_right s.halves.geometry.unitSize.toNat hunits)
      (Nat.div_mul_le_self _ _)
    exact ⟨_, _, step_read idle buffer count m, by omega, hcount, took⟩
  · intro idle len shown data hshown
    rw [step_reserve idle] at hshown
    obtain ⟨t, hplan, rfl⟩ := openWriting_eq_iff.1 hshown
    have hold : s.halves.Vacant m t := Halves.vacant_of_reserve? hplan
    refine ⟨_, run_inPlace idle hplan data, ?_, Halves.wrote_publish_fill hlent hold data⟩
    rw [hold.length_contents, Halves.len_of_reserve? hplan]
  · rintro idle c (rfl | ⟨len, rfl⟩) shown hshown
    · rw [step_view idle] at hshown
      obtain ⟨t, hplan, rfl⟩ := openReading_eq_iff.1 hshown
      exact released_took idle cells (by rw [step_view idle, hplan])
        (Halves.waiting_of_view? hplan)
    · rw [step_viewOf idle] at hshown
      obtain ⟨t, hplan, rfl⟩ := openReading_eq_iff.1 hshown
      exact released_took idle cells (by rw [step_viewOf idle, hplan])
        (Halves.waiting_of_viewOf? hplan)

/-- The small ring: a write that is cut short, and a view of all that waits. -/
theorem transfers_leave_footprints_small :
    let s : Session := { halves := Halves.small }
    Footprints s Memory.small
      ∧ (∃ m', s.step (.write [1, 2, 3, 4, 5, 6, 7, 8]) Memory.small = (.moved 6, s, m')
        ∧ s.halves.Wrote Memory.small m' [1, 2, 3, 4, 5, 6])
      ∧ ∃ m', s.run [.view, .release] Memory.small
          = ([.chunk (some [7, 8, 9]), .moved 3], s, m')
        ∧ s.halves.Took Memory.small m' [7, 8, 9] := by
  intro s
  have footprints : Footprints s Memory.small := transfers_leave_footprints (r := Ring.small) rfl
    (by decide) (by decide)
  have hunits : Transfer.writeUnits s.halves.geometry (s.halves.occupied Memory.small) 8
      * s.halves.geometry.unitSize.toNat = 6 := by decide
  obtain ⟨n, m', hstep, -, hcount, wrote⟩ := footprints.write rfl [1, 2, 3, 4, 5, 6, 7, 8]
  obtain rfl : n = 6 := UInt64.toNat_inj.1 (hcount.trans hunits)
  exact ⟨footprints, ⟨m', hstep, wrote⟩,
    footprints.release rfl .view (Or.inl rfl) [7, 8, 9] (by decide)⟩

end Session

end SharedRing
