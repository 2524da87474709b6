/-
  All that a transfer does follows from how much it moves.

  The writer puts its bytes behind the tail and moves the tail past them; the reader moves the head
  past the bytes that it has got.  Which kind of call did this, whether the bytes passed the end of
  the ring on the way, and what the counters held before, possible or not, makes no difference once
  the amount is known.  `enqueue` and `dequeue` say it without a plan.

  In this form transfers can be added up.  Byte `k * unitSize + i` from a unit on is byte `i` from
  the unit `k` further on (`place_add_ofNat`), so moving two amounts one after the other is moving
  their sum (`enqueue_append`, `dequeue_add`), as long as the first is a number of whole units.
-/
import SharedRing.Proofs.Handover

namespace SharedRing

/-! ## Stores and puts, one after the other -/

/-- Of two stores to one counter the later counts. -/
theorem Cells.store_store {α : Type} [Inhabited α] (c : Cells α) (i : Nat) (v w : α) :
    (c.store i v).store i w = c.store i w := by
  fun_induction store c i v with
  | case1 => rfl
  | case2 _ _ ih => exact congrArg (default :: ·) ih
  | case3 => rfl
  | case4 x _ _ _ ih => exact congrArg (x :: ·) ih

/-- Stores to different counters may change places. -/
theorem Cells.store_comm {α : Type} [Inhabited α] (c : Cells α) {i j : Nat} (v w : α)
    (hne : i ≠ j) : (c.store i v).store j w = (c.store j w).store i v := by
  fun_induction store c i v generalizing j with
  | case1 =>
    cases j with
    | zero => contradiction
    | succ j => rfl
  | case2 _ _ ih =>
    cases j with
    | zero => rfl
    | succ j => exact congrArg (default :: ·) (ih (by omega))
  | case3 =>
    cases j with
    | zero => contradiction
    | succ j => rfl
  | case4 x _ _ _ ih =>
    cases j with
    | zero => rfl
    | succ j => exact congrArg (x :: ·) (ih (by omega))

theorem Bytes.putAll_append (m : Bytes) (base : Nat) {places : List Nat} (rest : List Nat)
    {data : List UInt8} (more : List UInt8) (hlen : places.length = data.length) :
    m.putAll base (places ++ rest) (data ++ more)
      = (m.putAll base places data).putAll base rest more := by
  induction places generalizing m data with
  | nil =>
    obtain rfl : data = [] := List.length_eq_zero_iff.1 hlen.symm
    rfl
  | cons p places ih =>
    cases data with
    | nil => contradiction
    | cons b data => exact ih _ (Nat.succ.inj hlen)

/-! ## Places further on -/

namespace Geometry

variable (g : Geometry) (u : UInt32)

/-- The places of so many bytes, from a unit on. -/
def placesFrom (u : UInt32) (n : Nat) : List Nat := (List.range n).map (g.place u)

@[simp] theorem length_placesFrom (n : Nat) : (g.placesFrom u n).length = n := by
  rw [placesFrom, List.length_map, List.length_range]

theorem placesFrom_add (k n : Nat) : g.placesFrom u (k * g.unitSize.toNat + n)
    = g.placesFrom u (k * g.unitSize.toNat) ++ g.placesFrom (u + UInt32.ofNat k) n := by
  rw [placesFrom, List.range_add, List.map_append, List.map_map]
  refine congrArg _ (List.map_congr_left ?_)
  intro i _
  exact (g.place_add_ofNat u k i).symm

end Geometry

/-! ## Amounts -/

/-- The units that a write moves: what is offered, as far as there is room beside the pending ones
    and the one that always stays empty. -/
def Transfer.writeUnits (g : Geometry) (pending offered : Nat) : Nat :=
  min (offered / g.unitSize.toNat) (g.capacity.toNat - 1 - pending)

theorem Transfer.readUnits_none (g : Geometry) (pending room : Nat) :
    readUnits g pending room none
      = min (min pending g.capacity.toNat) (room / g.unitSize.toNat) := rfl

/-- A read moves no more than its buffer holds. -/
theorem Transfer.readUnits_le_room (g : Geometry) (pending room : Nat) (count : Option UInt64) :
    readUnits g pending room count ≤ room / g.unitSize.toNat := by
  unfold readUnits
  dsimp only
  split
  · split
    · exact Nat.min_le_right _ _
    · exact Nat.le_trans (Nat.min_le_left _ _) (Nat.min_le_right _ _)
  · exact Nat.min_le_right _ _

namespace Halves

variable {h : Halves} {m : Memory} {t : Transfer} {k : Nat}

/-- Puts bytes in place from a unit on. -/
def lay (h : Halves) (u : UInt32) (bytes : List UInt8) (m : Memory) : Memory :=
  { m with
    bytes := m.bytes.putAll h.region.offset (h.geometry.placesFrom u bytes.length) bytes }

/-- The memory after the writer has put `bytes` behind the tail and has moved the tail past them.
    Without bytes nothing is stored, not even the counter. -/
def enqueue (h : Halves) (bytes : List UInt8) (m : Memory) : Memory :=
  if bytes = [] then m
  else (h.lay (h.tailCount m) bytes m).setCounter h.tail
    (h.tailCount m + UInt32.ofNat (bytes.length / h.geometry.unitSize.toNat))

/-- The memory after the reader has moved the head past `n` bytes. -/
def dequeue (h : Halves) (n : Nat) (m : Memory) : Memory :=
  if n = 0 then m
  else m.setCounter h.head (h.headCount m + UInt32.ofNat (n / h.geometry.unitSize.toNat))

@[simp] theorem enqueue_nil (h : Halves) (m : Memory) : h.enqueue [] m = m := if_pos rfl

@[simp] theorem dequeue_zero (h : Halves) (m : Memory) : h.dequeue 0 m = m := if_pos rfl

/-! ## What they leave -/

theorem tailCount_enqueue (h : Halves) (bytes : List UInt8) (m : Memory) :
    h.tailCount (h.enqueue bytes m)
      = h.tailCount m + UInt32.ofNat (bytes.length / h.geometry.unitSize.toNat) := by
  unfold enqueue
  split
  · rename_i hnil
    rw [hnil, List.length_nil, Nat.zero_div]
    exact (UInt32.add_zero _).symm
  · exact Cells.load_store_self ..

theorem headCount_enqueue (hne : h.head ≠ h.tail) (bytes : List UInt8) (m : Memory) :
    h.headCount (h.enqueue bytes m) = h.headCount m := by
  unfold enqueue
  split
  · rfl
  · exact Cells.load_store_ne _ _ hne

theorem headCount_dequeue (h : Halves) (n : Nat) (m : Memory) : h.headCount (h.dequeue n m)
    = h.headCount m + UInt32.ofNat (n / h.geometry.unitSize.toNat) := by
  unfold dequeue
  split
  · rename_i hzero
    rw [hzero, Nat.zero_div]
    exact (UInt32.add_zero _).symm
  · exact Cells.load_store_self ..

theorem tailCount_dequeue (hne : h.head ≠ h.tail) (n : Nat) (m : Memory) :
    h.tailCount (h.dequeue n m) = h.tailCount m := by
  unfold dequeue
  split
  · rfl
  · exact Cells.load_store_ne _ _ hne.symm

theorem bytes_dequeue (h : Halves) (n : Nat) (m : Memory) : (h.dequeue n m).bytes = m.bytes := by
  unfold dequeue
  split <;> rfl

theorem bytes_enqueue (h : Halves) (bytes : List UInt8) (m : Memory) :
    (h.enqueue bytes m).bytes = (h.lay (h.tailCount m) bytes m).bytes := by
  unfold enqueue
  split
  · rename_i hnil
    rw [hnil]
    exact (Bytes.putAll_nil ..).symm
  · rfl

theorem stretch_dequeue (h : Halves) (n : Nat) (m : Memory) (u : UInt32) (len : Nat) :
    h.stretch (h.dequeue n m) u len = h.stretch m u len := by
  rw [stretch, bytes_dequeue]
  rfl

theorem occupied_enqueue (hne : h.head ≠ h.tail) {bytes : List UInt8}
    (hlen : bytes.length = k * h.geometry.unitSize.toNat) (hk : h.occupied m + k < 2 ^ 32) :
    h.occupied (h.enqueue bytes m) = h.occupied m + k := by
  rw [occupied, tailCount_enqueue, headCount_enqueue hne, hlen,
    Nat.mul_div_cancel _ h.geometry.unitSize_pos]
  exact toNat_add_sub _ _ hk

theorem occupied_dequeue (hne : h.head ≠ h.tail) (hk : k ≤ h.occupied m) :
    h.occupied (h.dequeue (k * h.geometry.unitSize.toNat) m) = h.occupied m - k := by
  rw [occupied, headCount_dequeue, tailCount_dequeue hne,
    Nat.mul_div_cancel _ h.geometry.unitSize_pos]
  exact toNat_sub_add _ _ hk

/-! ## Sums -/

/-- A stretch goes on at the unit behind the units that it has passed, however many these are. -/
theorem stretch_add_ofNat (h : Halves) (m : Memory) (u : UInt32) (k n : Nat) :
    h.stretch m u (k * h.geometry.unitSize.toNat + n)
      = h.stretch m u (k * h.geometry.unitSize.toNat) ++ h.stretch m (u + UInt32.ofNat k) n := by
  have hplaces := congrArg (List.map fun p => m.bytes.byte (h.region.offset + p))
    (h.geometry.placesFrom_add u k n)
  simp only [Geometry.placesFrom, List.map_append, List.map_map] at hplaces
  exact hplaces

theorem lay_append (h : Halves) (u : UInt32) {first : List UInt8} (rest : List UInt8) (m : Memory)
    (hfirst : first.length = k * h.geometry.unitSize.toNat) :
    h.lay u (first ++ rest) m = h.lay (u + UInt32.ofNat k) rest (h.lay u first m) := by
  have hplaces : (h.geometry.placesFrom u (k * h.geometry.unitSize.toNat)).length
      = first.length := by rw [Geometry.length_placesFrom, hfirst]
  unfold lay
  rw [List.length_append, hfirst, Geometry.placesFrom_add, Bytes.putAll_append _ _ _ _ hplaces]

/-- **Whole units, and then more.** -/
theorem enqueue_append (h : Halves) {first : List UInt8} (rest : List UInt8) (m : Memory)
    (whole : h.geometry.unitSize.toNat ∣ first.length) :
    h.enqueue (first ++ rest) m = h.enqueue rest (h.enqueue first m) := by
  by_cases hfirst : first = []
  · rw [hfirst, enqueue_nil, List.nil_append]
  by_cases hrest : rest = []
  · rw [hrest, enqueue_nil, List.append_nil]
  have hunits : (first ++ rest).length / h.geometry.unitSize.toNat
      = first.length / h.geometry.unitSize.toNat + rest.length / h.geometry.unitSize.toNat := by
    rw [List.length_append, Nat.add_div_of_dvd_right whole]
  have hboth : first ++ rest ≠ [] := List.append_ne_nil_of_left_ne_nil hfirst rest
  have htail := h.tailCount_enqueue first m
  -- both sides lay the same bytes and store the same value last
  have hlay := h.lay_append (h.tailCount m) rest m (Nat.div_mul_cancel whole).symm
  unfold enqueue at htail ⊢
  rw [if_neg hboth, if_neg hrest, if_neg hfirst]
  rw [if_neg hfirst] at htail
  rw [htail, hlay, hunits, UInt32.ofNat_add, ← UInt32.add_assoc]
  unfold lay Memory.setCounter
  rw [Cells.store_store]

theorem dequeue_add (h : Halves) {n : Nat} (rest : Nat) (m : Memory)
    (whole : h.geometry.unitSize.toNat ∣ n) :
    h.dequeue (n + rest) m = h.dequeue rest (h.dequeue n m) := by
  by_cases hn : n = 0
  · rw [hn, dequeue_zero, Nat.zero_add]
  by_cases hrest : rest = 0
  · rw [hrest, dequeue_zero, Nat.add_zero]
  have hhead := h.headCount_dequeue n m
  unfold dequeue at hhead ⊢
  rw [if_neg (by omega), if_neg hrest, if_neg hn]
  rw [if_neg hn] at hhead
  rw [hhead, Nat.add_div_of_dvd_right whole, UInt32.ofNat_add, ← UInt32.add_assoc]
  unfold Memory.setCounter
  rw [Cells.store_store]

/-- **The two sides may take turns in any order.**  What each of them stores the other does not
    look at. -/
theorem enqueue_dequeue (hne : h.head ≠ h.tail) (bytes : List UInt8) (n : Nat) (m : Memory) :
    h.enqueue bytes (h.dequeue n m) = h.dequeue n (h.enqueue bytes m) := by
  have htail := tailCount_dequeue (m := m) hne n
  have hhead := headCount_enqueue (m := m) hne bytes
  unfold dequeue at htail ⊢
  unfold enqueue at hhead ⊢
  by_cases hbytes : bytes = []
  · rw [if_pos hbytes, if_pos hbytes]
  by_cases hn : n = 0
  · rw [if_pos hn, if_pos hn]
  rw [if_neg hbytes] at hhead
  rw [if_neg hn] at htail
  rw [if_neg hbytes, if_neg hn, if_neg hbytes, if_neg hn, htail, hhead]
  unfold lay Memory.setCounter
  rw [Cells.store_comm _ _ _ hne]

/-! ## Every transfer is one of the two -/

/-- A plan over units from the tail on that is filled and published. -/
theorem publish_fill (run : t.IsRun h.geometry (h.tailCount m) k) {data : List UInt8}
    (hlen : data.length = t.len.toNat) : h.publish t (h.fill t data m) = h.enqueue data m := by
  have hpos := run.len_pos
  have hsome : data ≠ [] := List.ne_nil_of_length_pos (by omega)
  have hlay : h.fill t data m = h.lay (h.tailCount m) data m := by
    have hplaces : t.places = h.geometry.placesFrom (h.tailCount m) data.length := by
      rw [run.places_eq, hlen, run.len_eq]
      rfl
    have hbytes := h.bytes_fill (m := m) t data
    rw [hplaces] at hbytes
    exact congrArg (fun bytes : Bytes => { m with bytes := bytes }) hbytes
  unfold enqueue
  rw [if_neg hsome, hlay, hlen, run.len_eq, Nat.mul_div_cancel _ h.geometry.unitSize_pos,
    ← run.next_eq]
  rfl

/-- A plan over units from the head on that is released. -/
theorem release_eq (run : t.IsRun h.geometry (h.headCount m) k) :
    h.release t m = h.dequeue t.len.toNat m := by
  have hpos := run.len_pos
  unfold dequeue
  rw [if_neg (by omega), run.len_eq, Nat.mul_div_cancel _ h.geometry.unitSize_pos, ← run.next_eq]
  rfl

/-- A plan takes no more data than it is long. -/
theorem fill_take {u : UInt32} (run : t.IsRun h.geometry u k) (data : List UInt8) :
    h.fill t (data.take t.len.toNat) m = h.fill t data m := by
  have htotal : Span.total t.spans = t.len.toNat := by
    conv => lhs; rw [run.eq_starting]
    exact Transfer.total_starting ..
  rw [fill, fill, ← htotal, Bytes.scatter_take]

/-- A write moves no more than it is offered. -/
theorem length_take_writeUnits (h : Halves) (data : List UInt8) (m : Memory) :
    (data.take (Transfer.writeUnits h.geometry (h.occupied m) data.length
        * h.geometry.unitSize.toNat)).length
      = Transfer.writeUnits h.geometry (h.occupied m) data.length
        * h.geometry.unitSize.toNat := by
  have hunits : Transfer.writeUnits h.geometry (h.occupied m) data.length
      ≤ data.length / h.geometry.unitSize.toNat := Nat.min_le_left _ _
  rw [List.length_take]
  exact Nat.min_eq_left (Nat.le_trans (Nat.mul_le_mul_right _ hunits) (Nat.div_mul_le_self _ _))

/-- **A write, whatever the counters hold.** -/
theorem write_eq (h : Halves) (data : List UInt8) (m : Memory)
    (hk : k = Transfer.writeUnits h.geometry (h.occupied m) data.length) :
    (h.write data m).1.toNat = k * h.geometry.unitSize.toNat
      ∧ (h.write data m).2 = h.enqueue (data.take (k * h.geometry.unitSize.toNat)) m := by
  rcases Transfer.write?_cases h.geometry (h.headCount m) (h.tailCount m) data.length hk with
    ⟨hzero, hnone⟩ | ⟨t, hsome, run⟩
  · simp only [write, hnone]
    rw [hzero, Nat.zero_mul, List.take_zero, enqueue_nil]
    exact ⟨rfl, rfl⟩
  · have hlen : (data.take t.len.toNat).length = t.len.toNat := by
      rw [List.length_take, Nat.min_eq_left (Transfer.len_le_of_write? hsome)]
    simp only [write, hsome]
    refine ⟨run.len_eq, ?_⟩
    rw [← fill_take run, publish_fill run hlen, run.len_eq]

/-- **A read, whatever the counters hold.** -/
theorem read_eq (h : Halves) (room : Nat) (count : Option UInt64) (m : Memory)
    (hk : k = Transfer.readUnits h.geometry (h.occupied m) room count) :
    h.read room count m = (h.stretch m (h.headCount m) (k * h.geometry.unitSize.toNat),
      h.dequeue (k * h.geometry.unitSize.toNat) m) := by
  rcases Transfer.read?_cases h.geometry (h.headCount m) (h.tailCount m) room count hk with
    ⟨hzero, hnone⟩ | ⟨t, hsome, run⟩
  · simp only [read, hnone]
    rw [hzero, Nat.zero_mul, dequeue_zero]
    rfl
  · simp only [read, hsome]
    rw [contents_run run, release_eq run, run.len_eq]

end Halves

end SharedRing
