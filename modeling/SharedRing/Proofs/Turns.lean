/-
  Transfers that do not need each other may be made in any order.

  A writer that offers no more than was free to begin with, and a reader that asks for no more than
  waited, can be served from what is there (`Affordable`).  Then it makes no difference how their
  calls take turns: each call gets the answer that it would get in any other order, and the memory
  in the end is the same.  This is so for counters that hold anything at all.  A tail that is too far
  ahead leaves nothing free, so that the writer can afford no byte.

  The outcome is said without the order (`Served`).  Each write moves the whole units of its data, the
  reads cut what waited into pieces, and what is left is one `enqueue` of all that was written and one
  `dequeue` of all that was read.  A call that comes first only makes the others' share smaller by
  what it takes itself (`Affordable.write`, `Affordable.read`), and the two sides' stores may change
  places (`Halves.enqueue_dequeue`).
-/
import SharedRing.Proofs.Footprint
import SharedRing.Proofs.Pieces

namespace SharedRing

/-! ## What a call moves that can be served -/

namespace Geometry

variable (g : Geometry)

/-- The whole units of some bytes. -/
def whole (data : List UInt8) : List UInt8 :=
  data.take (data.length / g.unitSize.toNat * g.unitSize.toNat)

/-- The units that a read gets if as many bytes wait as it asks for: no more than a ring of them. -/
def askedUnits (count : UInt64) : Nat := min (count.toNat / g.unitSize.toNat) g.capacity.toNat

/-- The same in bytes. -/
def asked (count : UInt64) : Nat := g.askedUnits count * g.unitSize.toNat

theorem length_whole (data : List UInt8) :
    (g.whole data).length = data.length / g.unitSize.toNat * g.unitSize.toNat := by
  rw [whole, List.length_take]
  exact Nat.min_eq_left (Nat.div_mul_le_self _ _)

theorem asked_le (count : UInt64) : g.asked count ≤ count.toNat :=
  Nat.le_trans (Nat.mul_le_mul_right _ (Nat.min_le_left _ _)) (Nat.div_mul_le_self _ _)

end Geometry

namespace Halves

variable {h : Halves} {m : Memory} {data bytes : List UInt8} {count : UInt64} {room k : Nat}

theorem toNat_free (h : Halves) (m : Memory) : (h.free m).toNat
    = (h.geometry.capacity.toNat - 1 - h.occupied m) * h.geometry.unitSize.toNat :=
  h.geometry.toNat_free _ _

/-- **A write of no more than is free** moves the whole units of its data. -/
theorem write_of_le_free (hfree : data.length ≤ (h.free m).toNat) : h.write data m
    = (UInt64.ofNat (h.geometry.whole data).length, h.enqueue (h.geometry.whole data) m) := by
  have hs := h.geometry.unitSize_pos
  have hunits : data.length / h.geometry.unitSize.toNat
      = Transfer.writeUnits h.geometry (h.occupied m) data.length := by
    rw [toNat_free, Nat.mul_comm] at hfree
    exact (Nat.min_eq_left (Nat.div_le_of_le_mul hfree)).symm
  obtain ⟨hcount, hmemory⟩ := h.write_eq data m hunits
  refine Prod.ext ?_ hmemory
  rw [h.geometry.length_whole, ← hcount, UInt64.ofNat_toNat]

/-- What is asked for and waits is some of the units that wait. -/
theorem askedUnits_le_occupied (hwaits : count.toNat ≤ (h.pending m).toNat) :
    h.geometry.askedUnits count ≤ h.occupied m := by
  rw [toNat_pending, length_unread, Nat.mul_comm] at hwaits
  exact Nat.le_trans (Nat.min_le_left _ _) (Nat.div_le_of_le_mul hwaits)

/-- **A read of no more than waits** gets what it asks for, but no more than a ring. -/
theorem read_of_le_pending (hasks : 0 < count.toNat) (hroom : count.toNat ≤ room)
    (hwaits : count.toNat ≤ (h.pending m).toNat) : h.read room (some count) m
      = ((h.unread m).take (h.geometry.asked count), h.dequeue (h.geometry.asked count) m) := by
  have hunits : h.geometry.askedUnits count
      = Transfer.readUnits h.geometry (h.occupied m) room (some count) := by
    have hne : count ≠ 0 := by
      intro hzero
      rw [hzero, UInt64.toNat_zero] at hasks
      omega
    have hbuffer := Nat.div_le_div_right (c := h.geometry.unitSize.toNat) hroom
    rw [toNat_pending, length_unread, Nat.mul_comm] at hwaits
    have hthere := Nat.div_le_of_le_mul hwaits
    simp only [Transfer.readUnits, if_neg hne, Geometry.askedUnits]
    omega
  have hle := Nat.mul_le_mul_right h.geometry.unitSize.toNat (askedUnits_le_occupied hwaits)
  rw [h.read_eq room _ m hunits, unread, Geometry.asked, take_stretch _ _ _ hle]

/-! ## What the other side finds then -/

/-- What waits goes on waiting while whole units are put behind it. -/
theorem unread_enqueue (hne : h.head ≠ h.tail)
    (hlen : bytes.length = k * h.geometry.unitSize.toNat)
    (hfree : k ≤ h.geometry.capacity.toNat - 1 - h.occupied m) :
    h.unread m <+: h.unread (h.enqueue bytes m) := by
  have hword : h.occupied m < 2 ^ 32 := UInt32.toNat_lt _
  have hcapacity := h.geometry.capacity.toNat_lt
  have hkept : h.stretch (h.enqueue bytes m) (h.headCount m)
      (h.occupied m * h.geometry.unitSize.toNat) = h.unread m :=
    stretch_enqueue (by rw [hlen]; exact Nat.mul_le_mul_right _ hfree)
  have hunread : h.unread (h.enqueue bytes m) = h.unread m
      ++ h.stretch (h.enqueue bytes m) (h.headCount m + UInt32.ofNat (h.occupied m))
        (k * h.geometry.unitSize.toNat) := by
    rw [unread, occupied_enqueue hne hlen (by omega), headCount_enqueue hne, Nat.add_mul,
      stretch_add_ofNat, hkept]
  rw [hunread]
  exact List.prefix_append _ _

/-- What was read is gone from the front. -/
theorem unread_dequeue (hne : h.head ≠ h.tail) (hk : k ≤ h.occupied m) :
    h.unread (h.dequeue (k * h.geometry.unitSize.toNat) m)
      = (h.unread m).drop (k * h.geometry.unitSize.toNat) := by
  have hsplit : h.occupied m * h.geometry.unitSize.toNat = k * h.geometry.unitSize.toNat
      + (h.occupied m - k) * h.geometry.unitSize.toNat := by
    rw [← Nat.add_mul, Nat.add_sub_cancel' hk]
  rw [unread, unread, occupied_dequeue hne hk, headCount_dequeue, stretch_dequeue,
    Nat.mul_div_cancel _ h.geometry.unitSize_pos, hsplit, stretch_add_ofNat,
    List.drop_left' (length_stretch ..)]

/-! ## Calls that can be served -/

/-- Writes and reads that can be served from what is there.  A read is a buffer and a count. -/
structure Affordable (h : Halves) (m : Memory) (writes : List (List UInt8))
    (reads : List (List UInt8 × UInt64)) : Prop where
  /-- together the writes offer no more than is free -/
  free : (writes.map List.length).sum ≤ (h.free m).toNat
  /-- together the reads ask for no more than waits -/
  pending : (reads.map fun read => read.2.toNat).sum ≤ (h.pending m).toNat
  /-- each asks for something, into a buffer that holds it -/
  asks : ∀ read ∈ reads, 0 < read.2.toNat
  room : ∀ read ∈ reads, read.2.toNat ≤ read.1.length

variable {writes : List (List UInt8)} {buffer : List UInt8} {reads : List (List UInt8 × UInt64)}

namespace Affordable

theorem length_le (affordable : h.Affordable m (data :: writes) reads) :
    data.length ≤ (h.free m).toNat := by
  have hfree := affordable.free
  rw [List.map_cons, List.sum_cons] at hfree
  omega

theorem count_le (affordable : h.Affordable m writes ((buffer, count) :: reads)) :
    count.toNat ≤ (h.pending m).toNat := by
  have hpending := affordable.pending
  rw [List.map_cons, List.sum_cons] at hpending
  dsimp only at hpending
  omega

theorem units_le (affordable : h.Affordable m (data :: writes) reads) :
    data.length / h.geometry.unitSize.toNat
      ≤ h.geometry.capacity.toNat - 1 - h.occupied m := by
  have hfree := affordable.length_le
  rw [toNat_free, Nat.mul_comm] at hfree
  exact Nat.div_le_of_le_mul hfree

/-- After its first write the others can be served as well. -/
theorem write (affordable : h.Affordable m (data :: writes) reads) (hne : h.head ≠ h.tail) :
    h.Affordable (h.enqueue (h.geometry.whole data) m) writes reads := by
  have hword : h.occupied m < 2 ^ 32 := UInt32.toNat_lt _
  have hcapacity := h.geometry.capacity.toNat_lt
  have hunits := affordable.units_le
  have hoccupied := occupied_enqueue (m := m) hne (h.geometry.length_whole data) (by omega)
  refine ⟨?_, ?_, affordable.asks, affordable.room⟩
  · have hfree := affordable.free
    have hle := Nat.div_mul_le_self data.length h.geometry.unitSize.toNat
    rw [List.map_cons, List.sum_cons, toNat_free] at hfree
    rw [toNat_free, hoccupied, ← Nat.sub_sub, Nat.sub_mul]
    omega
  · refine Nat.le_trans affordable.pending ?_
    rw [toNat_pending, toNat_pending, length_unread, length_unread, hoccupied]
    exact Nat.mul_le_mul_right _ (Nat.le_add_right _ _)

/-- After its first read the others can be served as well. -/
theorem read (affordable : h.Affordable m writes ((buffer, count) :: reads))
    (hne : h.head ≠ h.tail) : h.Affordable (h.dequeue (h.geometry.asked count) m) writes reads := by
  have hunits := askedUnits_le_occupied affordable.count_le
  have hoccupied := occupied_dequeue (m := m) hne hunits
  refine ⟨?_, ?_, fun read hread => affordable.asks read (List.mem_cons_of_mem _ hread),
    fun read hread => affordable.room read (List.mem_cons_of_mem _ hread)⟩
  · refine Nat.le_trans affordable.free ?_
    rw [toNat_free, toNat_free, Geometry.asked, hoccupied]
    exact Nat.mul_le_mul_right _ (by omega)
  · have hpending := affordable.pending
    have hle : h.geometry.askedUnits count * h.geometry.unitSize.toNat ≤ count.toNat :=
      h.geometry.asked_le count
    rw [List.map_cons, List.sum_cons, toNat_pending, length_unread] at hpending
    rw [toNat_pending, length_unread, Geometry.asked, hoccupied, Nat.sub_mul]
    dsimp only at hpending
    omega

end Affordable

end Halves

/-! ## Calls that take turns -/

/-- These calls are the writes and the reads, each in their own order. -/
inductive Turns : List (List UInt8) → List (List UInt8 × UInt64) → List Call → Prop
  | done : Turns [] [] []
  | write {writes : List (List UInt8)} {reads : List (List UInt8 × UInt64)} {calls : List Call}
    (data : List UInt8) (rest : Turns writes reads calls) :
    Turns (data :: writes) reads (.write data :: calls)
  | read {writes : List (List UInt8)} {reads : List (List UInt8 × UInt64)} {calls : List Call}
    (buffer : List UInt8) (count : UInt64) (rest : Turns writes reads calls) :
    Turns writes ((buffer, count) :: reads) (.read buffer (some count) :: calls)

namespace Session

variable {s : Session} {m : Memory} {writes : List (List UInt8)}
  {reads : List (List UInt8 × UInt64)} {calls : List Call}

/-- The answers to reads that cut what waits into pieces. -/
def receipts (g : Geometry) : List UInt8 → List (List UInt8 × UInt64) → List Answer
  | _, [] => []
  | waiting, (buffer, count) :: reads => receipt (waiting.take (g.asked count)) buffer
    :: receipts g (waiting.drop (g.asked count)) reads

/-- What comes to wait behind is not reached. -/
theorem receipts_append (g : Geometry) {waiting : List UInt8} (more : List UInt8)
    (hwaits : (reads.map fun read => read.2.toNat).sum ≤ waiting.length) :
    receipts g (waiting ++ more) reads = receipts g waiting reads := by
  induction reads generalizing waiting with
  | nil => rfl
  | cons read reads ih =>
    obtain ⟨buffer, count⟩ := read
    have hasked := g.asked_le count
    rw [List.map_cons, List.sum_cons] at hwaits
    dsimp only at hwaits
    rw [receipts, receipts, List.take_append_of_le_length (by omega),
      List.drop_append_of_le_length (by omega), ih (by rw [List.length_drop]; omega)]

/-- What the calls come to, said without their order. -/
structure Served (s : Session) (m : Memory) (writes : List (List UInt8))
    (reads : List (List UInt8 × UInt64)) (calls : List Call) : Prop where
  /-- each write moves the whole units of its data -/
  written : answersTo .writer calls (s.run calls m).1
    = writes.map fun data => .moved (UInt64.ofNat (s.halves.geometry.whole data).length)
  /-- the reads get what waited, one after the other -/
  got : answersTo .reader calls (s.run calls m).1
    = receipts s.halves.geometry (s.halves.unread m) reads
  /-- all that was written is behind the tail, and the head is past all that was read -/
  left : (s.run calls m).2 = (s, s.halves.dequeue
    (reads.map fun read => s.halves.geometry.asked read.2).sum
    (s.halves.enqueue (writes.flatMap s.halves.geometry.whole) m))

theorem Served.write (idle : s.writing = none) (cells : s.halves.head ≠ s.halves.tail)
    {data : List UInt8} (affordable : s.halves.Affordable m (data :: writes) reads)
    (rest : Served s (s.halves.enqueue (s.halves.geometry.whole data) m) writes reads calls) :
    Served s m (data :: writes) reads (.write data :: calls) := by
  have hstep := step_write idle data m
  rw [Halves.write_of_le_free affordable.length_le] at hstep
  have hrun := run_cons s (.write data) calls m
  rw [hstep] at hrun
  dsimp only at hrun
  have hwriter : Call.party (.write data) = .writer := rfl
  have hreader : Call.party (.write data) ≠ .reader := by
    rw [hwriter]
    decide
  refine ⟨?_, ?_, ?_⟩
  · rw [hrun, answersTo, if_pos hwriter, rest.written, List.map_cons]
  · -- the reads do not reach what was put behind
    obtain ⟨more, hunread⟩ := Halves.unread_enqueue cells (s.halves.geometry.length_whole data)
      affordable.units_le
    have hwaits := affordable.pending
    rw [Halves.toNat_pending] at hwaits
    rw [hrun, answersTo, if_neg hreader, rest.got, ← hunread, receipts_append _ _ hwaits]
  · have hunits : s.halves.geometry.unitSize.toNat
        ∣ (s.halves.geometry.whole data).length := by
      rw [Geometry.length_whole]
      exact Nat.dvd_mul_left _ _
    rw [hrun, rest.left, List.flatMap_cons, Halves.enqueue_append _ _ _ hunits]

theorem Served.read (idle : s.reading = none) (cells : s.halves.head ≠ s.halves.tail)
    {buffer : List UInt8} {count : UInt64}
    (affordable : s.halves.Affordable m writes ((buffer, count) :: reads))
    (rest : Served s (s.halves.dequeue (s.halves.geometry.asked count) m) writes reads calls) :
    Served s m writes ((buffer, count) :: reads) (.read buffer (some count) :: calls) := by
  have hasks := affordable.asks (buffer, count) List.mem_cons_self
  have hroom := affordable.room (buffer, count) List.mem_cons_self
  have hstep := step_read idle buffer (some count) m
  rw [Halves.read_of_le_pending hasks hroom affordable.count_le] at hstep
  have hrun := run_cons s (.read buffer (some count)) calls m
  rw [hstep] at hrun
  dsimp only at hrun
  have hreader : Call.party (.read buffer (some count)) = .reader := rfl
  have hwriter : Call.party (.read buffer (some count)) ≠ .writer := by
    rw [hreader]
    decide
  refine ⟨?_, ?_, ?_⟩
  · rw [hrun, answersTo, if_neg hwriter, rest.written]
  · have hunread := Halves.unread_dequeue cells
      (Halves.askedUnits_le_occupied affordable.count_le)
    rw [hrun, answersTo, if_pos hreader, rest.got, receipts, Geometry.asked, hunread]
    rfl
  · have hunits : s.halves.geometry.unitSize.toNat ∣ s.halves.geometry.asked count :=
      Nat.dvd_mul_left _ _
    rw [hrun, rest.left, List.map_cons, List.sum_cons, Halves.enqueue_dequeue cells,
      ← Halves.dequeue_add _ _ _ hunits]

/-- **Any order comes to the same.** -/
theorem served_of_turns (idle : s.writing = none) (idle' : s.reading = none)
    (cells : s.halves.head ≠ s.halves.tail) (turns : Turns writes reads calls)
    (affordable : s.halves.Affordable m writes reads) : Served s m writes reads calls := by
  induction turns generalizing m with
  | done =>
    refine ⟨rfl, rfl, ?_⟩
    rw [List.map_nil, List.sum_nil, List.flatMap_nil, Halves.enqueue_nil, Halves.dequeue_zero]
    rfl
  | write data _ ih => exact .write idle cells affordable (ih (affordable.write cells))
  | read buffer count _ ih => exact .read idle' cells affordable (ih (affordable.read cells))

/-- **Transfers that can be served from what is there may be made in any order.**  The counters are
    two different cells that hold anything at all.  The writes together offer no more than is free,
    and the reads together ask for no more than waits.  However the two take turns, each call gets
    the same answer, and all is left the same. -/
theorem independent_transfers_commute {s : Session} (idle : s.writing = none)
    (idle' : s.reading = none) (cells : s.halves.head ≠ s.halves.tail) {m : Memory}
    {writes : List (List UInt8)} {reads : List (List UInt8 × UInt64)}
    (affordable : s.halves.Affordable m writes reads) {calls calls' : List Call}
    (turns : Turns writes reads calls) (turns' : Turns writes reads calls') :
    answersTo .writer calls (s.run calls m).1 = answersTo .writer calls' (s.run calls' m).1
      ∧ answersTo .reader calls (s.run calls m).1 = answersTo .reader calls' (s.run calls' m).1
      ∧ (s.run calls m).2 = (s.run calls' m).2
      ∧ Served s m writes reads calls := by
  have served := served_of_turns idle idle' cells turns affordable
  have served' := served_of_turns idle idle' cells turns' affordable
  exact ⟨served.written.trans served'.written.symm, served.got.trans served'.got.symm,
    served.left.trans served'.left.symm, served⟩

/-- The small ring has two units free beside the one that waits.  A write of a unit, a write that
    is two bytes of one, and a read of what waits: the reader may come first or last. -/
theorem independent_transfers_commute_small :
    let s : Session := { halves := Halves.small }
    let first : List Call := [.read [0, 0, 0, 0] (some 3), .write [1, 2, 3], .write [4, 5]]
    let last : List Call := [.write [1, 2, 3], .write [4, 5], .read [0, 0, 0, 0] (some 3)]
    (s.run first Memory.small).1 = [.received 3 [7, 8, 9, 0], .moved 3, .moved 0]
      ∧ (s.run last Memory.small).1 = [.moved 3, .moved 0, .received 3 [7, 8, 9, 0]]
      ∧ (s.run first Memory.small).2 = (s.run last Memory.small).2 := by
  intro s first last
  have affordable : s.halves.Affordable Memory.small [[1, 2, 3], [4, 5]] [([0, 0, 0, 0], 3)] :=
    ⟨by decide, by decide, by decide, by decide⟩
  obtain ⟨-, -, hleft, -⟩ := independent_transfers_commute (s := s) rfl rfl (by decide) affordable
    (.read _ _ (.write _ (.write _ .done))) (.write _ (.write _ (.read _ _ .done)))
  exact ⟨by decide, by decide, hleft⟩

end Session

end SharedRing
