/-
  Into how many calls bytes are cut makes no difference.

  Writing whole units and then more is writing both at once (`write_append`), and reading into a
  buffer of whole units and then into another is reading into one that is as long as both
  (`read_add`).  A call in the middle may come up short.  Then the ring is full, or empty, and the
  calls that follow move nothing, just as the one call stops there.

  Only the last piece may end inside a unit: what a call leaves behind of a unit that is not
  complete the next one does not pick up.  For reads the counters must be no more than a ring apart,
  since one read believes a ring at most and several read on.

  The two facts about halves are about two calls; lists of calls follow by induction
  (`run_writes`, `run_reads_none`).
-/
import SharedRing.Proofs.Amounts
import SharedRing.Proofs.Recovery

namespace SharedRing

/-! ## Amounts add up -/

namespace Transfer

variable (g : Geometry) (pending a rest : Nat)

theorem units_add : (a * g.unitSize.toNat + rest) / g.unitSize.toNat
    = a + rest / g.unitSize.toNat := by
  rw [Nat.add_div_of_dvd_right (Nat.dvd_mul_left _ _), Nat.mul_div_cancel _ g.unitSize_pos]

theorem writeUnits_add : writeUnits g pending (a * g.unitSize.toNat + rest)
    = writeUnits g pending (a * g.unitSize.toNat)
      + writeUnits g (pending + writeUnits g pending (a * g.unitSize.toNat)) rest := by
  simp only [writeUnits, units_add, Nat.mul_div_cancel _ g.unitSize_pos]
  generalize rest / g.unitSize.toNat = r
  omega

/-- Of what waits a ring can be read at a time, so that more may not wait. -/
theorem readUnits_add (fits : pending ≤ g.capacity.toNat) :
    readUnits g pending (a * g.unitSize.toNat + rest) none
      = readUnits g pending (a * g.unitSize.toNat) none
        + readUnits g (pending - readUnits g pending (a * g.unitSize.toNat) none) rest none := by
  simp only [readUnits_none, units_add, Nat.mul_div_cancel _ g.unitSize_pos]
  generalize rest / g.unitSize.toNat = r
  omega

end Transfer

namespace Halves

variable {h : Halves} {m : Memory}

/-! ## Two calls -/

/-- What two writes take of their data is what one takes of both. -/
theorem take_writeUnits_append (h : Halves) {a : Nat} {first : List UInt8} (rest : List UInt8)
    (pending : Nat) (hfirst : first.length = a * h.geometry.unitSize.toNat) :
    (first ++ rest).take (Transfer.writeUnits h.geometry pending (first ++ rest).length
        * h.geometry.unitSize.toNat)
      = first.take (Transfer.writeUnits h.geometry pending first.length
          * h.geometry.unitSize.toNat)
        ++ rest.take (Transfer.writeUnits h.geometry
            (pending + Transfer.writeUnits h.geometry pending first.length) rest.length
          * h.geometry.unitSize.toNat) := by
  have hs := h.geometry.unitSize_pos
  rw [List.length_append, hfirst, Transfer.writeUnits_add, Nat.add_mul]
  have hk : Transfer.writeUnits h.geometry pending (a * h.geometry.unitSize.toNat)
      = min a (h.geometry.capacity.toNat - 1 - pending) := by
    rw [Transfer.writeUnits, Nat.mul_div_cancel _ hs]
  have hrest : Transfer.writeUnits h.geometry
      (pending + Transfer.writeUnits h.geometry pending (a * h.geometry.unitSize.toNat)) rest.length
        ≤ h.geometry.capacity.toNat - 1
          - (pending + Transfer.writeUnits h.geometry pending (a * h.geometry.unitSize.toNat)) :=
    Nat.min_le_right _ _
  generalize Transfer.writeUnits h.geometry pending (a * h.geometry.unitSize.toNat) = k at *
  generalize Transfer.writeUnits h.geometry (pending + k) rest.length = j at *
  rcases Nat.lt_or_ge k a with hshort | hwhole
  · -- the first write is cut short, and the second finds no room
    obtain rfl : j = 0 := by omega
    have hless : k * h.geometry.unitSize.toNat ≤ first.length := by
      rw [hfirst]
      exact Nat.mul_le_mul_right _ (Nat.le_of_lt hshort)
    rw [Nat.zero_mul, Nat.add_zero, List.take_zero, List.append_nil,
      List.take_append_of_le_length hless]
  · obtain rfl : k = a := by omega
    rw [← hfirst, List.take_length_add_append, List.take_length]

/-- **Two writes are one**, if the first is offered whole units. -/
theorem write_append (hne : h.head ≠ h.tail) {first : List UInt8}
    (whole : h.geometry.unitSize.toNat ∣ first.length) (rest : List UInt8) (m : Memory) :
    (h.write (first ++ rest) m).1.toNat
        = (h.write first m).1.toNat + (h.write rest (h.write first m).2).1.toNat
      ∧ (h.write (first ++ rest) m).2 = (h.write rest (h.write first m).2).2 := by
  have hword : h.occupied m < 2 ^ 32 := UInt32.toNat_lt _
  have hcapacity := h.geometry.capacity.toNat_lt
  obtain ⟨a, hfirst⟩ := whole
  rw [Nat.mul_comm] at hfirst
  have hlen := h.length_take_writeUnits first m
  have hunits : Transfer.writeUnits h.geometry (h.occupied m) first.length
      ≤ h.geometry.capacity.toNat - 1 - h.occupied m := Nat.min_le_right _ _
  have hoccupied := occupied_enqueue (m := m) hne hlen (by omega)
  obtain ⟨hcount, hmemory⟩ := h.write_eq first m rfl
  obtain ⟨hcount', hmemory'⟩ := h.write_eq rest (h.write first m).2 rfl
  obtain ⟨hboth, hmemories⟩ := h.write_eq (first ++ rest) m rfl
  rw [← hmemory] at hoccupied
  rw [hoccupied] at hcount' hmemory'
  constructor
  · rw [hboth, hcount, hcount', List.length_append, hfirst, Transfer.writeUnits_add, Nat.add_mul]
  · rw [hmemories, hmemory', hmemory, h.take_writeUnits_append rest _ hfirst]
    refine h.enqueue_append _ m ?_
    rw [hlen]
    exact Nat.dvd_mul_left _ _

/-- **Two reads are one**, if the buffer of the first holds whole units. -/
theorem read_add (hne : h.head ≠ h.tail) (fits : h.occupied m ≤ h.geometry.capacity.toNat)
    {room : Nat} (whole : h.geometry.unitSize.toNat ∣ room) (rest : Nat) :
    h.read (room + rest) none m
      = ((h.read room none m).1 ++ (h.read rest none (h.read room none m).2).1,
        (h.read rest none (h.read room none m).2).2) := by
  have hs := h.geometry.unitSize_pos
  obtain ⟨a, ha⟩ := whole
  rw [Nat.mul_comm] at ha
  have hunits : Transfer.readUnits h.geometry (h.occupied m) room none ≤ h.occupied m :=
    Nat.le_trans (Transfer.readUnits_le ..) (Nat.min_le_left _ _)
  have hoccupied := occupied_dequeue (m := m) hne hunits
  have hhead := h.headCount_dequeue (Transfer.readUnits h.geometry (h.occupied m) room none
    * h.geometry.unitSize.toNat) m
  rw [Nat.mul_div_cancel _ hs] at hhead
  have hfirst := h.read_eq room none m rfl
  have hrest := h.read_eq rest none (h.read room none m).2 rfl
  have hboth := h.read_eq (room + rest) none m rfl
  rw [hfirst] at hrest ⊢
  dsimp only at hrest ⊢
  rw [hoccupied, hhead, stretch_dequeue] at hrest
  rw [hrest, hboth, ha, Transfer.readUnits_add _ _ _ _ fits, Nat.add_mul, stretch_add_ofNat,
    dequeue_add _ _ _ (Nat.dvd_mul_left _ _)]

theorem occupied_read_le (hne : h.head ≠ h.tail) (room : Nat) (count : Option UInt64) :
    h.occupied (h.read room count m).2 ≤ h.occupied m := by
  have hunits : Transfer.readUnits h.geometry (h.occupied m) room count ≤ h.occupied m :=
    Nat.le_trans (Transfer.readUnits_le ..) (Nat.min_le_left _ _)
  rw [h.read_eq room count m rfl, occupied_dequeue hne hunits]
  exact Nat.sub_le _ _

end Halves

/-! ## Lists of calls -/

namespace Session

variable {s : Session} {m : Memory}

/-- Writes one after the other, all but the last of whole units, and the one write of all their
    data. -/
theorem run_writes (idle : s.writing = none) (cells : s.halves.head ≠ s.halves.tail)
    (pieces : List (List UInt8))
    (whole : ∀ piece ∈ pieces.dropLast, s.halves.geometry.unitSize.toNat ∣ piece.length) :
    ∃ lens : List UInt64, s.run (pieces.map .write) m
        = (lens.map .moved, s, (s.halves.write pieces.flatten m).2)
      ∧ (s.halves.write pieces.flatten m).1.toNat = (lens.map UInt64.toNat).sum := by
  induction pieces generalizing m with
  | nil =>
    -- nothing is offered, so nothing is written
    obtain ⟨hcount, hmemory⟩ := s.halves.write_eq [] m rfl
    rw [List.take_nil, Halves.enqueue_nil] at hmemory
    rw [Transfer.writeUnits, List.length_nil, Nat.zero_div, Nat.zero_min, Nat.zero_mul] at hcount
    refine ⟨[], ?_, hcount⟩
    rw [List.flatten_nil, hmemory]
    rfl
  | cons piece rest ih =>
    cases rest with
    | nil =>
      -- the last piece, which may be of any length
      refine ⟨[(s.halves.write piece m).1], ?_, ?_⟩
      · rw [List.map_singleton, run_cons, step_write idle, List.flatten_singleton]
        rfl
      · rw [List.flatten_singleton, List.map_singleton, List.sum_singleton]
    | cons next rest =>
      rw [List.dropLast_cons_cons] at whole
      obtain ⟨lens, hrun, hsum⟩ := ih (m := (s.halves.write piece m).2)
        fun p hp => whole p (List.mem_cons_of_mem _ hp)
      obtain ⟨hcount, hmemory⟩ := Halves.write_append cells (whole piece List.mem_cons_self)
        (next :: rest).flatten m
      refine ⟨(s.halves.write piece m).1 :: lens, ?_, ?_⟩
      · rw [List.map_cons, run_cons, step_write idle, List.flatten_cons, hmemory]
        dsimp only
        rw [hrun]
        rfl
      · rw [List.flatten_cons, hcount, hsum, List.map_cons, List.sum_cons]

/-- The answer to a read that has got `part` into the beginning of its buffer. -/
def receipt (part buffer : List UInt8) : Answer :=
  .received part.length (part ++ buffer.drop part.length)

/-- Reads of all there is, one after the other into buffers of which all but the last hold whole
    units, and the one read into a buffer that is as long as all of them. -/
theorem run_reads_none (idle : s.reading = none) (cells : s.halves.head ≠ s.halves.tail)
    (fits : s.halves.occupied m ≤ s.halves.geometry.capacity.toNat) (buffers : List (List UInt8))
    (whole : ∀ buffer ∈ buffers.dropLast, s.halves.geometry.unitSize.toNat ∣ buffer.length) :
    ∃ parts : List (List UInt8), parts.length = buffers.length
      ∧ s.run (reads buffers) m = (List.zipWith receipt parts buffers, s,
        (s.halves.read (buffers.map List.length).sum none m).2)
      ∧ parts.flatten = (s.halves.read (buffers.map List.length).sum none m).1 := by
  induction buffers generalizing m with
  | nil =>
    have hread := s.halves.read_eq 0 none m rfl
    rw [Transfer.readUnits_none, Nat.zero_div, Nat.min_zero, Nat.zero_mul, Halves.dequeue_zero]
      at hread
    rw [List.map_nil, List.sum_nil, hread]
    exact ⟨[], rfl, rfl, rfl⟩
  | cons buffer rest ih =>
    cases rest with
    | nil =>
      -- the last buffer, which may be of any length
      rw [List.map_singleton, List.sum_singleton]
      refine ⟨[(s.halves.read buffer.length none m).1], rfl, ?_, List.flatten_singleton⟩
      rw [reads, List.map_singleton, run_cons, step_read idle]
      rfl
    | cons next rest =>
      rw [List.dropLast_cons_cons] at whole
      have hless := Halves.occupied_read_le (m := m) cells buffer.length none
      obtain ⟨parts, hlen, hrun, hflat⟩ := ih (m := (s.halves.read buffer.length none m).2)
        (Nat.le_trans hless fits) fun b hb => whole b (List.mem_cons_of_mem _ hb)
      have hboth := Halves.read_add cells fits (whole buffer List.mem_cons_self)
        ((next :: rest).map List.length).sum
      have hcalls : reads (buffer :: next :: rest)
          = .read buffer none :: reads (next :: rest) := rfl
      rw [List.map_cons, List.sum_cons, hboth, hcalls, run_cons, step_read idle]
      dsimp only
      rw [hrun]
      refine ⟨(s.halves.read buffer.length none m).1 :: parts, ?_, rfl, ?_⟩
      · rw [List.length_cons, List.length_cons, hlen]
      · rw [List.flatten_cons, hflat]

/-- Calls one after the other do what one call does. -/
structure PiecesJoin (s : Session) (m : Memory) : Prop where
  /-- writes move as many bytes as the one write of all their data, and leave the same memory -/
  write : s.writing = none → ∀ pieces : List (List UInt8),
    (∀ piece ∈ pieces.dropLast, s.halves.geometry.unitSize.toNat ∣ piece.length) →
      ∃ (lens : List UInt64) (n : UInt64) (m' : Memory),
        s.run (pieces.map .write) m = (lens.map .moved, s, m')
          ∧ s.step (.write pieces.flatten) m = (.moved n, s, m')
          ∧ n.toNat = (lens.map UInt64.toNat).sum
  /-- reads of all there is get the bytes that one read gets into a buffer as long as all of theirs,
      and leave the same memory -/
  read : s.reading = none → s.halves.occupied m ≤ s.halves.geometry.capacity.toNat →
    ∀ buffers : List (List UInt8),
      (∀ buffer ∈ buffers.dropLast, s.halves.geometry.unitSize.toNat ∣ buffer.length) →
        ∀ buffer : List UInt8, buffer.length = (buffers.map List.length).sum →
          ∃ (parts : List (List UInt8)) (m' : Memory), parts.length = buffers.length
            ∧ s.run (reads buffers) m = (List.zipWith receipt parts buffers, s, m')
            ∧ s.step (.read buffer none) m = (receipt parts.flatten buffer, s, m')

/-- **Into how many calls bytes are cut makes no difference.**  The counters are two different cells
    that hold anything at all; for the reads they are no more than a ring apart. -/
theorem pieces_join {s : Session} (cells : s.halves.head ≠ s.halves.tail) (m : Memory) :
    PiecesJoin s m where
  write := by
    intro idle pieces whole
    obtain ⟨lens, hrun, hsum⟩ := run_writes (m := m) idle cells pieces whole
    exact ⟨lens, _, _, hrun, step_write idle pieces.flatten m, hsum⟩
  read := by
    intro idle fits buffers whole buffer hlen
    obtain ⟨parts, hparts, hrun, hflat⟩ := run_reads_none idle cells fits buffers whole
    rw [← hlen] at hrun hflat
    refine ⟨parts, _, hparts, hrun, ?_⟩
    rw [step_read idle, hflat]
    rfl

/-- The small ring has room for two units.  Of three writes the second is cut short and the third
    moves nothing. -/
theorem pieces_join_small :
    let s : Session := { halves := Halves.small }
    PiecesJoin s Memory.small ∧ ∃ m', s.run [.write [1, 2, 3], .write [4, 5, 6, 7, 8, 9],
          .write [10]] Memory.small = ([.moved 3, .moved 3, .moved 0], s, m')
        ∧ s.step (.write [1, 2, 3, 4, 5, 6, 7, 8, 9, 10]) Memory.small = (.moved 6, s, m') := by
  intro s
  have join : PiecesJoin s Memory.small := pieces_join (by decide) Memory.small
  have hanswers : (s.run [.write [1, 2, 3], .write [4, 5, 6, 7, 8, 9], .write [10]] Memory.small).1
      = [.moved 3, .moved 3, .moved 0] := by decide
  have hanswer : (s.step (.write [1, 2, 3, 4, 5, 6, 7, 8, 9, 10]) Memory.small).1 = .moved 6 := by
    decide
  obtain ⟨lens, n, m', hrun, hstep, -⟩ := join.write rfl [[1, 2, 3], [4, 5, 6, 7, 8, 9], [10]]
    (by decide)
  rw [List.map_cons, List.map_cons, List.map_singleton] at hrun
  rw [hrun] at hanswers
  rw [List.flatten_cons, List.flatten_cons, List.flatten_singleton] at hstep
  simp only [List.cons_append, List.nil_append] at hstep
  rw [hstep] at hanswer
  obtain rfl : n = 6 := Answer.moved.inj hanswer
  refine ⟨join, m', ?_, hstep⟩
  rw [hrun, ← hanswers]

/-- A unit that is offered in two pieces is never complete. -/
example : let s : Session := { halves := Halves.small }
    (s.run [.write [1, 2], .write [3]] Memory.small).1 = [.moved 0, .moved 0]
      ∧ (s.step (.write [1, 2, 3]) Memory.small).1 = .moved 3 := by decide

end Session

end SharedRing
