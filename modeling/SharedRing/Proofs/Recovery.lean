/-
  A ring gets over an impossible tail.

  A tail may be found up to `2 ^ 32 - 1` units ahead of the head, which is many times round the ring.
  A reader believes a ring of it at a time: each of its reads moves the head on, by some units and at
  most a ring of them, until the counters meet.  What it has read then are the bytes of the ring, lap
  after lap.  A writer finds no free unit until the distance is less than a ring, and until then it
  does nothing at all.

  What any call does to the distance is one equation (`Isolated.occupied_run`): the units that the
  writer publishes come in, and those that the reader takes go out, whatever the counters held to
  begin with.  Once the distance has fallen to what a ring can hold, the session stands for a queue
  again (`Isolated.represents`), and everything that is known of queues is known of it.
-/
import SharedRing.Proofs.Isolation

namespace SharedRing

/-! ## What is read and what is moved -/

/-- The bytes that a call has read. -/
def Answer.got : Answer → List UInt8
  | .received n buffer => buffer.take n
  | _ => []

/-- The bytes that some calls have read, in order. -/
def bytesRead (answers : List Answer) : List UInt8 := answers.flatMap Answer.got

/-- The units that a call has moved: published, read or released. -/
def Answer.units (g : Geometry) : Answer → Nat
  | .moved len => len.toNat / g.unitSize.toNat
  | .received n _ => n / g.unitSize.toNat
  | _ => 0

/-- The units that a party has moved. -/
def unitsMoved (g : Geometry) (party : Party) (calls : List Call) (answers : List Answer) : Nat :=
  ((answersTo party calls answers).map (Answer.units g)).sum

/-- How many calls of a party have moved something. -/
def moves (g : Geometry) (party : Party) (calls : List Call) (answers : List Answer) : Nat :=
  (answersTo party calls answers).countP fun a => 0 < a.units g

variable {g : Geometry} {party : Party} {c : Call}

theorem unitsMoved_cons_of_eq (hc : c.party = party) (calls : List Call) (a : Answer)
    (answers : List Answer) : unitsMoved g party (c :: calls) (a :: answers)
      = a.units g + unitsMoved g party calls answers := by
  rw [unitsMoved, answersTo, if_pos hc, List.map_cons, List.sum_cons, unitsMoved]

theorem unitsMoved_cons_of_ne (hc : c.party ≠ party) (calls : List Call) (a : Answer)
    (answers : List Answer) : unitsMoved g party (c :: calls) (a :: answers)
      = unitsMoved g party calls answers := by
  rw [unitsMoved, answersTo, if_neg hc, unitsMoved]

/-- A call that moves something moves a unit at least. -/
theorem moves_le_unitsMoved (g : Geometry) (party : Party) (calls : List Call)
    (answers : List Answer) : moves g party calls answers ≤ unitsMoved g party calls answers := by
  rw [moves, unitsMoved]
  induction answersTo party calls answers with
  | nil => exact Nat.le_refl _
  | cons a rest ih =>
    rw [List.countP_cons, List.map_cons, List.sum_cons]
    split
    · have hpos := of_decide_eq_true ‹_›
      omega
    · omega

/-- Reads of all there is, one into each buffer. -/
def reads (buffers : List (List UInt8)) : List Call := buffers.map fun buffer => .read buffer none

/-! ## The distance -/

namespace Halves

variable {h : Halves} {m : Memory} {t : Transfer}

/-- The counters meet where nothing is between them. -/
theorem occupied_eq_zero_iff : h.occupied m = 0 ↔ h.headCount m = h.tailCount m := by
  rw [occupied, ← UInt32.toNat_zero, UInt32.toNat_inj, UInt32.sub_eq_iff_eq_add, UInt32.zero_add,
    eq_comm]

theorem Vacant.occupied_publish (hold : h.Vacant m t) (hne : h.head ≠ h.tail) :
    h.occupied (h.publish t m) = h.occupied m + t.len.toNat / h.geometry.unitSize.toNat := by
  obtain ⟨k, run, hk⟩ := hold
  rw [Halves.occupied_publish hne run (by omega), run.len_eq,
    Nat.mul_div_cancel _ h.geometry.unitSize_pos]

theorem Waiting.occupied_release (hold : h.Waiting m t) (hne : h.head ≠ h.tail) :
    h.occupied (h.release t m) + t.len.toNat / h.geometry.unitSize.toNat = h.occupied m := by
  obtain ⟨k, run, hk⟩ := hold
  rw [Halves.occupied_release hne run hk, run.len_eq,
    Nat.mul_div_cancel _ h.geometry.unitSize_pos]
  omega

end Halves

namespace Session

variable {s : Session} {m : Memory} {t : Transfer}

/-! ## Copying calls -/

theorem step_write {s : Session} (idle : s.writing = none) (data : List UInt8) (m : Memory) :
    s.step (.write data) m
      = (.moved (s.halves.write data m).1, s, (s.halves.write data m).2) := by
  unfold Session.step
  rw [idle]
  exact s.writerStep_write data m

theorem step_read {s : Session} (idle : s.reading = none) (buffer : List UInt8)
    (count : Option UInt64) (m : Memory) : s.step (.read buffer count) m
      = (.received (s.halves.read buffer.length count m).1.length
          ((s.halves.read buffer.length count m).1
            ++ buffer.drop (s.halves.read buffer.length count m).1.length), s,
        (s.halves.read buffer.length count m).2) := by
  unfold Session.step
  rw [idle]
  rfl

/-! ## What each call does to the distance -/

/-- The flow-control counter is no part of the distance. -/
theorem occupied_signalled {outcome : Except Refusal (UInt64 × Memory)}
    (hok : ∀ held m', outcome = .ok (held, m') → ∃ signals, m' = { m with signals }) :
    s.halves.occupied (s.signalled m outcome).2.2 + (s.signalled m outcome).1.units g
      = s.halves.occupied m := by
  cases outcome with
  | error e => rfl
  | ok result =>
    obtain ⟨held, m'⟩ := result
    obtain ⟨signals, rfl⟩ := hok held m' rfl
    rfl

/-- What a peer does to the flow-control counter. -/
theorem occupied_peer (hc : c.party = .peer) (own : c.isForeignStore = false) :
    s.halves.occupied (s.step c m).2.2 = s.halves.occupied m := by
  cases c with
  | peerSignal value =>
    cases hsignal : s.halves.signal with
    | none => rw [step_peerSignal_of_free hsignal]
    | some i => rw [step_peerSignal_of_bound hsignal]; rfl
  | _ => contradiction

namespace Isolated

/-- A call of the writer adds to the distance what it moves. -/
theorem occupied_writer (inv : Isolated s m) (hc : c.party = .writer) :
    s.halves.occupied (s.step c m).2.2
      = s.halves.occupied m + (s.step c m).1.units s.halves.geometry := by
  have hne := inv.lent.head_ne_tail
  cases hw : s.writing with
  | none =>
    cases c with
    | write data =>
      rw [step_write hw, Answer.units]
      unfold Halves.write
      cases hplan : Transfer.write? s.halves.geometry (s.halves.headCount m)
          (s.halves.tailCount m) data.length with
      | none => exact (congrArg (_ + ·) (Nat.zero_div _)).symm
      | some t =>
        have hold : s.halves.Vacant m t := Halves.vacant_of_write? hplan
        exact Halves.Vacant.occupied_publish (m := s.halves.fill t data m) hold hne
    | reserve _ | fill _ | publish | discard | writerCounts =>
      unfold Session.step
      rw [hw]
      rfl
    | _ => contradiction
  | some t =>
    unfold Session.step
    rw [hw]
    cases c with
    | publish => exact (inv.writing t hw).occupied_publish hne
    | write _ | reserve _ | fill _ | discard | writerCounts => rfl
    | _ => contradiction

/-- A call of the reader takes from the distance what it moves. -/
theorem occupied_reader (inv : Isolated s m) (hc : c.party = .reader) :
    s.halves.occupied (s.step c m).2.2 + (s.step c m).1.units s.halves.geometry
      = s.halves.occupied m := by
  have hne := inv.lent.head_ne_tail
  cases hr : s.reading with
  | none =>
    cases c with
    | read buffer count =>
      rw [step_read hr, Answer.units]
      unfold Halves.read
      cases hplan : Transfer.read? s.halves.geometry (s.halves.headCount m)
          (s.halves.tailCount m) buffer.length count with
      | none => exact congrArg (_ + ·) (Nat.zero_div _)
      | some t =>
        have hold : s.halves.Waiting m t := Halves.waiting_of_read? hplan
        dsimp only
        rw [hold.length_contents]
        exact hold.occupied_release hne
    | addSignal value =>
      unfold Session.step
      rw [hr]
      exact occupied_signalled fun _ _ => Memory.eq_of_addSignal
    | takeSignal =>
      unfold Session.step
      rw [hr]
      exact occupied_signalled fun _ _ => Memory.eq_of_takeSignal
    | view | viewOf _ | look | release | leave | readerCounts =>
      unfold Session.step
      rw [hr]
      rfl
    | _ => contradiction
  | some t =>
    unfold Session.step
    rw [hr]
    cases c with
    | release => exact (inv.reading t hr).occupied_release hne
    | look | leave | read _ _ | view | viewOf _ | addSignal _ | takeSignal | readerCounts => rfl
    | _ => contradiction

/-- **The distance over a list of calls**, whatever the counters held to begin with.  What the
    writer has published has come in, and what the reader has taken has gone out. -/
theorem occupied_run (inv : Isolated s m) (calls : List Call)
    (own : ∀ c ∈ calls, c.isForeignStore = false) :
    s.halves.occupied (s.run calls m).2.2
        + unitsMoved s.halves.geometry .reader calls (s.run calls m).1
      = s.halves.occupied m + unitsMoved s.halves.geometry .writer calls (s.run calls m).1 := by
  induction calls generalizing s m with
  | nil => rfl
  | cons c rest ih =>
    have hown := own c List.mem_cons_self
    have hrest := ih (inv.step hown) fun c' hc' => own c' (List.mem_cons_of_mem c hc')
    rw [halves_step] at hrest
    rw [run_cons]
    dsimp only
    cases hc : c.party with
    | writer =>
      have hstep := inv.occupied_writer hc
      rw [unitsMoved_cons_of_eq hc, unitsMoved_cons_of_ne (by rw [hc]; decide)]
      omega
    | reader =>
      have hstep := inv.occupied_reader hc
      rw [unitsMoved_cons_of_eq hc, unitsMoved_cons_of_ne (by rw [hc]; decide)]
      omega
    | peer =>
      have hstep := occupied_peer (s := s) (m := m) hc hown
      rw [unitsMoved_cons_of_ne (by rw [hc]; decide), unitsMoved_cons_of_ne (by rw [hc]; decide)]
      omega

end Isolated

/-! ## Reads of all there is -/

/-- The units that a read of all there is takes into a buffer of so many bytes. -/
def readable (s : Session) (m : Memory) (room : Nat) : Nat :=
  min (min (s.halves.occupied m) s.halves.geometry.capacity.toNat)
    (room / s.halves.geometry.unitSize.toNat)

/-- A read of all there is takes `k` units from the front into the beginning of its buffer, and
    leaves the memory `m'`. -/
structure ReadsOut (s : Session) (m : Memory) (buffer : List UInt8) (k : Nat) (m' : Memory) :
    Prop where
  step_eq : s.step (.read buffer none) m
    = (.received (k * s.halves.geometry.unitSize.toNat)
        (s.halves.stretch m (s.halves.headCount m) (k * s.halves.geometry.unitSize.toNat)
          ++ buffer.drop (k * s.halves.geometry.unitSize.toNat)), s, m')
  head_eq : s.halves.headCount m' = s.halves.headCount m + UInt32.ofNat k
  tail_eq : s.halves.tailCount m' = s.halves.tailCount m
  occupied_eq : s.halves.occupied m' + k = s.halves.occupied m
  unread_eq : s.halves.unread m
    = s.halves.stretch m (s.halves.headCount m) (k * s.halves.geometry.unitSize.toNat)
      ++ s.halves.unread m'
  bytes_eq : m'.bytes = m.bytes
  signals_eq : m'.signals = m.signals

/-- **A read takes as many units as there are and as the buffer holds, and no more than a ring.** -/
theorem Isolated.readsOut (inv : Isolated s m) (idle : s.reading = none) (buffer : List UInt8) :
    ∃ m', ReadsOut s m buffer (s.readable m buffer.length) m' := by
  have hle : s.readable m buffer.length ≤ s.halves.occupied m :=
    Nat.le_trans (Nat.min_le_left _ _) (Nat.min_le_left _ _)
  have hstep := step_read idle buffer none m
  unfold Halves.read at hstep
  rcases Transfer.read?_cases s.halves.geometry (s.halves.headCount m) (s.halves.tailCount m)
      buffer.length none (k := s.readable m buffer.length) rfl with
    ⟨hzero, hnone⟩ | ⟨t, hsome, run⟩
  · rw [hnone] at hstep
    rw [hzero]
    refine ⟨m, ?_, (UInt32.add_zero _).symm, rfl, rfl, ?_, rfl, rfl⟩
    · rw [Nat.zero_mul]; exact hstep
    · rw [Nat.zero_mul]; rfl
  · have hne := inv.lent.head_ne_tail
    rw [hsome] at hstep
    dsimp only at hstep
    refine ⟨s.halves.release t m, ?_, ?_, Halves.tailCount_release hne t, ?_, ?_, rfl, rfl⟩
    · rw [hstep, Halves.contents_run run, Halves.length_stretch]
    · rw [Halves.headCount_release, run.next_eq]
    · rw [Halves.occupied_release hne run hle]
      omega
    · rw [← Halves.contents_run run]
      exact Halves.unread_release hne run hle

/-- Nothing is read from a buffer that holds a unit only if nothing waits. -/
theorem readable_eq_zero_iff {room : Nat} (hroom : s.halves.geometry.unitSize.toNat ≤ room) :
    s.readable m room = 0 ↔ s.halves.headCount m = s.halves.tailCount m := by
  have hunit := Nat.div_pos hroom s.halves.geometry.unitSize_pos
  have hcapacity := s.halves.geometry.capacity_pos
  rw [← Halves.occupied_eq_zero_iff, readable]
  omega

/-- **Reads one after the other.**  What they have read and what still waits is what waited before,
    and each read into a buffer that holds a unit has brought the counters nearer. -/
theorem Isolated.run_reads (inv : Isolated s m) (idle : s.reading = none)
    (buffers : List (List UInt8))
    (room : ∀ buffer ∈ buffers, s.halves.geometry.unitSize.toNat ≤ buffer.length) :
    s.halves.unread m = bytesRead (s.run (reads buffers) m).1
        ++ s.halves.unread (s.run (reads buffers) m).2.2
      ∧ s.halves.occupied (s.run (reads buffers) m).2.2
          ≤ s.halves.occupied m - buffers.length := by
  induction buffers generalizing m with
  | nil => exact ⟨rfl, Nat.le_refl _⟩
  | cons buffer rest ih =>
    obtain ⟨m', out⟩ := inv.readsOut idle buffer
    have hnext : Isolated s m' := by
      have hstep := inv.step (c := .read buffer none) rfl
      rw [out.step_eq] at hstep
      exact hstep
    obtain ⟨hunread, hless⟩ := ih hnext fun b hb => room b (List.mem_cons_of_mem _ hb)
    have hunit := Nat.div_pos (room buffer List.mem_cons_self) s.halves.geometry.unitSize_pos
    have hcapacity := s.halves.geometry.capacity_pos
    have hmoved := out.occupied_eq
    have hrun : s.run (reads (buffer :: rest)) m
        = ((s.step (.read buffer none) m).1 :: (s.run (reads rest) m').1,
          (s.run (reads rest) m').2) := by
      rw [reads, List.map_cons, run_cons, out.step_eq]
      rfl
    have hgot : (s.step (.read buffer none) m).1.got = s.halves.stretch m (s.halves.headCount m)
        (s.readable m buffer.length * s.halves.geometry.unitSize.toNat) := by
      rw [out.step_eq]
      exact List.take_left' (Halves.length_stretch ..)
    rw [hrun]
    refine ⟨?_, ?_⟩
    · rw [bytesRead, List.flatMap_cons, hgot, List.append_assoc, out.unread_eq, hunread]
      rfl
    · -- a unit at least was taken, if there was one
      unfold readable at hmoved
      rw [List.length_cons]
      dsimp only
      omega

/-! ## While the tail is impossible, and after -/

/-- Without a free unit the writer has no chunk open, and does nothing. -/
structure Stalled (s : Session) (m : Memory) : Prop where
  writing_eq : s.writing = none
  write : ∀ data, s.step (.write data) m = (.moved 0, s, m)
  reserve : ∀ len, s.step (.reserve len) m = (.chunk none, s, m)

theorem Isolated.stalled (inv : Isolated s m)
    (full : s.halves.geometry.capacity.toNat - 1 ≤ s.halves.occupied m) : Stalled s m := by
  -- a vacant plan covers a unit, and there is none
  have hvacant : ∀ t, ¬ s.halves.Vacant m t := by
    rintro t ⟨k, run, hk⟩
    have hpos := run.pos
    omega
  have idle : s.writing = none :=
    Option.eq_none_iff_forall_not_mem.2 fun t ht => hvacant t (inv.writing t ht)
  refine ⟨idle, ?_, ?_⟩
  · intro data
    have hplan : Transfer.write? s.halves.geometry (s.halves.headCount m) (s.halves.tailCount m)
        data.length = none :=
      Option.eq_none_iff_forall_not_mem.2 fun t ht => hvacant t (Halves.vacant_of_write? ht)
    have hwrite : s.halves.write data m = (0, m) := by
      unfold Halves.write
      rw [hplan]
    rw [step_write idle, hwrite]
  · intro len
    have hplan : s.halves.reserve? len m = none :=
      Option.eq_none_iff_forall_not_mem.2 fun t ht => hvacant t (Halves.vacant_of_reserve? ht)
    unfold Session.step
    rw [idle]
    show s.openWriting (s.halves.reserve? len m) m = _
    rw [hplan]
    have hs : { s with writing := none } = s := by rw [← idle]
    exact congrArg (fun s' => (Answer.chunk none, s', m)) hs

/-- A session whose distance a ring can hold stands for a queue, whatever its past. -/
theorem Isolated.represents (inv : Isolated s m)
    (fits : s.halves.occupied m ≤ s.halves.geometry.capacity.toNat - 1) :
    Represents s m
      { bytes := s.halves.unread m
        front := s.halves.geometry.place (s.halves.headCount m) 0
        filling := s.writing.map fun t => s.halves.contents t m
        showing := s.reading.map fun t => t.len.toNat } where
  inOrder := ⟨inv.lent.ring_le_region, inv.lent.region_le_memory, inv.lent.head_ne_tail, fits⟩
  bytes_eq := rfl
  front_eq := rfl
  writing := by
    cases hw : s.writing with
    | none => exact .none
    | some t => exact .some ⟨inv.writing t hw, rfl⟩
  reading := by
    cases hr : s.reading with
    | none => exact .none
    | some t => exact .some ⟨inv.reading t hr, rfl⟩

/-- What a session may count on from here, however far ahead its tail is. -/
structure Recovers (s : Session) (m : Memory) : Prop where
  /-- a read takes what there is, what fits and no more than a ring, and nothing only if the counters
      have met -/
  read : s.reading = none → ∀ buffer : List UInt8,
    s.halves.geometry.unitSize.toNat ≤ buffer.length →
      (∃ m', ReadsOut s m buffer (s.readable m buffer.length) m')
        ∧ (s.readable m buffer.length = 0 ↔ s.halves.headCount m = s.halves.tailCount m)
  /-- the counters meet after as many reads as there are units, if not before, and then each unit
      between them has been read once: the bytes of the ring, lap after lap -/
  reads : s.reading = none → ∀ buffers : List (List UInt8),
    (∀ buffer ∈ buffers, s.halves.geometry.unitSize.toNat ≤ buffer.length) →
      let out := s.run (SharedRing.reads buffers) m
      (s.halves.occupied m ≤ buffers.length →
          s.halves.headCount out.2.2 = s.halves.tailCount out.2.2)
        ∧ (s.halves.headCount out.2.2 = s.halves.tailCount out.2.2 → bytesRead out.1
          = (List.range (s.halves.occupied m * s.halves.geometry.unitSize.toNat)).map fun i =>
              m.bytes.byte (s.halves.region.offset + ((s.halves.headCount m).toNat
                * s.halves.geometry.unitSize.toNat + i) % s.halves.geometry.size.toNat))
  /-- whatever else goes on, the reader moves something no more often than there are units, counting
      those that the writer publishes meanwhile -/
  moves_le : ∀ calls : List Call, (∀ c ∈ calls, c.isForeignStore = false) →
    moves s.halves.geometry .reader calls (s.run calls m).1 + s.halves.occupied (s.run calls m).2.2
      ≤ s.halves.occupied m + unitsMoved s.halves.geometry .writer calls (s.run calls m).1
  /-- as long as no unit is free, the writer does nothing -/
  stalled : s.halves.geometry.capacity.toNat - 1 ≤ s.halves.occupied m → Stalled s m
  /-- once a ring can hold the distance, that stays so, and the ring is a queue -/
  kept : s.halves.occupied m ≤ s.halves.geometry.capacity.toNat - 1 → ∀ calls : List Call,
    (∀ c ∈ calls, c.isForeignStore = false) →
      s.halves.occupied (s.run calls m).2.2 ≤ s.halves.geometry.capacity.toNat - 1
        ∧ ∃ q, Represents (s.run calls m).2.1 (s.run calls m).2.2 q

theorem Isolated.recovers (inv : Isolated s m) : Recovers s m where
  read := fun idle buffer room => ⟨inv.readsOut idle buffer, readable_eq_zero_iff room⟩
  reads := by
    intro idle buffers room out
    obtain ⟨hunread, hless⟩ := inv.run_reads idle buffers room
    rw [← Halves.occupied_eq_zero_iff]
    constructor
    · intro henough
      show s.halves.occupied (s.run (SharedRing.reads buffers) m).2.2 = 0
      omega
    · intro hempty
      have hnone : s.halves.unread out.2.2 = [] := by
        rw [← List.length_eq_zero_iff, Halves.length_unread, hempty, Nat.zero_mul]
      rw [show s.halves.unread (s.run (SharedRing.reads buffers) m).2.2 = [] from hnone,
        List.append_nil] at hunread
      exact hunread.symm
  moves_le := by
    intro calls own
    have hbalance := inv.occupied_run calls own
    have hmoves := moves_le_unitsMoved s.halves.geometry .reader calls (s.run calls m).1
    omega
  stalled := inv.stalled
  kept := by
    intro fits calls own
    obtain ⟨q, -, represents⟩ := (inv.represents fits).run calls own
    have hle := represents.inOrder.occupied_le
    rw [halves_run] at hle
    exact ⟨hle, q, represents⟩

/-- **An impossible tail is drained.**  Take any ring that can be split, its region anywhere in
    memory, its counters two different cells that hold anything at all, and any calls of the two
    halves.  From wherever they have led, reads into buffers that hold a unit bring the counters
    together, in no more reads than the tail is units ahead of the head, and give the bytes of the
    ring between them, lap after lap.  The writer does nothing until a unit is free, and from then on
    the ring is a queue. -/
theorem impossible_tail_is_drained {r : Ring} {h : Halves} (split : r.halves = .ok h) {m : Memory}
    (lent : h.region.offset + h.region.len ≤ m.bytes.size) (cells : h.head ≠ h.tail)
    (calls : List Call) (own : ∀ c ∈ calls, c.isForeignStore = false) :
    Recovers (Session.run { halves := h } calls m).2.1
      (Session.run { halves := h } calls m).2.2 := by
  have start : Isolated { halves := h } m :=
    { lent := ⟨Halves.ring_le_region_of_split split, lent, cells⟩
      writing := fun _ ht => (nomatch ht)
      reading := fun _ ht => (nomatch ht) }
  exact (start.run calls own).recovers

/-- The small ring of four units with a tail that is seven ahead.  A reservation is refused and
    nothing is written; then seven reads with room for a unit read nearly two laps. -/
theorem impossible_tail_is_drained_small :
    let m : Memory := ⟨Memory.small.bytes, [0xFFFFFFFE, 5], []⟩
    let calls : List Call := [.reserve 3, .write [1, 2, 3]]
    let s := (Session.run { halves := Halves.small } calls m).2.1
    let m₁ := (Session.run { halves := Halves.small } calls m).2.2
    let out := s.run (reads (List.replicate 7 [0, 0, 0, 0])) m₁
    Recovers s m₁ ∧ s.halves.headCount out.2.2 = s.halves.tailCount out.2.2
      ∧ bytesRead out.1 = [7, 8, 9, 10, 11, 12, 1, 2, 3, 4, 5, 6, 7, 8, 9, 10, 11, 12, 1, 2, 3] := by
  intro m calls s m₁ out
  have own : ∀ c ∈ calls, c.isForeignStore = false := by decide
  have idle : s.reading = none := by decide
  have hunits : s.halves.geometry.unitSize.toNat = 3 := by decide
  have hoccupied : s.halves.occupied m₁ = 7 := by decide
  have hlaps : ((List.range 21).map fun i => m₁.bytes.byte (s.halves.region.offset
      + ((s.halves.headCount m₁).toNat * 3 + i) % s.halves.geometry.size.toNat))
        = [7, 8, 9, 10, 11, 12, 1, 2, 3, 4, 5, 6, 7, 8, 9, 10, 11, 12, 1, 2, 3] := by decide
  -- from here on it does not matter which calls have led here
  clear_value calls
  have recovers : Recovers s m₁ := impossible_tail_is_drained (r := Ring.small)
    (h := Halves.small) rfl (by decide) (by decide) calls own
  have room : ∀ buffer ∈ List.replicate 7 ([0, 0, 0, 0] : List UInt8),
      s.halves.geometry.unitSize.toNat ≤ buffer.length := by
    intro buffer hbuffer
    rw [hunits, List.eq_of_mem_replicate hbuffer]
    decide
  obtain ⟨hmeet, hbytes⟩ := recovers.reads idle (List.replicate 7 [0, 0, 0, 0]) room
  have hmet := hmeet (by rw [hoccupied]; decide)
  have hread := hbytes hmet
  rw [hoccupied, hunits] at hread
  exact ⟨recovers, hmet, hread.trans hlaps⟩

end Session

end SharedRing
