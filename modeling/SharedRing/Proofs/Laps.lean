/-
  Rings whose counters are whole laps apart.

  A counter that has gone `k` more times round the ring points at the same unit, also if it has
  started again from zero on the way, since the capacity divides `2 ^ 32`.  Two counters that are both
  `k` laps further on are as far apart as before.  A plan is made from just these two things.  So it
  covers the same bytes, and only the counter value that completes it is `k` laps further on as well.

  Sessions that differ in this way answer every call alike (`Session.apart_stepAmid`): whatever the
  counters hold, whatever chunks are open, and whatever a peer stores, before a call or in the middle
  of it, if what it stores is `k` laps further on too.
-/
import SharedRing.Proofs.Meddling
import SharedRing.Proofs.Unread

namespace SharedRing

/-! ## Laps -/

namespace Geometry

variable (g : Geometry)

/-- So many times round the ring, as a step of a counter. -/
def laps (k : Nat) : UInt32 := UInt32.ofNat (k * g.capacity.toNat)

/-- **Whole laps lead back to the same place.** -/
theorem place_add_laps (u : UInt32) (k i : Nat) : g.place (u + g.laps k) i = g.place u i := by
  have hbytes : k * g.capacity.toNat * g.unitSize.toNat = g.size.toNat * k := by
    rw [toNat_size, Nat.mul_assoc, Nat.mul_comm]
  rw [laps, place_add_ofNat, hbytes, place, place, Nat.add_left_comm, Nat.mul_add_mod]

theorem unitPosition_add_laps (u : UInt32) (k : Nat) :
    g.unitPosition (u + g.laps k) = g.unitPosition u := by
  rw [← UInt64.toNat_inj, toNat_unitPosition_eq_place, toNat_unitPosition_eq_place, place_add_laps]

theorem toEnd_add_laps (u : UInt32) (k : Nat) : g.toEnd (u + g.laps k) = g.toEnd u := by
  rw [toEnd, toEnd, unitPosition_add_laps]

/-- Counters that move on together stay as far apart. -/
theorem pending_add (head tail v : UInt32) :
    g.pending (head + v) (tail + v) = g.pending head tail := by
  rw [pending, pending, gap, gap, add_sub_add_right_eq_sub]

theorem free_add (head tail v : UInt32) : g.free (head + v) (tail + v) = g.free head tail := by
  rw [free, free, pending_add]

/-- Counters that are equal up to whole laps are so many laps apart. -/
theorem exists_laps {u u' : UInt32} (h : u'.toNat % g.capacity.toNat = u.toNat % g.capacity.toNat) :
    ∃ k, u' = u + g.laps k := by
  obtain ⟨c, hc⟩ := g.capacity_dvd
  have hu := u.toNat_lt
  -- going round once more than the whole range of a counter needs keeps the difference positive
  have hle : u.toNat ≤ u'.toNat + g.capacity.toNat * c := by omega
  have hmod : u.toNat ≡ u'.toNat + g.capacity.toNat * c [MOD g.capacity.toNat] := by
    rw [Nat.ModEq, Nat.add_mul_mod_self_left, h]
  obtain ⟨k, hk⟩ := (Nat.modEq_iff_dvd' hle).1 hmod
  refine ⟨k, ?_⟩
  have hsum : u.toNat + k * g.capacity.toNat = u'.toNat + 2 ^ 32 := by
    rw [Nat.mul_comm]; omega
  have hu' := u'.toNat_lt
  rw [← UInt32.toNat_inj, UInt32.toNat_add, laps, UInt32.toNat_ofNat', Nat.add_mod_mod, hsum,
    Nat.add_mod_right, Nat.mod_eq_of_lt hu']

end Geometry

/-! ## Everything that holds a counter value, `v` further on -/

/-- The same bytes, completed by a counter value that is `v` further on. -/
def Transfer.later (v : UInt32) (t : Transfer) : Transfer := { t with next := t.next + v }

/-- The same store of a peer, `v` further on. -/
def Store.later (v : UInt32) : Store → Store
  | .head value => .head (value + v)
  | .tail value => .tail (value + v)

def Meddling.later (v : UInt32) (p : Meddling) : Meddling where
  between := p.between.map (Store.later v)
  after := p.after.map (Store.later v)

/-- The same call; only what a peer stores to a counter is `v` further on. -/
def Call.later (v : UInt32) : Call → Call
  | .peerHead value => .peerHead (value + v)
  | .peerTail value => .peerTail (value + v)
  | c => c

/-- The same counts with both counters `v` further on.  What is readable and what is writable stays
    the same. -/
def Counts.later (g : Geometry) (v : UInt32) (c : Counts) : Counts where
  head := c.head + v
  tail := c.tail + v
  headInBytes := g.bytesOf (c.head + v)
  tailInBytes := g.bytesOf (c.tail + v)
  pending := c.pending
  free := c.free

/-- The same answer; only where it tells the counters themselves they are `v` further on. -/
def Answer.later (g : Geometry) (v : UInt32) : Answer → Answer
  | .counts c => .counts (c.later g v)
  | a => a

/-- The same open chunks, to be completed `v` further on. -/
def Session.later (v : UInt32) (s : Session) : Session where
  halves := s.halves
  writing := s.writing.map (Transfer.later v)
  reading := s.reading.map (Transfer.later v)

/-- The memory `m'` is `m` with both counters of the ring `v` further on. -/
structure Halves.Later (h : Halves) (v : UInt32) (m m' : Memory) : Prop where
  bytes_eq : m'.bytes = m.bytes
  signals_eq : m'.signals = m.signals
  headCount_eq : h.headCount m' = h.headCount m + v
  tailCount_eq : h.tailCount m' = h.tailCount m + v

/-! ## Plans -/

namespace Transfer

variable (g : Geometry) (head tail : UInt32) (k : Nat)

theorem starting_add_laps (u : UInt32) (len : UInt64) :
    starting g (u + g.laps k) len = (starting g u len).later (g.laps k) := by
  simp only [starting, later, g.unitPosition_add_laps, g.toEnd_add_laps, add_right_comm]

theorem whole?_add_laps (u : UInt32) (available : UInt64) :
    whole? g (u + g.laps k) available = (whole? g u available).map (later (g.laps k)) := by
  simp only [whole?]
  split
  · rfl
  · rw [starting_add_laps]; rfl

theorem exactly?_add_laps (u : UInt32) (available len : UInt64) :
    exactly? g (u + g.laps k) available len
      = (exactly? g u available len).map (later (g.laps k)) := by
  simp only [exactly?, g.toEnd_add_laps]
  split
  · rw [starting_add_laps]; rfl
  · rfl

theorem write?_add_laps (offered : Nat) :
    write? g (head + g.laps k) (tail + g.laps k) offered
      = (write? g head tail offered).map (later (g.laps k)) := by
  rw [write?, write?, g.free_add, whole?_add_laps]

theorem reserve?_add_laps (len : UInt64) :
    reserve? g (head + g.laps k) (tail + g.laps k) len
      = (reserve? g head tail len).map (later (g.laps k)) := by
  rw [reserve?, reserve?, g.free_add, exactly?_add_laps]

theorem read?_add_laps (room : Nat) (count : Option UInt64) :
    read? g (head + g.laps k) (tail + g.laps k) room count
      = (read? g head tail room count).map (later (g.laps k)) := by
  simp only [read?, g.pending_add, whole?_add_laps]

theorem view?_add_laps : view? g (head + g.laps k) (tail + g.laps k)
    = (view? g head tail).map (later (g.laps k)) := by
  rw [view?, view?, g.pending_add, g.toEnd_add_laps, whole?_add_laps]

theorem viewOf?_add_laps (len : UInt64) : viewOf? g (head + g.laps k) (tail + g.laps k) len
    = (viewOf? g head tail len).map (later (g.laps k)) := by
  rw [viewOf?, viewOf?, g.pending_add, exactly?_add_laps]

end Transfer

/-! ## Memories -/

namespace Halves

variable {h : Halves} {v : UInt32} {k : Nat} {m m' : Memory}

namespace Later

/-- Storing to the head, `v` further on in the one memory than in the other. -/
theorem setHead (apart : h.Later v m m') (value : UInt32) :
    h.Later v (m.setCounter h.head value) (m'.setCounter h.head (value + v)) where
  bytes_eq := apart.bytes_eq
  signals_eq := apart.signals_eq
  headCount_eq := (Cells.load_store_self ..).trans
    (congrArg (· + v) (Cells.load_store_self m.counters h.head value).symm)
  tailCount_eq := by
    by_cases hne : h.tail = h.head
    · -- one counter is bound as both, and has just been stored to
      rw [tailCount, tailCount, hne]
      exact (Cells.load_store_self ..).trans
        (congrArg (· + v) (Cells.load_store_self m.counters h.head value).symm)
    · exact (Cells.load_store_ne _ _ hne).trans
        (apart.tailCount_eq.trans (congrArg (· + v) (Cells.load_store_ne _ _ hne).symm))

/-- Storing to the tail. -/
theorem setTail (apart : h.Later v m m') (value : UInt32) :
    h.Later v (m.setCounter h.tail value) (m'.setCounter h.tail (value + v)) where
  bytes_eq := apart.bytes_eq
  signals_eq := apart.signals_eq
  headCount_eq := by
    by_cases hne : h.head = h.tail
    · rw [headCount, headCount, hne]
      exact (Cells.load_store_self ..).trans
        (congrArg (· + v) (Cells.load_store_self m.counters h.tail value).symm)
    · exact (Cells.load_store_ne _ _ hne).trans
        (apart.headCount_eq.trans (congrArg (· + v) (Cells.load_store_ne _ _ hne).symm))
  tailCount_eq := (Cells.load_store_self ..).trans
    (congrArg (· + v) (Cells.load_store_self m.counters h.tail value).symm)

theorem publish (apart : h.Later v m m') (t : Transfer) :
    h.Later v (h.publish t m) (h.publish (t.later v) m') := apart.setTail t.next

theorem release (apart : h.Later v m m') (t : Transfer) :
    h.Later v (h.release t m) (h.release (t.later v) m') := apart.setHead t.next

theorem fill (apart : h.Later v m m') (t : Transfer) (data : List UInt8) :
    h.Later v (h.fill t data m) (h.fill (t.later v) data m') where
  bytes_eq := congrArg (Bytes.scatter · h.region.offset t.spans data) apart.bytes_eq
  signals_eq := apart.signals_eq
  headCount_eq := apart.headCount_eq
  tailCount_eq := apart.tailCount_eq

/-- Signals are no part of the ring. -/
theorem setSignal (apart : h.Later v m m') (i : Nat) (value : UInt64) :
    h.Later v (m.setSignal i value) (m'.setSignal i value) where
  bytes_eq := apart.bytes_eq
  signals_eq := congrArg (Cells.store · i value) apart.signals_eq
  headCount_eq := apart.headCount_eq
  tailCount_eq := apart.tailCount_eq

theorem contents_eq (apart : h.Later v m m') (t : Transfer) :
    h.contents (t.later v) m' = h.contents t m :=
  congrArg (Bytes.gather · h.region.offset t.spans) apart.bytes_eq

/-- What a chunk shows when it is opened. -/
theorem shown_eq (apart : h.Later v m m') (plan : Option Transfer) :
    (plan.map (Transfer.later v)).map (fun t => h.contents t m')
      = plan.map fun t => h.contents t m := by
  cases plan with
  | none => rfl
  | some t => exact congrArg some (apart.contents_eq t)

theorem counts_eq (apart : h.Later v m m') : h.counts m' = (h.counts m).later h.geometry v := by
  simp only [counts, Counts.later, pending, free, apart.headCount_eq, apart.tailCount_eq,
    Geometry.pending_add, Geometry.free_add]

theorem signal_eq (apart : h.Later v m m') (i : Nat) : m'.signal i = m.signal i :=
  congrArg (Cells.load · i) apart.signals_eq

/-- What a peer stores inside a call. -/
theorem meddle (apart : h.Later v m m') (stores : List Store) :
    h.Later v (h.meddle stores m) (h.meddle (stores.map (Store.later v)) m') := by
  induction stores generalizing m m' with
  | nil => exact apart
  | cons store rest ih =>
    cases store with
    | head value => exact ih (apart.setHead value)
    | tail value => exact ih (apart.setTail value)

end Later

/-- What a call has seen, with all counters `v` further on. -/
structure LaterSight (h : Halves) (v : UInt32) (w w' : Sight) : Prop where
  head_eq : w'.head = w.head + v
  tail_eq : w'.tail = w.tail + v
  memory : h.Later v w.memory w'.memory

theorem Later.lookAsWriter (apart : h.Later v m m') (p : Meddling) :
    h.LaterSight v (h.lookAsWriter p m) (h.lookAsWriter (p.later v) m') where
  head_eq := (apart.meddle p.between).headCount_eq
  tail_eq := apart.tailCount_eq
  memory := (apart.meddle p.between).meddle p.after

theorem Later.lookAsReader (apart : h.Later v m m') (p : Meddling) :
    h.LaterSight v (h.lookAsReader p m) (h.lookAsReader (p.later v) m') where
  head_eq := apart.headCount_eq
  tail_eq := (apart.meddle p.between).tailCount_eq
  memory := (apart.meddle p.between).meddle p.after

/-- A write that has seen counters `k` laps further on. -/
theorem LaterSight.write {w w' : Sight} (seen : h.LaterSight (h.geometry.laps k) w w')
    (data : List UInt8) : (h.writeSeeing data w').1 = (h.writeSeeing data w).1
      ∧ h.Later (h.geometry.laps k) (h.writeSeeing data w).2 (h.writeSeeing data w').2 := by
  unfold writeSeeing
  rw [seen.head_eq, seen.tail_eq, Transfer.write?_add_laps]
  cases Transfer.write? h.geometry w.head w.tail data.length with
  | none => exact ⟨rfl, seen.memory⟩
  | some t => exact ⟨rfl, (seen.memory.fill t data).publish t⟩

/-- A read that has seen counters `k` laps further on. -/
theorem LaterSight.read {r r' : Sight} (seen : h.LaterSight (h.geometry.laps k) r r')
    (buffer : List UInt8) (count : Option UInt64) :
    (h.readSeeing buffer count r').1 = (h.readSeeing buffer count r).1
      ∧ (h.readSeeing buffer count r').2.1 = (h.readSeeing buffer count r).2.1
      ∧ h.Later (h.geometry.laps k) (h.readSeeing buffer count r).2.2
          (h.readSeeing buffer count r').2.2 := by
  unfold readSeeing
  rw [seen.head_eq, seen.tail_eq, Transfer.read?_add_laps]
  cases Transfer.read? h.geometry r.head r.tail buffer.length count with
  | none => exact ⟨rfl, rfl, seen.memory⟩
  | some t =>
    have hgot := seen.memory.contents_eq t
    refine ⟨congrArg List.length hgot, ?_, seen.memory.release t⟩
    exact congrArg (fun got : List UInt8 => got ++ buffer.drop got.length) hgot

end Halves

/-! ## Calls -/

namespace Session

/-- Two outcomes of a call that differ only in how far the counters are. -/
structure Apart (h : Halves) (v : UInt32) (out out' : Answer × Session × Memory) : Prop where
  answer_eq : out'.1 = out.1.later h.geometry v
  session_eq : out'.2.1 = out.2.1.later v
  halves_eq : out.2.1.halves = h
  memory : h.Later v out.2.2 out'.2.2

variable {h : Halves} {writing reading : Option Transfer} {k : Nat} {v : UInt32} {m m' : Memory}

/-- An answer that tells no counts and leaves all as it is. -/
theorem apart_same (s : Session) (later : s.halves.Later v m m') {a : Answer}
    (ha : a.later s.halves.geometry v = a) :
    Apart s.halves v (a, s, m) (a, s.later v, m') := ⟨ha.symm, rfl, rfl, later⟩

/-- An operation on the flow-control counter. -/
theorem apart_signalled (s : Session) (later : s.halves.Later v m m')
    (operate : Memory → Option Nat → Except Refusal (UInt64 × Memory)) (f : UInt64 → UInt64)
    (bound : ∀ (m : Memory) i, operate m (some i) = .ok (m.signal i, m.setSignal i (f (m.signal i))))
    (free : ∀ m : Memory, operate m none = .error (.missing .signal)) :
    Apart s.halves v (s.signalled m (operate m s.halves.signal))
      ((s.later v).signalled m' (operate m' s.halves.signal)) := by
  cases s.halves.signal with
  | none =>
    rw [free, free]
    exact ⟨rfl, rfl, rfl, later⟩
  | some i =>
    rw [bound, bound, later.signal_eq]
    exact ⟨rfl, rfl, rfl, later.setSignal i _⟩

/-- Opening a chunk of the writer, or none. -/
theorem apart_openWriting (s : Session) (later : s.halves.Later v m m') (plan : Option Transfer) :
    Apart s.halves v (s.openWriting plan m)
      ((s.later v).openWriting (plan.map (Transfer.later v)) m') :=
  ⟨congrArg Answer.chunk (later.shown_eq plan), rfl, rfl, later⟩

/-- Opening a chunk of the reader, or none. -/
theorem apart_openReading (s : Session) (later : s.halves.Later v m m') (plan : Option Transfer) :
    Apart s.halves v (s.openReading plan m)
      ((s.later v).openReading (plan.map (Transfer.later v)) m') :=
  ⟨congrArg Answer.chunk (later.shown_eq plan), rfl, rfl, later⟩

/-- The writer's calls, without a chunk and with one. -/
theorem apart_writer {w w' r r' : Sight} (later : h.Later (h.geometry.laps k) m m')
    (seen : h.LaterSight (h.geometry.laps k) w w') {c : Call} (hc : c.party = .writer) :
    Apart h (h.geometry.laps k) (stepSeeing ⟨h, writing, reading⟩ c w r m)
      (stepSeeing (.later (h.geometry.laps k) ⟨h, writing, reading⟩)
        (c.later (h.geometry.laps k)) w' r' m') := by
  cases writing with
  | none =>
    cases c with
    | write data =>
      have hwrite := seen.write data
      unfold stepSeeing
      dsimp only [Session.later, Call.later, Option.map_none]
      -- what each write gives back is a pair like any other here, and need not be computed
      generalize h.writeSeeing data w = out, h.writeSeeing data w' = out' at hwrite ⊢
      exact ⟨congrArg Answer.moved hwrite.1, rfl, rfl, hwrite.2⟩
    | reserve len =>
      have hopen := apart_openWriting ⟨h, none, reading⟩ seen.memory
        (Transfer.reserve? h.geometry w.head w.tail len)
      rw [← Transfer.reserve?_add_laps, ← seen.head_eq, ← seen.tail_eq] at hopen
      exact hopen
    | writerCounts => exact ⟨congrArg Answer.counts later.counts_eq, rfl, rfl, later⟩
    | fill _ | publish | discard => exact apart_same ⟨h, none, reading⟩ later rfl
    | _ => contradiction
  | some t =>
    cases c with
    | fill data => exact ⟨rfl, rfl, rfl, later.fill t data⟩
    | publish => exact ⟨rfl, rfl, rfl, later.publish t⟩
    | discard => exact ⟨rfl, rfl, rfl, later⟩
    | write _ | reserve _ | writerCounts => exact apart_same ⟨h, some t, reading⟩ later rfl
    | _ => contradiction

/-- The reader's calls, without a chunk and with one. -/
theorem apart_reader {w w' r r' : Sight} (later : h.Later (h.geometry.laps k) m m')
    (seen : h.LaterSight (h.geometry.laps k) r r') {c : Call} (hc : c.party = .reader) :
    Apart h (h.geometry.laps k) (stepSeeing ⟨h, writing, reading⟩ c w r m)
      (stepSeeing (.later (h.geometry.laps k) ⟨h, writing, reading⟩)
        (c.later (h.geometry.laps k)) w' r' m') := by
  cases reading with
  | none =>
    cases c with
    | read buffer count =>
      have hread := seen.read buffer count
      unfold stepSeeing
      dsimp only [Session.later, Call.later, Option.map_none]
      generalize h.readSeeing buffer count r = out, h.readSeeing buffer count r' = out' at hread ⊢
      exact ⟨congrArg₂ Answer.received hread.1 hread.2.1, rfl, rfl, hread.2.2⟩
    | view =>
      have hopen := apart_openReading ⟨h, writing, none⟩ seen.memory
        (Transfer.view? h.geometry r.head r.tail)
      rw [← Transfer.view?_add_laps, ← seen.head_eq, ← seen.tail_eq] at hopen
      exact hopen
    | viewOf len =>
      have hopen := apart_openReading ⟨h, writing, none⟩ seen.memory
        (Transfer.viewOf? h.geometry r.head r.tail len)
      rw [← Transfer.viewOf?_add_laps, ← seen.head_eq, ← seen.tail_eq] at hopen
      exact hopen
    | addSignal value =>
      exact apart_signalled ⟨h, writing, none⟩ later (fun m i => m.addSignal i value) (· + value)
        (fun _ _ => rfl) fun _ => rfl
    | takeSignal =>
      exact apart_signalled ⟨h, writing, none⟩ later Memory.takeSignal (fun _ => 0)
        (fun _ _ => rfl) fun _ => rfl
    | readerCounts => exact ⟨congrArg Answer.counts later.counts_eq, rfl, rfl, later⟩
    | look | release | leave => exact apart_same ⟨h, writing, none⟩ later rfl
    | _ => contradiction
  | some t =>
    cases c with
    | look => exact ⟨congrArg Answer.seen (later.contents_eq t), rfl, rfl, later⟩
    | release => exact ⟨rfl, rfl, rfl, later.release t⟩
    | leave => exact ⟨rfl, rfl, rfl, later⟩
    | read _ _ | view | viewOf _ | addSignal _ | takeSignal | readerCounts =>
      exact apart_same ⟨h, writing, some t⟩ later rfl
    | _ => contradiction

/-- What a peer stores between the calls. -/
theorem apart_peer (s : Session) (later : s.halves.Later v m m') {c : Call} (hc : c.party = .peer) :
    Apart s.halves v (s.step c m) ((s.later v).step (c.later v) m') := by
  cases c with
  | peerHead value => exact ⟨rfl, rfl, rfl, later.setHead value⟩
  | peerTail value => exact ⟨rfl, rfl, rfl, later.setTail value⟩
  | peerSignal value =>
    show Apart _ _ _ ((s.later v).step (.peerSignal value) m')
    cases hsignal : s.halves.signal with
    | none =>
      rw [step_peerSignal_of_free hsignal, step_peerSignal_of_free (s := s.later v) hsignal]
      exact ⟨rfl, rfl, rfl, later⟩
    | some i =>
      rw [step_peerSignal_of_bound hsignal, step_peerSignal_of_bound (s := s.later v) hsignal]
      exact ⟨rfl, rfl, rfl, later.setSignal i value⟩
  | _ => contradiction

/-- **One call**, whatever a peer stores in the middle of it. -/
theorem apart_stepAmid (s : Session) (later : s.halves.Later (s.halves.geometry.laps k) m m')
    (c : Call) (p : Meddling) :
    Apart s.halves (s.halves.geometry.laps k) (s.stepAmid c p m)
      ((s.later (s.halves.geometry.laps k)).stepAmid (c.later (s.halves.geometry.laps k))
        (p.later (s.halves.geometry.laps k)) m') := by
  rw [stepAmid_eq, stepAmid_eq]
  cases hc : c.party with
  | writer => exact apart_writer later (later.lookAsWriter p) hc
  | reader => exact apart_reader later (later.lookAsReader p) hc
  | peer =>
    have hstep := apart_peer s later hc
    cases c with
    | peerHead _ | peerTail _ | peerSignal _ => exact hstep
    | _ => contradiction

/-! ## Runs -/

theorem runAmid_cons (s : Session) (c : Call) (p : Meddling) (rest : List (Call × Meddling))
    (m : Memory) : s.runAmid ((c, p) :: rest) m
      = ((s.stepAmid c p m).1 :: ((s.stepAmid c p m).2.1.runAmid rest (s.stepAmid c p m).2.2).1,
        ((s.stepAmid c p m).2.1.runAmid rest (s.stepAmid c p m).2.2).2) := rfl

/-- A list of calls, each with what a peer stores meanwhile. -/
theorem apart_runAmid (s : Session) (later : s.halves.Later (s.halves.geometry.laps k) m m')
    (calls : List (Call × Meddling)) :
    ((s.later (s.halves.geometry.laps k)).runAmid (calls.map (Prod.map
          (Call.later (s.halves.geometry.laps k)) (Meddling.later (s.halves.geometry.laps k)))) m').1
        = (s.runAmid calls m).1.map (Answer.later s.halves.geometry (s.halves.geometry.laps k))
      ∧ s.halves.Later (s.halves.geometry.laps k) (s.runAmid calls m).2.2
          ((s.later (s.halves.geometry.laps k)).runAmid (calls.map (Prod.map
            (Call.later (s.halves.geometry.laps k))
            (Meddling.later (s.halves.geometry.laps k)))) m').2.2 := by
  induction calls generalizing s m m' with
  | nil => exact ⟨rfl, later⟩
  | cons call rest ih =>
    obtain ⟨c, p⟩ := call
    have hstep := apart_stepAmid s later c p
    rw [List.map_cons, Prod.map_apply, runAmid_cons, runAmid_cons]
    generalize s.stepAmid c p m = out, (s.later (s.halves.geometry.laps k)).stepAmid
      (c.later (s.halves.geometry.laps k)) (p.later (s.halves.geometry.laps k)) m' = out'
      at hstep ⊢
    obtain ⟨hanswer, hsession, hhalves, hmemory⟩ := hstep
    -- the rest is a run of the same ring, since no call moves the halves
    have hnext : out.2.1.halves.Later (out.2.1.halves.geometry.laps k) out.2.2 out'.2.2 := by
      rw [hhalves]; exact hmemory
    have hrest := ih out.2.1 hnext
    rw [hhalves, ← hsession] at hrest
    dsimp only
    rw [List.map_cons, hanswer, hrest.1]
    exact ⟨rfl, hrest.2⟩

/-- **No run notices that a counter wraps.**  Take any halves over any memory, whatever its counters
    and its bytes are, and another memory in which both counters are `k` laps further on.  The same
    calls are then answered alike over both, whatever a peer stores between the calls and in the
    middle of them, if what it stores is `k` laps further on as well: the lengths, the chunks and
    their bytes, what is readable and what is writable are the same.  The bytes of the memories stay
    the same, and the counters stay `k` laps apart.

    How far the counters have come is thus of no account.  Any two starts whose heads agree modulo the
    capacity, with the same distance to the tail, are whole laps apart. -/
theorem whole_laps_are_invisible (h : Halves) (m : Memory) :
    (∀ (k : Nat) (m' : Memory), h.Later (h.geometry.laps k) m m' →
        ∀ calls : List (Call × Meddling),
          let v := h.geometry.laps k
          let out := runAmid { halves := h } calls m
          let out' :=
            runAmid { halves := h } (calls.map (Prod.map (Call.later v) (Meddling.later v))) m'
          out'.1 = out.1.map (Answer.later h.geometry v)
            ∧ out'.2.2.bytes = out.2.2.bytes
            ∧ h.headCount out'.2.2 = h.headCount out.2.2 + v
            ∧ h.tailCount out'.2.2 = h.tailCount out.2.2 + v)
      ∧ ∀ m' : Memory, m'.bytes = m.bytes → m'.signals = m.signals →
          (h.headCount m').toNat % h.geometry.capacity.toNat
            = (h.headCount m).toNat % h.geometry.capacity.toNat →
          h.tailCount m' - h.headCount m' = h.tailCount m - h.headCount m →
          ∃ k, h.Later (h.geometry.laps k) m m' := by
  constructor
  · intro k m' later calls
    obtain ⟨hanswers, hmemory⟩ := apart_runAmid { halves := h } later calls
    exact ⟨hanswers, hmemory.bytes_eq, hmemory.headCount_eq, hmemory.tailCount_eq⟩
  · intro m' hbytes hsignals hmod hdistance
    obtain ⟨k, hk⟩ := h.geometry.exists_laps hmod
    refine ⟨k, hbytes, hsignals, hk, ?_⟩
    rw [sub_eq_iff_eq_add.1 hdistance, hk, ← add_assoc, sub_add_cancel]

/-- The small ring, whose counters start again from zero in this run, and the same ring one lap
    further on, whose counters did so before.  A peer stores to the tail between the two looks of a
    view, and to the head while a read is under way. -/
theorem whole_laps_are_invisible_small :
    let v := Halves.small.geometry.laps 1
    let m' : Memory := ⟨Memory.small.bytes, [2, 3], []⟩
    let calls : List (Call × Meddling) := [(.write [1, 2, 3, 4, 5, 6, 7, 8], {}),
      (.view, { between := [.tail 3] }), (.look, {}), (.release, {}), (.peerTail 1, {}),
      (.read [0, 0, 0, 0] none, { after := [.head 7] }), (.writerCounts, {})]
    let out := runAmid { halves := Halves.small } calls Memory.small
    let out' := runAmid { halves := Halves.small }
      (calls.map (Prod.map (Call.later v) (Meddling.later v))) m'
    Halves.small.Later v Memory.small m'
      ∧ (out'.1 = out.1.map (Answer.later Halves.small.geometry v)
        ∧ out'.2.2.bytes = out.2.2.bytes
        ∧ Halves.small.headCount out'.2.2 = Halves.small.headCount out.2.2 + v
        ∧ Halves.small.tailCount out'.2.2 = Halves.small.tailCount out.2.2 + v)
      ∧ out.2.2.counters = [1, 1] ∧ out'.2.2.counters = [5, 5] := by
  intro v m' calls out out'
  have later : Halves.small.Later v Memory.small m' := ⟨rfl, rfl, by decide, by decide⟩
  have hlast : out.2.2.counters = [1, 1] ∧ out'.2.2.counters = [5, 5] := by decide
  -- from here on it does not matter which calls these are
  clear_value calls
  exact ⟨later, (whole_laps_are_invisible Halves.small Memory.small).1 1 m' later calls, hlast⟩

end Session

end SharedRing
