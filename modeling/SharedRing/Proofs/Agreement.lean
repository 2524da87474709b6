/-
  Rings that cannot be told apart.

  What a half does depends on the two counters and on the bytes that it covers, and on nothing else
  of the memory.  So two pairs of halves, each over a memory of its own, answer alike as long as
  their counters hold the same values and their bytes agree where they are looked at (`Agree`), and
  after the same call they agree again.  It does not matter where in its memory each ring lies.

  Which places have to agree is left open.  A reader looks only at what waits, and a writer touches
  only what is vacant; all the rest may differ.
-/
import SharedRing.Proofs.Bounds
import SharedRing.Proofs.Interleaving

namespace SharedRing

namespace Bytes

/-- Bytes that were put at the same places keep two memories alike. -/
theorem byte_putAll_congr {m m' : Bytes} {base base' : Nat} {d : Set Nat} {places : List Nat}
    (data : List UInt8) (inside : ∀ p ∈ places, base + p < m.size)
    (inside' : ∀ p ∈ places, base' + p < m'.size)
    (same : ∀ p ∈ d, m'.byte (base' + p) = m.byte (base + p)) {p : Nat} (hp : p ∈ d) :
    (m'.putAll base' places data).byte (base' + p) = (m.putAll base places data).byte (base + p) := by
  induction places generalizing m m' data with
  | nil => exact same p hp
  | cons q places ih =>
    cases data with
    | nil => exact same p hp
    | cons b data =>
      have hin := inside q List.mem_cons_self
      have hin' := inside' q List.mem_cons_self
      rw [putAll, putAll]
      refine ih data ?_ ?_ ?_
      · intro i hi
        rw [size_set]; exact inside i (List.mem_cons_of_mem q hi)
      · intro i hi
        rw [size_set]; exact inside' i (List.mem_cons_of_mem q hi)
      · intro i hi
        rw [byte_set _ _ _ _ hin, byte_set _ _ _ _ hin', same i hi]
        simp only [Nat.add_left_cancel_iff]

end Bytes

/-- All bytes of a plan lie at these places. -/
def Transfer.Within (t : Transfer) (d : Set Nat) : Prop := ∀ p ∈ t.places, p ∈ d

namespace Halves

/-- Two rings that agree: the same geometry, the same counts, and the same bytes at the places in
    `d`. -/
structure Agree (h h' : Halves) (d : Set Nat) (m m' : Memory) : Prop where
  geometry_eq : h'.geometry = h.geometry
  head_ne_tail : h.head ≠ h.tail
  head_ne_tail' : h'.head ≠ h'.tail
  headCount_eq : h'.headCount m' = h.headCount m
  tailCount_eq : h'.tailCount m' = h.tailCount m
  signal_eq : h'.signal.map m'.signal = h.signal.map m.signal
  byte_eq : ∀ p ∈ d, m'.bytes.byte (h'.region.offset + p) = m.bytes.byte (h.region.offset + p)

namespace Agree

variable {h h' : Halves} {d : Set Nat} {m m' : Memory} {t : Transfer}

/-- Plans within the agreed places show the same bytes. -/
theorem contents_eq (agree : h.Agree h' d m m') (within : t.Within d) :
    h'.contents t m' = h.contents t m := by
  rw [contents_eq_map, contents_eq_map]
  exact List.map_congr_left fun p hp => agree.byte_eq p (within p hp)

/-- What a chunk shows that is opened for such a plan, or for none. -/
theorem shown_eq (agree : h.Agree h' d m m') {plan : Option Transfer}
    (within : ∀ t ∈ plan, t.Within d) :
    plan.map (fun t => h'.contents t m') = plan.map fun t => h.contents t m := by
  cases plan with
  | none => rfl
  | some t => exact congrArg some (agree.contents_eq (within t rfl))

/-! Plans are made from the counts alone. -/

theorem view?_eq (agree : h.Agree h' d m m') : h'.view? m' = h.view? m := by
  rw [view?, view?, agree.geometry_eq, agree.headCount_eq, agree.tailCount_eq]

theorem viewOf?_eq (agree : h.Agree h' d m m') (len : UInt64) :
    h'.viewOf? len m' = h.viewOf? len m := by
  rw [viewOf?, viewOf?, agree.geometry_eq, agree.headCount_eq, agree.tailCount_eq]

theorem reserve?_eq (agree : h.Agree h' d m m') (len : UInt64) :
    h'.reserve? len m' = h.reserve? len m := by
  rw [reserve?, reserve?, agree.geometry_eq, agree.headCount_eq, agree.tailCount_eq]

theorem counts_eq (agree : h.Agree h' d m m') : h'.counts m' = h.counts m := by
  simp only [counts, pending, free, agree.headCount_eq, agree.tailCount_eq, agree.geometry_eq]

/-- Storing the same value to the head on both sides. -/
theorem setHead (agree : h.Agree h' d m m') (value : UInt32) :
    h.Agree h' d (m.setCounter h.head value) (m'.setCounter h'.head value) where
  geometry_eq := agree.geometry_eq
  head_ne_tail := agree.head_ne_tail
  head_ne_tail' := agree.head_ne_tail'
  headCount_eq :=
    (Cells.load_store_self m'.counters h'.head value).trans (Cells.load_store_self ..).symm
  tailCount_eq := by
    have hleft : h.tailCount (m.setCounter h.head value) = h.tailCount m :=
      Cells.load_store_ne _ _ agree.head_ne_tail.symm
    have hright : h'.tailCount (m'.setCounter h'.head value) = h'.tailCount m' :=
      Cells.load_store_ne _ _ agree.head_ne_tail'.symm
    rw [hleft, hright]
    exact agree.tailCount_eq
  signal_eq := agree.signal_eq
  byte_eq := agree.byte_eq

/-- Storing the same value to the tail on both sides. -/
theorem setTail (agree : h.Agree h' d m m') (value : UInt32) :
    h.Agree h' d (m.setCounter h.tail value) (m'.setCounter h'.tail value) where
  geometry_eq := agree.geometry_eq
  head_ne_tail := agree.head_ne_tail
  head_ne_tail' := agree.head_ne_tail'
  headCount_eq := by
    have hleft : h.headCount (m.setCounter h.tail value) = h.headCount m :=
      Cells.load_store_ne _ _ agree.head_ne_tail
    have hright : h'.headCount (m'.setCounter h'.tail value) = h'.headCount m' :=
      Cells.load_store_ne _ _ agree.head_ne_tail'
    rw [hleft, hright]
    exact agree.headCount_eq
  tailCount_eq :=
    (Cells.load_store_self m'.counters h'.tail value).trans (Cells.load_store_self ..).symm
  signal_eq := agree.signal_eq
  byte_eq := agree.byte_eq

/-- Publishing on both sides. -/
theorem publish (agree : h.Agree h' d m m') (t : Transfer) :
    h.Agree h' d (h.publish t m) (h'.publish t m') := agree.setTail t.next

/-- Releasing on both sides. -/
theorem release (agree : h.Agree h' d m m') (t : Transfer) :
    h.Agree h' d (h.release t m) (h'.release t m') := agree.setHead t.next

/-- Filling a plan on both sides. -/
theorem fill (agree : h.Agree h' d m m') (data : List UInt8)
    (inside : ∀ p ∈ t.places, h.region.offset + p < m.bytes.size)
    (inside' : ∀ p ∈ t.places, h'.region.offset + p < m'.bytes.size) :
    h.Agree h' d (h.fill t data m) (h'.fill t data m') where
  geometry_eq := agree.geometry_eq
  head_ne_tail := agree.head_ne_tail
  head_ne_tail' := agree.head_ne_tail'
  headCount_eq := agree.headCount_eq
  tailCount_eq := agree.tailCount_eq
  signal_eq := agree.signal_eq
  byte_eq := by
    intro p hp
    rw [bytes_fill, bytes_fill]
    exact Bytes.byte_putAll_congr data inside inside' agree.byte_eq hp

/-- Filling a plan away from the agreed places, on one side only. -/
theorem fill_left (agree : h.Agree h' d m m') (data : List UInt8)
    (apart : ∀ p ∈ t.places, p ∉ d) : h.Agree h' d (h.fill t data m) m' where
  geometry_eq := agree.geometry_eq
  head_ne_tail := agree.head_ne_tail
  head_ne_tail' := agree.head_ne_tail'
  headCount_eq := agree.headCount_eq
  tailCount_eq := agree.tailCount_eq
  signal_eq := agree.signal_eq
  byte_eq := by
    intro p hp
    rw [agree.byte_eq p hp, byte_fill_of_notMem t data]
    intro q hq heq
    exact apart q hq (Nat.add_left_cancel heq ▸ hp)

/-- Storing the same value to the flow-control counter on both sides. -/
theorem setSignal (agree : h.Agree h' d m m') {i i' : Nat} (hi : h.signal = some i)
    (hi' : h'.signal = some i') (value : UInt64) :
    h.Agree h' d (m.setSignal i value) (m'.setSignal i' value) where
  geometry_eq := agree.geometry_eq
  head_ne_tail := agree.head_ne_tail
  head_ne_tail' := agree.head_ne_tail'
  headCount_eq := agree.headCount_eq
  tailCount_eq := agree.tailCount_eq
  signal_eq := by
    rw [hi, hi', Option.map_some, Option.map_some]
    exact congrArg some
      ((Cells.load_store_self m'.signals i' value).trans (Cells.load_store_self m.signals i value).symm)
  byte_eq := agree.byte_eq

end Agree

end Halves

/-! ## Each half keeps to its own chunk -/

namespace Session

variable {s : Session} {m : Memory} {c : Call}

/-- The writer does not ask what the reader holds. -/
theorem step_withReading (s : Session) (reading : Option Transfer) (hc : c.party = .writer) :
    { s with reading }.step c m
      = ((s.step c m).1, { (s.step c m).2.1 with reading }, (s.step c m).2.2) := by
  obtain ⟨h, writing, was⟩ := s
  unfold Session.step
  rw [hc]
  cases writing with
  | none =>
    cases c with
    | write data =>
      dsimp only
      rw [writerStep_write, writerStep_write]
    | _ => rfl
  | some t => cases c <;> rfl

/-- The writer leaves the reader's chunk open. -/
theorem reading_step (hc : c.party = .writer) : (s.step c m).2.1.reading = s.reading :=
  congrArg (·.2.1.reading) (step_withReading s s.reading hc)

/-- The reader does not ask what the writer holds. -/
theorem step_withWriting (s : Session) (writing : Option Transfer) (hc : c.party = .reader) :
    { s with writing }.step c m
      = ((s.step c m).1, { (s.step c m).2.1 with writing }, (s.step c m).2.2) := by
  obtain ⟨⟨geometry, region, head, tail, signal⟩, was, reading⟩ := s
  unfold Session.step
  rw [hc]
  cases reading with
  | none => cases signal <;> cases c <;> rfl
  | some t => cases c <;> rfl

/-- The reader leaves the writer's chunk open. -/
theorem writing_step (hc : c.party = .reader) : (s.step c m).2.1.writing = s.writing :=
  congrArg (·.2.1.writing) (step_withWriting s s.writing hc)

end Session

/-! ## Calls -/

/-- Two calls that were answered alike: the same answer, the same chunk open in `slot`, and rings
    that agree again. -/
structure Alike (slot : Session → Option Transfer) (d : Set Nat)
    (out out' : Answer × Session × Memory) : Prop where
  answer_eq : out'.1 = out.1
  slot_eq : slot out'.2.1 = slot out.2.1
  agree : out.2.1.halves.Agree out'.2.1.halves d out.2.2 out'.2.2

namespace Halves.Agree

variable {s s' : Session} {d : Set Nat} {m m' : Memory} {c : Call}

/-- An operation on the flow-control counter: both sides hold the same value, or both hold none. -/
theorem signalled (agree : s.halves.Agree s'.halves d m m') (slot : Session → Option Transfer)
    (same : slot s' = slot s)
    (operate : Memory → Option Nat → Except Refusal (UInt64 × Memory)) (f : UInt64 → UInt64)
    (bound : ∀ (m : Memory) i, operate m (some i) = .ok (m.signal i, m.setSignal i (f (m.signal i))))
    (free : ∀ m : Memory, operate m none = .error (.missing .signal)) :
    Alike slot d (s.signalled m (operate m s.halves.signal))
      (s'.signalled m' (operate m' s'.halves.signal)) := by
  have hsignal := agree.signal_eq
  cases hi : s.halves.signal with
  | none =>
    rw [hi, Option.map_none, Option.map_eq_none_iff] at hsignal
    rw [hsignal, free, free]
    exact ⟨rfl, same, agree⟩
  | some i =>
    rw [hi, Option.map_some, Option.map_eq_some_iff] at hsignal
    obtain ⟨i', hi', hheld⟩ := hsignal
    rw [hi', bound, bound, hheld]
    exact ⟨rfl, same, agree.setSignal hi hi' _⟩

/-- The reader reads. -/
theorem read (agree : s.halves.Agree s'.halves d m m')
    (waiting : ∀ t, s.halves.Waiting m t → t.Within d) (room : Nat) (count : Option UInt64) :
    (s'.halves.read room count m').1 = (s.halves.read room count m).1
      ∧ s.halves.Agree s'.halves d (s.halves.read room count m).2
          (s'.halves.read room count m').2 := by
  unfold Halves.read
  rw [agree.geometry_eq, agree.headCount_eq, agree.tailCount_eq]
  cases hplan : Transfer.read? s.halves.geometry (s.halves.headCount m) (s.halves.tailCount m) room
      count with
  | none => exact ⟨rfl, agree⟩
  | some t =>
    have within := waiting t (waiting_of_read? hplan)
    exact ⟨agree.contents_eq within, agree.release t⟩

/-- A reader opens a chunk of what waits, or none. -/
theorem openReading (agree : s.halves.Agree s'.halves d m m') {plan : Option Transfer}
    (within : ∀ t ∈ plan, t.Within d) :
    Alike Session.reading d (s.openReading plan m) (s'.openReading plan m') :=
  ⟨congrArg Answer.chunk (agree.shown_eq within), rfl, agree⟩

/-- A writer opens a chunk, or none. -/
theorem openWriting (agree : s.halves.Agree s'.halves d m m') {plan : Option Transfer}
    (within : ∀ t ∈ plan, t.Within d) :
    Alike Session.writing d (s.openWriting plan m) (s'.openWriting plan m') :=
  ⟨congrArg Answer.chunk (agree.shown_eq within), rfl, agree⟩

/-- **A call of the reader** cannot tell rings apart that agree on what waits and on what its own
    chunk covers. -/
theorem reader (agree : s.halves.Agree s'.halves d m m') (same : s'.reading = s.reading)
    (held : ∀ t ∈ s.reading, t.Within d) (waiting : ∀ t, s.halves.Waiting m t → t.Within d)
    (hc : c.party = .reader) : Alike Session.reading d (s.step c m) (s'.step c m') := by
  have stay : ∀ a, Alike Session.reading d (a, s, m) (a, s', m') := fun _ => ⟨rfl, same, agree⟩
  unfold Session.step
  rw [hc]
  dsimp only
  rw [same]
  cases hr : s.reading with
  | none =>
    cases c with
    | read buffer count =>
      obtain ⟨hgot, hagree⟩ := agree.read waiting buffer.length count
      exact ⟨congrArg (fun got : List UInt8 => Answer.received got.length
        (got ++ buffer.drop got.length)) hgot, same, hagree⟩
    | view =>
      show Alike _ d (s.openReading (s.halves.view? m) m) (s'.openReading (s'.halves.view? m') m')
      rw [agree.view?_eq]
      exact agree.openReading fun t ht => waiting t (waiting_of_view? ht)
    | viewOf len =>
      show Alike _ d (s.openReading (s.halves.viewOf? len m) m)
        (s'.openReading (s'.halves.viewOf? len m') m')
      rw [agree.viewOf?_eq]
      exact agree.openReading fun t ht => waiting t (waiting_of_viewOf? ht)
    | addSignal value =>
      exact agree.signalled _ same (fun m i => m.addSignal i value) (· + value) (fun _ _ => rfl)
        fun _ => rfl
    | takeSignal =>
      exact agree.signalled _ same Memory.takeSignal (fun _ => 0) (fun _ _ => rfl) fun _ => rfl
    | readerCounts => exact ⟨congrArg Answer.counts agree.counts_eq, same, agree⟩
    | look | release | leave => exact stay _
    | _ => contradiction
  | some t =>
    have within := held t hr
    cases c with
    | look => exact ⟨congrArg Answer.seen (agree.contents_eq within), same, agree⟩
    | release => exact ⟨rfl, rfl, agree.release t⟩
    | leave => exact ⟨rfl, rfl, agree⟩
    | read _ _ | view | viewOf _ | addSignal _ | takeSignal | readerCounts => exact stay _
    | _ => contradiction

/-- The writer writes. -/
theorem write (agree : s.halves.Agree s'.halves d m m')
    (vacant : ∀ t, s.halves.Vacant m t → t.Within d)
    (inside : ∀ p ∈ d, s.halves.region.offset + p < m.bytes.size)
    (inside' : ∀ p ∈ d, s'.halves.region.offset + p < m'.bytes.size) (data : List UInt8) :
    (s'.halves.write data m').1 = (s.halves.write data m).1
      ∧ s.halves.Agree s'.halves d (s.halves.write data m).2 (s'.halves.write data m').2 := by
  unfold Halves.write
  rw [agree.geometry_eq, agree.headCount_eq, agree.tailCount_eq]
  cases hplan : Transfer.write? s.halves.geometry (s.halves.headCount m) (s.halves.tailCount m)
      data.length with
  | none => exact ⟨rfl, agree⟩
  | some t =>
    have within := vacant t (vacant_of_write? hplan)
    exact ⟨rfl, (agree.fill data (fun p hp => inside p (within p hp))
      fun p hp => inside' p (within p hp)).publish t⟩

/-- **A call of the writer** on two rings that agree on all that it may touch. -/
theorem writer (agree : s.halves.Agree s'.halves d m m') (same : s'.writing = s.writing)
    (held : ∀ t ∈ s.writing, t.Within d) (vacant : ∀ t, s.halves.Vacant m t → t.Within d)
    (inside : ∀ p ∈ d, s.halves.region.offset + p < m.bytes.size)
    (inside' : ∀ p ∈ d, s'.halves.region.offset + p < m'.bytes.size) (hc : c.party = .writer) :
    Alike Session.writing d (s.step c m) (s'.step c m') := by
  have stay : ∀ a, Alike Session.writing d (a, s, m) (a, s', m') := fun _ => ⟨rfl, same, agree⟩
  unfold Session.step
  rw [hc]
  dsimp only
  rw [same]
  cases hw : s.writing with
  | none =>
    cases c with
    | write data =>
      obtain ⟨hmoved, hagree⟩ := agree.write vacant inside inside' data
      dsimp only
      rw [Session.writerStep_write, Session.writerStep_write]
      exact ⟨congrArg Answer.moved hmoved, same, hagree⟩
    | reserve len =>
      show Alike _ d (s.openWriting (s.halves.reserve? len m) m)
        (s'.openWriting (s'.halves.reserve? len m') m')
      rw [agree.reserve?_eq]
      exact agree.openWriting fun t ht => vacant t (vacant_of_reserve? ht)
    | writerCounts => exact ⟨congrArg Answer.counts agree.counts_eq, same, agree⟩
    | fill _ | publish | discard => exact stay _
    | _ => contradiction
  | some t =>
    have within := held t hw
    cases c with
    | fill data =>
      exact ⟨rfl, same, agree.fill data (fun p hp => inside p (within p hp))
        fun p hp => inside' p (within p hp)⟩
    | publish => exact ⟨rfl, rfl, agree.publish t⟩
    | discard => exact ⟨rfl, rfl, agree⟩
    | write _ | reserve _ | writerCounts => exact stay _
    | _ => contradiction

/-- A peer that stores the same on both sides. -/
theorem peer (agree : s.halves.Agree s'.halves d m m') (slot : Session → Option Transfer)
    (same : slot s' = slot s) (hc : c.party = .peer) :
    Alike slot d (s.step c m) (s'.step c m') := by
  cases c with
  | peerHead value => exact ⟨rfl, same, agree.setHead value⟩
  | peerTail value => exact ⟨rfl, same, agree.setTail value⟩
  | peerSignal value =>
    have hsignal := agree.signal_eq
    cases hi : s.halves.signal with
    | none =>
      rw [hi, Option.map_none, Option.map_eq_none_iff] at hsignal
      rw [Session.step_peerSignal_of_free hi, Session.step_peerSignal_of_free hsignal]
      exact ⟨rfl, same, agree⟩
    | some i =>
      rw [hi, Option.map_some, Option.map_eq_some_iff] at hsignal
      obtain ⟨i', hi', -⟩ := hsignal
      rw [Session.step_peerSignal_of_bound hi, Session.step_peerSignal_of_bound hi']
      exact ⟨rfl, same, agree.setSignal hi hi' value⟩
  | _ => contradiction

end Halves.Agree

/-! ## The same calls on both -/

namespace Session

variable {s s' : Session} {m m' : Memory}

/-- Two sessions that go on alike: the same chunks are open, over rings that agree on all their
    bytes, wherever each lies in its memory. -/
structure InStep (s s' : Session) (m m' : Memory) : Prop where
  agree : s.halves.Agree s'.halves { p | p < s.halves.geometry.size.toNat } m m'
  writing_eq : s'.writing = s.writing
  reading_eq : s'.reading = s.reading
  chunks : s.Chunks
  inside : s.halves.region.offset + s.halves.geometry.size.toNat ≤ m.bytes.size
  inside' : s'.halves.region.offset + s.halves.geometry.size.toNat ≤ m'.bytes.size

theorem InStep.chunks' (h : InStep s s' m m') : s'.Chunks where
  writing := by rw [h.writing_eq, h.agree.geometry_eq]; exact h.chunks.writing
  reading := by rw [h.reading_eq, h.agree.geometry_eq]; exact h.chunks.reading

/-- **One call** is answered alike, and leaves the two sessions alike. -/
theorem InStep.step (h : InStep s s' m m') (c : Call) : (s'.step c m').1 = (s.step c m).1
    ∧ InStep (s.step c m).2.1 (s'.step c m').2.1 (s.step c m).2.2 (s'.step c m').2.2 := by
  have bounded := h.chunks.step c m
  have bounded' := h.chunks'.step c m'
  -- the answer, the rings, and the two chunks: the one of the call's own half, and the other
  have hstep : (s'.step c m').1 = (s.step c m).1
      ∧ (s'.step c m').2.1.writing = (s.step c m).2.1.writing
      ∧ (s'.step c m').2.1.reading = (s.step c m).2.1.reading
      ∧ (s.step c m).2.1.halves.Agree (s'.step c m').2.1.halves
          { p | p < s.halves.geometry.size.toNat } (s.step c m).2.2 (s'.step c m').2.2 := by
    cases hc : c.party with
    | writer =>
      obtain ⟨hanswer, hwriting, hagree⟩ := h.agree.writer h.writing_eq
        (fun t ht p hp => (h.chunks.writing t ht).places_lt hp)
        (fun t ⟨_, run, _⟩ p hp => run.places_lt hp)
        (fun p hp => Nat.lt_of_lt_of_le (Nat.add_lt_add_left hp _) h.inside)
        (fun p hp => Nat.lt_of_lt_of_le (Nat.add_lt_add_left hp _) h.inside') hc
      exact ⟨hanswer, hwriting, by rw [reading_step hc, reading_step hc, h.reading_eq], hagree⟩
    | reader =>
      obtain ⟨hanswer, hreading, hagree⟩ := h.agree.reader h.reading_eq
        (fun t ht p hp => (h.chunks.reading t ht).places_lt hp)
        (fun t ⟨_, run, _⟩ p hp => run.places_lt hp) hc
      exact ⟨hanswer, by rw [writing_step hc, writing_step hc, h.writing_eq], hreading, hagree⟩
    | peer =>
      obtain ⟨hanswer, hwriting, hagree⟩ := h.agree.peer Session.writing h.writing_eq hc
      exact ⟨hanswer, hwriting, (h.agree.peer Session.reading h.reading_eq hc).slot_eq, hagree⟩
  obtain ⟨hanswer, hwriting, hreading, hagree⟩ := hstep
  exact ⟨hanswer, {
    agree := by rw [bounded.halves_eq] at hagree ⊢; exact hagree
    writing_eq := hwriting
    reading_eq := hreading
    chunks := bounded.chunks
    inside := by rw [bounded.halves_eq, bounded.size_eq]; exact h.inside
    inside' := by rw [bounded.halves_eq, bounded'.halves_eq, bounded'.size_eq]; exact h.inside' }⟩

end Session

end SharedRing
