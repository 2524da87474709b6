/-
  Open chunks and what goes on beside them.

  A chunk stays open for as long as its owner likes, and meanwhile the other side goes on.  Here the
  counters may hold anything to begin with, also a tail that is more than a ring ahead of the head,
  as long as nobody but the halves stores to them.  What an open chunk covers is still its owner's:
  the reader's goes on waiting and the writer's stays vacant (`Isolated`), for a writer that has any
  room at all is in a ring that is in order, and one that has none does nothing.

  A reader's chunk then shows the same bytes however long the writer goes on (`ViewKept`).  And a
  reader cannot tell whether a chunk of the writer is open beside it, whatever is put into that
  (`ReservationHidden`): the two runs agree away from what the writer holds.
-/
import SharedRing.Proofs.Agreement
import SharedRing.Proofs.Queue

namespace SharedRing

namespace Halves

variable {h : Halves} {m : Memory} {t t' : Transfer}

/-- A ring that lies in its memory and has two counters, whatever these hold. -/
structure Lent (h : Halves) (m : Memory) : Prop where
  ring_le_region : h.geometry.size.toNat ≤ h.region.len
  region_le_memory : h.region.offset + h.region.len ≤ m.bytes.size
  head_ne_tail : h.head ≠ h.tail

/-- Where a writer has room, the ring is in order. -/
theorem Lent.inOrder (lent : h.Lent m) (hold : h.Vacant m t) : h.InOrder m := by
  obtain ⟨k, -, hk⟩ := hold
  exact ⟨lent.ring_le_region, lent.region_le_memory, lent.head_ne_tail, by omega⟩

/-- As long as the memory gets no shorter. -/
theorem Lent.of_size_le (lent : h.Lent m) {m' : Memory} (hsize : m.bytes.size ≤ m'.bytes.size) :
    h.Lent m' :=
  ⟨lent.ring_le_region, Nat.le_trans lent.region_le_memory hsize, lent.head_ne_tail⟩

/-- **What a writer holds and what a reader holds have no byte in common.** -/
theorem Vacant.disjoint (hold : h.Vacant m t) (hold' : h.Waiting m t') :
    t.places.Disjoint t'.places :=
  fun _ hp hp' => hold.notMem_unreadPlaces hp (hold'.mem_unreadPlaces hp')

/-- Filling one plan leaves what another shows that has no byte in common with it. -/
theorem contents_fill_of_disjoint (apart : t.places.Disjoint t'.places) (data : List UInt8) :
    h.contents t' (h.fill t data m) = h.contents t' m := by
  rw [contents_eq_map, contents_eq_map]
  refine List.map_congr_left ?_
  intro p hp
  refine byte_fill_of_notMem t data ?_
  intro q hq heq
  exact apart hq (Nat.add_left_cancel heq ▸ hp)

end Halves

namespace Session

variable {s : Session} {m m' : Memory} {c : Call} {t : Transfer} {bytes : List UInt8}

/-! ## What a call does to the memory -/

/-- What a call of the writer may do to the memory. -/
inductive WriterEffect (s : Session) (m : Memory) : Memory → Prop
  | nothing : WriterEffect s m m
  | write (data : List UInt8) : WriterEffect s m (s.halves.write data m).2
  | fill {t : Transfer} (ht : s.writing = some t) (data : List UInt8) :
    WriterEffect s m (s.halves.fill t data m)
  | publish {t : Transfer} (ht : s.writing = some t) : WriterEffect s m (s.halves.publish t m)

/-- What a call of the reader may do to the memory. -/
inductive ReaderEffect (s : Session) (m : Memory) : Memory → Prop
  | nothing : ReaderEffect s m m
  | read (room : Nat) (count : Option UInt64) : ReaderEffect s m (s.halves.read room count m).2
  | release {t : Transfer} (ht : s.reading = some t) : ReaderEffect s m (s.halves.release t m)
  | signal {i : Nat} (hsignal : s.halves.signal = some i) (value : UInt64) :
    ReaderEffect s m (m.setSignal i value)

theorem writerEffect (s : Session) (m : Memory) (hc : c.party = .writer) :
    WriterEffect s m (s.step c m).2.2 := by
  unfold Session.step
  rw [hc]
  dsimp only
  cases hw : s.writing with
  | none =>
    cases c with
    | write data =>
      dsimp only
      rw [writerStep_write]
      exact .write data
    | reserve _ | fill _ | publish | discard | writerCounts => exact .nothing
    | _ => contradiction
  | some t =>
    cases c with
    | fill data => exact .fill hw data
    | publish => exact .publish hw
    | write _ | reserve _ | discard | writerCounts => exact .nothing
    | _ => contradiction

theorem readerEffect (s : Session) (m : Memory) (hc : c.party = .reader) :
    ReaderEffect s m (s.step c m).2.2 := by
  unfold Session.step
  rw [hc]
  dsimp only
  cases hr : s.reading with
  | none =>
    cases c with
    | read buffer count => exact .read buffer.length count
    | addSignal value =>
      show ReaderEffect s m (s.signalled m (m.addSignal s.halves.signal value)).2.2
      cases hsignal : s.halves.signal with
      | none => exact .nothing
      | some i => exact .signal hsignal _
    | takeSignal =>
      show ReaderEffect s m (s.signalled m (m.takeSignal s.halves.signal)).2.2
      cases hsignal : s.halves.signal with
      | none => exact .nothing
      | some i => exact .signal hsignal _
    | view | viewOf _ | look | release | leave | readerCounts => exact .nothing
    | _ => contradiction
  | some t =>
    cases c with
    | release => exact .release hr
    | look | leave | read _ _ | view | viewOf _ | addSignal _ | takeSignal | readerCounts =>
      exact .nothing
    | _ => contradiction

/-! ## What every run keeps -/

/-- The ring is lent, the writer's chunk is vacant and the reader's is waiting. -/
structure Isolated (s : Session) (m : Memory) : Prop where
  lent : s.halves.Lent m
  writing : ∀ t ∈ s.writing, s.halves.Vacant m t
  reading : ∀ t ∈ s.reading, s.halves.Waiting m t

namespace Isolated

/-- Before the first call no chunk is open. -/
theorem of_split {r : Ring} {h : Halves} (split : r.halves = .ok h)
    (lent : h.region.offset + h.region.len ≤ m.bytes.size) (cells : h.head ≠ h.tail) :
    Isolated { halves := h } m where
  lent := ⟨Halves.ring_le_region_of_split split, lent, cells⟩
  writing := fun _ ht => (nomatch ht)
  reading := fun _ ht => (nomatch ht)

/-- After the writer has published, whatever it holds then. -/
theorem published (inv : Isolated s m) (p : s.halves.Published m m' bytes) :
    Isolated { s with writing := none } m' where
  lent := ⟨inv.lent.ring_le_region, p.inOrder.region_le_memory, inv.lent.head_ne_tail⟩
  writing := fun _ ht => (nomatch ht)
  reading := fun t ht => p.waiting (inv.reading t ht)

/-- After the writer has filled what it holds. -/
theorem fill (inv : Isolated s m) (hold : s.halves.Vacant m t) (data : List UInt8) :
    Isolated s (s.halves.fill t data m) where
  lent := ⟨inv.lent.ring_le_region,
    ((inv.lent.inOrder hold).fill t data).region_le_memory, inv.lent.head_ne_tail⟩
  writing := inv.writing
  reading := inv.reading

/-- After the reader has completed what waits. -/
theorem release (inv : Isolated s m) (hold : s.halves.Waiting m t) :
    Isolated { s with reading := none } (s.halves.release t m) where
  lent := inv.lent.of_size_le (Nat.le_refl _)
  writing := by
    intro t' ht'
    have hold' := inv.writing t' ht'
    exact (Halves.released_release (inv.lent.inOrder hold') hold).vacant hold'
  reading := fun _ ht => (nomatch ht)

/-- Counters and bytes of the ring are all that matters of the memory. -/
theorem withSignals (inv : Isolated s m) (signals : Cells UInt64) :
    Isolated s { m with signals := signals } :=
  ⟨inv.lent.of_size_le (Nat.le_refl _), inv.writing, inv.reading⟩

theorem signalled (inv : Isolated s m) {outcome : Except Refusal (UInt64 × Memory)}
    (hok : ∀ held m', outcome = .ok (held, m') → ∃ signals, m' = { m with signals }) :
    Isolated (s.signalled m outcome).2.1 (s.signalled m outcome).2.2 := by
  cases outcome with
  | error e => exact inv
  | ok result =>
    obtain ⟨held, m'⟩ := result
    obtain ⟨signals, rfl⟩ := hok held m' rfl
    exact inv.withSignals signals

/-- A write publishes what was vacant. -/
theorem write (inv : Isolated s m) (hw : s.writing = none) (data : List UInt8) :
    Isolated s (s.halves.write data m).2 := by
  have hs : { s with writing := none } = s := by rw [← hw]
  unfold Halves.write
  cases hplan : Transfer.write? s.halves.geometry (s.halves.headCount m) (s.halves.tailCount m)
      data.length with
  | none => exact inv
  | some t =>
    have hold : s.halves.Vacant m t := Halves.vacant_of_write? hplan
    have ok := (inv.lent.inOrder hold).fill t data
    have hnext := (inv.fill hold data).published (Halves.published_publish ok (t := t) hold)
    rw [hs] at hnext
    exact hnext

/-- A read releases what was waiting. -/
theorem read (inv : Isolated s m) (hr : s.reading = none) (room : Nat) (count : Option UInt64) :
    Isolated s (s.halves.read room count m).2 := by
  have hs : { s with reading := none } = s := by rw [← hr]
  unfold Halves.read
  cases hplan : Transfer.read? s.halves.geometry (s.halves.headCount m) (s.halves.tailCount m) room
      count with
  | none => exact inv
  | some t =>
    have hnext := inv.release (Halves.waiting_of_read? hplan)
    rw [hs] at hnext
    exact hnext

/-- The writer's calls. -/
theorem writer (inv : Isolated s m) (hc : c.party = .writer) :
    Isolated (s.step c m).2.1 (s.step c m).2.2 := by
  unfold Session.step
  rw [hc]
  dsimp only
  cases hw : s.writing with
  | none =>
    cases c with
    | write data =>
      dsimp only
      rw [writerStep_write]
      exact inv.write hw data
    | reserve len =>
      exact ⟨inv.lent, fun _ ht => Halves.vacant_of_reserve? ht, inv.reading⟩
    | fill _ | publish | discard | writerCounts => exact inv
    | _ => contradiction
  | some t =>
    have hold := inv.writing t hw
    cases c with
    | fill data => exact inv.fill hold data
    | publish => exact inv.published (Halves.published_publish (inv.lent.inOrder hold) hold)
    | discard => exact ⟨inv.lent, fun _ ht => (nomatch ht), inv.reading⟩
    | write _ | reserve _ | writerCounts => exact inv
    | _ => contradiction

/-- The reader's calls. -/
theorem reader (inv : Isolated s m) (hc : c.party = .reader) :
    Isolated (s.step c m).2.1 (s.step c m).2.2 := by
  unfold Session.step
  rw [hc]
  dsimp only
  cases hr : s.reading with
  | none =>
    cases c with
    | read buffer count => exact inv.read hr buffer.length count
    | view => exact ⟨inv.lent, inv.writing, fun _ ht => Halves.waiting_of_view? ht⟩
    | viewOf len => exact ⟨inv.lent, inv.writing, fun _ ht => Halves.waiting_of_viewOf? ht⟩
    | addSignal value => exact inv.signalled fun _ _ => Memory.eq_of_addSignal
    | takeSignal => exact inv.signalled fun _ _ => Memory.eq_of_takeSignal
    | look | release | leave | readerCounts => exact inv
    | _ => contradiction
  | some t =>
    cases c with
    | release => exact inv.release (inv.reading t hr)
    | leave => exact ⟨inv.lent, inv.writing, fun _ ht => (nomatch ht)⟩
    | look | read _ _ | view | viewOf _ | addSignal _ | takeSignal | readerCounts => exact inv
    | _ => contradiction

/-- **One call**, whatever the counters held to begin with. -/
theorem step (inv : Isolated s m) (own : c.isForeignStore = false) :
    Isolated (s.step c m).2.1 (s.step c m).2.2 := by
  cases hc : c.party with
  | writer => exact inv.writer hc
  | reader => exact inv.reader hc
  | peer =>
    cases c with
    | peerSignal value =>
      cases hsignal : s.halves.signal with
      | none =>
        rw [step_peerSignal_of_free hsignal]
        exact inv
      | some i =>
        rw [step_peerSignal_of_bound hsignal]
        exact inv.withSignals _
    | _ => contradiction

/-- A list of calls. -/
theorem run (inv : Isolated s m) (calls : List Call)
    (own : ∀ c ∈ calls, c.isForeignStore = false) :
    Isolated (s.run calls m).2.1 (s.run calls m).2.2 := by
  induction calls generalizing s m with
  | nil => exact inv
  | cons c rest ih =>
    exact ih (inv.step (own c List.mem_cons_self)) fun c' hc' => own c' (List.mem_cons_of_mem c hc')

end Isolated

/-! ## The writer goes on beside a view -/

theorem run_withReading (s : Session) (reading : Option Transfer) (steps : List Call)
    (own : ∀ c ∈ steps, c.party = .writer) :
    { s with reading }.run steps m
      = ((s.run steps m).1, { (s.run steps m).2.1 with reading }, (s.run steps m).2.2) := by
  induction steps generalizing s m with
  | nil => rfl
  | cons c rest ih =>
    have hrest := ih (s.step c m).2.1 (m := (s.step c m).2.2) fun c' hc' =>
      own c' (List.mem_cons_of_mem c hc')
    rw [run_cons, step_withReading s reading (own c List.mem_cons_self), hrest]
    rfl

theorem halves_run (s : Session) (calls : List Call) (m : Memory) :
    (s.run calls m).2.1.halves = s.halves := by
  induction calls generalizing s m with
  | nil => rfl
  | cons c rest ih => exact (ih _ _).trans (halves_step s c m)

/-- What the writer's calls do not touch: the head, the signals, and what the reader holds. -/
structure Beside (s : Session) (t : Transfer) (m m' : Memory) : Prop where
  contents_eq : s.halves.contents t m' = s.halves.contents t m
  headCount_eq : s.halves.headCount m' = s.halves.headCount m

/-- One call of the writer beside a view. -/
theorem Isolated.beside (inv : Isolated s m) (ht : s.reading = some t) (hc : c.party = .writer) :
    Beside s t m (s.step c m).2.2 := by
  have waiting := inv.reading t ht
  have hne := inv.lent.head_ne_tail
  have effect := s.writerEffect m hc
  generalize (s.step c m).2.2 = m' at effect ⊢
  cases effect with
  | nothing => exact ⟨rfl, rfl⟩
  | write data =>
    unfold Halves.write
    cases hplan : Transfer.write? s.halves.geometry (s.halves.headCount m) (s.halves.tailCount m)
        data.length with
    | none => exact ⟨rfl, rfl⟩
    | some t' =>
      have hold : s.halves.Vacant m t' := Halves.vacant_of_write? hplan
      exact ⟨Halves.contents_fill_of_disjoint (hold.disjoint waiting) data,
        Halves.headCount_publish hne t'⟩
  | fill hw data =>
    exact ⟨Halves.contents_fill_of_disjoint ((inv.writing _ hw).disjoint waiting) data, rfl⟩
  | publish hw => exact ⟨rfl, Halves.headCount_publish hne _⟩

/-- Any calls of the writer beside a view. -/
theorem Isolated.beside_run (inv : Isolated s m) (ht : s.reading = some t) (steps : List Call)
    (own : ∀ c ∈ steps, c.party = .writer) : Beside s t m (s.run steps m).2.2 := by
  induction steps generalizing s m with
  | nil => exact ⟨rfl, rfl⟩
  | cons c rest ih =>
    have hc := own c List.mem_cons_self
    have first := inv.beside ht hc
    have hrest := ih (s := (s.step c m).2.1) (m := (s.step c m).2.2) (inv.writer hc)
      ((reading_step hc).trans ht) fun c' hc' => own c' (List.mem_cons_of_mem c hc')
    obtain ⟨hcontents, hhead⟩ := hrest
    rw [halves_step] at hcontents hhead
    exact ⟨hcontents.trans first.contents_eq, hhead.trans first.headCount_eq⟩

/-- The reader keeps the chunk `t` open while the writer makes these calls. -/
structure ViewKept (s : Session) (m : Memory) (t : Transfer) (steps : List Call) : Prop where
  /-- the chunk shows the bytes from the head on, in whole units -/
  contents_eq_stretch : s.halves.contents t m
    = s.halves.stretch m (s.halves.headCount m) t.len.toNat
  whole : s.halves.geometry.unitSize.toNat ∣ t.len.toNat
  /-- it still shows them afterwards -/
  contents_eq : s.halves.contents t (s.run steps m).2.2 = s.halves.contents t m
  /-- completing it moves the head past just these bytes, and does nothing else -/
  release : ∃ m', (s.run steps m).2.1.step .release (s.run steps m).2.2
        = (.moved t.len, { (s.run steps m).2.1 with reading := none }, m')
      ∧ s.halves.headCount m' = s.halves.headCount m
          + UInt32.ofNat (t.len.toNat / s.halves.geometry.unitSize.toNat)
      ∧ s.halves.tailCount m' = s.halves.tailCount (s.run steps m).2.2
      ∧ m'.bytes = (s.run steps m).2.2.bytes ∧ m'.signals = (s.run steps m).2.2.signals
  /-- the writer was answered as if there had been no chunk -/
  answers_eq : (s.run steps m).1 = ({ s with reading := none }.run steps m).1
  /-- giving it up leaves all as if there had been none -/
  leave : (s.run steps m).2.1.step .leave (s.run steps m).2.2
    = (.done, ({ s with reading := none }.run steps m).2)

/-- **A reader's chunk is not disturbed**, whatever the writer does meanwhile. -/
theorem Isolated.viewKept (inv : Isolated s m) (ht : s.reading = some t) (steps : List Call)
    (own : ∀ c ∈ steps, c.party = .writer) : ViewKept s m t steps := by
  have hne := inv.lent.head_ne_tail
  obtain ⟨k, run, hk⟩ := inv.reading t ht
  obtain ⟨hcontents, hhead⟩ := inv.beside_run ht steps own
  have hwithout := run_withReading (m := m) s none steps own
  -- the chunk is still open, and the halves are the same
  have hopen : (s.run steps m).2.1.reading = some t :=
    (congrArg (·.2.1.reading) (run_withReading (m := m) s s.reading steps own)).trans ht
  have hhalves : (s.run steps m).2.1.halves = s.halves := halves_run s steps m
  refine
    { contents_eq_stretch := by rw [Halves.contents_run run, run.len_eq]
      whole := run.unitSize_dvd_len
      contents_eq := hcontents
      release := ⟨s.halves.release t (s.run steps m).2.2, ?_, ?_,
        Halves.tailCount_release hne t, rfl, rfl⟩
      answers_eq := by rw [hwithout]
      leave := ?_ }
  · have hstep : (s.run steps m).2.1.step .release (s.run steps m).2.2 = (.moved t.len,
        { (s.run steps m).2.1 with reading := none },
        (s.run steps m).2.1.halves.release t (s.run steps m).2.2) := by
      unfold Session.step
      rw [hopen]
      rfl
    rw [hstep]
    exact congrArg (fun h : Halves => (Answer.moved t.len,
      ({ (s.run steps m).2.1 with reading := none } : Session), h.release t (s.run steps m).2.2))
      hhalves
  · rw [Halves.headCount_release, run.next_eq, run.len_eq,
      Nat.mul_div_cancel _ s.halves.geometry.unitSize_pos]
  · rw [hwithout]
    unfold Session.step
    rw [hopen]
    rfl

end Session

/-! ## The reader goes on beside a reservation -/

/-- What a call puts into the writer's chunk. -/
def Call.filling? : Call → Option (List UInt8)
  | .fill data => some data
  | _ => none

/-- Bytes of which the first were replaced. -/
def overlay (held data : List UInt8) : List UInt8 := data.take held.length ++ held.drop data.length

/-- The answers that a party has got. -/
def answersTo (party : Party) : List Call → List Answer → List Answer
  | c :: calls, a :: answers =>
    if c.party = party then a :: answersTo party calls answers else answersTo party calls answers
  | _, _ => []

namespace Session

variable {s s' : Session} {m m' : Memory} {c : Call} {t : Transfer}

/-- The reader writes nothing. -/
theorem bytes_step_of_reader (hc : c.party = .reader) : (s.step c m).2.2.bytes = m.bytes := by
  have effect := s.readerEffect m hc
  generalize (s.step c m).2.2 = m' at effect ⊢
  cases effect with
  | nothing => rfl
  | read room count =>
    unfold Halves.read
    cases Transfer.read? s.halves.geometry (s.halves.headCount m) (s.halves.tailCount m) room
        count with
    | none => rfl
    | some t => rfl
  | release ht => rfl
  | signal hsignal value => rfl

/-- The session `s` in which the writer holds `t`, and the same session `s'` in which it holds
    nothing.  Only what lies in the chunk may differ. -/
structure Reserved (t : Transfer) (s s' : Session) (m m' : Memory) : Prop where
  isolated : Isolated s m
  writing : s.writing = some t
  idle : s'.writing = none
  halves_eq : s'.halves = s.halves
  reading_eq : s'.reading = s.reading
  agree : s.halves.Agree s'.halves { p | p ∉ t.places } m m'

namespace Reserved

/-- What the reader may look at is no part of the chunk. -/
theorem within (r : Reserved t s s' m m') {t' : Transfer} (hold : s.halves.Waiting m t') :
    t'.Within { p | p ∉ t.places } :=
  fun _ hp hp' => (r.isolated.writing t r.writing).disjoint hold hp' hp

/-- A call of the reader gets the same answer in both. -/
theorem reader (r : Reserved t s s' m m') (hc : c.party = .reader) :
    (s.step c m).1 = (s'.step c m').1
      ∧ Reserved t (s.step c m).2.1 (s'.step c m').2.1 (s.step c m).2.2 (s'.step c m').2.2 := by
  obtain ⟨hanswer, hreading, hagree⟩ := r.agree.reader r.reading_eq
    (fun t' ht' => r.within (r.isolated.reading t' ht')) (fun _ => r.within) hc
  exact ⟨hanswer.symm, {
    isolated := r.isolated.reader hc
    writing := (writing_step hc).trans r.writing
    idle := (writing_step hc).trans r.idle
    halves_eq := by rw [halves_step, halves_step]; exact r.halves_eq
    reading_eq := hreading
    agree := hagree }⟩

/-- Filling the chunk. -/
theorem fill (r : Reserved t s s' m m') (data : List UInt8) :
    s.step (.fill data) m = (.done, s, s.halves.fill t data m)
      ∧ Reserved t s s' (s.halves.fill t data m) m' := by
  have hstep : s.step (.fill data) m = (.done, s, s.halves.fill t data m) := by
    unfold Session.step
    rw [r.writing]
    rfl
  have isolated := r.isolated.writer (c := .fill data) rfl
  rw [hstep] at isolated
  exact ⟨hstep, ⟨isolated, r.writing, r.idle, r.halves_eq, r.reading_eq,
    r.agree.fill_left data fun _ hp hnot => hnot hp⟩⟩

/-- What the chunk holds after it was filled. -/
theorem contents_fill (r : Reserved t s s' m m') (data : List UInt8) :
    s.halves.contents t (s.halves.fill t data m) = overlay (s.halves.contents t m) data := by
  have hold := r.isolated.writing t r.writing
  rw [hold.contents_fill (r.isolated.lent.inOrder hold), overlay, hold.length_contents]

/-- Calls of the reader, and fills between them. -/
theorem run (r : Reserved t s s' m m') (steps : List Call)
    (own : ∀ c ∈ steps, c.party = .reader ∨ c.filling?.isSome) :
    answersTo .reader steps (s.run steps m).1
        = (s'.run (steps.filter (·.party = .reader)) m').1
      ∧ Reserved t (s.run steps m).2.1 (s'.run (steps.filter (·.party = .reader)) m').2.1
          (s.run steps m).2.2 (s'.run (steps.filter (·.party = .reader)) m').2.2
      ∧ s.halves.contents t (s.run steps m).2.2
          = (steps.filterMap Call.filling?).foldl overlay (s.halves.contents t m) := by
  induction steps generalizing s s' m m' with
  | nil => exact ⟨rfl, r, rfl⟩
  | cons c rest ih =>
    have hrest := fun c' hc' => own c' (List.mem_cons_of_mem c hc')
    rcases own c List.mem_cons_self with hc | hc
    · -- the reader's turn, in both sessions
      obtain ⟨hanswer, rnext⟩ := r.reader hc
      obtain ⟨hanswers, rlast, hcontents⟩ := ih rnext hrest
      have hnone : c.filling? = none := by cases c <;> first | rfl | contradiction
      have hsame : s.halves.contents t (s.step c m).2.2 = s.halves.contents t m := by
        rw [Halves.contents, Halves.contents, bytes_step_of_reader hc]
      rw [halves_step, hsame] at hcontents
      rw [List.filter_cons_of_pos (by rw [hc]; rfl), List.filterMap_cons_none hnone]
      refine ⟨?_, rlast, hcontents⟩
      rw [run_cons, run_cons, answersTo, if_pos hc, hanswer, hanswers]
    · -- a fill, in the one session that has a chunk
      obtain ⟨data, hdata⟩ := Option.isSome_iff_exists.1 hc
      obtain rfl : c = .fill data := by
        cases c with
        | fill data' => rw [Option.some.inj hdata]
        | _ => cases hdata
      obtain ⟨hstep, rnext⟩ := r.fill data
      obtain ⟨hanswers, rlast, hcontents⟩ := ih rnext hrest
      have hrun : s.run (.fill data :: rest) m = (.done :: (s.run rest (s.halves.fill t data m)).1,
          (s.run rest (s.halves.fill t data m)).2) := by
        rw [run_cons, hstep]
      have hparty : Call.party (.fill data) ≠ .reader := by
        rw [Call.party]
        decide
      rw [List.filter_cons_of_neg (by simp [hparty]), List.filterMap_cons_some hdata,
        List.foldl_cons, ← r.contents_fill data, hrun]
      refine ⟨?_, rlast, hcontents⟩
      rw [answersTo, if_neg hparty]
      exact hanswers

/-- Both sides see the same bytes wait. -/
theorem unread_eq (r : Reserved t s s' m m') : s'.halves.unread m' = s.halves.unread m := by
  have hold := r.isolated.writing t r.writing
  rw [Halves.unread, Halves.unread, Halves.occupied, Halves.occupied, r.agree.geometry_eq,
    r.agree.headCount_eq, r.agree.tailCount_eq]
  refine List.map_congr_left ?_
  intro i hi
  rw [r.agree.geometry_eq]
  refine r.agree.byte_eq _ ?_
  intro hmem
  exact hold.notMem_unreadPlaces hmem (List.mem_map_of_mem hi)

end Reserved

/-- The writer reserves `len` bytes as the chunk `t`, and the reader makes its calls among `steps`;
    the others fill the chunk. -/
structure ReservationHidden (s : Session) (m : Memory) (len : UInt64) (t : Transfer)
    (steps : List Call) : Prop where
  /-- the reader is answered as if there had been no reservation -/
  answers_eq : answersTo .reader (.reserve len :: steps) (s.run (.reserve len :: steps) m).1
    = (s.run (steps.filter (·.party = .reader)) m).1
  /-- the chunk holds what was put into it -/
  contents_eq : s.halves.contents t (s.run (.reserve len :: steps) m).2.2
    = (steps.filterMap Call.filling?).foldl overlay (s.halves.contents t m)
  /-- completing the chunk puts just its bytes behind all that was published before -/
  publish : ∃ m', (s.run (.reserve len :: steps) m).2.1.step .publish
          (s.run (.reserve len :: steps) m).2.2
        = (.moved len, (s.run (steps.filter (·.party = .reader)) m).2.1, m')
      ∧ s.halves.unread m' = s.halves.unread (s.run (steps.filter (·.party = .reader)) m).2.2
          ++ s.halves.contents t (s.run (.reserve len :: steps) m).2.2
      ∧ s.halves.headCount m'
          = s.halves.headCount (s.run (steps.filter (·.party = .reader)) m).2.2
      ∧ s.halves.tailCount m'
          = s.halves.tailCount (s.run (steps.filter (·.party = .reader)) m).2.2
            + UInt32.ofNat (len.toNat / s.halves.geometry.unitSize.toNat)
  /-- giving it up leaves the counters and all that waits as the reader alone would have -/
  discard : ∃ m', (s.run (.reserve len :: steps) m).2.1.step .discard
          (s.run (.reserve len :: steps) m).2.2
        = (.done, (s.run (steps.filter (·.party = .reader)) m).2.1, m')
      ∧ s.halves.unread m' = s.halves.unread (s.run (steps.filter (·.party = .reader)) m).2.2
      ∧ s.halves.headCount m'
          = s.halves.headCount (s.run (steps.filter (·.party = .reader)) m).2.2
      ∧ s.halves.tailCount m'
          = s.halves.tailCount (s.run (steps.filter (·.party = .reader)) m).2.2

/-- Without its chunk the one session is the other. -/
theorem Reserved.without (r : Reserved t s s' m m') : { s with writing := none } = s' := by
  obtain ⟨h, writing, reading⟩ := s
  obtain ⟨h', writing', reading'⟩ := s'
  rw [Session.mk.injEq]
  exact ⟨r.halves_eq.symm, r.idle.symm, r.reading_eq.symm⟩

/-- A chunk of the writer that was just opened. -/
theorem Isolated.reserved (inv : Isolated s m) (idle : s.writing = none) {len : UInt64}
    (hplan : s.halves.reserve? len m = some t) :
    s.step (.reserve len) m
        = (.chunk (some (s.halves.contents t m)), { s with writing := some t }, m)
      ∧ Reserved t { s with writing := some t } s m m := by
  have hstep : s.step (.reserve len) m
      = (.chunk (some (s.halves.contents t m)), { s with writing := some t }, m) := by
    unfold Session.step
    rw [idle]
    show s.openWriting (s.halves.reserve? len m) m = _
    rw [hplan]
    rfl
  have isolated := inv.writer (c := .reserve len) rfl
  rw [hstep] at isolated
  exact ⟨hstep, ⟨isolated, rfl, idle, rfl, rfl,
    ⟨rfl, inv.lent.head_ne_tail, inv.lent.head_ne_tail, rfl, rfl, rfl, fun _ _ => rfl⟩⟩⟩

/-- **A reservation is hidden from the reader**, whatever is put into it, until it is completed. -/
theorem Isolated.reservationHidden (inv : Isolated s m) (idle : s.writing = none) {len : UInt64}
    (hplan : s.halves.reserve? len m = some t) (steps : List Call)
    (own : ∀ c ∈ steps, c.party = .reader ∨ c.filling?.isSome) :
    ReservationHidden s m len t steps := by
  obtain ⟨hstep, reserved⟩ := inv.reserved idle hplan
  obtain ⟨hanswers, last, hcontents⟩ := reserved.run steps own
  have hrun : s.run (.reserve len :: steps) m = (.chunk (some (s.halves.contents t m))
      :: ({ s with writing := some t }.run steps m).1,
        ({ s with writing := some t }.run steps m).2) := by rw [run_cons, hstep]
  have hhalves : ({ s with writing := some t }.run steps m).2.1.halves = s.halves :=
    halves_run { s with writing := some t } steps m
  have hlen : t.len = len := Halves.len_of_reserve? hplan
  have hold := last.isolated.writing t last.writing
  have ok := last.isolated.lent.inOrder hold
  have hunread := last.unread_eq
  have hhead := last.agree.headCount_eq
  have htail := last.agree.tailCount_eq
  have hwithout := last.without
  have hopen := last.writing
  rw [last.halves_eq] at hunread hhead htail
  rw [hhalves] at hold ok hunread hhead htail
  generalize ({ s with writing := some t } : Session).run steps m = out at *
  refine ⟨?_, ?_, ⟨s.halves.publish t out.2.2, ?_⟩, ⟨out.2.2, ?_⟩⟩
  · have hparty : Call.party (.reserve len) ≠ .reader := by
      rw [Call.party]
      decide
    rw [hrun, answersTo, if_neg hparty]
    exact hanswers
  · rw [hrun]
    exact hcontents
  · have published := Halves.published_publish ok hold
    rw [hrun, hunread, hhead, htail, published.unread_eq, published.head_eq, published.tail_eq,
      hold.length_contents, hlen]
    refine ⟨?_, rfl, rfl, rfl⟩
    unfold Session.step
    rw [hopen, ← hwithout, ← hhalves, ← hlen]
    rfl
  · rw [hrun]
    refine ⟨?_, hunread.symm, hhead.symm, htail.symm⟩
    unfold Session.step
    rw [hopen, ← hwithout]
    rfl

/-- **Open chunks are isolated.**  Take any ring that can be split, its region anywhere in memory,
    its counters two different cells that hold anything at all, and any calls of the two halves.
    What the reader then holds open shows the same bytes however long the writer goes on; what the
    writer reserves is hidden from the reader until it is completed; and what both hold at a time
    has no byte in common. -/
theorem open_chunks_are_isolated {r : Ring} {h : Halves} (split : r.halves = .ok h) {m : Memory}
    (lent : h.region.offset + h.region.len ≤ m.bytes.size) (cells : h.head ≠ h.tail)
    (calls : List Call) (own : ∀ c ∈ calls, c.isForeignStore = false) :
    let s := (Session.run { halves := h } calls m).2.1
    let m₁ := (Session.run { halves := h } calls m).2.2
    (∀ t ∈ s.reading, ∀ steps : List Call, (∀ c ∈ steps, c.party = .writer) →
        ViewKept s m₁ t steps)
      ∧ (s.writing = none → ∀ len, ∀ t ∈ s.halves.reserve? len m₁, ∀ steps : List Call,
          (∀ c ∈ steps, c.party = .reader ∨ c.filling?.isSome) →
          ReservationHidden s m₁ len t steps)
      ∧ ∀ t ∈ s.writing, ∀ t' ∈ s.reading, t.places.Disjoint t'.places := by
  have start : Isolated { halves := h } m :=
    { lent := ⟨Halves.ring_le_region_of_split split, lent, cells⟩
      writing := fun _ ht => (nomatch ht)
      reading := fun _ ht => (nomatch ht) }
  have inv := start.run calls own
  exact ⟨fun t ht steps => inv.viewKept ht steps,
    fun idle len t ht steps => inv.reservationHidden idle ht steps,
    fun t ht t' ht' => (inv.writing t ht).disjoint (inv.reading t' ht')⟩

/-- The small ring: the writer goes once around beside a view of what waits, and what the writer
    reserves beside that view is filled before and after the reader completes it. -/
theorem open_chunks_are_isolated_small :
    let s := (Session.run { halves := Halves.small } [.view] Memory.small).2.1
    let m₁ := (Session.run { halves := Halves.small } [.view] Memory.small).2.2
    (∃ t ∈ s.reading, ViewKept s m₁ t
        [.write [1, 2, 3, 4], .reserve 3, .fill [5, 6, 7], .publish, .write [8, 9, 10]])
      ∧ ∃ t ∈ s.halves.reserve? 3 m₁, ReservationHidden s m₁ 3 t
          [.fill [1, 2], .look, .release, .fill [3], .readerCounts] := by
  obtain ⟨kept, hidden, -⟩ := open_chunks_are_isolated (r := Ring.small) (h := Halves.small) rfl
    (m := Memory.small) (by decide) (by decide) [.view] (by decide)
  exact ⟨⟨_, rfl, kept _ rfl _ (by decide)⟩, ⟨_, rfl, hidden rfl 3 _ rfl _ (by decide)⟩⟩

end Session

end SharedRing
