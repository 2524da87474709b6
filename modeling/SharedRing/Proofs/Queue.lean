/-
  A ring is a queue of bytes.

  `Queue` is the plain thing: the bytes that wait, the place where the first of them lies, and what
  the two open chunks hold.  Its rules (`Queue.Step`) say for each call what may be answered and what
  becomes of the queue, without counters, plans or memory.  The place is there because a chunk cannot
  pass the end of the ring; no other rule looks at it.

  A session over a memory stands for a queue (`Represents`) if the queue is what waits, the writer's
  chunk covers free units and the reader's chunk covers the front.  Every call keeps that up
  (`Represents.step`), and so does every list of calls.
-/
import SharedRing.Proofs.Handover
import SharedRing.Session

namespace SharedRing

/-! ## The queue -/

/-- A queue of bytes with a chunk open at either end, or none. -/
structure Queue where
  bytes : List UInt8
  /-- where in the ring the first byte lies -/
  front : Nat
  /-- what the writer's chunk holds -/
  filling : Option (List UInt8) := none
  /-- how many bytes the reader's chunk shows -/
  showing : Option Nat := none

/-- A peer stores to the head or to the tail. -/
def Call.isForeignStore : Call → Bool
  | .peerHead _ | .peerTail _ => true
  | _ => false

/-- A call about the flow-control counter, which no transfer looks at. -/
def Call.isSignal : Call → Bool
  | .addSignal _ | .takeSignal | .peerSignal _ => true
  | _ => false

namespace Queue

variable (g : Geometry) (q : Queue)

/-- The whole units that wait. -/
def units : Nat := q.bytes.length / g.unitSize.toNat

/-- The whole units for which there is room; one unit always stays empty. -/
def vacancies : Nat := g.capacity.toNat - 1 - q.units g

/-- The units that are meant by a request of a reader that could have `available`. -/
def requested (count : Option UInt64) (available : Nat) : Nat :=
  match count with
  | some n => if n = 0 then available else min available (n.toNat / g.unitSize.toNat)
  | none => available

/-- Exactly `len` bytes can be reserved: whole units, free, and before the end of the ring. -/
def Reservable (len : Nat) : Prop :=
  0 < len ∧ g.unitSize.toNat ∣ len ∧ len ≤ g.unitSize.toNat * q.vacancies g
    ∧ len ≤ g.size.toNat - (q.front + q.bytes.length) % g.size.toNat

/-- Exactly `len` bytes can be viewed: whole units, waiting, and before the end of the ring. -/
def Viewable (len : Nat) : Prop :=
  0 < len ∧ g.unitSize.toNat ∣ len ∧ len ≤ q.bytes.length ∧ len ≤ g.size.toNat - q.front

/-- The queue without its first `n` bytes. -/
def pop (n : Nat) : Queue :=
  { q with bytes := q.bytes.drop n, front := (q.front + n) % g.size.toNat }

/-- The queue with more bytes at its end. -/
def push (bytes : List UInt8) : Queue := { q with bytes := q.bytes ++ bytes }

/-- A half that keeps a chunk open answers nothing else, and nothing can be done to a chunk that is
    not open. -/
def Busy : Call → Prop
  | .write _ | .reserve _ | .writerCounts => q.filling.isSome
  | .fill _ | .publish | .discard => q.filling = none
  | .read _ _ | .view | .viewOf _ | .addSignal _ | .takeSignal | .readerCounts => q.showing.isSome
  | .look | .release | .leave => q.showing = none
  | .peerHead _ | .peerTail _ | .peerSignal _ => False

/-- What a call may be answered, and what becomes of the queue. -/
inductive Step (g : Geometry) (q : Queue) : Call → Answer → Queue → Prop where
  /-- a write appends as much of its data as there is room for, in whole units -/
  | write (data : List UInt8) (n : UInt64) (idle : q.filling = none)
      (amount : n.toNat
        = g.unitSize.toNat * min (data.length / g.unitSize.toNat) (q.vacancies g)) :
      Step g q (.write data) (.moved n) (q.push (data.take n.toNat))
  /-- a reservation shows what happens to lie in the free bytes, and appends nothing yet -/
  | reserve (len : UInt64) (held : Option (List UInt8)) (idle : q.filling = none)
      (isSome_iff : held.isSome ↔ q.Reservable g len.toNat)
      (length_eq : ∀ c ∈ held, c.length = len.toNat) :
      Step g q (.reserve len) (.chunk held) { q with filling := held }
  /-- filling puts data at the beginning of the writer's chunk -/
  | fill (data c : List UInt8) (isOpen : q.filling = some c) :
      Step g q (.fill data) .done
        { q with filling := some (data.take c.length ++ c.drop data.length) }
  /-- publishing appends what the writer's chunk holds by now -/
  | publish (n : UInt64) (c : List UInt8) (isOpen : q.filling = some c)
      (amount : n.toNat = c.length) :
      Step g q .publish (.moved n) { q.push c with filling := none }
  /-- a chunk that is given up leaves no trace -/
  | discard (c : List UInt8) (isOpen : q.filling = some c) :
      Step g q .discard .done { q with filling := none }
  /-- a read takes bytes from the front into the beginning of the buffer -/
  | read (buffer : List UInt8) (count : Option UInt64) (n : Nat) (idle : q.showing = none)
      (amount : n = g.unitSize.toNat
        * requested g count (min (q.units g) (buffer.length / g.unitSize.toNat))) :
      Step g q (.read buffer count) (.received n (q.bytes.take n ++ buffer.drop n)) (q.pop g n)
  /-- a view shows what waits before the end of the ring, unless nothing waits -/
  | view (shown : Option Nat) (idle : q.showing = none)
      (none_iff : shown = none ↔ q.bytes = [])
      (amount : ∀ n ∈ shown, n = min q.bytes.length (g.size.toNat - q.front)) :
      Step g q .view (.chunk (shown.map q.bytes.take)) { q with showing := shown }
  /-- a view of exactly `len` bytes shows all of them or none -/
  | viewOf (len : UInt64) (shown : Option Nat) (idle : q.showing = none)
      (isSome_iff : shown.isSome ↔ q.Viewable g len.toNat)
      (amount : ∀ n ∈ shown, n = len.toNat) :
      Step g q (.viewOf len) (.chunk (shown.map q.bytes.take)) { q with showing := shown }
  /-- the reader's chunk is the front of the queue, now as when it was opened -/
  | look (n : Nat) (isOpen : q.showing = some n) : Step g q .look (.seen (q.bytes.take n)) q
  /-- releasing takes what the reader's chunk shows from the front -/
  | release (n : UInt64) (isOpen : q.showing = some n.toNat) (pos : 0 < n.toNat)
      (enough : n.toNat ≤ q.bytes.length) :
      Step g q .release (.moved n) { q.pop g n.toNat with showing := none }
  /-- a chunk that is given up leaves no trace -/
  | leave (n : Nat) (isOpen : q.showing = some n) : Step g q .leave .done { q with showing := none }
  /-- both sides count the same bytes -/
  | counts (c : Call) (counts : Counts) (hc : c = .writerCounts ∨ c = .readerCounts)
      (idle : ¬ q.Busy c) (pending_eq : counts.pending.toNat = q.bytes.length)
      (free_eq : counts.free.toNat = g.unitSize.toNat * q.vacancies g) :
      Step g q c (.counts counts) q
  /-- flow control does not touch the queue -/
  | signal (c : Call) (a : Answer) (hc : c.isSignal) (idle : ¬ q.Busy c) : Step g q c a q
  | busy (c : Call) (hc : q.Busy c) : Step g q c .busy q

/-- The steps of a list of calls. -/
inductive Run (g : Geometry) : Queue → List Call → List Answer → Queue → Prop where
  | nil (q : Queue) : Run g q [] [] q
  | cons {q q₁ q₂ : Queue} {c : Call} {a : Answer} {calls : List Call} {answers : List Answer}
      (head : Step g q c a q₁) (rest : Run g q₁ calls answers q₂) :
      Run g q (c :: calls) (a :: answers) q₂

end Queue

/-! ## What stands for a queue -/

theorem rel_imp {α β : Type} {r r' : α → β → Prop} (himp : ∀ a b, r a b → r' a b)
    {a : Option α} {b : Option β} (hrel : Option.Rel r a b) : Option.Rel r' a b := by
  cases hrel with
  | none => exact .none
  | some hab => exact .some (himp _ _ hab)

namespace Halves

/-- The writer's chunk `t` holds these bytes. -/
def Holds (h : Halves) (m : Memory) (t : Transfer) (c : List UInt8) : Prop :=
  h.Vacant m t ∧ c = h.contents t m

/-- The reader's chunk `t` shows so many bytes. -/
def Shows (h : Halves) (m : Memory) (t : Transfer) (n : Nat) : Prop :=
  h.Waiting m t ∧ n = t.len.toNat

/-- What waits, as a queue without chunks. -/
def queue (h : Halves) (m : Memory) : Queue where
  bytes := h.unread m
  front := h.geometry.place (h.headCount m) 0

end Halves

/-- The session stands for the queue. -/
structure Represents (s : Session) (m : Memory) (q : Queue) : Prop where
  inOrder : s.halves.InOrder m
  bytes_eq : q.bytes = s.halves.unread m
  front_eq : q.front = s.halves.geometry.place (s.halves.headCount m) 0
  writing : Option.Rel (s.halves.Holds m) s.writing q.filling
  reading : Option.Rel (s.halves.Shows m) s.reading q.showing

namespace Halves

variable {h : Halves} {m m' : Memory} {t : Transfer} {bytes c : List UInt8} {n : Nat}

/-- Counts of units, in the queue's bytes. -/
theorem InOrder.requested_eq (ok : h.InOrder m) (room : Nat) (count : Option UInt64) :
    Transfer.readUnits h.geometry (h.occupied m) room count
      = Queue.requested h.geometry count (min (h.occupied m) (room / h.geometry.unitSize.toNat)) := by
  have hocc := ok.occupied_lt
  cases count with
  | none => rw [Transfer.readUnits.eq_def, Nat.min_eq_left (Nat.le_of_lt hocc)]; rfl
  | some n => rw [Transfer.readUnits.eq_def, Nat.min_eq_left (Nat.le_of_lt hocc)]; rfl

/-- The first byte behind those that wait lies at the tail. -/
theorem place_tail_zero (h : Halves) (m : Memory) : h.geometry.place (h.tailCount m) 0
    = (h.geometry.place (h.headCount m) 0 + (h.unread m).length) % h.geometry.size.toNat := by
  rw [place_tail, Nat.add_zero, Geometry.place_eq_mod, length_unread]

/-- The front moves on by what is released. -/
theorem Released.place_head (r : h.Released m m' bytes) (ok : h.InOrder m) :
    h.geometry.place (h.headCount m') 0
      = (h.geometry.place (h.headCount m) 0 + bytes.length) % h.geometry.size.toNat := by
  have hocc := ok.occupied_lt
  have hlen := congrArg List.length r.unread_eq
  rw [List.length_append, length_unread, length_unread] at hlen
  have hbytes : bytes.length = (h.occupied m - h.occupied m') * h.geometry.unitSize.toNat := by
    rw [Nat.sub_mul]; omega
  have hunits : (UInt32.ofNat (bytes.length / h.geometry.unitSize.toNat)).toNat
      * h.geometry.unitSize.toNat = bytes.length := by
    rw [hbytes, Nat.mul_div_cancel _ h.geometry.unitSize_pos,
      h.geometry.toNat_ofNat_of_le_capacity (by omega)]
  rw [r.head_eq, Geometry.place_add, hunits, Nat.add_zero, Geometry.place_eq_mod]

/-! Chunks that stay open while the other side, or a fill, goes on. -/

theorem Shows.published (shows : h.Shows m t n) (p : h.Published m m' bytes) : h.Shows m' t n :=
  ⟨p.waiting shows.1, shows.2⟩

theorem Holds.released (holds : h.Holds m t c) (r : h.Released m m' bytes) : h.Holds m' t c := by
  refine ⟨r.vacant holds.1, ?_⟩
  rw [holds.2, contents, contents, r.bytes_eq]

theorem Holds.filled (holds : h.Holds m t c) (ok : h.InOrder m) (data : List UInt8) :
    h.Holds (h.fill t data m) t (data.take c.length ++ c.drop data.length) := by
  obtain ⟨hold, rfl⟩ := holds
  exact ⟨hold, by rw [hold.contents_fill ok, hold.length_contents]⟩

/-- What the reader's chunk shows is the front of the queue. -/
theorem Shows.contents_eq (shows : h.Shows m t n) : h.contents t m = (h.unread m).take n := by
  rw [shows.2]; exact shows.1.contents_eq

end Halves

namespace Represents

variable {s : Session} {m m' : Memory} {q : Queue} {bytes : List UInt8}

theorem units_eq (r : Represents s m q) : q.units s.halves.geometry = s.halves.occupied m := by
  rw [Queue.units, r.bytes_eq]; exact s.halves.length_unread_div m

theorem vacancies_eq (r : Represents s m q) : q.vacancies s.halves.geometry
    = s.halves.geometry.capacity.toNat - 1 - s.halves.occupied m := by
  rw [Queue.vacancies, r.units_eq]

/-- After the writer has published, whatever chunk it has then. -/
theorem published (r : Represents s m q) (p : s.halves.Published m m' bytes) :
    Represents { s with writing := none } m' { q.push bytes with filling := none } where
  inOrder := p.inOrder
  bytes_eq := by rw [Queue.push, r.bytes_eq]; exact p.unread_eq.symm
  front_eq := by rw [Queue.push, r.front_eq, ← p.head_eq]
  writing := .none
  reading := rel_imp (fun _ _ shows => Halves.Shows.published shows p) r.reading

/-- After the reader has released, whatever chunk it has then. -/
theorem released (r : Represents s m q) (rel : s.halves.Released m m' bytes) :
    Represents { s with reading := none } m'
      { q.pop s.halves.geometry bytes.length with showing := none } where
  inOrder := rel.inOrder
  bytes_eq := by
    show q.bytes.drop bytes.length = _
    rw [r.bytes_eq, rel.unread_eq]; exact List.drop_left
  front_eq := by
    show (q.front + bytes.length) % _ = _
    rw [r.front_eq]; exact (rel.place_head r.inOrder).symm
  writing := rel_imp (fun _ _ holds => Halves.Holds.released holds rel) r.writing
  reading := .none

end Represents

/-! ## Every call keeps it up -/

namespace Session

theorem halves_signalled (s : Session) (m : Memory) (outcome : Except Refusal (UInt64 × Memory)) :
    (s.signalled m outcome).2.1.halves = s.halves := by
  cases outcome with
  | ok _ => rfl
  | error _ => rfl

/-- No call moves the halves elsewhere. -/
theorem halves_step (s : Session) (c : Call) (m : Memory) :
    (s.step c m).2.1.halves = s.halves := by
  unfold step
  cases hc : c.party with
  | writer =>
    cases s.writing with
    | none => cases c <;> rfl
    | some t => cases c <;> rfl
  | reader =>
    cases s.reading with
    | none =>
      cases c with
      | addSignal value => exact halves_signalled ..
      | takeSignal => exact halves_signalled ..
      | _ => rfl
    | some t => cases c <;> rfl
  | peer => cases c <;> rfl

end Session

namespace Represents

variable {s : Session} {m : Memory} {q : Queue}

/-- The outcome of a call is one that the queue allows. -/
def Allows (s : Session) (q : Queue) (c : Call) (out : Answer × Session × Memory) : Prop :=
  ∃ q', Queue.Step s.halves.geometry q c out.1 q' ∧ Represents out.2.1 out.2.2 q'

theorem busy {c : Call} (r : Represents s m q) (hc : q.Busy c) :
    Allows s q c (.busy, s, m) := ⟨q, .busy c hc, r⟩

theorem counts (r : Represents s m q) {c : Call} (hc : c = .writerCounts ∨ c = .readerCounts)
    (idle : ¬ q.Busy c) : Allows s q c (.counts (s.halves.counts m), s, m) := by
  refine ⟨q, .counts c _ hc idle ?_ ?_, r⟩
  · rw [r.bytes_eq]; exact Halves.toNat_pending _ _
  · rw [r.vacancies_eq, Nat.mul_comm]; exact s.halves.geometry.toNat_free _ _

/-- The flow-control counter is no part of the ring. -/
theorem withSignals (r : Represents s m q) (signals : Cells UInt64) :
    Represents s { m with signals := signals } q :=
  ⟨⟨r.inOrder.ring_le_region, r.inOrder.region_le_memory, r.inOrder.head_ne_tail,
    r.inOrder.occupied_le⟩, r.bytes_eq, r.front_eq, r.writing, r.reading⟩

theorem signalled (r : Represents s m q) {c : Call} (hc : c.isSignal) (idle : ¬ q.Busy c)
    {outcome : Except Refusal (UInt64 × Memory)}
    (hok : ∀ held m', outcome = .ok (held, m') → ∃ signals, m' = { m with signals }) :
    Allows s q c (s.signalled m outcome) := by
  cases outcome with
  | error e => exact ⟨q, .signal c _ hc idle, r⟩
  | ok result =>
    obtain ⟨held, m'⟩ := result
    obtain ⟨signals, rfl⟩ := hok held m' rfl
    exact ⟨q, .signal c _ hc idle, r.withSignals signals⟩

theorem withWriting (r : Represents s m q) {t : Option Transfer} {held : Option (List UInt8)}
    (holds : Option.Rel (s.halves.Holds m) t held) :
    Represents { s with writing := t } m { q with filling := held } :=
  ⟨r.inOrder, r.bytes_eq, r.front_eq, holds, r.reading⟩

theorem withReading (r : Represents s m q) {t : Option Transfer} {shown : Option Nat}
    (shows : Option.Rel (s.halves.Shows m) t shown) :
    Represents { s with reading := t } m { q with showing := shown } :=
  ⟨r.inOrder, r.bytes_eq, r.front_eq, r.writing, shows⟩

theorem reservable_iff (r : Represents s m q) (len : UInt64) :
    (s.halves.reserve? len m).isSome ↔ q.Reservable s.halves.geometry len.toNat := by
  rw [Halves.isSome_reserve?, Queue.Reservable, r.vacancies_eq, r.front_eq, r.bytes_eq,
    ← Halves.place_tail_zero, Nat.le_min, and_assoc, Nat.mul_comm]

theorem viewable_iff (r : Represents s m q) (len : UInt64) :
    (s.halves.viewOf? len m).isSome ↔ q.Viewable s.halves.geometry len.toNat := by
  rw [Halves.isSome_viewOf?, Queue.Viewable, r.front_eq, r.bytes_eq, Halves.length_unread,
    Nat.le_min, and_assoc]

/-- A write takes what there is room for. -/
theorem write (r : Represents s m q) (idle : q.filling = none) (hwriting : s.writing = none)
    (data : List UInt8) : Allows s q (.write data) (s.writerStep (.write data) m) := by
  obtain ⟨amount, published⟩ := Halves.published_write r.inOrder data
  rw [← r.vacancies_eq] at amount
  have hnext := r.published published
  -- there was no chunk, so there is none to be closed
  have hs : { s with writing := none } = s := by rw [← hwriting]
  have hq : ∀ bytes, { q.push bytes with filling := none } = q.push bytes := fun bytes => by
    rw [← idle]; rfl
  rw [hs, hq] at hnext
  rw [Session.writerStep_write]
  exact ⟨_, .write data _ idle amount, hnext⟩

/-- A chunk is given to the writer if there is room for it before the end of the ring. -/
theorem reserve (r : Represents s m q) (idle : q.filling = none) (len : UInt64) :
    Allows s q (.reserve len) (s.openWriting (s.halves.reserve? len m) m) := by
  have hiff := r.reservable_iff len
  cases hplan : s.halves.reserve? len m with
  | none =>
    rw [hplan] at hiff
    exact ⟨_, .reserve len none idle hiff (fun _ hmem => nomatch hmem), r.withWriting .none⟩
  | some t =>
    have hold := Halves.vacant_of_reserve? hplan
    have holds : s.halves.Holds m t (s.halves.contents t m) := ⟨hold, rfl⟩
    rw [hplan] at hiff
    refine ⟨_, .reserve len _ idle hiff ?_, r.withWriting (.some holds)⟩
    rintro held ⟨⟩
    rw [hold.length_contents, Halves.len_of_reserve? hplan]

/-- The writer without a chunk. -/
theorem writerStep (r : Represents s m q) (idle : q.filling = none) (hwriting : s.writing = none)
    {c : Call} (hc : c.party = .writer) : Allows s q c (s.writerStep c m) := by
  cases c with
  | write data => exact r.write idle hwriting data
  | reserve len => exact r.reserve idle len
  | writerCounts => exact r.counts (.inl rfl) (by simp [Queue.Busy, idle])
  | fill _ | publish | discard => exact r.busy idle
  | _ => contradiction

/-- The writer with a chunk. -/
theorem writingStep (r : Represents s m q) {t : Transfer} {held : List UInt8}
    (isOpen : q.filling = some held) (hwriting : s.writing = some t)
    (holds : s.halves.Holds m t held) {c : Call} (hc : c.party = .writer) :
    Allows s q c (s.writingStep t c m) := by
  cases c with
  | fill data =>
    refine ⟨_, .fill data held isOpen, r.inOrder.fill t data, ?_, r.front_eq, ?_, ?_⟩
    · rw [r.bytes_eq]; exact (holds.1.unread_fill data).symm
    · show Option.Rel _ s.writing _
      rw [hwriting]
      exact .some (holds.filled r.inOrder data)
    · exact r.reading
  | publish =>
    have hnext := r.published (Halves.published_publish r.inOrder holds.1)
    rw [← holds.2] at hnext
    exact ⟨_, .publish t.len held isOpen (by rw [holds.2, holds.1.length_contents]), hnext⟩
  | discard => exact ⟨_, .discard held isOpen, r.withWriting .none⟩
  | write _ | reserve _ | writerCounts => exact r.busy (by simp [Queue.Busy, isOpen])
  | _ => contradiction

/-- A read gives what the queue begins with. -/
theorem read (r : Represents s m q) (idle : q.showing = none) (hreading : s.reading = none)
    (buffer : List UInt8) (count : Option UInt64) :
    Allows s q (.read buffer count) (s.readerStep (.read buffer count) m) := by
  obtain ⟨amount, released⟩ := Halves.released_read r.inOrder buffer.length count
  rw [r.inOrder.requested_eq, ← r.units_eq] at amount
  have hnext := r.released released
  have hs : { s with reading := none } = s := by rw [← hreading]
  have hq : ∀ n, { q.pop s.halves.geometry n with showing := none }
      = q.pop s.halves.geometry n := fun n => by rw [← idle]; rfl
  rw [hs, hq] at hnext
  have hgot : (s.halves.read buffer.length count m).1
      = q.bytes.take (s.halves.read buffer.length count m).1.length := by
    conv => rhs; rw [r.bytes_eq, released.unread_eq, List.take_left]
  refine ⟨_, ?_, hnext⟩
  have hstep := Queue.Step.read (g := s.halves.geometry) (q := q) buffer count _ idle amount
  rw [← hgot] at hstep
  exact hstep

/-- The reader is shown all there is before the end of the ring, and nothing only if there is
    nothing. -/
theorem view (r : Represents s m q) (idle : q.showing = none) :
    Allows s q .view (s.openReading (s.halves.view? m) m) := by
  rcases s.halves.view?_cases m with ⟨hnone, hocc⟩ | ⟨t, hsome, hold, hlen⟩
  · have hempty : q.bytes = [] := by
      rw [r.bytes_eq, ← List.length_eq_zero_iff, Halves.length_unread, hocc, Nat.zero_mul]
    rw [hnone]
    exact ⟨_, .view none idle ⟨fun _ => hempty, fun _ => rfl⟩ (fun _ hmem => nomatch hmem),
      r.withReading .none⟩
  · -- the chunk is not empty, since a plan for no bytes is none
    have shows : s.halves.Shows m t t.len.toNat := ⟨hold, rfl⟩
    have hpos := hold.len_pos
    have hle := hold.len_le
    rw [← r.bytes_eq] at hle
    rw [hsome]
    refine ⟨_, ?_, r.withReading (.some shows)⟩
    show Queue.Step _ q .view (.chunk (some (s.halves.contents t m))) _
    rw [shows.contents_eq, ← r.bytes_eq]
    refine .view (some t.len.toNat) idle ⟨fun hne => (nomatch hne), fun hempty => ?_⟩ ?_
    · rw [hempty, List.length_nil] at hle
      omega
    · rintro n ⟨⟩
      rw [hlen, r.bytes_eq, r.front_eq]

/-- The reader is shown as much as it asks for if that waits before the end of the ring. -/
theorem viewOf (r : Represents s m q) (idle : q.showing = none) (len : UInt64) :
    Allows s q (.viewOf len) (s.openReading (s.halves.viewOf? len m) m) := by
  have hiff := r.viewable_iff len
  cases hplan : s.halves.viewOf? len m with
  | none =>
    rw [hplan] at hiff
    exact ⟨_, .viewOf len none idle hiff (fun _ hmem => nomatch hmem), r.withReading .none⟩
  | some t =>
    have shows : s.halves.Shows m t t.len.toNat := ⟨Halves.waiting_of_viewOf? hplan, rfl⟩
    rw [hplan] at hiff
    refine ⟨_, ?_, r.withReading (.some shows)⟩
    show Queue.Step _ q (.viewOf len) (.chunk (some (s.halves.contents t m))) _
    rw [shows.contents_eq, ← r.bytes_eq]
    refine .viewOf len (some t.len.toNat) idle hiff ?_
    rintro n ⟨⟩
    rw [Halves.len_of_viewOf? hplan]

/-- The reader without a chunk. -/
theorem readerStep (r : Represents s m q) (idle : q.showing = none) (hreading : s.reading = none)
    {c : Call} (hc : c.party = .reader) : Allows s q c (s.readerStep c m) := by
  cases c with
  | read buffer count => exact r.read idle hreading buffer count
  | view => exact r.view idle
  | viewOf len => exact r.viewOf idle len
  | addSignal value =>
    exact r.signalled rfl (by simp [Queue.Busy, idle]) fun _ _ => Memory.eq_of_addSignal
  | takeSignal =>
    exact r.signalled rfl (by simp [Queue.Busy, idle]) fun _ _ => Memory.eq_of_takeSignal
  | readerCounts => exact r.counts (.inr rfl) (by simp [Queue.Busy, idle])
  | look | release | leave => exact r.busy idle
  | _ => contradiction

/-- The reader with a chunk. -/
theorem readingStep (r : Represents s m q) {t : Transfer} {n : Nat} (isOpen : q.showing = some n)
    (shows : s.halves.Shows m t n) {c : Call} (hc : c.party = .reader) :
    Allows s q c (s.readingStep t c m) := by
  cases c with
  | look =>
    refine ⟨q, ?_, r⟩
    show Queue.Step _ q .look (.seen (s.halves.contents t m)) q
    rw [shows.contents_eq, ← r.bytes_eq]
    exact .look n isOpen
  | release =>
    have hlen := shows.1.len_le
    rw [← r.bytes_eq] at hlen
    rw [shows.2] at isOpen
    have hnext := r.released (Halves.released_release r.inOrder shows.1)
    rw [shows.1.length_contents] at hnext
    exact ⟨_, .release t.len isOpen shows.1.len_pos hlen, hnext⟩
  | leave => exact ⟨_, .leave n isOpen, r.withReading .none⟩
  | read _ _ | view | viewOf _ | addSignal _ | takeSignal | readerCounts =>
    exact r.busy (by simp [Queue.Busy, isOpen])
  | _ => contradiction

/-- What a peer may do without touching the ring. -/
theorem peerStep (r : Represents s m q) {c : Call} (hc : c.party = .peer)
    (own : c.isForeignStore = false) : Allows s q c (s.peerStep c m) := by
  cases c with
  | peerSignal value =>
    unfold Session.peerStep
    dsimp only
    cases s.halves.signal with
    | none => exact ⟨q, .signal _ _ rfl id, r⟩
    | some i => exact ⟨q, .signal _ _ rfl id, r.withSignals _⟩
  | _ => contradiction

/-- **One call.**  Whatever is called, the answer is one that the queue may give, and the session
    goes on standing for the queue. -/
theorem step (r : Represents s m q) (c : Call) (own : c.isForeignStore = false) :
    Allows s q c (s.step c m) := by
  have hwriting := r.writing
  have hreading := r.reading
  unfold Session.step
  -- a side has a chunk open just when the queue's end on that side has one
  cases hc : c.party with
  | writer =>
    cases hw : s.writing with
    | none =>
      rw [hw] at hwriting
      cases hq : q.filling with
      | none => exact r.writerStep hq hw hc
      | some held => rw [hq] at hwriting; nomatch hwriting
    | some t =>
      rw [hw] at hwriting
      cases hq : q.filling with
      | none => rw [hq] at hwriting; nomatch hwriting
      | some held =>
        rw [hq] at hwriting
        cases hwriting with
        | some holds => exact r.writingStep hq hw holds hc
  | reader =>
    cases hr : s.reading with
    | none =>
      rw [hr] at hreading
      cases hq : q.showing with
      | none => exact r.readerStep hq hr hc
      | some n => rw [hq] at hreading; nomatch hreading
    | some t =>
      rw [hr] at hreading
      cases hq : q.showing with
      | none => rw [hq] at hreading; nomatch hreading
      | some n =>
        rw [hq] at hreading
        cases hreading with
        | some shows => exact r.readingStep hq shows hc
  | peer => exact r.peerStep hc own

/-- A list of calls. -/
theorem run (r : Represents s m q) (calls : List Call)
    (own : ∀ c ∈ calls, c.isForeignStore = false) :
    ∃ q', Queue.Run s.halves.geometry q calls (s.run calls m).1 q'
      ∧ Represents (s.run calls m).2.1 (s.run calls m).2.2 q' := by
  induction calls generalizing s m q with
  | nil => exact ⟨q, .nil q, r⟩
  | cons c rest ih =>
    obtain ⟨q₁, hstep, r₁⟩ := r.step c (own c List.mem_cons_self)
    obtain ⟨q₂, hrun, r₂⟩ := ih r₁ fun c' hc' => own c' (List.mem_cons_of_mem c hc')
    -- the rest is a run of the same ring, since no call moves the halves
    rw [Session.halves_step] at hrun
    exact ⟨q₂, .cons hstep hrun, r₂⟩

end Represents

/-- Halves without open chunks stand for what waits. -/
theorem represents_queue {h : Halves} {m : Memory} (ok : h.InOrder m) :
    Represents { halves := h } m (h.queue m) := ⟨ok, rfl, rfl, .none, .none⟩

/-- **A ring is a queue of bytes.**  Take any ring that can be split, its region anywhere in memory,
    its counters two different cells that hold anything a ring may be in.  Whatever the halves are
    asked, in whatever order and with chunks open for as long as they like, each answer is one that
    the queue of what waits may give, and what waits in the end is what the queue then holds. -/
theorem session_refines_queue {r : Ring} {h : Halves} (split : r.halves = .ok h) {m : Memory}
    (lent : h.region.offset + h.region.len ≤ m.bytes.size) (cells : h.head ≠ h.tail)
    (start : (h.tailCount m - h.headCount m).toNat ≤ h.geometry.capacity.toNat - 1)
    (calls : List Call) (own : ∀ c ∈ calls, c.isForeignStore = false) :
    ∃ q, Queue.Run h.geometry (h.queue m) calls (Session.run { halves := h } calls m).1 q
      ∧ Represents (Session.run { halves := h } calls m).2.1
          (Session.run { halves := h } calls m).2.2 q :=
  have ok : h.InOrder m := ⟨Halves.ring_le_region_of_split split, lent, cells, start⟩
  (represents_queue ok).run calls own

/-- The small ring: a chunk is reserved, a view is opened beside it, a read and a write find their
    halves busy, and both chunks are completed, the writer's first. -/
theorem session_refines_queue_small :
    let calls : List Call := [.reserve 3, .view, .fill [1, 2, 3, 4], .read [0, 0] none, .look,
      .publish, .write [5, 6, 7, 8, 9, 10, 11], .look, .release, .read [0, 0, 0, 0, 0] (some 0)]
    ∃ q, Queue.Run Halves.small.geometry (Halves.small.queue Memory.small) calls
        (Session.run { halves := Halves.small } calls Memory.small).1 q
      ∧ Represents (Session.run { halves := Halves.small } calls Memory.small).2.1
          (Session.run { halves := Halves.small } calls Memory.small).2.2 q :=
  session_refines_queue (r := Ring.small) rfl (by decide) (by decide) (by decide) _ (by decide)

end SharedRing
