/-
  What a session can touch, whatever a peer stores into the counters.

  Nothing here asks for a ring in order.  A chunk lies before the end of the ring when it is opened
  (`IsChunk`), and since it remembers where it lies, no later store can move it.  From that one fact
  about open chunks (`Chunks`) each call keeps to the bytes of the ring and gives back whole units, no
  more than its side may move (`Bounded`), and it computes nothing that goes wrong
  (`Checked.step_eq`).
-/
import SharedRing.Proofs.Checked
import SharedRing.Proofs.Handover

namespace SharedRing

/-! ## Lengths that are given back -/

/-- How many bytes an answer says were moved, opened or seen. -/
def Answer.length? : Answer → Option Nat
  | .moved n => some n.toNat
  | .received n _ => some n
  | .chunk contents => contents.map List.length
  | .seen contents => some contents.length
  | _ => none

/-- The most that a side may move at once: a reader the whole ring, a writer all but one unit. -/
def Call.most (c : Call) (g : Geometry) : Nat :=
  match c.party with
  | .writer => g.size.toNat - g.unitSize.toNat
  | _ => g.size.toNat

/-! ## Chunks -/

/-- One run of at most so many bytes before the end of the ring, in whole units. -/
def Transfer.IsChunk (g : Geometry) (most : Nat) (t : Transfer) : Prop :=
  ∃ u, t = starting g u t.len ∧ t.len.toNat ≤ (g.toEnd u).toNat
    ∧ g.unitSize.toNat ∣ t.len.toNat ∧ t.len.toNat ≤ most

namespace Transfer.IsChunk

variable {g : Geometry} {most : Nat} {t : Transfer}

/-- It is one span. -/
theorem spans_eq (chunk : t.IsChunk g most) :
    ∃ start, t.spans = [⟨start, t.len.toNat⟩] ∧ start + t.len.toNat ≤ g.size.toNat := by
  obtain ⟨u, hstart, hend, -⟩ := chunk
  have hpos := g.toNat_unitPosition_eq_place u
  have hplace := g.place_lt u 0
  have hnot := (g.not_toEnd_lt_iff u).2 hend
  rw [Geometry.toNat_toEnd] at hend
  refine ⟨g.place u 0, ?_, by omega⟩
  conv => lhs; rw [hstart]
  rw [starting, if_neg hnot, hpos]

/-- All its bytes are bytes of the ring. -/
theorem places_lt (chunk : t.IsChunk g most) {p : Nat} (hp : p ∈ t.places) :
    p < g.size.toNat := by
  obtain ⟨start, hspans, hring⟩ := chunk.spans_eq
  rw [places, hspans, List.flatMap_singleton, List.mem_range'_1] at hp
  have hlt : p < start + t.len.toNat := hp.2
  omega

end Transfer.IsChunk

/-- All units but one, in bytes. -/
theorem Geometry.capacity_sub_one_mul (g : Geometry) :
    (g.capacity.toNat - 1) * g.unitSize.toNat = g.size.toNat - g.unitSize.toNat := by
  rw [toNat_size, Nat.sub_mul, Nat.one_mul]

namespace Transfer

variable {g : Geometry} {head tail : UInt32} {len : UInt64} {t : Transfer}

theorem isChunk_of_reserve? (hplan : reserve? g head tail len = some t) :
    t.IsChunk g (g.size.toNat - g.unitSize.toNat) := by
  obtain ⟨rfl, run, hle⟩ := isRun_of_exactly? hplan
  have hmost : (g.free head tail).toNat ≤ g.size.toNat - g.unitSize.toNat := by
    rw [Geometry.toNat_free, ← Geometry.capacity_sub_one_mul]
    exact Nat.mul_le_mul_right _ (Nat.sub_le _ _)
  refine ⟨tail, run.eq_starting, ?_, run.unitSize_dvd_len, ?_⟩
  · rw [Geometry.toNat_toEnd]; exact Nat.le_trans hle (Nat.min_le_right _ _)
  · exact Nat.le_trans hle (Nat.le_trans (Nat.min_le_left _ _) hmost)

theorem isChunk_of_viewOf? (hplan : viewOf? g head tail len = some t) :
    t.IsChunk g g.size.toNat := by
  obtain ⟨rfl, run, hle⟩ := isRun_of_exactly? hplan
  refine ⟨head, run.eq_starting, ?_, run.unitSize_dvd_len, run.len_le_size⟩
  rw [Geometry.toNat_toEnd]; exact Nat.le_trans hle (Nat.min_le_right _ _)

theorem isChunk_of_view? (hplan : view? g head tail = some t) : t.IsChunk g g.size.toNat := by
  have run := IsRun.of_cases (view?_cases _ _ _ rfl) hplan
  have hend := g.unitSize_dvd_toEnd head
  refine ⟨head, run.eq_starting, ?_, run.unitSize_dvd_len, run.len_le_size⟩
  rw [run.len_eq, ← Nat.mul_min_mul_right, ← Geometry.toNat_toEnd, Nat.div_mul_cancel hend]
  exact Nat.min_le_right _ _

end Transfer

namespace Halves

variable {h : Halves} {m : Memory} {t : Transfer}

/-- What a chunk shows is as long as it is. -/
theorem length_contents_of_isChunk {most : Nat} (chunk : t.IsChunk h.geometry most) :
    (h.contents t m).length = t.len.toNat := by
  obtain ⟨start, hspans, -⟩ := chunk.spans_eq
  rw [contents, hspans, Bytes.gather, List.flatMap_singleton, Bytes.length_read]

/-- A write gives back whole units, at most all of the ring but one. -/
theorem length_writeSeeing (h : Halves) (data : List UInt8) (v : Sight) :
    h.geometry.unitSize.toNat ∣ (h.writeSeeing data v).1.toNat
      ∧ (h.writeSeeing data v).1.toNat ≤ h.geometry.size.toNat - h.geometry.unitSize.toNat := by
  rw [← Geometry.capacity_sub_one_mul]
  rcases Transfer.write?_cases h.geometry v.head v.tail data.length rfl with
    ⟨-, hnone⟩ | ⟨t, hsome, run⟩
  · simp only [writeSeeing, hnone]
    exact ⟨Nat.dvd_zero _, Nat.zero_le _⟩
  · simp only [writeSeeing, hsome]
    refine ⟨run.unitSize_dvd_len, ?_⟩
    rw [run.len_eq]
    exact Nat.mul_le_mul_right _ (by omega)

/-- A read gives back whole units, at most all of the ring. -/
theorem length_readSeeing (h : Halves) (buffer : List UInt8) (count : Option UInt64) (v : Sight) :
    h.geometry.unitSize.toNat ∣ (h.readSeeing buffer count v).1
      ∧ (h.readSeeing buffer count v).1 ≤ h.geometry.size.toNat := by
  rcases Transfer.read?_cases h.geometry v.head v.tail buffer.length count rfl with
    ⟨-, hnone⟩ | ⟨t, hsome, run⟩
  · simp only [readSeeing, hnone]
    exact ⟨Nat.dvd_zero _, Nat.zero_le _⟩
  · simp only [readSeeing, hsome, length_contents run]
    exact ⟨run.unitSize_dvd_len, run.len_le_size⟩

/-! ## Bytes that are not the ring's -/

/-- Outside the bytes of the ring. -/
def Outside (h : Halves) (j : Nat) : Prop :=
  j < h.region.offset ∨ h.region.offset + h.geometry.size.toNat ≤ j

theorem byte_fill_outside {data : List UInt8} (hplaces : ∀ p ∈ t.places, p < h.geometry.size.toNat)
    {j : Nat} (hj : h.Outside j) : (h.fill t data m).bytes.byte j = m.bytes.byte j := by
  refine byte_fill_of_notMem t data ?_
  intro p hp heq
  have hlt := hplaces p hp
  rcases hj with hbefore | hbehind
  · omega
  · omega

/-- A write keeps to the ring. -/
theorem byte_writeSeeing_outside (data : List UInt8) (v : Sight) {j : Nat} (hj : h.Outside j) :
    (h.writeSeeing data v).2.bytes.byte j = v.memory.bytes.byte j := by
  rcases Transfer.write?_cases h.geometry v.head v.tail data.length rfl with
    ⟨-, hnone⟩ | ⟨t, hsome, run⟩
  · simp only [writeSeeing, hnone]
  · simp only [writeSeeing, hsome, bytes_publish]
    exact byte_fill_outside (fun p hp => run.places_lt hp) hj

theorem size_writeSeeing (data : List UInt8) (v : Sight) :
    (h.writeSeeing data v).2.bytes.size = v.memory.bytes.size := by
  unfold writeSeeing
  cases Transfer.write? h.geometry v.head v.tail data.length with
  | none => rfl
  | some t => exact size_bytes_fill t data

/-- A read writes nothing. -/
theorem bytes_readSeeing (h : Halves) (buffer : List UInt8) (count : Option UInt64) (v : Sight) :
    (h.readSeeing buffer count v).2.2.bytes = v.memory.bytes := by
  unfold readSeeing
  cases Transfer.read? h.geometry v.head v.tail buffer.length count with
  | none => rfl
  | some t => rfl

end Halves

/-! ## One call -/

namespace Session

/-- The open chunks of a session are chunks of the ring. -/
structure Chunks (s : Session) : Prop where
  writing : ∀ t ∈ s.writing,
    t.IsChunk s.halves.geometry (s.halves.geometry.size.toNat - s.halves.geometry.unitSize.toNat)
  reading : ∀ t ∈ s.reading, t.IsChunk s.halves.geometry s.halves.geometry.size.toNat

/-- A session begins with none. -/
theorem Chunks.start (h : Halves) : Chunks { halves := h } :=
  ⟨fun _ ht => (nomatch ht), fun _ ht => (nomatch ht)⟩

/-- A length of whole units, no more than the caller's side may move at once. -/
def Allowed (s : Session) (c : Call) (n : Nat) : Prop :=
  s.halves.geometry.unitSize.toNat ∣ n ∧ n ≤ c.most s.halves.geometry

/-- What a call does to chunks and memory, and what it may answer, with counters of any value. -/
structure Bounded (s : Session) (c : Call) (m : Memory) (out : Answer × Session × Memory) :
    Prop where
  halves_eq : out.2.1.halves = s.halves
  chunks : Chunks out.2.1
  lengths : ∀ n, out.1.length? = some n → Allowed s c n
  outside : ∀ j, s.halves.Outside j → out.2.2.bytes.byte j = m.bytes.byte j
  size_eq : out.2.2.bytes.size = m.bytes.size

variable {s : Session} {m m' : Memory} {c : Call} {a : Answer} {t : Transfer} {n : Nat}

/-- A call that changes no chunk, and no byte outside the ring. -/
theorem Chunks.same (chunks : Chunks s) (hlen : ∀ n, a.length? = some n → Allowed s c n)
    (hbytes : ∀ j, s.halves.Outside j → m'.bytes.byte j = m.bytes.byte j)
    (hsize : m'.bytes.size = m.bytes.size) : Bounded s c m (a, s, m') :=
  ⟨rfl, chunks, hlen, hbytes, hsize⟩

/-- A call that moves nothing. -/
theorem Chunks.idle (chunks : Chunks s) (ha : a.length? = none) (hm : m'.bytes = m.bytes) :
    Bounded s c m (a, s, m') :=
  chunks.same (fun n hn => by rw [ha] at hn; nomatch hn) (fun j _ => by rw [hm]) (by rw [hm])

theorem Chunks.signalled (chunks : Chunks s) {outcome : Except Refusal (UInt64 × Memory)}
    (hok : ∀ held m', outcome = .ok (held, m') → ∃ signals, m' = { m with signals }) :
    Bounded s c m (s.signalled m outcome) := by
  cases outcome with
  | ok result =>
    obtain ⟨held, m'⟩ := result
    obtain ⟨signals, rfl⟩ := hok held m' rfl
    exact chunks.idle rfl rfl
  | error e => exact chunks.idle rfl rfl

/-- The length of a chunk may be given back by its side. -/
theorem allowed_of_isChunk (chunk : t.IsChunk s.halves.geometry (c.most s.halves.geometry)) :
    Allowed s c t.len.toNat := by
  obtain ⟨u, -, -, hwhole, hmost⟩ := chunk
  exact ⟨hwhole, hmost⟩

/-- So may the length of what it shows. -/
theorem allowed_of_contents (chunk : t.IsChunk s.halves.geometry (c.most s.halves.geometry))
    (hn : (s.halves.contents t m).length = n) : Allowed s c n := by
  rw [← hn, Halves.length_contents_of_isChunk chunk]
  exact allowed_of_isChunk chunk

/-- A call that opens a chunk, or none, and leaves the bytes. -/
theorem lengths_open {plan : Option Transfer}
    (hplan : ∀ t ∈ plan, t.IsChunk s.halves.geometry (c.most s.halves.geometry)) :
    ∀ n, (Answer.chunk (plan.map fun t => s.halves.contents t m)).length? = some n
      → Allowed s c n := by
  intro n hn
  cases plan with
  | none => nomatch hn
  | some t => exact allowed_of_contents (hplan t rfl) (Option.some.inj hn)

theorem Chunks.write (chunks : Chunks s) (data : List UInt8) {v : Sight}
    (hv : v.memory.bytes = m.bytes) : Bounded s (.write data) m
      (.moved (s.halves.writeSeeing data v).1, s, (s.halves.writeSeeing data v).2) := by
  refine chunks.same ?_ ?_ ?_
  · intro n hn
    rw [← Option.some.inj hn]
    exact s.halves.length_writeSeeing data v
  · intro j hj
    rw [Halves.byte_writeSeeing_outside data v hj, hv]
  · rw [Halves.size_writeSeeing, hv]

theorem Chunks.read (chunks : Chunks s) (buffer : List UInt8) (count : Option UInt64) {v : Sight}
    (hv : v.memory.bytes = m.bytes) : Bounded s (.read buffer count) m
      (.received (s.halves.readSeeing buffer count v).1 (s.halves.readSeeing buffer count v).2.1, s,
        (s.halves.readSeeing buffer count v).2.2) := by
  refine chunks.same ?_ ?_ ?_
  · intro n hn
    rw [← Option.some.inj hn]
    exact s.halves.length_readSeeing buffer count v
  · intro j hj
    rw [s.halves.bytes_readSeeing, hv]
  · rw [s.halves.bytes_readSeeing, hv]

theorem Chunks.reserve (chunks : Chunks s) (len : UInt64) {v : Sight}
    (hv : v.memory.bytes = m.bytes) : Bounded s (.reserve len) m
      (s.openWriting (Transfer.reserve? s.halves.geometry v.head v.tail len) v.memory) where
  halves_eq := rfl
  chunks := ⟨fun _ ht => Transfer.isChunk_of_reserve? ht, chunks.reading⟩
  lengths := lengths_open fun _ ht => Transfer.isChunk_of_reserve? ht
  outside := fun j _ => congrArg (Bytes.byte · j) hv
  size_eq := congrArg Bytes.size hv

/-- Any of the reader's chunks that lies before the end of the ring. -/
theorem Chunks.opened (chunks : Chunks s) (hc : c.party = .reader) {plan : Option Transfer}
    (hplan : ∀ t ∈ plan, t.IsChunk s.halves.geometry s.halves.geometry.size.toNat)
    (hbytes : m'.bytes = m.bytes) : Bounded s c m (s.openReading plan m') where
  halves_eq := rfl
  chunks := ⟨chunks.writing, hplan⟩
  lengths := lengths_open (by rw [Call.most, hc]; exact hplan)
  outside := fun j _ => by
    show m'.bytes.byte j = _
    rw [hbytes]
  size_eq := congrArg Bytes.size hbytes

theorem Chunks.writingStep (chunks : Chunks s) (ht : s.writing = some t)
    (hc : c.party = .writer) : Bounded s c m (s.writingStep t c m) := by
  have chunk := chunks.writing t ht
  have closed : Chunks { s with writing := none } := ⟨fun _ h => (nomatch h), chunks.reading⟩
  cases c with
  | fill data =>
    exact chunks.same (fun n hn => (nomatch hn))
      (fun j hj => Halves.byte_fill_outside (fun p hp => chunk.places_lt hp) hj)
      (Halves.size_bytes_fill t data)
  | publish =>
    refine ⟨rfl, closed, ?_, fun _ _ => rfl, rfl⟩
    intro n hn
    rw [← Option.some.inj hn]
    exact allowed_of_isChunk (c := .publish) chunk
  | discard => exact ⟨rfl, closed, fun n hn => (nomatch hn), fun _ _ => rfl, rfl⟩
  | write _ | reserve _ | writerCounts => exact chunks.idle rfl rfl
  | _ => contradiction

theorem Chunks.readingStep (chunks : Chunks s) (ht : s.reading = some t)
    (hc : c.party = .reader) : Bounded s c m (s.readingStep t c m) := by
  have chunk := chunks.reading t ht
  have closed : Chunks { s with reading := none } := ⟨chunks.writing, fun _ h => (nomatch h)⟩
  cases c with
  | look =>
    refine chunks.same ?_ (fun _ _ => rfl) rfl
    intro n hn
    exact allowed_of_contents (c := .look) chunk (Option.some.inj hn)
  | release =>
    refine ⟨rfl, closed, ?_, fun _ _ => rfl, rfl⟩
    intro n hn
    rw [← Option.some.inj hn]
    exact allowed_of_isChunk (c := .release) chunk
  | leave => exact ⟨rfl, closed, fun n hn => (nomatch hn), fun _ _ => rfl, rfl⟩
  | read _ _ | view | viewOf _ | addSignal _ | takeSignal | readerCounts =>
    exact chunks.idle rfl rfl
  | _ => contradiction

/-- A peer's stores move no chunk. -/
theorem Chunks.peerStep (chunks : Chunks s) (hc : c.party = .peer) :
    Bounded s c m (s.peerStep c m) := by
  cases c with
  | peerHead value => exact chunks.idle rfl rfl
  | peerTail value => exact chunks.idle rfl rfl
  | peerSignal value =>
    refine chunks.idle rfl ?_
    cases s.halves.signal with
    | none => rfl
    | some i => rfl
  | _ => contradiction

/-- **One call**, whoever makes it, and whatever it has seen of the counters. -/
theorem Chunks.stepSeeing (chunks : Chunks s) (c : Call) {w r : Sight} {m : Memory}
    (hwriter : w.memory.bytes = m.bytes) (hreader : r.memory.bytes = m.bytes) :
    Bounded s c m (s.stepSeeing c w r m) := by
  unfold Session.stepSeeing Session.step
  cases c with
  | write data =>
    cases hw : s.writing with
    | none =>
      have hbounded := chunks.write data hwriter
      -- what the write gives back is a pair like any other here, and need not be computed
      dsimp only
      generalize s.halves.writeSeeing data _ = out at hbounded ⊢
      exact hbounded
    | some t => exact chunks.writingStep hw rfl
  | reserve len =>
    cases hw : s.writing with
    | none => exact chunks.reserve len hwriter
    | some t => exact chunks.writingStep hw rfl
  | fill _ | publish | discard | writerCounts =>
    cases hw : s.writing with
    | none => exact chunks.idle rfl rfl
    | some t => exact chunks.writingStep hw rfl
  | read buffer count =>
    cases hr : s.reading with
    | none => exact chunks.read buffer count hreader
    | some t => exact chunks.readingStep hr rfl
  | view =>
    cases hr : s.reading with
    | none => exact chunks.opened rfl (fun _ ht => Transfer.isChunk_of_view? ht) hreader
    | some t => exact chunks.readingStep hr rfl
  | viewOf len =>
    cases hr : s.reading with
    | none => exact chunks.opened rfl (fun _ ht => Transfer.isChunk_of_viewOf? ht) hreader
    | some t => exact chunks.readingStep hr rfl
  | addSignal value =>
    cases hr : s.reading with
    | none => exact chunks.signalled fun _ _ => Memory.eq_of_addSignal
    | some t => exact chunks.readingStep hr rfl
  | takeSignal =>
    cases hr : s.reading with
    | none => exact chunks.signalled fun _ _ => Memory.eq_of_takeSignal
    | some t => exact chunks.readingStep hr rfl
  | look | release | leave | readerCounts =>
    cases hr : s.reading with
    | none => exact chunks.idle rfl rfl
    | some t => exact chunks.readingStep hr rfl
  | peerHead _ | peerTail _ | peerSignal _ => exact chunks.peerStep rfl

/-- One call, whatever a peer stores to the counters meanwhile. -/
theorem Chunks.stepAmid (chunks : Chunks s) (c : Call) (p : Meddling) (m : Memory) :
    Bounded s c m (s.stepAmid c p m) := by
  rw [stepAmid_eq]
  exact chunks.stepSeeing c (s.halves.bytes_lookAsWriter p m) (s.halves.bytes_lookAsReader p m)

/-- One call while no peer stores anything. -/
theorem Chunks.step (chunks : Chunks s) (c : Call) (m : Memory) : Bounded s c m (s.step c m) := by
  rw [← stepAmid_calm]
  exact chunks.stepAmid c {} m

end Session

/-! ## No call computes anything that goes wrong -/

namespace Checked

variable {limit : Nat} {h : Halves} {s : Session} {m : Memory} {t : Transfer} {most : Nat}

theorem fill_eq (hlimit : h.geometry.size.toNat ≤ limit) (chunk : t.IsChunk h.geometry most)
    (data : List UInt8) : fill limit h t data m = .ok (h.fill t data m) := by
  obtain ⟨start, hspans, hring⟩ := chunk.spans_eq
  have hspan : span t = .ok ⟨start, t.len.toNat⟩ := by rw [span, hspans]
  have hfits : start + (data.take t.len.toNat).length ≤ h.geometry.size.toNat := by
    rw [List.length_take]; omega
  rw [fill, hspan, ok_bind, copyIn_eq hlimit hfits, Halves.fill, hspans]
  rfl

theorem look_eq (hlimit : h.geometry.size.toNat ≤ limit) (chunk : t.IsChunk h.geometry most) :
    look limit h t m = .ok (h.contents t m) := by
  obtain ⟨start, hspans, hring⟩ := chunk.spans_eq
  have hspan : span t = .ok ⟨start, t.len.toNat⟩ := by rw [span, hspans]
  rw [look, hspan, ok_bind, within_eq h.geometry hlimit hring, ok_bind, Halves.contents, hspans,
    Bytes.gather, List.flatMap_singleton]
  rfl

/-- **One call in checked arithmetic is the call**, whatever it has seen of the counters. -/
theorem stepSeeing_eq (hlimit : s.halves.geometry.size.toNat ≤ limit) (chunks : s.Chunks)
    (c : Call) (w r : Sight) : stepSeeing limit s c w r m = .ok (s.stepSeeing c w r m) := by
  unfold stepSeeing Session.stepSeeing Session.step
  cases c with
  | write data =>
    cases hw : s.writing with
    | none => simp only [write_eq hlimit, ok_bind]; rfl
    | some t => rfl
  | reserve len =>
    cases hw : s.writing with
    | none => simp only [reserve?_eq hlimit, ok_bind]; rfl
    | some t => rfl
  | fill data =>
    cases hw : s.writing with
    | none => rfl
    | some t => simp only [fill_eq hlimit (chunks.writing t hw), ok_bind]; rfl
  | read buffer count =>
    cases hr : s.reading with
    | none => simp only [readInto_eq hlimit, ok_bind]; rfl
    | some t => rfl
  | view =>
    cases hr : s.reading with
    | none => simp only [view?_eq hlimit, ok_bind]; rfl
    | some t => rfl
  | viewOf len =>
    cases hr : s.reading with
    | none => simp only [viewOf?_eq hlimit, ok_bind]; rfl
    | some t => rfl
  | look =>
    cases hr : s.reading with
    | none => rfl
    | some t => simp only [look_eq hlimit (chunks.reading t hr), ok_bind]; rfl
  | writerCounts =>
    cases hw : s.writing with
    | none => simp only [counts_eq, ok_bind]; rfl
    | some t => rfl
  | readerCounts =>
    cases hr : s.reading with
    | none => simp only [counts_eq, ok_bind]; rfl
    | some t => rfl
  | publish | discard | release | leave | addSignal _ | takeSignal => rfl
  | peerHead _ | peerTail _ | peerSignal _ => rfl

/-- One call with a peer that stores meanwhile. -/
theorem step_eq (hlimit : s.halves.geometry.size.toNat ≤ limit) (chunks : s.Chunks) (c : Call)
    (p : Meddling) : step limit s c p m = .ok (s.stepAmid c p m) := by
  rw [step_eq_stepSeeing, Session.stepAmid_eq]
  exact stepSeeing_eq hlimit chunks c _ _

end Checked

/-! ## Any calls -/

namespace Session

variable {s : Session} {m : Memory}

theorem Chunks.runAmid (chunks : Chunks s) {limit : Nat}
    (hlimit : s.halves.geometry.size.toNat ≤ limit) (calls : List (Call × Meddling)) :
    Checked.run limit s calls m = .ok (s.runAmid calls m)
      ∧ (∀ j, s.halves.Outside j → (s.runAmid calls m).2.2.bytes.byte j = m.bytes.byte j)
      ∧ ∀ p ∈ calls.zip (s.runAmid calls m).1, ∀ n, p.2.length? = some n → Allowed s p.1.1 n := by
  -- `Chunks` carries the run: nothing else that a call relies on outlives the call before it
  induction calls generalizing s m with
  | nil => exact ⟨rfl, fun _ _ => rfl, fun p hp => absurd hp List.not_mem_nil⟩
  | cons call rest ih =>
    obtain ⟨c, meddling⟩ := call
    obtain ⟨hhalves, hchunks, hlengths, houtside, -⟩ := chunks.stepAmid c meddling m
    have hrest := ih (s := (s.stepAmid c meddling m).2.1) (m := (s.stepAmid c meddling m).2.2)
      hchunks (by rw [hhalves]; exact hlimit)
    rw [hhalves] at hrest
    obtain ⟨hrun, hrunOutside, hrunLengths⟩ := hrest
    refine ⟨?_, ?_, ?_⟩
    · rw [Checked.run, Checked.step_eq hlimit chunks, Checked.ok_bind]
      show (Checked.run limit (s.stepAmid c meddling m).2.1 rest (s.stepAmid c meddling m).2.2
        >>= _) = _
      rw [hrun]
      rfl
    · intro j hj
      exact (hrunOutside j hj).trans (houtside j hj)
    · intro p hp
      rcases List.mem_cons.1 hp with rfl | hp
      · exact hlengths
      · intro n hn
        have := hrunLengths p hp n hn
        rw [Allowed, hhalves] at this
        exact this

/-- **No transfer ever leaves the ring.**  Take any ring that can be split, also one whose head and
    tail are one counter, and any calls, with stores of a peer to either counter between them, inside
    them and while chunks are open.  Carried out in checked arithmetic the calls give what they give
    unchecked, so that nothing overflows, falls below zero, divides by zero, loses bits, or asks for
    bytes that a slice does not have; and they do so as well if only the region may be touched as if
    only the bytes of the ring may be.  All other bytes stay.  Each length that is given back is a
    number of whole units, at most the ring for a reader and at most all but a unit of it for a
    writer.  If the peer keeps still inside the calls, these are the calls of a session. -/
theorem session_stays_in_ring {r : Ring} {h : Halves} (split : r.halves = .ok h)
    (calls : List (Call × Meddling)) (m : Memory) :
    let s : Session := { halves := h }
    Checked.run h.region.len s calls m = .ok (s.runAmid calls m)
      ∧ Checked.run h.geometry.size.toNat s calls m = .ok (s.runAmid calls m)
      ∧ (∀ j, j < h.region.offset ∨ h.region.offset + h.geometry.size.toNat ≤ j →
          (s.runAmid calls m).2.2.bytes.byte j = m.bytes.byte j)
      ∧ (∀ p ∈ calls.zip (s.runAmid calls m).1, ∀ n, p.2.length? = some n →
          h.geometry.unitSize.toNat ∣ n ∧ n ≤ p.1.1.most h.geometry)
      ∧ ((∀ call ∈ calls, call.2 = {}) → s.runAmid calls m = s.run (calls.map Prod.fst) m) := by
  intro s
  have chunks : s.Chunks := ⟨fun _ ht => (nomatch ht), fun _ ht => (nomatch ht)⟩
  obtain ⟨hregion, houtside, hlengths⟩ :=
    chunks.runAmid (Halves.ring_le_region_of_split split) calls (m := m)
  exact ⟨hregion, (chunks.runAmid (Nat.le_refl _) calls).1, houtside, hlengths,
    s.runAmid_calm calls m⟩

/-- The small ring with counters that no ring could have: a tail far ahead of the head when chunks
    are opened, both counters overwritten while they are open, and calls that look at one counter
    before a store and at the other after it. -/
theorem session_stays_in_small_ring :
    let calls : List (Call × Meddling) := [(.write [20, 21, 22, 23, 24], {}), (.reserve 3, {}),
      (.peerTail 0x80000001, {}), (.view, { between := [.tail 0xFFFFFFFF, .head 7] }),
      (.peerHead 0xFFFFFFFF, {}), (.look, {}), (.fill [1, 2, 3, 4, 5, 6, 7], {}), (.publish, {}),
      (.release, {}), (.peerTail 0x7FFFFFFF, {}),
      (.read [0, 0, 0, 0, 0, 0, 0, 0, 0, 0, 0, 0, 0, 0] (some 13), { after := [.head 1] }),
      (.write [30, 31, 32], { between := [.head 0x12345678], after := [.tail 0] }), (.viewOf 6, {}),
      (.readerCounts, {})]
    let s : Session := { halves := Halves.small }
    Checked.run 12 s calls Memory.small = .ok (s.runAmid calls Memory.small)
      ∧ Checked.run Halves.small.geometry.size.toNat s calls Memory.small
          = .ok (s.runAmid calls Memory.small)
      ∧ (∀ j, j < 1 ∨ 1 + Halves.small.geometry.size.toNat ≤ j →
          (s.runAmid calls Memory.small).2.2.bytes.byte j = Memory.small.bytes.byte j)
      ∧ (∀ p ∈ calls.zip (s.runAmid calls Memory.small).1, ∀ n, p.2.length? = some n →
          Halves.small.geometry.unitSize.toNat ∣ n ∧ n ≤ p.1.1.most Halves.small.geometry)
      ∧ ((∀ call ∈ calls, call.2 = {}) →
          s.runAmid calls Memory.small = s.run (calls.map Prod.fst) Memory.small) :=
  session_stays_in_ring (r := Ring.small) rfl _ _

end Session

end SharedRing
