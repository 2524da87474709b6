/-
  A writer and a reader, byte by byte.

  A call is not one step for the other side.  A writer looks at the tail, then at the head, then puts
  one byte after another, and at last stores the tail; a reader looks at the head, then at the tail,
  takes its bytes one after another, and stores the head.  Here each of these is a move of its own,
  and the moves of both come in any order.  What a side has seen of the other's counter is old as soon
  as the other goes on.

  That does no harm, because each side moves its own counter only.  What the writer plans stays
  vacant however much is released meanwhile, and what the reader plans goes on waiting however much
  is published (`Handover`).  The invariant (`Safe`) says just this, and that what was copied so far
  is right.

  Bytes are put and taken in any order.  A chunk is the same sequence with its last move delayed or
  never made; while it is open its owner may put any of its bytes, or look at any, again and again.
-/
import SharedRing.Proofs.Handover

namespace SharedRing

/-! ## Single bytes of a plan -/

namespace Halves

variable {h : Halves} {m : Memory} {t : Transfer}

/-- Where in memory byte `i` of a plan lies. -/
def address (h : Halves) (t : Transfer) (i : Nat) : Nat := h.region.offset + t.places.getD i 0

/-- Puts byte `i` of a plan. -/
def put (h : Halves) (t : Transfer) (i : Nat) (b : UInt8) (m : Memory) : Memory :=
  { m with bytes := m.bytes.set (h.address t i) b }

/-- The offsets of the bytes that wait. -/
def unreadPlaces (h : Halves) (m : Memory) : List Nat :=
  (List.range (h.occupied m * h.geometry.unitSize.toNat)).map (h.geometry.place (h.headCount m))

/-- What a plan covers is what its bytes are, one by one. -/
theorem contents_eq_map (h : Halves) (t : Transfer) (m : Memory) :
    h.contents t m = t.places.map fun p => m.bytes.byte (h.region.offset + p) :=
  Bytes.gather_eq_map ..

theorem getElem?_contents {i : Nat} (hi : i < t.places.length) :
    (h.contents t m)[i]? = some (m.bytes.byte (h.address t i)) := by
  rw [contents_eq_map, List.getElem?_map, List.getElem?_eq_getElem hi, address,
    List.getD_eq_getElem?_getD, List.getElem?_eq_getElem hi]
  rfl

theorem Vacant.length_places (hold : h.Vacant m t) : t.places.length = t.len.toNat := by
  obtain ⟨k, run, -⟩ := hold
  exact run.length_places

theorem Waiting.length_places (hold : h.Waiting m t) : t.places.length = t.len.toNat := by
  obtain ⟨k, run, -⟩ := hold
  exact run.length_places

/-- **What a writer holds is apart from all that waits.** -/
theorem Vacant.notMem_unreadPlaces (hold : h.Vacant m t) {p : Nat} (hp : p ∈ t.places) :
    p ∉ h.unreadPlaces m := by
  obtain ⟨k, run, hk⟩ := hold
  intro hmem
  rw [run.places_eq, List.mem_map] at hp
  rw [unreadPlaces, List.mem_map] at hmem
  obtain ⟨i, hi, rfl⟩ := hp
  obtain ⟨j, hj, heq⟩ := hmem
  exact place_tail_ne_place_head (by omega) (List.mem_range.1 hi) (List.mem_range.1 hj) heq.symm

/-- What a reader holds is among what waits. -/
theorem Waiting.mem_unreadPlaces (hold : h.Waiting m t) {p : Nat} (hp : p ∈ t.places) :
    p ∈ h.unreadPlaces m := by
  obtain ⟨k, run, hk⟩ := hold
  rw [run.places_eq, List.mem_map] at hp
  obtain ⟨i, hi, rfl⟩ := hp
  have hle : k * h.geometry.unitSize.toNat ≤ h.occupied m * h.geometry.unitSize.toNat :=
    Nat.mul_le_mul_right _ hk
  have hi : i < k * h.geometry.unitSize.toNat := List.mem_range.1 hi
  exact List.mem_map_of_mem (List.mem_range.2 (by omega))

theorem InOrder.put (ok : h.InOrder m) (t : Transfer) (i : Nat) (b : UInt8) :
    h.InOrder (h.put t i b m) where
  ring_le_region := ok.ring_le_region
  region_le_memory := by
    show _ ≤ (m.bytes.set _ b).size
    rw [Bytes.size_set]; exact ok.region_le_memory
  head_ne_tail := ok.head_ne_tail
  occupied_le := ok.occupied_le

/-- Putting a byte of what a writer holds changes no byte that waits. -/
theorem Vacant.unread_put (hold : h.Vacant m t) {i : Nat} (hi : i < t.len.toNat) (b : UInt8) :
    h.unread (h.put t i b m) = h.unread m := by
  have hi : i < t.places.length := by rw [hold.length_places]; exact hi
  have hget : t.places.getD i 0 = t.places[i] := by
    rw [List.getD_eq_getElem?_getD, List.getElem?_eq_getElem hi]; rfl
  refine h.stretch_congr _ _ ?_
  intro j hj
  refine Bytes.byte_set_of_ne _ _ ?_
  intro heq
  refine hold.notMem_unreadPlaces (List.getElem_mem hi) ?_
  rw [← hget, ← Nat.add_left_cancel heq]
  exact List.mem_map_of_mem (List.mem_range.2 hj)

/-- Putting byte `i` of what a writer holds changes that byte of it. -/
theorem Vacant.contents_put (hold : h.Vacant m t) (ok : h.InOrder m) {i : Nat}
    (hi : i < t.len.toNat) (b : UInt8) :
    h.contents t (h.put t i b m) = (h.contents t m).set i b := by
  have hring := ok.ring_le_memory
  have hlen := hold.length_places
  obtain ⟨k, run, hk⟩ := hold
  have hsize := run.len_le_size
  have hplace : ∀ j, j < t.len.toNat → h.address t j
      = h.region.offset + h.geometry.place (h.tailCount m) j := fun j hj => by
    rw [address, run.places_eq, ← run.len_eq, List.getD_eq_getElem?_getD, List.getElem?_map,
      List.getElem?_range hj]
    rfl
  apply List.ext_getElem?
  intro j
  rcases Nat.lt_or_ge j t.len.toNat with hj | hj
  · rw [getElem?_contents (by omega), List.getElem?_set, getElem?_contents (by omega)]
    have hput : (h.put t i b m).bytes.byte (h.address t j)
        = if h.address t j = h.address t i then b else m.bytes.byte (h.address t j) := by
      refine Bytes.byte_set _ _ _ _ ?_
      have := h.geometry.place_lt (h.tailCount m) i
      rw [hplace i hi]
      omega
    rw [hput]
    rcases Nat.decEq i j with hne | rfl
    · -- another byte lies at another place
      rw [if_neg hne, if_neg fun heq => hne ?_]
      rw [hplace i hi, hplace j hj] at heq
      exact (h.geometry.place_inj _ (by omega) (by omega) (Nat.add_left_cancel heq)).symm
    · rw [if_pos rfl, if_pos rfl, if_pos (by rw [Halves.length_contents run]; exact hi)]
  · rw [List.getElem?_eq_none (by rw [Halves.length_contents run]; exact hj),
      List.getElem?_eq_none (by rw [List.length_set, Halves.length_contents run]; exact hj)]

end Halves

namespace Interleaving

/-! ## The machine -/

/-- What a writer is asked for: copy data in, or open a chunk of free bytes. -/
inductive WriterJob where
  | copy (data : List UInt8)
  | chunk (len : UInt64)

/-- What a reader is asked for: copy bytes out, or open a chunk of all contiguous readable bytes or
    of exactly so many. -/
inductive ReaderJob where
  | copy (room : Nat) (count : Option UInt64)
  | chunk
  | chunkOf (len : UInt64)

/-- Where the writer is in its transfer. -/
inductive Writer where
  | idle
  /-- the tail was looked at -/
  | sawTail (job : WriterJob) (tail : UInt32)
  /-- the bytes with these numbers are still to be put -/
  | copying (t : Transfer) (data : List UInt8) (todo : List Nat)
  /-- a chunk is open, and its owner has it hold these bytes -/
  | holding (t : Transfer) (held : List UInt8)

/-- Where the reader is in its transfer. -/
inductive Reader where
  | idle
  /-- the head was looked at -/
  | sawHead (job : ReaderJob) (head : UInt32)
  /-- the bytes with these numbers are still to be taken -/
  | copying (t : Transfer) (got : List UInt8) (todo : List Nat)
  /-- a chunk is open, and it has shown these bytes, each when it was last looked at -/
  | holding (t : Transfer) (shown : List UInt8)

/-- Both sides at one moment, and what has passed between them. -/
structure State where
  memory : Memory
  writer : Writer := .idle
  reader : Reader := .idle
  /-- all bytes that the writer has published -/
  published : List UInt8 := []
  /-- all bytes that the reader has released, as it has read them -/
  released : List UInt8 := []

/-- One move of the writer. -/
inductive WriterMove where
  /-- look at the tail -/
  | start (job : WriterJob)
  /-- look at the head, and plan -/
  | plan
  /-- put a byte that is still to be put -/
  | put (i : Nat)
  /-- put any byte into the open chunk -/
  | touch (i : Nat) (b : UInt8)
  /-- store the tail -/
  | publish
  /-- give the chunk up -/
  | discard

/-- One move of the reader. -/
inductive ReaderMove where
  /-- look at the head -/
  | start (job : ReaderJob)
  /-- look at the tail, and plan -/
  | plan
  /-- take a byte that is still to be taken -/
  | take (i : Nat)
  /-- look at any byte of the open chunk -/
  | look (i : Nat)
  /-- store the head -/
  | release
  /-- give the chunk up -/
  | leave

inductive Move where
  | writer (move : WriterMove)
  | reader (move : ReaderMove)

variable (h : Halves)

/-- The plan for what the writer is asked, from the counters that it has seen. -/
def WriterJob.plan? (job : WriterJob) (head tail : UInt32) : Option Transfer :=
  match job with
  | .copy data => Transfer.write? h.geometry head tail data.length
  | .chunk len => Transfer.reserve? h.geometry head tail len

/-- The plan for what the reader is asked, from the counters that it has seen. -/
def ReaderJob.plan? (job : ReaderJob) (head tail : UInt32) : Option Transfer :=
  match job with
  | .copy room count => Transfer.read? h.geometry head tail room count
  | .chunk => Transfer.view? h.geometry head tail
  | .chunkOf len => Transfer.viewOf? h.geometry head tail len

/-- The writer with its plan: nothing to do, all bytes to put, or a chunk open. -/
def WriterJob.begin (job : WriterJob) (m : Memory) : Option Transfer → Writer
  | none => .idle
  | some t => match job with
    | .copy data => .copying t data (List.range t.len.toNat)
    | .chunk _ => .holding t (h.contents t m)

/-- The reader with its plan: nothing to do, all bytes to take, or a chunk open. -/
def ReaderJob.begin (job : ReaderJob) (m : Memory) : Option Transfer → Reader
  | none => .idle
  | some t => match job with
    | .copy _ _ => .copying t (List.replicate t.len.toNat 0) (List.range t.len.toNat)
    | .chunk | .chunkOf _ => .holding t (h.contents t m)

/-- The writer's moves.  A move that is not its turn does nothing. -/
def writerStep (s : State) : WriterMove → State
  | .start job => match s.writer with
    | .idle => { s with writer := .sawTail job (h.tailCount s.memory) }
    | _ => s
  | .plan => match s.writer with
    | .sawTail job tail =>
      { s with
        writer := job.begin h s.memory (job.plan? h (h.headCount s.memory) tail) }
    | _ => s
  | .put i => match s.writer with
    | .copying t data todo =>
      if i ∈ todo then
        { s with
          memory := h.put t i (data.getD i 0) s.memory
          writer := .copying t data (todo.erase i) }
      else s
    | _ => s
  | .touch i b => match s.writer with
    | .holding t held =>
      if i < t.len.toNat then
        { s with memory := h.put t i b s.memory, writer := .holding t (held.set i b) }
      else s
    | _ => s
  | .publish => match s.writer with
    | .copying t data [] =>
      { s with
        memory := h.publish t s.memory
        writer := .idle
        published := s.published ++ data.take t.len.toNat }
    | .holding t held =>
      { s with
        memory := h.publish t s.memory, writer := .idle, published := s.published ++ held }
    | _ => s
  | .discard => match s.writer with
    | .holding _ _ => { s with writer := .idle }
    | _ => s

/-- The reader's moves.  A move that is not its turn does nothing. -/
def readerStep (s : State) : ReaderMove → State
  | .start job => match s.reader with
    | .idle => { s with reader := .sawHead job (h.headCount s.memory) }
    | _ => s
  | .plan => match s.reader with
    | .sawHead job head =>
      { s with
        reader := job.begin h s.memory (job.plan? h head (h.tailCount s.memory)) }
    | _ => s
  | .take i => match s.reader with
    | .copying t got todo =>
      if i ∈ todo then
        { s with
          reader := .copying t (got.set i (s.memory.bytes.byte (h.address t i))) (todo.erase i) }
      else s
    | _ => s
  | .look i => match s.reader with
    | .holding t shown =>
      if i < t.len.toNat then
        { s with reader := .holding t (shown.set i (s.memory.bytes.byte (h.address t i))) }
      else s
    | _ => s
  | .release => match s.reader with
    | .copying t got [] =>
      { s with memory := h.release t s.memory, reader := .idle, released := s.released ++ got }
    | .holding t shown =>
      { s with memory := h.release t s.memory, reader := .idle, released := s.released ++ shown }
    | _ => s
  | .leave => match s.reader with
    | .holding _ _ => { s with reader := .idle }
    | _ => s

def step (s : State) : Move → State
  | .writer move => writerStep h s move
  | .reader move => readerStep h s move

/-- A run: any moves in any order. -/
def run (s : State) (moves : List Move) : State := moves.foldl (step h) s

/-- The offsets that the writer may still put bytes at. -/
def Writer.places : Writer → List Nat
  | .copying t _ _ | .holding t _ => t.places
  | _ => []

/-- The offsets that the reader may still take bytes from. -/
def Reader.places : Reader → List Nat
  | .copying t _ _ | .holding t _ => t.places
  | _ => []

/-! ## The invariant -/

/-- What holds of the writer's transfer, whatever the reader does. -/
def WriterSafe (m : Memory) : Writer → Prop
  | .idle => True
  | .sawTail _ tail => tail = h.tailCount m
  | .copying t data todo => h.Vacant m t ∧ t.len.toNat ≤ data.length
      ∧ (∀ i ∈ todo, i < t.len.toNat)
      ∧ ∀ i, i < t.len.toNat → i ∉ todo → (h.contents t m)[i]? = data[i]?
  | .holding t held => h.Vacant m t ∧ held = h.contents t m

/-- What holds of the reader's transfer, whatever the writer does. -/
def ReaderSafe (m : Memory) : Reader → Prop
  | .idle => True
  | .sawHead _ head => head = h.headCount m
  | .copying t got todo => h.Waiting m t ∧ got.length = t.len.toNat
      ∧ ∀ i, i < t.len.toNat → i ∉ todo → got[i]? = (h.contents t m)[i]?
  | .holding t shown => h.Waiting m t ∧ shown = h.contents t m

/-- The invariant of all runs from `start` on. -/
structure Safe (start : Memory) (s : State) : Prop where
  inOrder : h.InOrder s.memory
  writer : WriterSafe h s.memory s.writer
  reader : ReaderSafe h s.memory s.reader
  conserved : s.released ++ h.unread s.memory = h.unread start ++ s.published

/-! ## Neither side disturbs the other -/

variable {h} {m m' : Memory} {t : Transfer} {bytes : List UInt8}

/-- What a reader holds is not touched by what the writer publishes. -/
theorem contents_published (p : h.Published m m' bytes) (hold : h.Waiting m t) :
    h.contents t m' = h.contents t m := by
  rw [(p.waiting hold).contents_eq, hold.contents_eq, p.unread_eq,
    List.take_append_of_le_length hold.len_le]

theorem ReaderSafe.published {r : Reader} (safe : ReaderSafe h m r)
    (p : h.Published m m' bytes) : ReaderSafe h m' r := by
  cases r with
  | idle => trivial
  | sawHead job head => exact safe.trans p.head_eq.symm
  | copying t got todo =>
    obtain ⟨hold, hlen, hgot⟩ := safe
    exact ⟨p.waiting hold, hlen, by rw [contents_published p hold]; exact hgot⟩
  | holding t shown =>
    obtain ⟨hold, hshown⟩ := safe
    exact ⟨p.waiting hold, by rw [contents_published p hold]; exact hshown⟩

/-- What a writer holds is not touched by what the reader releases. -/
theorem WriterSafe.released {w : Writer} (safe : WriterSafe h m w)
    (r : h.Released m m' bytes) : WriterSafe h m' w := by
  have hcontents : ∀ t, h.contents t m' = h.contents t m := fun t => by
    rw [Halves.contents, Halves.contents, r.bytes_eq]
  cases w with
  | idle => trivial
  | sawTail job tail => exact safe.trans r.tail_eq.symm
  | copying t data todo =>
    obtain ⟨hold, hlen, htodo, hput⟩ := safe
    exact ⟨r.vacant hold, hlen, htodo, by rw [hcontents]; exact hput⟩
  | holding t held =>
    obtain ⟨hold, hheld⟩ := safe
    exact ⟨r.vacant hold, by rw [hcontents]; exact hheld⟩

/-- Nor by the bytes that the writer puts. -/
theorem ReaderSafe.put {r : Reader} (safe : ReaderSafe h m r) (hold : h.Vacant m t) {i : Nat}
    (hi : i < t.len.toNat) (b : UInt8) : ReaderSafe h (h.put t i b m) r := by
  have hcontents : ∀ t', h.Waiting m t' → h.contents t' (h.put t i b m) = h.contents t' m :=
    fun t' hold' => by
      have hold'' : h.Waiting (h.put t i b m) t' := hold'
      rw [hold''.contents_eq, hold.unread_put hi, hold'.contents_eq]
  cases r with
  | idle => trivial
  | sawHead job head => exact safe
  | copying t' got todo =>
    obtain ⟨hold', hlen, hgot⟩ := safe
    exact ⟨hold', hlen, by rw [hcontents t' hold']; exact hgot⟩
  | holding t' shown =>
    obtain ⟨hold', hshown⟩ := safe
    exact ⟨hold', by rw [hcontents t' hold']; exact hshown⟩

/-! ## Bytes of one's own plan -/

/-- The byte that the writer puts is right from then on, and the others stay so. -/
theorem WriterSafe.put {data : List UInt8} {todo : List Nat} {i : Nat} (ok : h.InOrder m)
    (safe : WriterSafe h m (.copying t data todo)) (hmem : i ∈ todo) :
    WriterSafe h (h.put t i (data.getD i 0) m) (.copying t data (todo.erase i)) := by
  obtain ⟨hold, hlen, htodo, hput⟩ := safe
  have hi := htodo i hmem
  refine ⟨hold, hlen, ?_, ?_⟩
  · intro j hj
    exact htodo j (List.mem_of_mem_erase hj)
  · intro j hj hdone
    rw [hold.contents_put ok hi, List.getElem?_set]
    rcases Nat.decEq i j with hne | rfl
    · rw [if_neg hne]
      exact hput j hj fun hmem => hdone ((List.mem_erase_of_ne (Ne.symm hne)).2 hmem)
    · rw [if_pos rfl, if_pos (by rw [hold.length_contents]; exact hi),
        List.getD_eq_getElem?_getD, List.getElem?_eq_getElem (by omega)]
      rfl

/-- With no byte left to put, the plan holds the beginning of the data. -/
theorem WriterSafe.contents_eq {data : List UInt8} (safe : WriterSafe h m (.copying t data [])) :
    h.contents t m = data.take t.len.toNat := by
  obtain ⟨hold, hlen, -, hput⟩ := safe
  apply List.ext_getElem?
  intro i
  rcases Nat.lt_or_ge i t.len.toNat with hi | hi
  · rw [hput i hi List.not_mem_nil, List.getElem?_take_of_lt hi]
  · rw [List.getElem?_eq_none (by rw [hold.length_contents]; exact hi),
      List.getElem?_eq_none (by rw [List.length_take]; omega)]

/-- The byte that the reader takes is the one that waits there. -/
theorem ReaderSafe.take {got : List UInt8} {todo : List Nat}
    (safe : ReaderSafe h m (.copying t got todo)) (i : Nat) :
    ReaderSafe h m
      (.copying t (got.set i (m.bytes.byte (h.address t i))) (todo.erase i)) := by
  obtain ⟨hold, hlen, hgot⟩ := safe
  refine ⟨hold, by rw [List.length_set]; exact hlen, ?_⟩
  intro j hj hdone
  rw [List.getElem?_set]
  rcases Nat.decEq i j with hne | rfl
  · rw [if_neg hne]
    exact hgot j hj fun hmem => hdone ((List.mem_erase_of_ne (Ne.symm hne)).2 hmem)
  · rw [if_pos rfl, if_pos (by rw [hlen]; exact hj),
      Halves.getElem?_contents (by rw [hold.length_places]; exact hj)]

/-- With no byte left to take, the reader has got what its plan holds. -/
theorem ReaderSafe.got_eq {got : List UInt8} (safe : ReaderSafe h m (.copying t got [])) :
    got = h.contents t m := by
  obtain ⟨hold, hlen, hgot⟩ := safe
  apply List.ext_getElem?
  intro i
  rcases Nat.lt_or_ge i t.len.toNat with hi | hi
  · exact hgot i hi List.not_mem_nil
  · rw [List.getElem?_eq_none (by omega),
      List.getElem?_eq_none (by rw [hold.length_contents]; exact hi)]

/-- However late a byte of the chunk is looked at, it is the byte that was there before. -/
theorem ReaderSafe.look {shown : List UInt8} (safe : ReaderSafe h m (.holding t shown)) {i : Nat}
    (hi : i < t.len.toNat) :
    ReaderSafe h m (.holding t (shown.set i (m.bytes.byte (h.address t i)))) := by
  obtain ⟨hold, rfl⟩ := safe
  have hbyte := Halves.getElem?_contents (h := h) (m := m)
    (show i < t.places.length by rw [hold.length_places]; exact hi)
  obtain ⟨hlt, heq⟩ := List.getElem?_eq_some_iff.1 hbyte
  refine ⟨hold, ?_⟩
  rw [← heq, List.set_getElem_self]

/-! ## Every move keeps it -/

variable {start : Memory} {s : State}

/-- What a writer plans with the tail that it has seen and the head as it is now. -/
theorem WriterSafe.begin {job : WriterJob} :
    WriterSafe h m (job.begin h m (job.plan? h (h.headCount m) (h.tailCount m))) := by
  cases hplan : job.plan? h (h.headCount m) (h.tailCount m) with
  | none => trivial
  | some t =>
    cases job with
    | copy data =>
      refine ⟨Halves.vacant_of_write? hplan, Transfer.len_le_of_write? hplan, ?_, ?_⟩
      · intro i hi
        exact List.mem_range.1 hi
      · intro i hi hput
        exact absurd (List.mem_range.2 hi) hput
    | chunk len => exact ⟨Halves.vacant_of_reserve? hplan, rfl⟩

/-- What a reader plans with the head that it has seen and the tail as it is now. -/
theorem ReaderSafe.begin {job : ReaderJob} :
    ReaderSafe h m (job.begin h m (job.plan? h (h.headCount m) (h.tailCount m))) := by
  cases hplan : job.plan? h (h.headCount m) (h.tailCount m) with
  | none => trivial
  | some t =>
    cases job with
    | copy room count =>
      refine ⟨Halves.waiting_of_read? hplan, List.length_replicate, ?_⟩
      intro i hi htaken
      exact absurd (List.mem_range.2 hi) htaken
    | chunk => exact ⟨Halves.waiting_of_view? hplan, rfl⟩
    | chunkOf len => exact ⟨Halves.waiting_of_viewOf? hplan, rfl⟩

/-- Publishing what the writer has put moves it from one end of the account to the other. -/
theorem Safe.publish (safe : Safe h start s) (hold : h.Vacant s.memory t) :
    Safe h start { s with
      memory := h.publish t s.memory
      writer := .idle
      published := s.published ++ h.contents t s.memory } where
  inOrder := (Halves.published_publish safe.inOrder hold).inOrder
  writer := trivial
  reader := safe.reader.published (Halves.published_publish safe.inOrder hold)
  conserved := by
    show s.released ++ h.unread (h.publish t s.memory) = _ ++ (s.published ++ _)
    rw [(Halves.published_publish safe.inOrder hold).unread_eq, ← List.append_assoc,
      safe.conserved, List.append_assoc]

theorem Safe.release (safe : Safe h start s) (hold : h.Waiting s.memory t) :
    Safe h start { s with
      memory := h.release t s.memory
      reader := .idle
      released := s.released ++ h.contents t s.memory } where
  inOrder := (Halves.released_release safe.inOrder hold).inOrder
  writer := safe.writer.released (Halves.released_release safe.inOrder hold)
  reader := trivial
  conserved := by
    show (s.released ++ _) ++ h.unread (h.release t s.memory) = _
    rw [List.append_assoc, ← (Halves.released_release safe.inOrder hold).unread_eq,
      safe.conserved]

/-- Putting a byte of what the writer holds. -/
theorem Safe.put (safe : Safe h start s) (hold : h.Vacant s.memory t) {i : Nat}
    (hi : i < t.len.toNat) (b : UInt8) {w : Writer}
    (hw : WriterSafe h (h.put t i b s.memory) w) :
    Safe h start { s with memory := h.put t i b s.memory, writer := w } where
  inOrder := safe.inOrder.put t i b
  writer := hw
  reader := safe.reader.put hold hi b
  conserved := by
    show s.released ++ h.unread (h.put t i b s.memory) = _
    rw [hold.unread_put hi]; exact safe.conserved

theorem Safe.writerStep (safe : Safe h start s) (move : WriterMove) :
    Safe h start (writerStep h s move) := by
  have hwriter := safe.writer
  unfold Interleaving.writerStep
  cases move with
  | start job =>
    cases hw : s.writer with
    | idle => exact ⟨safe.inOrder, rfl, safe.reader, safe.conserved⟩
    | _ => exact safe
  | plan =>
    cases hw : s.writer with
    | sawTail job tail =>
      -- nobody else stores the tail, so it is what it was when it was looked at
      rw [hw] at hwriter
      obtain rfl : tail = h.tailCount s.memory := hwriter
      exact ⟨safe.inOrder, .begin, safe.reader, safe.conserved⟩
    | _ => exact safe
  | put i =>
    cases hw : s.writer with
    | copying t data todo =>
      rw [hw] at hwriter
      show Safe h start (if i ∈ todo then _ else s)
      split
      · rename_i hmem
        exact safe.put hwriter.1 (hwriter.2.2.1 i hmem) _ (hwriter.put safe.inOrder hmem)
      · exact safe
    | _ => exact safe
  | touch i b =>
    cases hw : s.writer with
    | holding t held =>
      rw [hw] at hwriter
      obtain ⟨hold, hheld⟩ := hwriter
      show Safe h start (if i < t.len.toNat then _ else s)
      split
      · rename_i hi
        exact safe.put hold hi b ⟨hold, by rw [hold.contents_put safe.inOrder hi, hheld]⟩
      · exact safe
    | _ => exact safe
  | publish =>
    cases hw : s.writer with
    | copying t data todo =>
      rw [hw] at hwriter
      cases todo with
      | nil =>
        have hnext := safe.publish hwriter.1
        rw [hwriter.contents_eq] at hnext
        exact hnext
      | cons i todo => exact safe
    | holding t held =>
      rw [hw] at hwriter
      obtain ⟨hold, rfl⟩ := hwriter
      exact safe.publish hold
    | _ => exact safe
  | discard =>
    cases hw : s.writer with
    | holding t held => exact ⟨safe.inOrder, trivial, safe.reader, safe.conserved⟩
    | _ => exact safe

theorem Safe.readerStep (safe : Safe h start s) (move : ReaderMove) :
    Safe h start (readerStep h s move) := by
  have hreader := safe.reader
  unfold Interleaving.readerStep
  cases move with
  | start job =>
    cases hr : s.reader with
    | idle => exact ⟨safe.inOrder, safe.writer, rfl, safe.conserved⟩
    | _ => exact safe
  | plan =>
    cases hr : s.reader with
    | sawHead job head =>
      -- nobody else stores the head, so it is what it was when it was looked at
      rw [hr] at hreader
      obtain rfl : head = h.headCount s.memory := hreader
      exact ⟨safe.inOrder, safe.writer, .begin, safe.conserved⟩
    | _ => exact safe
  | take i =>
    cases hr : s.reader with
    | copying t got todo =>
      rw [hr] at hreader
      show Safe h start (if i ∈ todo then _ else s)
      split
      · exact ⟨safe.inOrder, safe.writer, hreader.take i, safe.conserved⟩
      · exact safe
    | _ => exact safe
  | look i =>
    cases hr : s.reader with
    | holding t shown =>
      rw [hr] at hreader
      show Safe h start (if i < t.len.toNat then _ else s)
      split
      · rename_i hi
        exact ⟨safe.inOrder, safe.writer, hreader.look hi, safe.conserved⟩
      · exact safe
    | _ => exact safe
  | release =>
    cases hr : s.reader with
    | copying t got todo =>
      rw [hr] at hreader
      cases todo with
      | nil =>
        have hnext := safe.release hreader.1
        rw [← hreader.got_eq] at hnext
        exact hnext
      | cons i todo => exact safe
    | holding t shown =>
      rw [hr] at hreader
      obtain ⟨hold, rfl⟩ := hreader
      exact safe.release hold
    | _ => exact safe
  | leave =>
    cases hr : s.reader with
    | holding t shown => exact ⟨safe.inOrder, safe.writer, trivial, safe.conserved⟩
    | _ => exact safe

theorem Safe.run (safe : Safe h start s) (moves : List Move) :
    Safe h start (run h s moves) := by
  -- any move of either side keeps the invariant, so the order in which they come does not matter
  induction moves generalizing s with
  | nil => exact safe
  | cons move rest ih =>
    refine ih ?_
    cases move with
    | writer move => exact safe.writerStep move
    | reader move => exact safe.readerStep move

/-- Two sides that have not begun. -/
theorem Safe.init (ok : h.InOrder m) : Safe h m { memory := m } where
  inOrder := ok
  writer := trivial
  reader := trivial
  conserved := (List.append_nil _).symm

/-! ## Without interruption

    Moves of one side alone, one transfer from beginning to end, come to the same as the call. -/

/-- All the moves of a write that takes `n` bytes. -/
def writeMoves (data : List UInt8) (n : Nat) : List Move :=
  .writer (.start (.copy data)) :: .writer .plan
    :: (List.range n).map (fun i => .writer (.put i)) ++ [.writer .publish]

/-- All the moves of a read that takes `n` bytes. -/
def readMoves (room : Nat) (count : Option UInt64) (n : Nat) : List Move :=
  .reader (.start (.copy room count)) :: .reader .plan
    :: (List.range n).map (fun i => .reader (.take i)) ++ [.reader .release]

/-- The moves by which a chunk is opened and filled, before it is published or given up. -/
def fillMoves (len : UInt64) (data : List UInt8) : List Move :=
  .writer (.start (.chunk len)) :: .writer .plan
    :: (List.range data.length).map fun i => .writer (.touch i (data.getD i 0))

/-- The moves by which a chunk of `n` bytes is opened and looked at, before it is released or given
    up. -/
def lookMoves (job : ReaderJob) (n : Nat) : List Move :=
  .reader (.start job) :: .reader .plan :: (List.range n).map fun i => .reader (.look i)

theorem run_append (s : State) (moves rest : List Move) :
    run h s (moves ++ rest) = run h (run h s moves) rest := List.foldl_append

theorem put_eq (t : Transfer) (data : List UInt8) (m : Memory) {i : Nat}
    (hi : i < t.places.length) (hdata : i < data.length) : h.put t i (data.getD i 0) m
      = { m with bytes := m.bytes.set (h.region.offset + t.places[i]) data[i] } := by
  have hplace : h.address t i = h.region.offset + t.places[i] := by
    rw [Halves.address, List.getD_eq_getElem?_getD, List.getElem?_eq_getElem hi]; rfl
  have hbyte : data.getD i 0 = data[i] := by
    rw [List.getD_eq_getElem?_getD, List.getElem?_eq_getElem hdata]; rfl
  rw [Halves.put, hplace, hbyte]

/-- Putting the bytes from the one numbered `i` on, in order. -/
theorem run_put (t : Transfer) (data : List UInt8) (hdata : t.places.length ≤ data.length)
    (n : Nat) {i : Nat} (hi : i + n = t.places.length) (s : State)
    (hw : s.writer = .copying t data (List.range' i n)) :
    run h s ((List.range' i n).map fun i => .writer (.put i))
      = { s with
          memory := { s.memory with
            bytes := s.memory.bytes.putAll h.region.offset (t.places.drop i) (data.drop i) }
          writer := .copying t data [] } := by
  -- what is put from `i` on is the first byte and then what is put from `i + 1` on, as in `putAll`
  induction n generalizing i s with
  | zero =>
    rw [List.drop_of_length_le (by omega)]
    rw [List.range'_zero] at hw
    rw [← hw]; rfl
  | succ n ih =>
    have hstep : step h s (.writer (.put i)) = { s with
        memory := { s.memory with
          bytes := s.memory.bytes.set (h.region.offset + t.places[i]) data[i] }
        writer := .copying t data (List.range' (i + 1) n) } := by
      simp only [step, Interleaving.writerStep, hw]
      rw [if_pos (by rw [List.range'_succ]; exact List.mem_cons_self), List.range'_succ,
        List.erase_cons_head, put_eq t data s.memory (by omega) (by omega)]
    rw [List.range'_succ, List.map_cons, run, List.foldl_cons, hstep]
    rw [List.drop_eq_getElem_cons (l := t.places) (by omega),
      List.drop_eq_getElem_cons (l := data) (by omega), Bytes.putAll]
    exact ih (by omega) _ rfl

/-- **A write without interruption is the write.** -/
theorem run_writeMoves (h : Halves) (data : List UInt8) (m : Memory) :
    run h { memory := m } (writeMoves data (h.write data m).1.toNat)
      = { memory := (h.write data m).2
          published := data.take (h.write data m).1.toNat } := by
  have hbegin : ∀ n, run h { memory := m } (writeMoves data n)
      = run h
          { memory := m
            writer := (WriterJob.copy data).begin h m
              (Transfer.write? h.geometry (h.headCount m) (h.tailCount m) data.length) }
          ((List.range n).map (fun i => .writer (.put i)) ++ [.writer .publish]) := fun n => rfl
  rw [hbegin]
  rcases Transfer.write?_cases h.geometry (h.headCount m) (h.tailCount m) data.length rfl with
    ⟨-, hnone⟩ | ⟨t, hsome, isRun⟩
  · simp only [Halves.write, hnone]
    rfl
  · have hlen := isRun.length_places
    have hdata := Transfer.len_le_of_write? hsome
    simp only [Halves.write, hsome]
    rw [run_append, List.range_eq_range', run_put t data (by omega) _ (by omega) _
      (by rw [WriterJob.begin, List.range_eq_range']), List.drop_zero, List.drop_zero,
      Halves.publish, Halves.fill, Bytes.scatter_eq_putAll]
    rfl

/-- Taking the bytes from the one numbered `i` on, in order. -/
theorem run_take (t : Transfer) (n : Nat) {i : Nat} (hi : i + n = t.places.length) (s : State)
    (hr : s.reader = .copying t ((h.contents t s.memory).take i ++ List.replicate n 0)
      (List.range' i n)) :
    run h s ((List.range' i n).map fun i => .reader (.take i))
      = { s with reader := .copying t (h.contents t s.memory) [] } := by
  have hlen : (h.contents t s.memory).length = t.places.length := by
    rw [Halves.contents_eq_map, List.length_map]
  induction n generalizing i s with
  | zero =>
    rw [List.range'_zero, List.replicate_zero, List.append_nil,
      List.take_of_length_le (by omega)] at hr
    rw [← hr]; rfl
  | succ n ih =>
    have hbyte := Halves.getElem?_contents (h := h) (m := s.memory) (t := t) (i := i) (by omega)
    have hstep : step h s (.reader (.take i)) = { s with
        reader := .copying t ((h.contents t s.memory).take (i + 1) ++ List.replicate n 0)
          (List.range' (i + 1) n) } := by
      simp only [step, Interleaving.readerStep, hr]
      rw [if_pos (by rw [List.range'_succ]; exact List.mem_cons_self), List.range'_succ,
        List.erase_cons_head, List.take_add_one, hbyte, List.replicate_succ,
        List.set_append_right _ _ (by rw [List.length_take]; omega), List.length_take,
        Nat.min_eq_left (by omega), Nat.sub_self, List.set_cons_zero, Option.toList_some,
        List.append_assoc, List.singleton_append]
    rw [List.range'_succ, List.map_cons, run, List.foldl_cons, hstep]
    exact ih (by omega) _ rfl hlen

/-- **A read without interruption is the read.** -/
theorem run_readMoves (h : Halves) (room : Nat) (count : Option UInt64) (m : Memory) :
    run h { memory := m } (readMoves room count (h.read room count m).1.length)
      = { memory := (h.read room count m).2, released := (h.read room count m).1 } := by
  have hbegin : ∀ n, run h { memory := m } (readMoves room count n)
      = run h
          { memory := m
            reader := (ReaderJob.copy room count).begin h m
              (Transfer.read? h.geometry (h.headCount m) (h.tailCount m) room count) }
          ((List.range n).map (fun i => .reader (.take i)) ++ [.reader .release]) := fun n => rfl
  rw [hbegin]
  rcases Transfer.read?_cases h.geometry (h.headCount m) (h.tailCount m) room count rfl with
    ⟨-, hnone⟩ | ⟨t, hsome, isRun⟩
  · simp only [Halves.read, hnone]
    rfl
  · have hlen := isRun.length_places
    simp only [Halves.read, hsome]
    rw [run_append, Halves.length_contents isRun, List.range_eq_range',
      run_take t _ (by omega) _ (by rw [ReaderJob.begin, List.range_eq_range']; rfl)]
    rfl

/-- Putting the bytes from the one numbered `i` on into a chunk, in order.  Those that it has no room
    for are not put. -/
theorem run_touch (t : Transfer) (data : List UInt8) (hlen : t.places.length = t.len.toNat)
    (n : Nat) {i : Nat} (hi : i + n = data.length) (s : State) {held : List UInt8}
    (hw : s.writer = .holding t held) :
    ∃ held', run h s ((List.range' i n).map fun i => .writer (.touch i (data.getD i 0)))
      = { s with
          memory := { s.memory with
            bytes := s.memory.bytes.putAll h.region.offset (t.places.drop i) (data.drop i) }
          writer := .holding t held' } := by
  induction n generalizing i s held with
  | zero =>
    refine ⟨held, ?_⟩
    rw [List.drop_of_length_le (l := data) (by omega), Bytes.putAll_nil, ← hw]; rfl
  | succ n ih =>
    rw [List.range'_succ, List.map_cons, run, List.foldl_cons]
    rcases Nat.lt_or_ge i t.places.length with hlt | hge
    · have hstep : step h s (.writer (.touch i (data.getD i 0))) = { s with
          memory := { s.memory with
            bytes := s.memory.bytes.set (h.region.offset + t.places[i]) data[i] }
          writer := .holding t (held.set i (data.getD i 0)) } := by
        simp only [step, Interleaving.writerStep, hw]
        rw [if_pos (by omega), put_eq t data s.memory hlt (by omega)]
      rw [hstep, List.drop_eq_getElem_cons hlt,
        List.drop_eq_getElem_cons (l := data) (by omega), Bytes.putAll]
      exact ih (by omega) _ rfl
    · have hstep : step h s (.writer (.touch i (data.getD i 0))) = s := by
        simp only [step, Interleaving.writerStep, hw]
        rw [if_neg (by omega)]
      obtain ⟨held', hrun⟩ := ih (i := i + 1) (by omega) s hw
      rw [hstep, List.drop_of_length_le hge]
      rw [List.drop_of_length_le (l := t.places) (by omega)] at hrun
      exact ⟨held', hrun⟩

/-- **A chunk that is filled without interruption is filled**, and its owner knows what it holds. -/
theorem run_fillMoves (ok : h.InOrder m) {len : UInt64} (hplan : h.reserve? len m = some t)
    (data : List UInt8) : run h { memory := m } (fillMoves len data)
      = { memory := h.fill t data m
          writer := .holding t (h.contents t (h.fill t data m)) } := by
  have hold := Halves.vacant_of_reserve? hplan
  have hfill : h.fill t data m
      = { m with bytes := m.bytes.putAll h.region.offset t.places data } := by
    rw [Halves.fill, Bytes.scatter_eq_putAll]; rfl
  obtain ⟨held, htouch⟩ := run_touch t data hold.length_places data.length (Nat.zero_add _)
    { memory := m, writer := .holding t (h.contents t m) } rfl
  have hrun : run h { memory := m } (fillMoves len data)
      = { memory := h.fill t data m, writer := .holding t held } := by
    rw [List.drop_zero, List.drop_zero, ← List.range_eq_range'] at htouch
    show run h { memory := m, writer := (WriterJob.chunk len).begin h m (h.reserve? len m) } _ = _
    rw [hplan, hfill]
    exact htouch
  -- what the owner knows is what the invariant says of an open chunk
  have safe := (Safe.init ok).run (fillMoves len data)
  rw [hrun] at safe ⊢
  obtain ⟨-, hheld⟩ := safe.writer
  rw [hheld]

/-- Looking at the bytes of a chunk from the one numbered `i` on shows what it has shown. -/
theorem run_look (t : Transfer) (hlen : t.places.length = t.len.toNat) (n : Nat) {i : Nat}
    (hi : i + n = t.len.toNat) (s : State)
    (hr : s.reader = .holding t (h.contents t s.memory)) :
    run h s ((List.range' i n).map fun i => .reader (.look i)) = s := by
  induction n generalizing i with
  | zero => rfl
  | succ n ih =>
    have hbyte := Halves.getElem?_contents (h := h) (m := s.memory) (t := t) (i := i) (by omega)
    obtain ⟨hlt, heq⟩ := List.getElem?_eq_some_iff.1 hbyte
    have hstep : step h s (.reader (.look i)) = s := by
      simp only [step, Interleaving.readerStep, hr]
      rw [if_pos (by omega), ← heq, List.set_getElem_self, ← hr]
    rw [List.range'_succ, List.map_cons, run, List.foldl_cons, hstep]
    exact ih (by omega)

/-- A chunk that is looked at without interruption shows what lies there. -/
theorem run_lookMoves {job : ReaderJob} (hold : h.Waiting m t)
    (hbegin : job.begin h m (job.plan? h (h.headCount m) (h.tailCount m))
      = .holding t (h.contents t m)) :
    run h { memory := m } (lookMoves job t.len.toNat)
      = { memory := m, reader := .holding t (h.contents t m) } := by
  show run h
    { memory := m, reader := job.begin h m (job.plan? h (h.headCount m) (h.tailCount m)) } _ = _
  rw [hbegin, List.range_eq_range']
  exact run_look t hold.length_places _ (Nat.zero_add _) _ rfl

/-- The moves of one side alone, from the first to the last of a transfer, come to the same as the
    call. -/
structure LikeCalls (h : Halves) (m : Memory) : Prop where
  write : ∀ data, run h { memory := m } (writeMoves data (h.write data m).1.toNat)
    = { memory := (h.write data m).2, published := data.take (h.write data m).1.toNat }
  read : ∀ room count, run h { memory := m } (readMoves room count (h.read room count m).1.length)
    = { memory := (h.read room count m).2, released := (h.read room count m).1 }
  publish : ∀ len t data, h.reserve? len m = some t →
    run h { memory := m } (fillMoves len data ++ [.writer .publish])
      = { memory := h.publish t (h.fill t data m)
          published := h.contents t (h.fill t data m) }
  discard : ∀ len t data, h.reserve? len m = some t →
    run h { memory := m } (fillMoves len data ++ [.writer .discard])
      = { memory := h.fill t data m }
  release : ∀ t, h.view? m = some t →
    run h { memory := m } (lookMoves .chunk t.len.toNat ++ [.reader .release])
      = { memory := h.release t m, released := h.contents t m }
  releaseOf : ∀ len t, h.viewOf? len m = some t →
    run h { memory := m } (lookMoves (.chunkOf len) t.len.toNat ++ [.reader .release])
      = { memory := h.release t m, released := h.contents t m }
  leave : ∀ t, h.view? m = some t →
    run h { memory := m } (lookMoves .chunk t.len.toNat ++ [.reader .leave]) = { memory := m }

theorem likeCalls (ok : h.InOrder m) : LikeCalls h m where
  write data := run_writeMoves h data m
  read room count := run_readMoves h room count m
  publish len t data hplan := by
    rw [run_append, run_fillMoves ok hplan]
    rfl
  discard len t data hplan := by
    rw [run_append, run_fillMoves ok hplan]
    rfl
  release t hplan := by
    rw [run_append, run_lookMoves (Halves.waiting_of_view? hplan)
      (congrArg (ReaderJob.chunk.begin h m) hplan)]
    rfl
  releaseOf len t hplan := by
    rw [run_append, run_lookMoves (Halves.waiting_of_viewOf? hplan)
      (congrArg ((ReaderJob.chunkOf len).begin h m) hplan)]
    rfl
  leave t hplan := by
    rw [run_append, run_lookMoves (Halves.waiting_of_view? hplan)
      (congrArg (ReaderJob.chunk.begin h m) hplan)]
    rfl

/-! ## What no order of moves can break -/

/-- What the writer may still put is apart from what waits. -/
theorem Safe.writer_apart (safe : Safe h start s) {p : Nat} (hp : p ∈ s.writer.places) :
    p ∉ h.unreadPlaces s.memory := by
  have hwriter := safe.writer
  cases hw : s.writer with
  | idle => rw [hw] at hp; exact absurd hp List.not_mem_nil
  | sawTail job tail => rw [hw] at hp; exact absurd hp List.not_mem_nil
  | copying t data todo =>
    rw [hw] at hp hwriter
    exact hwriter.1.notMem_unreadPlaces hp
  | holding t held =>
    rw [hw] at hp hwriter
    exact hwriter.1.notMem_unreadPlaces hp

/-- What the reader may still take waits. -/
theorem Safe.reader_within (safe : Safe h start s) {p : Nat} (hp : p ∈ s.reader.places) :
    p ∈ h.unreadPlaces s.memory := by
  have hreader := safe.reader
  cases hr : s.reader with
  | idle => rw [hr] at hp; exact absurd hp List.not_mem_nil
  | sawHead job head => rw [hr] at hp; exact absurd hp List.not_mem_nil
  | copying t got todo =>
    rw [hr] at hp hreader
    exact hreader.1.mem_unreadPlaces hp
  | holding t shown =>
    rw [hr] at hp hreader
    exact hreader.1.mem_unreadPlaces hp

/-- **One writer and one reader are safe in every order of their moves.**  Take any ring that can be
    split, its counters two different cells that hold anything a ring may be in.  After any moves:
    at most a ring less one unit waits; what the writer may still put is apart from all that waits
    and from all that the reader may still take; what the reader may still take waits; and what was
    released, followed by what waits, is what waited at first, followed by what was published.  From
    there on one side alone comes to what the calls come to. -/
theorem interleaved_transfers_safe {r : Ring} {h : Halves} (split : r.halves = .ok h)
    {m : Memory} (lent : h.region.offset + h.region.len ≤ m.bytes.size) (cells : h.head ≠ h.tail)
    (start : (h.tailCount m - h.headCount m).toNat ≤ h.geometry.capacity.toNat - 1)
    (moves : List Move) :
    let s := run h { memory := m } moves
    (h.tailCount s.memory - h.headCount s.memory).toNat ≤ h.geometry.capacity.toNat - 1
      ∧ (∀ p ∈ s.writer.places, p ∉ h.unreadPlaces s.memory ∧ p ∉ s.reader.places)
      ∧ (∀ p ∈ s.reader.places, p ∈ h.unreadPlaces s.memory)
      ∧ s.released ++ h.unread s.memory = h.unread m ++ s.published
      ∧ LikeCalls h s.memory := by
  intro s
  have ok : h.InOrder m := ⟨Halves.ring_le_region_of_split split, lent, cells, start⟩
  have safe : Safe h m s := (Safe.init ok).run moves
  refine ⟨safe.inOrder.occupied_le, ?_, fun p hp => safe.reader_within hp, safe.conserved,
    likeCalls safe.inOrder⟩
  intro p hp
  exact ⟨safe.writer_apart hp, fun hread => safe.writer_apart hp (safe.reader_within hread)⟩

/-- The small ring: a write that passes both the end of the ring and the end of its counter, and a
    reader that plans while the bytes are half put and releases after they are published. -/
theorem interleaved_transfers_safe_small :
    let moves : List Move :=
      [.writer (.start (.copy [20, 21, 22, 23, 24, 25, 26])), .reader (.start .chunk),
        .writer .plan, .writer (.put 5), .writer (.put 0), .reader .plan, .writer (.put 1),
        .writer (.put 4), .writer (.put 2), .writer (.put 3), .writer .publish, .reader (.look 1),
        .reader .release,
        .writer (.start (.chunk 3)), .reader (.start (.copy 4 none)), .reader .plan,
        .writer .plan, .reader (.take 1), .writer (.touch 2 0xEE), .reader (.take 0)]
    let s := run Halves.small { memory := Memory.small } moves
    (Halves.small.tailCount s.memory - Halves.small.headCount s.memory).toNat
        ≤ Halves.small.geometry.capacity.toNat - 1
      ∧ (∀ p ∈ s.writer.places,
          p ∉ Halves.small.unreadPlaces s.memory ∧ p ∉ s.reader.places)
      ∧ (∀ p ∈ s.reader.places, p ∈ Halves.small.unreadPlaces s.memory)
      ∧ s.published = [20, 21, 22, 23, 24, 25] ∧ s.released = [7, 8, 9]
      ∧ Halves.small.unread s.memory = [20, 21, 22, 23, 24, 25]
      ∧ LikeCalls Halves.small s.memory := by
  intro moves s
  have hpublished : s.published = [20, 21, 22, 23, 24, 25] := by decide
  have hreleased : s.released = [7, 8, 9] := by decide
  have hunread : Halves.small.unread Memory.small = [7, 8, 9] := by decide
  clear_value moves
  obtain ⟨hcount, hwriter, hreader, hconserved, calls⟩ :=
    interleaved_transfers_safe (r := Ring.small) (h := Halves.small) rfl (m := Memory.small)
      (by decide) (by decide) (by decide) moves
  refine ⟨hcount, hwriter, hreader, hpublished, hreleased, ?_, calls⟩
  change s.released ++ Halves.small.unread s.memory
    = Halves.small.unread Memory.small ++ s.published at hconserved
  rw [hreleased, hpublished, hunread] at hconserved
  exact List.append_cancel_left hconserved

end Interleaving

end SharedRing
