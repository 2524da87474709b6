/-
  What a half was told it may move stays there for it to move.

  The counts are only advice: while a half looks at them the other half goes on.  But the other half
  moves its own counter alone, and only towards more.  The reader frees units and touches neither the
  tail nor a byte (`Freed`), so what was free to the writer stays free, and a reservation that was
  possible is still possible in the same place.  The writer puts bytes behind those that wait and
  moves no head (`Extended`), so that what waited is still the beginning of what waits, and is what
  a reader gets.

  None of this needs a ring in order.  The one thing that does is to read in one call all that was
  announced: a tail more than a ring ahead announces more than a ring holds.
-/
import SharedRing.Proofs.Turns

namespace SharedRing

/-! ## More room, and more to read -/

/-- What could be had exactly can be had of more as well, and in the same place. -/
theorem Transfer.exactly?_of_le {g : Geometry} {u : UInt32} {available more len : UInt64}
    {t : Transfer} (hle : available.toNat ≤ more.toNat)
    (hplan : exactly? g u available len = some t) : exactly? g u more len = some t := by
  rw [exactly?_eq, Option.ite_none_right_eq_some] at hplan ⊢
  obtain ⟨⟨hwhole, hthere⟩, hsome⟩ := hplan
  exact ⟨⟨hwhole, by omega⟩, hsome⟩

namespace Halves

variable {h : Halves} {m m' m'' : Memory} {t : Transfer}

/-- The reader has gone on: the writer finds its own counter and all bytes as they were, and no more
    units waiting. -/
structure Freed (h : Halves) (m m' : Memory) : Prop where
  tail_eq : h.tailCount m' = h.tailCount m
  bytes_eq : m'.bytes = m.bytes
  occupied_le : h.occupied m' ≤ h.occupied m

/-- The writer has gone on: the reader finds its own counter as it was, and what waited is the
    beginning of what waits. -/
structure Extended (h : Halves) (m m' : Memory) : Prop where
  head_eq : h.headCount m' = h.headCount m
  unread_prefix : h.unread m <+: h.unread m'

namespace Freed

theorem refl (h : Halves) (m : Memory) : h.Freed m m := ⟨rfl, rfl, Nat.le_refl _⟩

theorem trans (first : h.Freed m m') (rest : h.Freed m' m'') : h.Freed m m'' :=
  ⟨rest.tail_eq.trans first.tail_eq, rest.bytes_eq.trans first.bytes_eq,
    Nat.le_trans rest.occupied_le first.occupied_le⟩

theorem dequeue (hne : h.head ≠ h.tail) {k : Nat} (hk : k ≤ h.occupied m) :
    h.Freed m (h.dequeue (k * h.geometry.unitSize.toNat) m) :=
  ⟨tailCount_dequeue hne _ m, h.bytes_dequeue _ m, by rw [occupied_dequeue hne hk]; omega⟩

theorem read (hne : h.head ≠ h.tail) (room : Nat) (count : Option UInt64) :
    h.Freed m (h.read room count m).2 := by
  have hunits := Transfer.readUnits_le h.geometry (h.occupied m) room count
  rw [h.read_eq room count m rfl]
  exact dequeue hne (by omega)

theorem release (hne : h.head ≠ h.tail) (hold : h.Waiting m t) : h.Freed m (h.release t m) := by
  obtain ⟨k, run, hk⟩ := hold
  rw [release_eq run, run.len_eq]
  exact dequeue hne hk

theorem free_le (freed : h.Freed m m') : (h.free m).toNat ≤ (h.free m').toNat := by
  have hle := freed.occupied_le
  rw [toNat_free, toNat_free]
  exact Nat.mul_le_mul_right _ (by omega)

theorem reserve? (freed : h.Freed m m') {len : UInt64} (hplan : h.reserve? len m = some t) :
    h.reserve? len m' = some t := by
  have hle := freed.free_le
  unfold Halves.reserve? Transfer.reserve? at hplan ⊢
  rw [freed.tail_eq]
  unfold Halves.free at hle
  rw [freed.tail_eq] at hle
  exact Transfer.exactly?_of_le hle hplan

end Freed

namespace Extended

theorem refl (h : Halves) (m : Memory) : h.Extended m m := ⟨rfl, List.prefix_rfl⟩

theorem trans (first : h.Extended m m') (rest : h.Extended m' m'') : h.Extended m m'' :=
  ⟨rest.head_eq.trans first.head_eq, first.unread_prefix.trans rest.unread_prefix⟩

theorem write (hne : h.head ≠ h.tail) (data : List UInt8) :
    h.Extended m (h.write data m).2 := by
  rw [(h.write_eq data m rfl).2]
  exact ⟨headCount_enqueue hne _ m,
    unread_enqueue hne (h.length_take_writeUnits data m) (Nat.min_le_right _ _)⟩

theorem fill (hold : h.Vacant m t) (data : List UInt8) : h.Extended m (h.fill t data m) :=
  ⟨rfl, by rw [hold.unread_fill data]⟩

theorem publish (lent : h.Lent m) (hold : h.Vacant m t) : h.Extended m (h.publish t m) := by
  have published := published_publish (lent.inOrder hold) hold
  exact ⟨published.head_eq, by rw [published.unread_eq]; exact List.prefix_append _ _⟩

theorem pending_le (extended : h.Extended m m') :
    (h.pending m).toNat ≤ (h.pending m').toNat := by
  rw [toNat_pending, toNat_pending]
  exact extended.unread_prefix.length_le

theorem viewOf? (extended : h.Extended m m') {len : UInt64} (hplan : h.viewOf? len m = some t) :
    h.viewOf? len m' = some t := by
  have hle := extended.pending_le
  unfold Halves.viewOf? Transfer.viewOf? at hplan ⊢
  rw [extended.head_eq]
  unfold Halves.pending at hle
  rw [extended.head_eq] at hle
  exact Transfer.exactly?_of_le hle hplan

/-- A plan over what waited covers the same bytes. -/
theorem contents_eq (extended : h.Extended m m') (hold : h.Waiting m t) (hold' : h.Waiting m' t) :
    h.contents t m' = h.contents t m := by
  obtain ⟨more, hmore⟩ := extended.unread_prefix
  rw [hold.contents_eq, hold'.contents_eq, ← hmore, List.take_append_of_le_length hold.len_le]

end Extended

/-! ## What a half then gets -/

/-- Whole units that are free are written whole. -/
theorem write_of_whole {data : List UInt8} (whole : h.geometry.unitSize.toNat ∣ data.length)
    (hfree : data.length ≤ (h.free m).toNat) :
    (h.write data m).1 = UInt64.ofNat data.length := by
  rw [write_of_le_free hfree, Geometry.length_whole, Nat.div_mul_cancel whole]

/-- All that waited is read, also if more waits behind it by now. -/
theorem Extended.read_pending (extended : h.Extended m m')
    (fits : h.occupied m ≤ h.geometry.capacity.toNat) (hpos : 0 < (h.pending m).toNat) {room : Nat}
    (hroom : (h.pending m).toNat ≤ room) :
    (h.read room (some (h.pending m)) m').1 = h.unread m := by
  have hasked : h.geometry.asked (h.pending m) = (h.unread m).length := by
    rw [Geometry.asked, Geometry.askedUnits, toNat_pending, length_unread_div, Nat.min_eq_left fits,
      length_unread]
  rw [read_of_le_pending hpos hroom extended.pending_le, hasked]
  exact (List.prefix_iff_eq_take.1 extended.unread_prefix).symm

end Halves

/-! ## What the calls of the other half do -/

namespace Session

variable {s : Session} {m : Memory} {c : Call}

namespace Isolated

/-- A call of the reader. -/
theorem freed (inv : Isolated s m) (hc : c.party = .reader) :
    s.halves.Freed m (s.step c m).2.2 := by
  have hne := inv.lent.head_ne_tail
  have effect := s.readerEffect m hc
  generalize (s.step c m).2.2 = m' at effect ⊢
  cases effect with
  | nothing => exact .refl _ _
  | read room count => exact .read hne room count
  | release ht => exact .release hne (inv.reading _ ht)
  | signal _ value => exact ⟨rfl, rfl, Nat.le_refl _⟩

/-- A call of the writer. -/
theorem extended (inv : Isolated s m) (hc : c.party = .writer) :
    s.halves.Extended m (s.step c m).2.2 := by
  have effect := s.writerEffect m hc
  generalize (s.step c m).2.2 = m' at effect ⊢
  cases effect with
  | nothing => exact .refl _ _
  | write data => exact .write inv.lent.head_ne_tail data
  | fill ht data => exact .fill (inv.writing _ ht) data
  | publish ht => exact .publish inv.lent (inv.writing _ ht)

/-- Any calls of the reader.  The writer, which makes none, is where it was. -/
theorem freed_run (inv : Isolated s m) (steps : List Call) (own : ∀ c ∈ steps, c.party = .reader) :
    s.halves.Freed m (s.run steps m).2.2
      ∧ (s.run steps m).2.1.writing = s.writing := by
  induction steps generalizing s m with
  | nil => exact ⟨.refl _ _, rfl⟩
  | cons c rest ih =>
    have hc := own c List.mem_cons_self
    obtain ⟨hrest, hwriting⟩ := ih (inv.reader hc) fun c' hc' => own c' (List.mem_cons_of_mem c hc')
    rw [halves_step] at hrest
    exact ⟨(inv.freed hc).trans hrest, hwriting.trans (writing_step hc)⟩

/-- Any calls of the writer. -/
theorem extended_run (inv : Isolated s m) (steps : List Call)
    (own : ∀ c ∈ steps, c.party = .writer) :
    s.halves.Extended m (s.run steps m).2.2
      ∧ (s.run steps m).2.1.reading = s.reading := by
  induction steps generalizing s m with
  | nil => exact ⟨.refl _ _, rfl⟩
  | cons c rest ih =>
    have hc := own c List.mem_cons_self
    obtain ⟨hrest, hreading⟩ := ih (inv.writer hc) fun c' hc' => own c' (List.mem_cons_of_mem c hc')
    rw [halves_step] at hrest
    exact ⟨(inv.extended hc).trans hrest, hreading.trans (reading_step hc)⟩

end Isolated

/-! ## The counts are promises -/

/-- What the writer was told is free, and what it could reserve, it has after these calls too. -/
structure FreeKept (s : Session) (m : Memory) (steps : List Call) : Prop where
  free : (s.halves.free m).toNat ≤ (s.halves.free (s.run steps m).2.2).toNat
  /-- whole units of no more than was announced are taken whole -/
  write : ∀ data : List UInt8, s.halves.geometry.unitSize.toNat ∣ data.length →
    data.length ≤ (s.halves.free m).toNat →
      ((s.run steps m).2.1.step (.write data) (s.run steps m).2.2).1
        = .moved (UInt64.ofNat data.length)
  /-- what could be reserved can be reserved, as the same chunk over the same bytes -/
  reserve : ∀ len shown, (s.step (.reserve len) m).1 = .chunk (some shown) →
    ((s.run steps m).2.1.step (.reserve len) (s.run steps m).2.2).1 = .chunk (some shown)
      ∧ ((s.run steps m).2.1.step (.reserve len) (s.run steps m).2.2).2.1.writing
        = (s.step (.reserve len) m).2.1.writing

/-- What the reader was told waits, and what it could view, it has after these calls too. -/
structure PendingKept (s : Session) (m : Memory) (steps : List Call) : Prop where
  pending : (s.halves.pending m).toNat ≤ (s.halves.pending (s.run steps m).2.2).toNat
  /-- a read of all that was announced gets just that, and the bytes that it would have got -/
  read : s.halves.occupied m ≤ s.halves.geometry.capacity.toNat → 0 < (s.halves.pending m).toNat →
    ∀ buffer : List UInt8, (s.halves.pending m).toNat ≤ buffer.length → ∃ got : List UInt8,
      got.length = (s.halves.pending m).toNat
        ∧ (s.step (.read buffer (some (s.halves.pending m))) m).1 = receipt got buffer
        ∧ ((s.run steps m).2.1.step (.read buffer (some (s.halves.pending m)))
            (s.run steps m).2.2).1 = receipt got buffer
  /-- what could be viewed can be viewed, and it shows the same bytes -/
  viewOf : ∀ len shown, (s.step (.viewOf len) m).1 = .chunk (some shown) →
    ((s.run steps m).2.1.step (.viewOf len) (s.run steps m).2.2).1 = .chunk (some shown)

theorem Isolated.freeKept (inv : Isolated s m) (idle : s.writing = none) (steps : List Call)
    (own : ∀ c ∈ steps, c.party = .reader) : FreeKept s m steps := by
  obtain ⟨freed, hwriting⟩ := inv.freed_run steps own
  have hidle := hwriting.trans idle
  have hhalves := halves_run s steps m
  refine { free := freed.free_le, write := ?_, reserve := ?_ }
  · intro data whole hfree
    rw [step_write hidle, hhalves, Halves.write_of_whole whole (Nat.le_trans hfree freed.free_le)]
  · intro len shown hshown
    rw [step_reserve idle] at hshown ⊢
    obtain ⟨t, hplan, rfl⟩ := openWriting_eq_iff.1 hshown
    rw [step_reserve hidle, hhalves, freed.reserve? hplan, hplan]
    refine ⟨openWriting_eq_iff.2 ⟨t, rfl, ?_⟩, rfl⟩
    rw [hhalves, Halves.contents, Halves.contents, freed.bytes_eq]

theorem Isolated.pendingKept (inv : Isolated s m) (idle : s.reading = none) (steps : List Call)
    (own : ∀ c ∈ steps, c.party = .writer) : PendingKept s m steps := by
  obtain ⟨extended, hreading⟩ := inv.extended_run steps own
  have hidle := hreading.trans idle
  have hhalves := halves_run s steps m
  refine { pending := extended.pending_le, read := ?_, viewOf := ?_ }
  · intro fits hpos buffer hroom
    refine ⟨s.halves.unread m, (s.halves.toNat_pending m).symm, ?_, ?_⟩
    · rw [step_read idle, (Halves.Extended.refl s.halves m).read_pending fits hpos hroom]
      rfl
    · rw [step_read hidle, hhalves, extended.read_pending fits hpos hroom]
      rfl
  · intro len shown hshown
    rw [step_viewOf idle] at hshown
    obtain ⟨t, hplan, rfl⟩ := openReading_eq_iff.1 hshown
    have hplan' := extended.viewOf? hplan
    rw [step_viewOf hidle, hhalves, hplan']
    refine openReading_eq_iff.2 ⟨t, rfl, ?_⟩
    rw [hhalves, extended.contents_eq (Halves.waiting_of_viewOf? hplan)
      (Halves.waiting_of_viewOf? hplan')]

/-- **The counts are promises.**  Take any ring that can be split, its region anywhere in memory, its
    counters two different cells that hold anything at all, and any calls of the two halves.  What a
    half is then told it may move it may still move after any calls of the other half. -/
theorem counts_are_promises {r : Ring} {h : Halves} (split : r.halves = .ok h) {m : Memory}
    (lent : h.region.offset + h.region.len ≤ m.bytes.size) (cells : h.head ≠ h.tail)
    (calls : List Call) (own : ∀ c ∈ calls, c.isForeignStore = false) :
    let s := (Session.run { halves := h } calls m).2.1
    let m₁ := (Session.run { halves := h } calls m).2.2
    (s.writing = none → ∀ steps : List Call, (∀ c ∈ steps, c.party = .reader) →
        FreeKept s m₁ steps)
      ∧ (s.reading = none → ∀ steps : List Call, (∀ c ∈ steps, c.party = .writer) →
        PendingKept s m₁ steps) := by
  have inv := (Isolated.of_split split lent cells).run calls own
  exact ⟨inv.freeKept, inv.pendingKept⟩

/-- The small ring.  The unit that waits is viewed and released, and what was free is still written;
    the ring is filled up, and what waited is still read. -/
theorem counts_are_promises_small :
    let s : Session := { halves := Halves.small }
    let readerSteps : List Call := [.view, .release, .read [0, 0, 0] none]
    let writerSteps : List Call := [.write [1, 2, 3], .reserve 3, .fill [4, 5], .publish]
    (FreeKept s Memory.small readerSteps
        ∧ ((s.run readerSteps Memory.small).2.1.step (.write [1, 2, 3, 4, 5, 6])
            (s.run readerSteps Memory.small).2.2).1 = .moved 6)
      ∧ PendingKept s Memory.small writerSteps
        ∧ ((s.run writerSteps Memory.small).2.1.step (.viewOf 3)
            (s.run writerSteps Memory.small).2.2).1 = .chunk (some [7, 8, 9]) := by
  intro s readerSteps writerSteps
  obtain ⟨free, pending⟩ := counts_are_promises (r := Ring.small) (h := Halves.small) rfl
    (m := Memory.small) (by decide) (by decide) [] (by decide)
  have kept : FreeKept s Memory.small readerSteps := free rfl readerSteps (by decide)
  have kept' : PendingKept s Memory.small writerSteps := pending rfl writerSteps (by decide)
  exact ⟨⟨kept, kept.write [1, 2, 3, 4, 5, 6] (by decide) (by decide)⟩,
    kept', kept'.viewOf 3 [7, 8, 9] (by decide)⟩

end Session

end SharedRing
