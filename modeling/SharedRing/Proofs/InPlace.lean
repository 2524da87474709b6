/-
  Copying and working in place are the same.

  A write cuts what it is offered down to what fits and copies across the end of the ring; a
  reservation is refused unless all of it fits before that end.  A read goes by what its buffer
  holds; a view stops at the end of the ring.  The two forms share no arithmetic on lengths, and yet
  either can stand for the other.

  A write is one reservation that is filled and published, or two if it passes the end of the ring:
  the first up to that end, the second from the beginning on (`writes_are_in_place`).  A read of all
  there is consists of one view that is released, or two (`reads_are_views`).  Both come down to one
  remark.  From the end of the ring on a whole ring lies ahead (`exists_units_toEnd`), so what is
  left behind the first piece never reaches the end again.
-/
import SharedRing.Proofs.Footprint

namespace SharedRing

/-! ## The end of the ring -/

namespace Geometry

variable (g : Geometry) (u : UInt32)

/-- **From the end of the ring on a whole ring lies ahead.**  It is some units to there, and the
    unit behind the last one of the ring is the first. -/
theorem exists_units_toEnd : ∃ a, 0 < a ∧ (g.toEnd u).toNat = a * g.unitSize.toNat
    ∧ (g.toEnd (u + UInt32.ofNat a)).toNat = g.size.toNat := by
  have hplace := g.place_lt u 0
  have hend := g.toNat_toEnd u
  obtain ⟨a, ha⟩ := g.unitSize_dvd_toEnd u
  rw [Nat.mul_comm] at ha
  have hpos : 0 < a * g.unitSize.toNat := by omega
  refine ⟨a, Nat.pos_of_mul_pos_right hpos, ha, ?_⟩
  rw [toNat_toEnd, place_add_ofNat, Nat.add_zero, ← ha, place_eq_mod, hend,
    Nat.add_sub_cancel' (Nat.le_of_lt hplace), Nat.mod_self, Nat.sub_zero]

end Geometry

/-! ## Writing -/

namespace Halves

variable {h : Halves} {m : Memory} {bytes : List UInt8} {k : Nat}

/-- Whole units that are free before the end of the ring can be put there in place. -/
theorem reserve_of_fits (hlen : bytes.length = k * h.geometry.unitSize.toNat) (hpos : 0 < k)
    (hfree : k ≤ h.geometry.capacity.toNat - 1 - h.occupied m)
    (hend : bytes.length ≤ (h.geometry.toEnd (h.tailCount m)).toNat) :
    ∃ t, h.reserve? (UInt64.ofNat bytes.length) m = some t
      ∧ h.publish t (h.fill t bytes m) = h.enqueue bytes m := by
  have hs := h.geometry.unitSize_pos
  have hword : (UInt64.ofNat bytes.length).toNat = bytes.length := by
    rw [UInt64.toNat_ofNat']
    exact Nat.mod_eq_of_lt (Nat.lt_of_le_of_lt hend (UInt64.toNat_lt _))
  have hsome : (h.reserve? (UInt64.ofNat bytes.length) m).isSome := by
    rw [isSome_reserve?, hword]
    refine ⟨⟨?_, ?_⟩, Nat.le_min.2 ⟨?_, ?_⟩⟩
    · rw [hlen]
      exact Nat.mul_pos hpos hs
    · rw [hlen]
      exact Nat.dvd_mul_left _ _
    · rw [hlen]
      exact Nat.mul_le_mul_right _ hfree
    · rw [← Geometry.toNat_toEnd]
      exact hend
  obtain ⟨t, hplan⟩ := Option.isSome_iff_exists.1 hsome
  obtain ⟨hsame, run, -⟩ := Transfer.isRun_of_exactly? hplan
  exact ⟨t, hplan, publish_fill run (by rw [hsame, hword])⟩

/-- What is reserved is what a write would take whole, before the end of the ring. -/
theorem isSome_reserve?_iff_write (h : Halves) (len : UInt64) (m : Memory) :
    (h.reserve? len m).isSome ↔ 0 < len.toNat ∧ h.geometry.unitSize.toNat ∣ len.toNat
      ∧ (∀ data : List UInt8, data.length = len.toNat → (h.write data m).1 = len)
      ∧ len.toNat ≤ (h.geometry.toEnd (h.tailCount m)).toNat := by
  have hs := h.geometry.unitSize_pos
  rw [isSome_reserve?, ← Geometry.toNat_toEnd, Nat.le_min]
  constructor
  · rintro ⟨⟨hpos, whole⟩, hfree, hend⟩
    refine ⟨hpos, whole, ?_, hend⟩
    intro data hdata
    have hunits : len.toNat / h.geometry.unitSize.toNat
        ≤ h.geometry.capacity.toNat - 1 - h.occupied m :=
      Nat.div_le_of_le_mul (by rw [Nat.mul_comm]; exact hfree)
    rw [← UInt64.toNat_inj, (h.write_eq data m rfl).1, Transfer.writeUnits, hdata,
      Nat.min_eq_left hunits, Nat.div_mul_cancel whole]
  · rintro ⟨hpos, whole, hwrite, hend⟩
    refine ⟨⟨hpos, whole⟩, ?_, hend⟩
    -- some data of that length is written whole, so there is room for it
    have hdata := hwrite (List.replicate len.toNat 0) List.length_replicate
    rw [← UInt64.toNat_inj, (h.write_eq _ m rfl).1] at hdata
    rw [← hdata]
    exact Nat.mul_le_mul_right _ (Nat.min_le_right _ _)

end Halves

namespace Session

variable {s : Session} {m m' : Memory} {t : Transfer} {bytes : List UInt8} {k : Nat}

/-- These bytes can be reserved, filled in and published, and that leaves the memory `m'`. -/
def PutInPlace (s : Session) (m : Memory) (bytes : List UInt8) (m' : Memory) : Prop :=
  ∃ shown, s.run (inPlace (UInt64.ofNat bytes.length) bytes) m
    = ([.chunk (some shown), .done, .moved (UInt64.ofNat bytes.length)], s, m')

theorem putInPlace_of_fits (idle : s.writing = none)
    (hlen : bytes.length = k * s.halves.geometry.unitSize.toNat) (hpos : 0 < k)
    (hfree : k ≤ s.halves.geometry.capacity.toNat - 1 - s.halves.occupied m)
    (hend : bytes.length ≤ (s.halves.geometry.toEnd (s.halves.tailCount m)).toNat) :
    PutInPlace s m bytes (s.halves.enqueue bytes m) := by
  obtain ⟨t, hplan, hmemory⟩ := Halves.reserve_of_fits hlen hpos hfree hend
  exact ⟨_, by rw [run_inPlace idle hplan, hmemory]⟩

/-- Bytes that pass the end of the ring are put in place in two pieces. -/
theorem putInPlace_of_passes (idle : s.writing = none)
    (cells : s.halves.head ≠ s.halves.tail)
    (hlen : bytes.length = k * s.halves.geometry.unitSize.toNat)
    (hfree : k ≤ s.halves.geometry.capacity.toNat - 1 - s.halves.occupied m)
    (hpasses : (s.halves.geometry.toEnd (s.halves.tailCount m)).toNat < bytes.length) :
    ∃ m₁, PutInPlace s m (bytes.take (s.halves.geometry.toEnd (s.halves.tailCount m)).toNat) m₁
      ∧ PutInPlace s m₁ (bytes.drop (s.halves.geometry.toEnd (s.halves.tailCount m)).toNat)
          (s.halves.enqueue bytes m) := by
  have hs := s.halves.geometry.unitSize_pos
  have hword := s.halves.geometry.capacity.toNat_lt
  obtain ⟨a, hpos, hend, hagain⟩ := s.halves.geometry.exists_units_toEnd (s.halves.tailCount m)
  have hless : a < k := by
    rw [hend, hlen] at hpasses
    exact Nat.lt_of_mul_lt_mul_right hpasses
  rw [hend] at hpasses ⊢
  have hfirst : (bytes.take (a * s.halves.geometry.unitSize.toNat)).length
      = a * s.halves.geometry.unitSize.toNat := by
    rw [List.length_take, Nat.min_eq_left (Nat.le_of_lt hpasses)]
  have hrest : (bytes.drop (a * s.halves.geometry.unitSize.toNat)).length
      = (k - a) * s.halves.geometry.unitSize.toNat := by
    rw [List.length_drop, hlen, Nat.sub_mul]
  -- behind the first piece the tail is at the beginning of the ring
  have hoccupied := Halves.occupied_enqueue (m := m) cells hfirst (by omega)
  have htail := s.halves.tailCount_enqueue (bytes.take (a * s.halves.geometry.unitSize.toNat)) m
  rw [hfirst, Nat.mul_div_cancel _ hs] at htail
  rw [← htail] at hagain
  have hboth := s.halves.enqueue_append (bytes.drop (a * s.halves.geometry.unitSize.toNat)) m
    (hfirst ▸ Nat.dvd_mul_left _ _)
  rw [List.take_append_drop] at hboth
  refine ⟨s.halves.enqueue (bytes.take (a * s.halves.geometry.unitSize.toNat)) m,
    putInPlace_of_fits idle hfirst hpos (by omega) (by omega), ?_⟩
  rw [hboth]
  refine putInPlace_of_fits idle hrest (by omega) (by rw [hoccupied]; omega) ?_
  rw [hagain, hrest, Geometry.toNat_size]
  exact Nat.mul_le_mul_right _ (by omega)

theorem reserve_isSome_iff (idle : s.writing = none) {len : UInt64} :
    (∃ shown, (s.step (.reserve len) m).1 = .chunk (some shown))
      ↔ (s.halves.reserve? len m).isSome := by
  rw [step_reserve idle]
  cases s.halves.reserve? len m with
  | none => simp [openWriting]
  | some t => simp [openWriting]

/-- What a writer can do by copying it can do in place. -/
structure WritesInPlace (s : Session) (m : Memory) : Prop where
  /-- what a write takes can be put in place instead: at once if it ends before the ring does, and
      in two pieces, up to the end of the ring and from its beginning on, if it does not -/
  write : ∀ data : List UInt8, ∃ n m', s.step (.write data) m = (.moved n, s, m')
    ∧ n.toNat ≤ data.length
    ∧ (n = 0 → m' = m)
    ∧ (0 < n.toNat → n.toNat ≤ (s.halves.geometry.toEnd (s.halves.tailCount m)).toNat →
        PutInPlace s m (data.take n.toNat) m')
    ∧ ((s.halves.geometry.toEnd (s.halves.tailCount m)).toNat < n.toNat → ∃ m₁,
        PutInPlace s m (data.take (s.halves.geometry.toEnd (s.halves.tailCount m)).toNat) m₁
          ∧ PutInPlace s m₁ ((data.take n.toNat).drop
              (s.halves.geometry.toEnd (s.halves.tailCount m)).toNat) m')
  /-- whole units are reserved if a write would take them all and they end before the ring does -/
  reserve : ∀ len : UInt64, (∃ shown, (s.step (.reserve len) m).1 = .chunk (some shown))
    ↔ 0 < len.toNat ∧ s.halves.geometry.unitSize.toNat ∣ len.toNat
      ∧ (∀ data : List UInt8, data.length = len.toNat →
          (s.step (.write data) m).1 = .moved len)
      ∧ len.toNat ≤ (s.halves.geometry.toEnd (s.halves.tailCount m)).toNat

/-- **A copying write is a write in place**, in one piece or in two.  The region may lie anywhere
    and hold anything, and the counters may hold anything as long as they are two different cells. -/
theorem writes_are_in_place {s : Session} (idle : s.writing = none)
    (cells : s.halves.head ≠ s.halves.tail) (m : Memory) : WritesInPlace s m where
  write := by
    intro data
    obtain ⟨hcount, hmemory⟩ := s.halves.write_eq data m rfl
    have hlen := s.halves.length_take_writeUnits data m
    have hfree : Transfer.writeUnits s.halves.geometry (s.halves.occupied m) data.length
        ≤ s.halves.geometry.capacity.toNat - 1 - s.halves.occupied m := Nat.min_le_right _ _
    refine ⟨_, _, step_write idle data m, ?_, ?_, ?_, ?_⟩
    · rw [hcount, ← hlen]
      exact List.length_take_le' ..
    · intro hnone
      rw [hnone, UInt64.toNat_zero] at hcount
      rw [hmemory, ← hcount, List.take_zero, Halves.enqueue_nil]
    · intro hpos hend
      rw [hcount] at hpos hend ⊢
      rw [hmemory]
      exact putInPlace_of_fits idle hlen (Nat.pos_of_mul_pos_right hpos) hfree
        (by rw [hlen]; exact hend)
    · intro hpasses
      rw [hcount] at hpasses ⊢
      obtain ⟨m₁, hfirst, hrest⟩ := putInPlace_of_passes idle cells hlen hfree
        (by rw [hlen]; exact hpasses)
      rw [List.take_take, Nat.min_eq_left (Nat.le_of_lt hpasses)] at hfirst
      rw [hmemory]
      exact ⟨m₁, hfirst, hrest⟩
  reserve := by
    intro len
    have hwrite : ∀ data : List UInt8, (s.step (.write data) m).1 = .moved len
        ↔ (s.halves.write data m).1 = len := by
      intro data
      rw [step_write idle, Answer.moved.injEq]
    rw [reserve_isSome_iff idle]
    simp only [hwrite]
    exact s.halves.isSome_reserve?_iff_write len m

/-- The small ring: of eight bytes six are written, three of them before the end of the ring, and there
    they are. -/
theorem writes_are_in_place_small :
    let s : Session := { halves := Halves.small }
    WritesInPlace s Memory.small ∧ ∃ m₁ m',
      s.step (.write [1, 2, 3, 4, 5, 6, 7, 8]) Memory.small = (.moved 6, s, m')
        ∧ PutInPlace s Memory.small [1, 2, 3] m₁ ∧ PutInPlace s m₁ [4, 5, 6] m'
        ∧ m'.bytes.toList = [0xEE, 4, 5, 6, 4, 5, 6, 7, 8, 9, 1, 2, 3, 0xEE]
        ∧ s.halves.unread m' = [7, 8, 9, 1, 2, 3, 4, 5, 6] := by
  intro s
  have inPlace : WritesInPlace s Memory.small := writes_are_in_place rfl (by decide) Memory.small
  have hanswer : (s.step (.write [1, 2, 3, 4, 5, 6, 7, 8]) Memory.small).1 = .moved 6 := by decide
  have hbytes : (s.step (.write [1, 2, 3, 4, 5, 6, 7, 8]) Memory.small).2.2.bytes.toList
      = [0xEE, 4, 5, 6, 4, 5, 6, 7, 8, 9, 1, 2, 3, 0xEE] := by decide
  have hunread : s.halves.unread (s.step (.write [1, 2, 3, 4, 5, 6, 7, 8]) Memory.small).2.2
      = [7, 8, 9, 1, 2, 3, 4, 5, 6] := by decide
  have hend : (s.halves.geometry.toEnd (s.halves.tailCount Memory.small)).toNat = 3 := by decide
  obtain ⟨n, m', hstep, -, -, -, hpasses⟩ := inPlace.write [1, 2, 3, 4, 5, 6, 7, 8]
  rw [hend] at hpasses
  rw [hstep] at hanswer hbytes hunread
  obtain rfl := Answer.moved.inj hanswer
  obtain ⟨m₁, hfirst, hrest⟩ := hpasses (by decide)
  exact ⟨inPlace, m₁, m', hstep, hfirst, hrest, hbytes, hunread⟩

end Session

/-! ## Reading -/

namespace Halves

variable {h : Halves} {m : Memory} {t t' : Transfer} {len : UInt64} {k : Nat}

/-- What waits is read if it is asked for by its length. -/
theorem Waiting.read_eq (hold : h.Waiting m t) {room : Nat} (hroom : t.len.toNat ≤ room) :
    h.read room (some t.len) m = (h.contents t m, h.release t m) := by
  obtain ⟨k, run, hk⟩ := hold
  have hs := h.geometry.unitSize_pos
  have hfits := run.fits
  have hpos := run.len_pos
  have hne : t.len ≠ 0 := by
    intro hzero
    rw [hzero, UInt64.toNat_zero] at hpos
    omega
  have hbuffer : k ≤ room / h.geometry.unitSize.toNat := by
    rw [Nat.le_div_iff_mul_le hs, ← run.len_eq]
    exact hroom
  have hunits : Transfer.readUnits h.geometry (h.occupied m) room (some t.len) = k := by
    simp only [Transfer.readUnits, if_neg hne]
    rw [run.len_eq, Nat.mul_div_cancel _ hs]
    omega
  rw [h.read_eq room _ m hunits.symm, contents_run run, release_eq run, run.len_eq]

/-- A read of all there is, into a buffer that holds it. -/
theorem read_all (fits : h.occupied m ≤ h.geometry.capacity.toNat) {room : Nat}
    (hroom : h.occupied m * h.geometry.unitSize.toNat ≤ room) : h.read room none m
      = (h.unread m, h.dequeue (h.occupied m * h.geometry.unitSize.toNat) m) := by
  have hbuffer := (Nat.le_div_iff_mul_le h.geometry.unitSize_pos).2 hroom
  have hunits : Transfer.readUnits h.geometry (h.occupied m) room none = h.occupied m := by
    rw [Transfer.readUnits_none]
    omega
  rw [h.read_eq room none m hunits.symm, unread]

/-- Nothing is read from a ring in which nothing waits, and from no other if the buffer holds a
    unit. -/
theorem read_eq_nil_iff {room : Nat} (hroom : h.geometry.unitSize.toNat ≤ room) :
    (h.read room none m).1 = [] ↔ h.occupied m = 0 := by
  have hs := h.geometry.unitSize_pos
  have hunit := Nat.div_pos hroom hs
  have hcapacity := h.geometry.capacity_pos
  rw [h.read_eq room none m rfl, ← List.length_eq_zero_iff, length_stretch, Nat.mul_eq_zero,
    Transfer.readUnits_none]
  omega

theorem view?_eq_none_iff : h.view? m = none ↔ h.occupied m = 0 := by
  have hs := h.geometry.unitSize_pos
  constructor
  · intro hnone
    rcases h.view?_cases m with ⟨-, hzero⟩ | ⟨t, hsome, -⟩
    · exact hzero
    · rw [hnone] at hsome
      contradiction
  · intro hzero
    rcases h.view?_cases m with ⟨hnone, -⟩ | ⟨t, -, hold, -⟩
    · exact hnone
    · have hle := hold.len_le
      have hpos := hold.len_pos
      rw [length_unread, hzero, Nat.zero_mul] at hle
      omega

/-- What is viewed exactly are whole units that a view shows, from the first byte on. -/
theorem isSome_viewOf?_iff_view (h : Halves) (len : UInt64) (m : Memory) : (h.viewOf? len m).isSome
    ↔ 0 < len.toNat ∧ h.geometry.unitSize.toNat ∣ len.toNat
      ∧ ∃ t, h.view? m = some t ∧ len.toNat ≤ t.len.toNat := by
  rw [isSome_viewOf?, ← length_unread]
  constructor
  · rintro ⟨⟨hpos, whole⟩, hle⟩
    refine ⟨hpos, whole, ?_⟩
    rcases h.view?_cases m with ⟨-, hzero⟩ | ⟨t, hsome, -, hlen⟩
    · rw [length_unread, hzero, Nat.zero_mul] at hle
      omega
    · exact ⟨t, hsome, by rw [hlen]; exact hle⟩
  · rintro ⟨hpos, whole, t, hsome, hle⟩
    rcases h.view?_cases m with ⟨hnone, -⟩ | ⟨t', hsome', -, hlen⟩
    · rw [hnone] at hsome
      contradiction
    · obtain rfl : t' = t := Option.some.inj (hsome'.symm.trans hsome)
      exact ⟨⟨hpos, whole⟩, by rw [← hlen]; exact hle⟩

theorem contents_viewOf? (hview : h.view? m = some t) (hplan : h.viewOf? len m = some t')
    (hle : len.toNat ≤ t.len.toNat) : h.contents t' m = (h.contents t m).take len.toNat := by
  rw [(waiting_of_view? hview).contents_eq, (waiting_of_viewOf? hplan).contents_eq,
    len_of_viewOf? hplan, List.take_take, Nat.min_eq_left hle]

/-- A view shows the units that wait before the end of the ring. -/
theorem view?_of_units (hk : k = min (h.occupied m)
      ((h.geometry.toEnd (h.headCount m)).toNat / h.geometry.unitSize.toNat)) (hpos : 0 < k) :
    ∃ t, h.view? m = some t ∧ t.IsRun h.geometry (h.headCount m) k := by
  rw [Geometry.toNat_toEnd] at hk
  rcases Transfer.view?_cases h.geometry (h.headCount m) (h.tailCount m) hk with
    ⟨hzero, -⟩ | hsome
  · omega
  · exact hsome

end Halves

namespace Session

variable {s : Session} {m m₁ m' : Memory} {t : Transfer} {k : Nat}

theorem run_append (s : Session) (calls rest : List Call) (m : Memory) :
    s.run (calls ++ rest) m
      = ((s.run calls m).1 ++ ((s.run calls m).2.1.run rest (s.run calls m).2.2).1,
        ((s.run calls m).2.1.run rest (s.run calls m).2.2).2) := by
  induction calls generalizing s m with
  | nil => rfl
  | cons c calls ih =>
    rw [List.cons_append, run_cons, run_cons, ih]
    rfl

/-- Views that are released, one after the other, show these parts and leave the memory `m'`. -/
def ViewedOut (s : Session) (m : Memory) (parts : List (List UInt8)) (m' : Memory) : Prop :=
  s.run (parts.flatMap fun _ => [.view, .release]) m
    = (parts.flatMap fun part => [.chunk (some part), .moved (UInt64.ofNat part.length)], s, m')

theorem ViewedOut.cons {part : List UInt8} {parts : List (List UInt8)}
    (first : s.run [.view, .release] m
      = ([.chunk (some part), .moved (UInt64.ofNat part.length)], s, m₁))
    (rest : ViewedOut s m₁ parts m') : ViewedOut s m (part :: parts) m' := by
  unfold ViewedOut at rest ⊢
  rw [List.flatMap_cons, List.flatMap_cons, run_append, first]
  dsimp only
  rw [rest]

/-- A view and its release, in units. -/
theorem run_view (idle : s.reading = none) (hk : k = min (s.halves.occupied m)
      ((s.halves.geometry.toEnd (s.halves.headCount m)).toNat / s.halves.geometry.unitSize.toNat))
    (hpos : 0 < k) : ∃ part, part
        = s.halves.stretch m (s.halves.headCount m) (k * s.halves.geometry.unitSize.toNat)
      ∧ s.run [.view, .release] m
        = ([.chunk (some part), .moved (UInt64.ofNat part.length)], s,
          s.halves.dequeue (k * s.halves.geometry.unitSize.toNat) m) := by
  obtain ⟨t, hplan, run⟩ := Halves.view?_of_units hk hpos
  refine ⟨_, rfl, ?_⟩
  rw [run_release idle (by rw [step_view idle, hplan]), Halves.contents_run run,
    Halves.release_eq run, Halves.length_stretch, ← run.len_eq, UInt64.ofNat_toNat]

/-- What waits and passes the end of the ring, `a` units on, is viewed up to there and then from the
    beginning on. -/
theorem viewedOut_two (idle : s.reading = none) (cells : s.halves.head ≠ s.halves.tail) {a : Nat}
    (hpos : 0 < a) (hend : (s.halves.geometry.toEnd (s.halves.headCount m)).toNat
      = a * s.halves.geometry.unitSize.toNat)
    (hagain : (s.halves.geometry.toEnd (s.halves.headCount m + UInt32.ofNat a)).toNat
      = s.halves.geometry.size.toNat)
    (hpasses : a < s.halves.occupied m)
    (fits : s.halves.occupied m ≤ s.halves.geometry.capacity.toNat) :
    ∃ first second, first ++ second = s.halves.unread m ∧ ViewedOut s m [first, second]
      (s.halves.dequeue (s.halves.occupied m * s.halves.geometry.unitSize.toNat) m) := by
  have hs := s.halves.geometry.unitSize_pos
  have hunits : (s.halves.geometry.toEnd (s.halves.headCount m)).toNat
      / s.halves.geometry.unitSize.toNat = a := by rw [hend, Nat.mul_div_cancel _ hs]
  have hsplit : s.halves.occupied m * s.halves.geometry.unitSize.toNat
      = a * s.halves.geometry.unitSize.toNat
        + (s.halves.occupied m - a) * s.halves.geometry.unitSize.toNat := by
    rw [← Nat.add_mul, Nat.add_sub_cancel' (Nat.le_of_lt hpasses)]
  -- behind the first view the head is at the beginning of the ring
  have hoccupied := Halves.occupied_dequeue cells (Nat.le_of_lt hpasses)
  have hhead := s.halves.headCount_dequeue (a * s.halves.geometry.unitSize.toNat) m
  rw [Nat.mul_div_cancel _ hs] at hhead
  rw [← hhead] at hagain
  have hahead : s.halves.occupied m - a = min (s.halves.occupied m - a)
      (s.halves.geometry.size.toNat / s.halves.geometry.unitSize.toNat) := by
    rw [Geometry.toNat_size, Nat.mul_div_cancel _ hs]
    omega
  obtain ⟨first, hfirst, hrun⟩ := run_view idle (m := m) (k := a) (by omega) hpos
  obtain ⟨second, hsecond, hrun'⟩ := run_view idle
    (m := s.halves.dequeue (a * s.halves.geometry.unitSize.toNat) m) (k := s.halves.occupied m - a)
    (by rw [hoccupied, hagain]; exact hahead) (by omega)
  refine ⟨first, second, ?_, ?_⟩
  · rw [hfirst, hsecond, hhead, Halves.stretch_dequeue, Halves.unread, hsplit,
      Halves.stretch_add_ofNat]
  · rw [hsplit, Halves.dequeue_add _ _ _ (Nat.dvd_mul_left _ _)]
    exact .cons hrun (.cons hrun' rfl)

/-- **All there is takes one view, or two.** -/
theorem viewedOut_all (idle : s.reading = none) (cells : s.halves.head ≠ s.halves.tail)
    (fits : s.halves.occupied m ≤ s.halves.geometry.capacity.toNat) :
    ∃ parts, parts.length ≤ 2 ∧ parts.flatten = s.halves.unread m ∧ ViewedOut s m parts
      (s.halves.dequeue (s.halves.occupied m * s.halves.geometry.unitSize.toNat) m) := by
  obtain ⟨a, hpos, hend, hagain⟩ := s.halves.geometry.exists_units_toEnd (s.halves.headCount m)
  have hunits : (s.halves.geometry.toEnd (s.halves.headCount m)).toNat
      / s.halves.geometry.unitSize.toNat = a := by
    rw [hend, Nat.mul_div_cancel _ s.halves.geometry.unitSize_pos]
  rcases Nat.eq_zero_or_pos (s.halves.occupied m) with hnone | hwaits
  · refine ⟨[], Nat.zero_le _, ?_, ?_⟩
    · exact (List.length_eq_zero_iff.1 (by rw [Halves.length_unread, hnone, Nat.zero_mul])).symm
    · rw [hnone, Nat.zero_mul, Halves.dequeue_zero]
      rfl
  rcases Nat.lt_or_ge a (s.halves.occupied m) with hpasses | hbefore
  · obtain ⟨first, second, hunread, views⟩ :=
      viewedOut_two idle cells hpos hend hagain hpasses fits
    refine ⟨[first, second], Nat.le_refl 2, ?_, views⟩
    rw [List.flatten_cons, List.flatten_singleton, hunread]
  · obtain ⟨part, hpart, hrun⟩ := run_view idle (m := m) (k := s.halves.occupied m) (by omega)
      hwaits
    refine ⟨[part], Nat.le_succ 1, ?_, .cons hrun rfl⟩
    rw [List.flatten_singleton, hpart, Halves.unread]

theorem view_shown_iff (idle : s.reading = none) {shown : List UInt8} :
    (s.step .view m).1 = .chunk (some shown)
      ↔ ∃ t, s.halves.view? m = some t ∧ shown = s.halves.contents t m := by
  rw [step_view idle, openReading_eq_iff]

theorem viewOf_isSome_iff (idle : s.reading = none) {len : UInt64} :
    (∃ part, (s.step (.viewOf len) m).1 = .chunk (some part))
      ↔ (s.halves.viewOf? len m).isSome := by
  rw [step_viewOf idle]
  cases s.halves.viewOf? len m with
  | none => simp [openReading]
  | some t => simp [openReading]

theorem viewOf_shown_iff (idle : s.reading = none) {len : UInt64} {part : List UInt8} :
    (s.step (.viewOf len) m).1 = .chunk (some part)
      ↔ ∃ t, s.halves.viewOf? len m = some t ∧ part = s.halves.contents t m := by
  rw [step_viewOf idle, openReading_eq_iff]

theorem view_none_iff (idle : s.reading = none) :
    (s.step .view m).1 = .chunk none ↔ s.halves.occupied m = 0 := by
  rw [step_view idle, openReading, Answer.chunk.injEq, Option.map_eq_none_iff,
    Halves.view?_eq_none_iff]

/-- What a chunk of the reader shows a read of its length gets, and to release the chunk is to have
    read. -/
def ReadAsShown (s : Session) (m : Memory) (c : Call) (shown : List UInt8) : Prop :=
  ∃ m', s.run [c, .release] m
      = ([.chunk (some shown), .moved (UInt64.ofNat shown.length)], s, m')
    ∧ ∀ buffer : List UInt8, shown.length ≤ buffer.length →
        s.step (.read buffer (some (UInt64.ofNat shown.length))) m
          = (.received shown.length (shown ++ buffer.drop shown.length), s, m')

/-- What a reader can do by looking at chunks it can do by reading, and the other way round. -/
structure ReadsAreViews (s : Session) (m : Memory) : Prop where
  view : ∀ shown, (s.step .view m).1 = .chunk (some shown) → ReadAsShown s m .view shown
  /-- there is nothing to view if there is nothing to read -/
  view_none : ∀ buffer : List UInt8, s.halves.geometry.unitSize.toNat ≤ buffer.length →
    ((s.step .view m).1 = .chunk none ↔ (s.step (.read buffer none) m).1 = .received 0 buffer)
  /-- whole units are viewed exactly if a view shows so many -/
  viewOf_isSome : ∀ len : UInt64, (∃ part, (s.step (.viewOf len) m).1 = .chunk (some part))
    ↔ 0 < len.toNat ∧ s.halves.geometry.unitSize.toNat ∣ len.toNat
      ∧ ∃ shown, (s.step .view m).1 = .chunk (some shown) ∧ len.toNat ≤ shown.length
  /-- and then they are its first ones -/
  viewOf : ∀ len part, (s.step (.viewOf len) m).1 = .chunk (some part) →
    (∃ shown, (s.step .view m).1 = .chunk (some shown) ∧ part = shown.take len.toNat)
      ∧ part.length = len.toNat ∧ ReadAsShown s m (.viewOf len) part
  /-- all that waits is read at once, or viewed in one piece or in two -/
  all : s.halves.occupied m ≤ s.halves.geometry.capacity.toNat → ∀ buffer : List UInt8,
    s.halves.occupied m * s.halves.geometry.unitSize.toNat ≤ buffer.length →
      ∃ parts m', parts.length ≤ 2 ∧ ViewedOut s m parts m'
        ∧ s.step (.read buffer none) m = (.received parts.flatten.length
            (parts.flatten ++ buffer.drop parts.flatten.length), s, m')
        ∧ s.halves.pending m' = 0 ∧ (s.step .view m').1 = .chunk none

theorem readAsShown (idle : s.reading = none) {c : Call}
    (hopen : s.step c m = s.openReading (some t) m) (hold : s.halves.Waiting m t) :
    ReadAsShown s m c (s.halves.contents t m) := by
  have hlen : UInt64.ofNat (s.halves.contents t m).length = t.len := by
    rw [hold.length_contents, UInt64.ofNat_toNat]
  refine ⟨s.halves.release t m, ?_, ?_⟩
  · rw [run_release idle hopen, hlen]
  · intro buffer hbuffer
    rw [hold.length_contents] at hbuffer
    rw [hlen, step_read idle, hold.read_eq hbuffer]

/-- **A copying read is views that are released.**  The counters are two different cells that hold
    anything at all; only to come to an end in two views they must be no more than a ring apart. -/
theorem reads_are_views {s : Session} (idle : s.reading = none)
    (cells : s.halves.head ≠ s.halves.tail) (m : Memory) : ReadsAreViews s m where
  view := by
    intro shown hshown
    obtain ⟨t, hplan, rfl⟩ := (view_shown_iff idle).1 hshown
    exact readAsShown idle (by rw [step_view idle, hplan]) (Halves.waiting_of_view? hplan)
  view_none := by
    intro buffer hbuffer
    rw [view_none_iff idle, ← Halves.read_eq_nil_iff hbuffer, step_read idle]
    constructor
    · intro hnil
      rw [hnil]
      rfl
    · intro hzero
      exact List.length_eq_zero_iff.1 (Answer.received.inj hzero).1
  viewOf_isSome := by
    intro len
    rw [viewOf_isSome_iff idle, Halves.isSome_viewOf?_iff_view]
    simp only [view_shown_iff idle]
    refine and_congr_right fun _ => and_congr_right fun _ => ?_
    constructor
    · rintro ⟨t, hplan, hle⟩
      exact ⟨_, ⟨t, hplan, rfl⟩, by rw [(Halves.waiting_of_view? hplan).length_contents]; exact hle⟩
    · rintro ⟨_, ⟨t, hplan, rfl⟩, hle⟩
      exact ⟨t, hplan, by rw [← (Halves.waiting_of_view? hplan).length_contents]; exact hle⟩
  viewOf := by
    intro len part hpart
    obtain ⟨t', hplan, rfl⟩ := (viewOf_shown_iff idle).1 hpart
    have hsome : (s.halves.viewOf? len m).isSome := by rw [hplan]; rfl
    obtain ⟨-, -, t, hview, hle⟩ := (s.halves.isSome_viewOf?_iff_view len m).1 hsome
    have hold := Halves.waiting_of_viewOf? hplan
    refine ⟨⟨s.halves.contents t m, (view_shown_iff idle).2 ⟨t, hview, rfl⟩,
      Halves.contents_viewOf? hview hplan hle⟩, ?_, ?_⟩
    · rw [hold.length_contents, Halves.len_of_viewOf? hplan]
    · exact readAsShown idle (by rw [step_viewOf idle, hplan]) hold
  all := by
    intro fits buffer hbuffer
    obtain ⟨parts, htwo, hparts, views⟩ := viewedOut_all idle cells fits
    have hempty := Halves.occupied_dequeue (m := m) cells (Nat.le_refl (s.halves.occupied m))
    rw [Nat.sub_self] at hempty
    refine ⟨parts, _, htwo, views, ?_, ?_, (view_none_iff idle).2 hempty⟩
    · rw [hparts, step_read idle, Halves.read_all fits hbuffer]
    · rw [← UInt64.toNat_inj, Halves.toNat_pending, Halves.length_unread, hempty, Nat.zero_mul]
      rfl

/-- The small ring when it is full: three units wait, one of them before the end of the ring. -/
theorem reads_are_views_small :
    let s : Session := { halves := Halves.small }
    let m : Memory := ⟨Memory.small.bytes, [0xFFFFFFFF, 2], []⟩
    ReadsAreViews s m
      ∧ ReadAsShown s m .view [10, 11, 12] := by
  intro s m
  have views : ReadsAreViews s m := reads_are_views rfl (by decide) m
  exact ⟨views, views.view [10, 11, 12] (by decide)⟩

end Session

end SharedRing
