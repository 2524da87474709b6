/-
  What a transfer hands over.

  A writer holds a plan over free units behind the tail (`Vacant`), a reader one over waiting units
  at the head (`Waiting`), whatever kind of transfer the plan was made for.  Completing the first
  publishes its bytes (`Published`), completing the second releases them (`Released`), and these two
  relations between memories say all that a transfer can do to a ring.

  They are also the reason why neither side disturbs the other.  Publishing makes more bytes wait, so
  what a reader holds goes on waiting; releasing makes more units free, so what a writer holds stays
  free.  A plan may thus be kept open for as long as its owner likes.
-/
import SharedRing.Proofs.Unread

namespace SharedRing

/-! ## The flow-control counter is not the ring's -/

namespace Memory

variable {m m' : Memory} {signal : Option Nat} {value held : UInt64}

theorem eq_of_addSignal (hok : m.addSignal signal value = .ok (held, m')) :
    ∃ signals, m' = { m with signals } := by
  cases signal with
  | none => nomatch hok
  | some i =>
    obtain ⟨-, rfl⟩ := Prod.mk.inj (Except.ok.inj hok)
    exact ⟨_, rfl⟩

theorem eq_of_takeSignal (hok : m.takeSignal signal = .ok (held, m')) :
    ∃ signals, m' = { m with signals } := by
  cases signal with
  | none => nomatch hok
  | some i =>
    obtain ⟨-, rfl⟩ := Prod.mk.inj (Except.ok.inj hok)
    exact ⟨_, rfl⟩

end Memory

namespace Halves

variable {h : Halves} {m m' : Memory} {t : Transfer} {bytes : List UInt8}

/-! ## Plans that may be carried out -/

/-- A plan over free units behind the tail: what a writer may hold. -/
def Vacant (h : Halves) (m : Memory) (t : Transfer) : Prop :=
  ∃ k, t.IsRun h.geometry (h.tailCount m) k ∧ h.occupied m + k ≤ h.geometry.capacity.toNat - 1

/-- A plan over waiting units at the head: what a reader may hold. -/
def Waiting (h : Halves) (m : Memory) (t : Transfer) : Prop :=
  ∃ k, t.IsRun h.geometry (h.headCount m) k ∧ k ≤ h.occupied m

/-- What waits is a number of whole units. -/
theorem length_unread_div (h : Halves) (m : Memory) :
    (h.unread m).length / h.geometry.unitSize.toNat = h.occupied m := by
  rw [length_unread, Nat.mul_div_cancel _ h.geometry.unitSize_pos]

/-- What a writer plans is vacant.  With a tail too far ahead of the head it plans nothing. -/
theorem vacant_of_write? {offered : Nat}
    (hplan : Transfer.write? h.geometry (h.headCount m) (h.tailCount m) offered = some t) :
    h.Vacant m t := by
  have run := Transfer.IsRun.of_cases (Transfer.write?_cases _ _ _ _ rfl) hplan
  have hpos := run.pos
  refine ⟨_, run, ?_⟩
  rw [occupied]
  omega

theorem vacant_of_reserve? {len : UInt64} (hplan : h.reserve? len m = some t) :
    h.Vacant m t := by
  obtain ⟨-, run, hle⟩ := Transfer.isRun_of_exactly? hplan
  have hpos := run.pos
  rw [Geometry.toNat_free, Nat.mul_comm] at hle
  have hroom : len.toNat / h.geometry.unitSize.toNat
      ≤ h.geometry.capacity.toNat - 1 - h.occupied m :=
    Nat.div_le_of_le_mul (Nat.le_trans hle (Nat.min_le_left _ _))
  exact ⟨_, run, by omega⟩

/-- What a reader plans is waiting. -/
theorem waiting_of_read? {room : Nat} {count : Option UInt64}
    (hplan : Transfer.read? h.geometry (h.headCount m) (h.tailCount m) room count = some t) :
    h.Waiting m t := by
  have hle := Transfer.readUnits_le h.geometry (h.occupied m) room count
  have run := Transfer.IsRun.of_cases (Transfer.read?_cases _ _ _ _ _ rfl) hplan
  exact ⟨_, run, Nat.le_trans hle (Nat.min_le_left _ _)⟩

theorem waiting_of_viewOf? {len : UInt64} (hplan : h.viewOf? len m = some t) :
    h.Waiting m t := by
  obtain ⟨-, run, hle⟩ := Transfer.isRun_of_exactly? hplan
  rw [Geometry.toNat_pending, Nat.mul_comm] at hle
  exact ⟨_, run, Nat.div_le_of_le_mul (Nat.le_trans hle (Nat.min_le_left _ _))⟩

theorem waiting_of_view? (hplan : h.view? m = some t) : h.Waiting m t := by
  have run := Transfer.IsRun.of_cases (Transfer.view?_cases _ _ _ rfl) hplan
  exact ⟨_, run, Nat.min_le_left _ _⟩

/-- Exactly `len` bytes are reserved if they are whole units, free, and before the end of the
    ring. -/
theorem isSome_reserve? (h : Halves) (len : UInt64) (m : Memory) : (h.reserve? len m).isSome
    ↔ (0 < len.toNat ∧ h.geometry.unitSize.toNat ∣ len.toNat) ∧ len.toNat
        ≤ min ((h.geometry.capacity.toNat - 1 - h.occupied m) * h.geometry.unitSize.toNat)
            (h.geometry.size.toNat - h.geometry.place (h.tailCount m) 0) := by
  rw [reserve?, Transfer.reserve?_eq, Option.isSome_ite]; rfl

theorem len_of_reserve? {len : UInt64} (hplan : h.reserve? len m = some t) : t.len = len :=
  (Transfer.isRun_of_exactly? hplan).1

/-- Exactly `len` bytes are viewed if they are whole units, waiting, and before the end of the
    ring. -/
theorem isSome_viewOf? (h : Halves) (len : UInt64) (m : Memory) : (h.viewOf? len m).isSome
    ↔ (0 < len.toNat ∧ h.geometry.unitSize.toNat ∣ len.toNat) ∧ len.toNat
        ≤ min (h.occupied m * h.geometry.unitSize.toNat)
            (h.geometry.size.toNat - h.geometry.place (h.headCount m) 0) := by
  rw [viewOf?, Transfer.viewOf?_eq, Option.isSome_ite]; rfl

theorem len_of_viewOf? {len : UInt64} (hplan : h.viewOf? len m = some t) : t.len = len :=
  (Transfer.isRun_of_exactly? hplan).1

/-- All that waits before the end of the ring is viewed, and nothing only if nothing waits. -/
theorem view?_cases (h : Halves) (m : Memory) : (h.view? m = none ∧ h.occupied m = 0)
    ∨ ∃ t, h.view? m = some t ∧ h.Waiting m t ∧ t.len.toNat
        = min (h.unread m).length
            (h.geometry.size.toNat - h.geometry.place (h.headCount m) 0) := by
  have hplace := h.geometry.place_lt (h.headCount m) 0
  have hs := h.geometry.unitSize_pos
  have hwhole : h.geometry.unitSize.toNat
      ∣ h.geometry.size.toNat - h.geometry.place (h.headCount m) 0 :=
    Nat.dvd_sub h.geometry.unitSize_dvd_size (h.geometry.unitSize_dvd_place_zero _)
  -- before the end of the ring there is room for a unit at least, so only an empty ring shows nothing
  have hend : 0 < (h.geometry.size.toNat - h.geometry.place (h.headCount m) 0)
      / h.geometry.unitSize.toNat := Nat.div_pos (Nat.le_of_dvd (by omega) hwhole) hs
  rcases Transfer.view?_cases h.geometry (h.headCount m) (h.tailCount m) rfl with
    ⟨hzero, hnone⟩ | ⟨t, hsome, run⟩
  · refine Or.inl ⟨hnone, ?_⟩
    rw [occupied]
    omega
  · refine Or.inr ⟨t, hsome, ⟨_, run, Nat.min_le_left _ _⟩, ?_⟩
    rw [run.len_eq, ← Nat.mul_min_mul_right, Nat.div_mul_cancel hwhole, length_unread]; rfl

theorem Vacant.length_contents (hold : h.Vacant m t) (m' : Memory) :
    (h.contents t m').length = t.len.toNat := by
  obtain ⟨k, run, -⟩ := hold
  exact Halves.length_contents run

theorem Waiting.length_contents (hold : h.Waiting m t) (m' : Memory) :
    (h.contents t m').length = t.len.toNat := by
  obtain ⟨k, run, -⟩ := hold
  exact Halves.length_contents run

/-- **What a reader holds is the front of what waits**, as long as it waits. -/
theorem Waiting.contents_eq (hold : h.Waiting m t) :
    h.contents t m = (h.unread m).take t.len.toNat := by
  obtain ⟨k, run, hk⟩ := hold
  exact contents_eq_take_unread run hk

theorem Waiting.len_le (hold : h.Waiting m t) : t.len.toNat ≤ (h.unread m).length := by
  obtain ⟨k, run, hk⟩ := hold
  rw [run.len_eq, length_unread]; exact Nat.mul_le_mul_right _ hk

theorem Waiting.len_pos (hold : h.Waiting m t) : 0 < t.len.toNat := by
  obtain ⟨k, run, -⟩ := hold
  exact run.len_pos

/-! ## Filling what is vacant -/

theorem InOrder.fill (ok : h.InOrder m) (t : Transfer) (data : List UInt8) :
    h.InOrder (h.fill t data m) where
  ring_le_region := ok.ring_le_region
  region_le_memory := by rw [size_bytes_fill]; exact ok.region_le_memory
  head_ne_tail := ok.head_ne_tail
  occupied_le := ok.occupied_le

theorem Vacant.unread_fill (hold : h.Vacant m t) (data : List UInt8) :
    h.unread (h.fill t data m) = h.unread m := by
  obtain ⟨k, run, hk⟩ := hold
  exact Halves.unread_fill run (by omega) data

theorem Vacant.contents_fill (hold : h.Vacant m t) (ok : h.InOrder m) (data : List UInt8) :
    h.contents t (h.fill t data m)
      = data.take t.len.toNat ++ (h.contents t m).drop data.length := by
  obtain ⟨k, run, -⟩ := hold
  exact Halves.contents_fill ok.ring_le_memory run data

/-! ## Handing over -/

/-- The writer has published bytes and has done nothing else to the ring. -/
structure Published (h : Halves) (m m' : Memory) (bytes : List UInt8) : Prop where
  inOrder : h.InOrder m'
  head_eq : h.headCount m' = h.headCount m
  tail_eq : h.tailCount m'
    = h.tailCount m + UInt32.ofNat (bytes.length / h.geometry.unitSize.toNat)
  unread_eq : h.unread m' = h.unread m ++ bytes

/-- The reader has released bytes and has done nothing else. -/
structure Released (h : Halves) (m m' : Memory) (bytes : List UInt8) : Prop where
  inOrder : h.InOrder m'
  head_eq : h.headCount m'
    = h.headCount m + UInt32.ofNat (bytes.length / h.geometry.unitSize.toNat)
  tail_eq : h.tailCount m' = h.tailCount m
  unread_eq : h.unread m = bytes ++ h.unread m'
  bytes_eq : m'.bytes = m.bytes

theorem Published.refl (ok : h.InOrder m) : h.Published m m [] where
  inOrder := ok
  head_eq := rfl
  tail_eq := by rw [List.length_nil, Nat.zero_div]; exact (UInt32.add_zero _).symm
  unread_eq := (List.append_nil _).symm

theorem Released.refl (ok : h.InOrder m) : h.Released m m [] where
  inOrder := ok
  head_eq := by rw [List.length_nil, Nat.zero_div]; exact (UInt32.add_zero _).symm
  tail_eq := rfl
  unread_eq := rfl
  bytes_eq := rfl

/-- Completing a vacant plan publishes what it holds. -/
theorem published_publish (ok : h.InOrder m) (hold : h.Vacant m t) :
    h.Published m (h.publish t m) (h.contents t m) := by
  obtain ⟨k, run, hk⟩ := hold
  have hne := ok.head_ne_tail
  refine ⟨⟨ok.ring_le_region, ok.region_le_memory, hne, ?_⟩, headCount_publish hne t, ?_, ?_⟩
  · rw [occupied_publish hne run (by omega)]; exact hk
  · rw [tailCount_publish, run.next_eq, length_contents run, run.len_eq,
      Nat.mul_div_cancel _ h.geometry.unitSize_pos]
  · exact unread_publish hne run (by omega)

/-- Completing a waiting plan releases what it holds. -/
theorem released_release (ok : h.InOrder m) (hold : h.Waiting m t) :
    h.Released m (h.release t m) (h.contents t m) := by
  obtain ⟨k, run, hk⟩ := hold
  have hne := ok.head_ne_tail
  have hocc := ok.occupied_le
  refine ⟨⟨ok.ring_le_region, ok.region_le_memory, hne, ?_⟩, ?_, tailCount_release hne t, ?_, rfl⟩
  · rw [occupied_release hne run hk]; omega
  · rw [headCount_release, run.next_eq, length_contents run, run.len_eq,
      Nat.mul_div_cancel _ h.geometry.unitSize_pos]
  · exact unread_release hne run hk

/-- **A write publishes the beginning of its data**, as many whole units as there are and as are
    free beside the one that stays empty. -/
theorem published_write (ok : h.InOrder m) (data : List UInt8) :
    (h.write data m).1.toNat = h.geometry.unitSize.toNat
        * min (data.length / h.geometry.unitSize.toNat)
            (h.geometry.capacity.toNat - 1 - h.occupied m)
      ∧ h.Published m (h.write data m).2 (data.take (h.write data m).1.toNat) := by
  rcases Transfer.write?_cases h.geometry (h.headCount m) (h.tailCount m) data.length rfl with
    ⟨hzero, hnone⟩ | ⟨t, hsome, run⟩
  · simp only [write, hnone]
    refine ⟨?_, Published.refl ok⟩
    rw [occupied, hzero, Nat.mul_zero]; rfl
  · have hold : h.Vacant m t := vacant_of_write? hsome
    have hlen : t.len.toNat ≤ data.length := Transfer.len_le_of_write? hsome
    simp only [write, hsome]
    refine ⟨by rw [run.len_eq, Nat.mul_comm]; rfl, ?_⟩
    -- the plan as the fill has left it: its bytes are the data now, the rest is as before
    have hfilled : h.contents t (h.fill t data m) = data.take t.len.toNat := by
      rw [hold.contents_fill ok, List.drop_of_length_le (by rw [hold.length_contents]; exact hlen),
        List.append_nil]
    have published := published_publish (ok.fill t data) (t := t) (m := h.fill t data m) hold
    rw [hfilled] at published
    exact ⟨published.inOrder, published.head_eq, published.tail_eq,
      by rw [published.unread_eq, hold.unread_fill]⟩

/-- **A read releases the front of what waits**, as many whole units as are asked for and as fit
    into the room for them. -/
theorem released_read (ok : h.InOrder m) (room : Nat) (count : Option UInt64) :
    (h.read room count m).1.length = h.geometry.unitSize.toNat
        * Transfer.readUnits h.geometry (h.occupied m) room count
      ∧ h.Released m (h.read room count m).2 (h.read room count m).1 := by
  rcases Transfer.read?_cases h.geometry (h.headCount m) (h.tailCount m) room count rfl with
    ⟨hzero, hnone⟩ | ⟨t, hsome, run⟩
  · simp only [read, hnone]
    refine ⟨?_, Released.refl ok⟩
    rw [occupied, hzero, Nat.mul_zero]; rfl
  · have hold : h.Waiting m t := waiting_of_read? hsome
    simp only [read, hsome]
    refine ⟨?_, released_release ok hold⟩
    rw [hold.length_contents, run.len_eq, Nat.mul_comm]; rfl

/-! ## What the other side holds -/

theorem Published.occupied_le (p : h.Published m m' bytes) : h.occupied m ≤ h.occupied m' := by
  have hlen := congrArg List.length p.unread_eq
  rw [List.length_append, length_unread, length_unread] at hlen
  exact Nat.le_of_mul_le_mul_right (by omega) h.geometry.unitSize_pos

theorem Released.occupied_le (r : h.Released m m' bytes) : h.occupied m' ≤ h.occupied m := by
  have hlen := congrArg List.length r.unread_eq
  rw [List.length_append, length_unread, length_unread] at hlen
  exact Nat.le_of_mul_le_mul_right (by omega) h.geometry.unitSize_pos

/-- What a reader holds goes on waiting while the writer publishes. -/
theorem Published.waiting (p : h.Published m m' bytes) (hold : h.Waiting m t) :
    h.Waiting m' t := by
  obtain ⟨k, run, hk⟩ := hold
  exact ⟨k, by rw [p.head_eq]; exact run, Nat.le_trans hk p.occupied_le⟩

/-- What a writer holds stays vacant while the reader releases. -/
theorem Released.vacant (r : h.Released m m' bytes) (hold : h.Vacant m t) : h.Vacant m' t := by
  obtain ⟨k, run, hk⟩ := hold
  have hless := r.occupied_le
  exact ⟨k, by rw [r.tail_eq]; exact run, by omega⟩

end Halves

end SharedRing
