/-
  Which bytes a transfer moves, worked out before any byte is touched.

  Every transfer has the same form: look at both counters, decide how many whole units may move,
  move them, and store one new counter value.  Everything but the moving is arithmetic on the two
  counter values that were seen, so it is done here, as a plan that needs no memory.  A plan names
  the spans of the ring it covers (two when it passes the end of the ring), its length, and the
  value the counter is to have afterwards.  That value is fixed when the plan is made: whatever a
  peer stores into the counter in the meantime is overwritten.

  The counters are taken as they are found, also when they are impossible (a tail more than a ring
  ahead of the head).  A writer then sees no free byte, and a reader never more than one ring.
-/
import SharedRing.Geometry
import SharedRing.Memory

namespace SharedRing

/-! ## Bounded words -/

/-- The word, but no more than `limit`. -/
def atMost (limit : Nat) (w : UInt64) : UInt64 :=
  if w.toNat ≤ limit then w else UInt64.ofNat limit

/-- The difference of two words, zero where it would be negative. -/
def remaining (whole used : UInt64) : UInt64 := if whole ≤ used then 0 else whole - used

theorem toNat_atMost (limit : Nat) (w : UInt64) : (atMost limit w).toNat = min limit w.toNat := by
  unfold atMost
  split
  · omega
  · have hw : w.toNat < 2 ^ 64 := w.toNat_lt
    rw [UInt64.toNat_ofNat', Nat.mod_eq_of_lt (by omega)]; omega

theorem toNat_remaining (whole used : UInt64) :
    (remaining whole used).toNat = whole.toNat - used.toNat := by
  unfold remaining
  split
  · rename_i h
    rw [UInt64.le_iff_toNat_le] at h
    exact (Nat.sub_eq_zero_of_le h).symm
  · rename_i h
    rw [UInt64.le_iff_toNat_le] at h
    exact UInt64.toNat_sub_of_le _ _ (UInt64.le_iff_toNat_le.2 (by omega))

namespace Geometry

/-! ## What is there to move -/

variable (g : Geometry)

/-- The bytes between head and tail: published and not yet consumed. -/
def pending (head tail : UInt32) : UInt64 := g.gap head tail

/-- The free bytes, less the one unit that is always kept empty so that a full ring never has
    `tail = head`. -/
def free (head tail : UInt32) : UInt64 :=
  remaining (remaining g.size (g.pending head tail)) g.unitSize.toUInt64

/-- The bytes from a unit to the end of the ring. -/
def toEnd (units : UInt32) : UInt64 := g.size - g.unitPosition units

/-- A non-empty number of whole units. -/
def isWhole (len : UInt64) : Bool := len != 0 && g.truncate len == len

end Geometry

/-! ## Plans -/

/-- A contiguous run of bytes of the ring. -/
structure Span where
  start : Nat
  len : Nat
deriving DecidableEq, Repr

/-- The length of some runs together. -/
def Span.total : List Span → Nat
  | [] => 0
  | s :: rest => s.len + total rest

/-- A planned transfer: where its bytes lie, how many they are, and the counter value that completes
    it. -/
structure Transfer where
  spans : List Span
  len : UInt64
  next : UInt32
deriving DecidableEq, Repr

namespace Transfer

/-- `len` bytes from a unit on, passing the end of the ring if they do not fit before it. -/
def starting (g : Geometry) (units : UInt32) (len : UInt64) : Transfer where
  spans :=
    if g.toEnd units < len then
      [⟨(g.unitPosition units).toNat, (g.toEnd units).toNat⟩, ⟨0, (len - g.toEnd units).toNat⟩]
    else [⟨(g.unitPosition units).toNat, len.toNat⟩]
  len := len
  next := units + g.unitsIn len

/-- As many whole units as `available` bytes hold, if that is any. -/
def whole? (g : Geometry) (units : UInt32) (available : UInt64) : Option Transfer :=
  let len := g.truncate available
  if len = 0 then none else some (starting g units len)

/-- Exactly `len` bytes before the end of the ring, if so many are available there. -/
def exactly? (g : Geometry) (units : UInt32) (available len : UInt64) : Option Transfer :=
  if g.isWhole len && len ≤ atMost (g.toEnd units).toNat available then
    some (starting g units len)
  else none

/-- The plan to write as much as fits of `offered` bytes. -/
def write? (g : Geometry) (head tail : UInt32) (offered : Nat) : Option Transfer :=
  whole? g tail (atMost offered (g.free head tail))

/-- The plan to reserve exactly `len` contiguous free bytes. -/
def reserve? (g : Geometry) (head tail : UInt32) (len : UInt64) : Option Transfer :=
  exactly? g tail (g.free head tail) len

/-- The plan to read into a buffer of `room` bytes.  No count, or a count of zero, asks for all
    there is; a tail that claims more than a full ring is believed only that far. -/
def read? (g : Geometry) (head tail : UInt32) (room : Nat) (count : Option UInt64) :
    Option Transfer :=
  let available := atMost g.size.toNat (g.pending head tail)
  let wanted := match count with
    | some n => if n = 0 then available else atMost n.toNat available
    | none => available
  whole? g head (atMost room wanted)

/-- The plan to look at all readable bytes before the end of the ring. -/
def view? (g : Geometry) (head tail : UInt32) : Option Transfer :=
  whole? g head (atMost (g.toEnd head).toNat (g.pending head tail))

/-- The plan to look at exactly `len` readable bytes before the end of the ring. -/
def viewOf? (g : Geometry) (head tail : UInt32) (len : UInt64) : Option Transfer :=
  exactly? g head (g.pending head tail) len

/-! ## What a plan depends on -/

theorem whole?_eq_some {g : Geometry} {units : UInt32} {available : UInt64} {t : Transfer}
    (h : whole? g units available = some t) :
    g.truncate available ≠ 0 ∧ t = starting g units (g.truncate available) := by
  simp only [whole?] at h
  split at h
  · contradiction
  · rename_i hlen
    exact ⟨hlen, (Option.some.inj h).symm⟩

/-- Nothing offered is nothing to write. -/
theorem write?_zero (g : Geometry) (head tail : UInt32) : write? g head tail 0 = none := by
  have hlen : g.truncate (atMost 0 (g.free head tail)) = 0 := by
    rw [← UInt64.toNat_inj, Geometry.toNat_truncate, toNat_atMost, Nat.zero_min, Nat.zero_div,
      Nat.zero_mul]; rfl
  simp only [write?, whole?, hlen, if_pos]

/-- A write takes no more than it is offered. -/
theorem len_le_of_write? {g : Geometry} {head tail : UInt32} {offered : Nat} {t : Transfer}
    (h : write? g head tail offered = some t) : t.len.toNat ≤ offered := by
  obtain ⟨-, rfl⟩ := whole?_eq_some h
  have hlen := g.toNat_truncate (atMost offered (g.free head tail))
  have hdiv := Nat.div_mul_le_self (atMost offered (g.free head tail)).toNat g.unitSize.toNat
  have hfree := toNat_atMost offered (g.free head tail)
  simp only [starting]
  omega

/-- Bytes that a write leaves behind could as well not have been offered. -/
theorem write?_len {g : Geometry} {head tail : UInt32} {offered : Nat} {t : Transfer}
    (h : write? g head tail offered = some t) : write? g head tail t.len.toNat = some t := by
  obtain ⟨hne, rfl⟩ := whole?_eq_some h
  have hlen := g.toNat_truncate (atMost offered (g.free head tail))
  have hfree := toNat_atMost offered (g.free head tail)
  have hdiv := Nat.div_mul_le_self (atMost offered (g.free head tail)).toNat g.unitSize.toNat
  have hsame : g.truncate (atMost (g.truncate (atMost offered (g.free head tail))).toNat
      (g.free head tail)) = g.truncate (atMost offered (g.free head tail)) := by
    rw [← UInt64.toNat_inj, Geometry.toNat_truncate, toNat_atMost, Nat.min_eq_left (by omega), hlen,
      Nat.mul_div_cancel _ g.unitSize_pos]
  unfold write? whole?
  simp only [starting, hsame, if_neg hne]

/-- The spans of a plan are as long as the plan. -/
theorem total_starting (g : Geometry) (units : UInt32) (len : UInt64) :
    Span.total (starting g units len).spans = len.toNat := by
  simp only [starting]
  split
  · rename_i h
    rw [UInt64.lt_iff_toNat_lt] at h
    have hsub : (len - g.toEnd units).toNat = len.toNat - (g.toEnd units).toNat :=
      UInt64.toNat_sub_of_le _ _ (UInt64.le_iff_toNat_le.2 (Nat.le_of_lt h))
    simp only [Span.total, hsub]
    omega
  · simp only [Span.total, Nat.add_zero]

/-- The spans of a write are as long as the write. -/
theorem total_of_write? {g : Geometry} {head tail : UInt32} {offered : Nat} {t : Transfer}
    (h : write? g head tail offered = some t) : Span.total t.spans = t.len.toNat := by
  obtain ⟨-, rfl⟩ := whole?_eq_some h
  exact total_starting ..

end Transfer

/-! ## Moving the bytes -/

namespace Bytes

/-- The bytes of some spans, in order; spans count from `base`. -/
def gather (m : Bytes) (base : Nat) (spans : List Span) : List UInt8 :=
  spans.flatMap fun s => m.read (base + s.start) s.len

/-- Fills spans in order with as much of `data` as they take; spans count from `base`. -/
def scatter (m : Bytes) (base : Nat) : List Span → List UInt8 → Bytes
  | [], _ => m
  | s :: rest, data =>
    scatter (m.write (base + s.start) (data.take s.len)) base rest (data.drop s.len)

@[simp] theorem size_scatter (m : Bytes) (base : Nat) (spans : List Span) (data : List UInt8) :
    (m.scatter base spans data).size = m.size := by
  induction spans generalizing m data with
  | nil => rfl
  | cons s rest ih => rw [scatter, ih, size_write]

/-- Spans take no more than their length. -/
theorem scatter_take (m : Bytes) (base : Nat) (spans : List Span) (data : List UInt8) :
    m.scatter base spans (data.take (Span.total spans)) = m.scatter base spans data := by
  induction spans generalizing m data with
  | nil => rfl
  | cons s rest ih =>
    rw [Span.total, scatter, scatter, List.take_take,
      Nat.min_eq_left (Nat.le_add_right _ _), List.drop_take, Nat.add_sub_cancel_left, ih]

end Bytes

/-- A ring of four units of three bytes that holds one unit, its counters about to wrap: of eight
    bytes offered, six are whole units that fit, and they pass the end of the ring. -/
example : (do
    let g ← (Geometry.ofNumbers 4 3).toOption
    Transfer.write? g 0xFFFFFFFE 0xFFFFFFFF 8)
      = some ⟨[⟨9, 3⟩, ⟨0, 3⟩], 6, 1⟩ := by decide

end SharedRing
