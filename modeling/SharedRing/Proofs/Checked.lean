/-
  Transfers in checked arithmetic.

  Here the calls of a session are carried out once more, step by step, and each step that could go
  wrong is looked at: a sum or a product that leaves 64 bits, a difference below zero, a remainder by
  zero, a number of units that loses bits, a slice that its data does not have, an access beyond the
  first `limit` bytes of the region.  Any of them stops the run with a `Trap`.

  None ever does.  The counters are not assumed to make sense: a peer may store anything into either
  of them at any moment, within a call too (`Sight`), and head and tail may even be one counter.  What
  keeps a transfer inside the ring is only that its length is clamped and its beginning is a
  remainder.
-/
import SharedRing.Proofs.Unread
import SharedRing.Proofs.Meddling

namespace SharedRing.Checked

/-! ## Steps that can go wrong -/

/-- Why a run stops. -/
inductive Trap where
  | overflow
  | underflow
  | zeroDivisor
  /-- a word of 64 bits did not fit into one of 32 -/
  | narrowed
  /-- a slice ends before it begins or beyond its data -/
  | slice
  /-- an access beyond the bytes that may be touched -/
  | access
  /-- a chunk that is not one run of bytes -/
  | torn
deriving DecidableEq, Repr

def mul (a b : UInt64) : Except Trap UInt64 :=
  if a.toNat * b.toNat < 2 ^ 64 then .ok (a * b) else .error .overflow

def sub (a b : UInt64) : Except Trap UInt64 := if b ≤ a then .ok (a - b) else .error .underflow

def rem (a b : UInt64) : Except Trap UInt64 := if b = 0 then .error .zeroDivisor else .ok (a % b)

def div (a b : UInt64) : Except Trap UInt64 := if b = 0 then .error .zeroDivisor else .ok (a / b)

def narrow (a : UInt64) : Except Trap UInt32 :=
  if a.toNat < 2 ^ 32 then .ok a.toUInt32 else .error .narrowed

/-- The bytes of `data` from one index to another. -/
def slice (data : List UInt8) (first last : Nat) : Except Trap (List UInt8) :=
  if first ≤ last ∧ last ≤ data.length then .ok ((data.drop first).take (last - first))
  else .error .slice

/-- The bytes from `offset` on are among the first `limit` bytes of a region. -/
def within (limit offset len : Nat) : Except Trap Unit :=
  if 2 ^ 64 ≤ offset + len then .error .overflow
  else if offset + len ≤ limit then .ok () else .error .access

/-- Puts bytes into a region. -/
def copyIn (limit : Nat) (region : Region) (offset : Nat) (src : List UInt8) (m : Memory) :
    Except Trap Memory := do
  within limit offset src.length
  return { m with bytes := m.bytes.write (region.offset + offset) src }

/-- Fills a buffer, from one index to another, with bytes of a region. -/
def copyOut (limit : Nat) (region : Region) (offset : Nat) (buffer : List UInt8)
    (first last : Nat) (m : Memory) : Except Trap (List UInt8) := do
  let dst ← slice buffer first last
  within limit offset dst.length
  return buffer.take first ++ m.bytes.read (region.offset + offset) dst.length ++ buffer.drop last

/-! ## Geometry -/

def size (g : Geometry) : Except Trap UInt64 := mul g.capacity.toUInt64 g.unitSize.toUInt64

def bytesOf (g : Geometry) (units : UInt32) : Except Trap UInt64 :=
  mul units.toUInt64 g.unitSize.toUInt64

def truncate (g : Geometry) (len : UInt64) : Except Trap UInt64 := do
  sub len (← rem len g.unitSize.toUInt64)

def unitPosition (g : Geometry) (units : UInt32) : Except Trap UInt64 := do
  rem (← bytesOf g units) (← size g)

def toEnd (g : Geometry) (units : UInt32) : Except Trap UInt64 := do
  sub (← size g) (← unitPosition g units)

def free (g : Geometry) (head tail : UInt32) : Except Trap UInt64 := do
  return remaining (remaining (← size g) (← bytesOf g (tail - head))) g.unitSize.toUInt64

def unitsIn (g : Geometry) (len : UInt64) : Except Trap UInt32 := do
  narrow (← div len g.unitSize.toUInt64)

/-! ## Transfers -/

variable (limit : Nat) (h : Halves)

/-- Puts the first `len` bytes of `data` into the ring from a unit on, in two parts if they pass the
    end of the ring. -/
def putFrom (units : UInt32) (len : UInt64) (data : List UInt8) (m : Memory) :
    Except Trap Memory := do
  let pos ← unitPosition h.geometry units
  let toEnd ← sub (← size h.geometry) pos
  if toEnd < len then
    let m ← copyIn limit h.region pos.toNat (← slice data 0 toEnd.toNat) m
    copyIn limit h.region 0 (← slice data toEnd.toNat len.toNat) m
  else copyIn limit h.region pos.toNat (← slice data 0 len.toNat) m

/-- Takes `len` bytes of the ring from a unit on into the beginning of a buffer. -/
def takeFrom (units : UInt32) (len : UInt64) (buffer : List UInt8) (m : Memory) :
    Except Trap (List UInt8) := do
  let pos ← unitPosition h.geometry units
  let toEnd ← sub (← size h.geometry) pos
  if toEnd < len then
    let buffer ← copyOut limit h.region pos.toNat buffer 0 toEnd.toNat m
    copyOut limit h.region 0 buffer toEnd.toNat len.toNat m
  else copyOut limit h.region pos.toNat buffer 0 len.toNat m

def write (data : List UInt8) (v : Sight) : Except Trap (UInt64 × Memory) := do
  let len ← truncate h.geometry (atMost data.length (← free h.geometry v.head v.tail))
  if len = 0 then return (0, v.memory)
  let m ← putFrom limit h v.tail len data v.memory
  let units ← unitsIn h.geometry len
  return (len, m.setCounter h.tail (v.tail + units))

/-- What is asked for of the bytes that are available. -/
def wanted (available : UInt64) (count : Option UInt64) : UInt64 :=
  match count with
  | some n => if n = 0 then available else atMost n.toNat available
  | none => available

def readInto (buffer : List UInt8) (count : Option UInt64) (v : Sight) :
    Except Trap (Nat × List UInt8 × Memory) := do
  let available := atMost (← size h.geometry).toNat (← bytesOf h.geometry (v.tail - v.head))
  let len ← truncate h.geometry (atMost buffer.length (wanted available count))
  if len = 0 then return (0, buffer, v.memory)
  let buffer ← takeFrom limit h v.head len buffer v.memory
  let units ← unitsIn h.geometry len
  return (len.toNat, buffer, v.memory.setCounter h.head (v.head + units))

/-- A chunk of `len` bytes from a unit on, borrowed from the region. -/
def chunkAt (units : UInt32) (len : UInt64) : Except Trap Transfer := do
  let pos ← unitPosition h.geometry units
  let count ← unitsIn h.geometry len
  within limit pos.toNat len.toNat
  return ⟨[⟨pos.toNat, len.toNat⟩], len, units + count⟩

/-- Whether a length is a non-empty number of whole units. -/
def isWhole (len : UInt64) : Except Trap Bool := do
  if len = 0 then return false
  return (← truncate h.geometry len) == len

/-- A chunk of exactly `len` bytes, if so many are available. -/
def exactly? (units : UInt32) (available len : UInt64) : Except Trap (Option Transfer) := do
  if available < len then return none
  return some (← chunkAt limit h units len)

def reserve? (len : UInt64) (v : Sight) : Except Trap (Option Transfer) := do
  if !(← isWhole h len) then return none
  let toEnd ← toEnd h.geometry v.tail
  exactly? limit h v.tail (atMost toEnd.toNat (← free h.geometry v.head v.tail)) len

/-- The bytes between head and tail that lie before the end of the ring. -/
def contiguous (v : Sight) : Except Trap UInt64 := do
  let toEnd ← toEnd h.geometry v.head
  return atMost toEnd.toNat (← bytesOf h.geometry (v.tail - v.head))

def view? (v : Sight) : Except Trap (Option Transfer) := do
  let len ← truncate h.geometry (← contiguous h v)
  if len = 0 then return none
  return some (← chunkAt limit h v.head len)

def viewOf? (len : UInt64) (v : Sight) : Except Trap (Option Transfer) := do
  if !(← isWhole h len) then return none
  exactly? limit h v.head (← contiguous h v) len

/-- The one run of bytes that an open chunk is. -/
def span (t : Transfer) : Except Trap Span :=
  match t.spans with
  | [s] => .ok s
  | _ => .error .torn

/-- Puts data at the beginning of an open chunk. -/
def fill (t : Transfer) (data : List UInt8) (m : Memory) : Except Trap Memory := do
  let s ← span t
  copyIn limit h.region s.start (data.take s.len) m

/-- The bytes of an open chunk. -/
def look (t : Transfer) (m : Memory) : Except Trap (List UInt8) := do
  let s ← span t
  within limit s.start s.len
  return m.bytes.read (h.region.offset + s.start) s.len

def counts (m : Memory) : Except Trap Counts := do
  let head := h.headCount m
  let tail := h.tailCount m
  return {
    head
    tail
    headInBytes := ← bytesOf h.geometry head
    tailInBytes := ← bytesOf h.geometry tail
    pending := ← bytesOf h.geometry (tail - head)
    free := ← free h.geometry head tail }

/-! ## Sessions -/

/-- Answers one call, with what a peer stores meanwhile.  Calls that neither compute nor touch the
    region are answered as ever. -/
def step (s : Session) (c : Call) (p : Meddling) (m : Memory) :
    Except Trap (Answer × Session × Memory) := do
  match c, s.writing, s.reading with
  | .write data, none, _ =>
    let (n, m) ← write limit s.halves data (s.halves.lookAsWriter p m)
    return (.moved n, s, m)
  | .reserve len, none, _ =>
    let v := s.halves.lookAsWriter p m
    return s.openWriting (← reserve? limit s.halves len v) v.memory
  | .fill data, some t, _ => return (.done, s, ← fill limit s.halves t data m)
  | .writerCounts, none, _ => return (.counts (← counts s.halves m), s, m)
  | .read buffer count, _, none =>
    let (n, buffer, m) ← readInto limit s.halves buffer count (s.halves.lookAsReader p m)
    return (.received n buffer, s, m)
  | .view, _, none =>
    let v := s.halves.lookAsReader p m
    return s.openReading (← view? limit s.halves v) v.memory
  | .viewOf len, _, none =>
    let v := s.halves.lookAsReader p m
    return s.openReading (← viewOf? limit s.halves len v) v.memory
  | .look, _, some t => return (.seen (← look limit s.halves t m), s, m)
  | .readerCounts, _, none => return (.counts (← counts s.halves m), s, m)
  | c, _, _ => return s.step c m

/-- Answers one call that has seen the counters, as the writer or as the reader. -/
def stepSeeing (s : Session) (c : Call) (w r : Sight) (m : Memory) :
    Except Trap (Answer × Session × Memory) := do
  match c, s.writing, s.reading with
  | .write data, none, _ =>
    let (n, m) ← write limit s.halves data w
    return (.moved n, s, m)
  | .reserve len, none, _ => return s.openWriting (← reserve? limit s.halves len w) w.memory
  | .fill data, some t, _ => return (.done, s, ← fill limit s.halves t data m)
  | .writerCounts, none, _ => return (.counts (← counts s.halves m), s, m)
  | .read buffer count, _, none =>
    let (n, buffer, m) ← readInto limit s.halves buffer count r
    return (.received n buffer, s, m)
  | .view, _, none => return s.openReading (← view? limit s.halves r) r.memory
  | .viewOf len, _, none => return s.openReading (← viewOf? limit s.halves len r) r.memory
  | .look, _, some t => return (.seen (← look limit s.halves t m), s, m)
  | .readerCounts, _, none => return (.counts (← counts s.halves m), s, m)
  | c, _, _ => return s.step c m

theorem step_eq_stepSeeing (s : Session) (c : Call) (p : Meddling) (m : Memory) : step limit s c p m
    = stepSeeing limit s c (s.halves.lookAsWriter p m) (s.halves.lookAsReader p m) m := by
  unfold step stepSeeing
  cases c with
  | write _ | reserve _ | fill _ | writerCounts => cases s.writing <;> rfl
  | read _ _ | view | viewOf _ | look | readerCounts => cases s.reading <;> rfl
  | _ => rfl

/-- Answers a list of calls in order, until one of them traps. -/
def run (s : Session) :
    List (Call × Meddling) → Memory → Except Trap (List Answer × Session × Memory)
  | [], m => return ([], s, m)
  | (c, p) :: rest, m => do
    let (a, s, m) ← step limit s c p m
    let (answers, s, m) ← run s rest m
    return (a :: answers, s, m)

/-! ## No step goes wrong -/

theorem ok_bind {α β : Type} (a : α) (f : α → Except Trap β) : (Except.ok a >>= f) = f a := rfl

variable (g : Geometry)

theorem unitSize_ne_zero : g.unitSize.toUInt64 ≠ 0 := by
  intro hzero
  have hpos := g.unitSize_pos
  rw [← UInt64.toNat_inj, UInt32.toNat_toUInt64, UInt64.toNat_zero] at hzero
  omega

theorem size_ne_zero : g.size ≠ 0 := by
  intro hzero
  have hpos := g.size_pos
  rw [hzero, UInt64.toNat_zero] at hpos
  omega

/-- The product of two words of 32 bits does not overflow. -/
theorem mul_eq (a b : UInt32) : mul a.toUInt64 b.toUInt64 = .ok (a.toUInt64 * b.toUInt64) := by
  rw [mul, if_pos (by
    rw [UInt32.toNat_toUInt64, UInt32.toNat_toUInt64]; exact Geometry.mul_lt_word a b)]

theorem size_eq : size g = .ok g.size := mul_eq _ _

theorem bytesOf_eq (units : UInt32) : bytesOf g units = .ok (g.bytesOf units) := mul_eq _ _

/-- A length is at least what it leaves when units are taken from it. -/
theorem truncate_eq (len : UInt64) : truncate g len = .ok (g.truncate len) := by
  have hle : len % g.unitSize.toUInt64 ≤ len := by
    rw [UInt64.le_iff_toNat_le, UInt64.toNat_mod]; exact Nat.mod_le _ _
  rw [truncate, rem, if_neg (unitSize_ne_zero g), ok_bind, sub, if_pos hle]
  rfl

theorem unitPosition_eq (units : UInt32) : unitPosition g units = .ok (g.unitPosition units) := by
  rw [unitPosition, bytesOf_eq, size_eq, ok_bind, ok_bind, rem, if_neg (size_ne_zero g)]
  rfl

/-- A position is before the end of the ring. -/
theorem sub_unitPosition_eq (units : UInt32) :
    sub g.size (g.unitPosition units) = .ok (g.toEnd units) := by
  have hle : g.unitPosition units ≤ g.size := by
    rw [UInt64.le_iff_toNat_le, Geometry.toNat_unitPosition_eq_place]
    exact Nat.le_of_lt (g.place_lt units 0)
  rw [sub, if_pos hle]
  rfl

theorem toEnd_eq (units : UInt32) : toEnd g units = .ok (g.toEnd units) := by
  rw [toEnd, size_eq, unitPosition_eq, ok_bind, ok_bind, sub_unitPosition_eq]

theorem free_eq (head tail : UInt32) : free g head tail = .ok (g.free head tail) := by
  rw [free, size_eq, bytesOf_eq, ok_bind, ok_bind]
  rfl

/-- A length of at most a ring is a number of units that fits a counter. -/
theorem unitsIn_eq {len : UInt64} (hlen : len.toNat ≤ g.size.toNat) :
    unitsIn g len = .ok (g.unitsIn len) := by
  have hunits : (len / g.unitSize.toUInt64).toNat < 2 ^ 32 := by
    have hle : len.toNat / g.unitSize.toNat ≤ g.capacity.toNat :=
      Nat.div_le_of_le_mul (by rw [Nat.mul_comm, ← g.toNat_size]; exact hlen)
    have hword := g.capacity.toNat_lt
    rw [UInt64.toNat_div, UInt32.toNat_toUInt64]
    omega
  rw [unitsIn, div, if_neg (unitSize_ne_zero g), ok_bind, narrow, if_pos hunits]
  rfl

theorem slice_eq {data : List UInt8} {first last : Nat} (horder : first ≤ last)
    (hlast : last ≤ data.length) :
    slice data first last = .ok ((data.drop first).take (last - first)) := by
  rw [slice, if_pos ⟨horder, hlast⟩]

/-- What lies in the ring may be touched. -/
theorem within_eq {limit offset len : Nat} (hlimit : g.size.toNat ≤ limit)
    (hfits : offset + len ≤ g.size.toNat) : within limit offset len = .ok () := by
  have hword := g.size.toNat_lt
  rw [within, if_neg (by omega), if_pos (by omega)]

variable {limit : Nat} {h : Halves} {m : Memory} {v : Sight}

theorem copyIn_eq (hlimit : h.geometry.size.toNat ≤ limit) {offset : Nat} {src : List UInt8}
    (hfits : offset + src.length ≤ h.geometry.size.toNat) : copyIn limit h.region offset src m
      = .ok { m with bytes := m.bytes.write (h.region.offset + offset) src } := by
  rw [copyIn, within_eq h.geometry hlimit hfits]
  rfl

theorem copyOut_eq (hlimit : h.geometry.size.toNat ≤ limit) {offset first last : Nat}
    {buffer : List UInt8} (horder : first ≤ last) (hlast : last ≤ buffer.length)
    (hfits : offset + (last - first) ≤ h.geometry.size.toNat) :
    copyOut limit h.region offset buffer first last m = .ok (buffer.take first
      ++ m.bytes.read (h.region.offset + offset) (last - first) ++ buffer.drop last) := by
  have hlen : ((buffer.drop first).take (last - first)).length = last - first := by
    rw [List.length_take, List.length_drop]; omega
  rw [copyOut, slice_eq horder hlast, ok_bind, hlen, within_eq h.geometry hlimit hfits]
  rfl

/-- Bytes put from a unit on are bytes put where the plan from there says. -/
theorem putFrom_eq (hlimit : h.geometry.size.toNat ≤ limit) (u : UInt32) {len : UInt64}
    (hlen : len.toNat ≤ h.geometry.size.toNat) {data : List UInt8}
    (hdata : len.toNat ≤ data.length) :
    putFrom limit h u len data m = .ok (h.fill (.starting h.geometry u len) data m) := by
  have hpos := h.geometry.toNat_unitPosition_eq_place u
  have hend := h.geometry.toNat_toEnd u
  have hplace := h.geometry.place_lt u 0
  rw [putFrom, unitPosition_eq, ok_bind, size_eq, ok_bind, sub_unitPosition_eq, ok_bind]
  split
  · -- two parts
    rename_i hlt
    have hlt' := UInt64.lt_iff_toNat_lt.1 hlt
    have hrest := h.geometry.toNat_sub_toEnd u hlt
    rw [slice_eq (Nat.zero_le _) (by omega), ok_bind,
      copyIn_eq hlimit (by rw [List.length_take, List.length_drop]; omega), ok_bind,
      slice_eq (Nat.le_of_lt hlt') hdata, ok_bind,
      copyIn_eq hlimit (by rw [List.length_take, List.length_drop]; omega)]
    simp only [Halves.fill, Transfer.starting, if_pos hlt, Bytes.scatter, List.drop_zero,
      Nat.sub_zero, hrest]
  · rename_i hge
    have hge' := (h.geometry.not_toEnd_lt_iff u).1 hge
    rw [slice_eq (Nat.zero_le _) hdata, ok_bind,
      copyIn_eq hlimit (by rw [List.length_take, List.length_drop]; omega)]
    simp only [Halves.fill, Transfer.starting, if_neg hge, Bytes.scatter, List.drop_zero,
      Nat.sub_zero]

/-- Bytes taken from a unit on are the bytes of the plan from there. -/
theorem takeFrom_eq (hlimit : h.geometry.size.toNat ≤ limit) (u : UInt32) {len : UInt64}
    (hlen : len.toNat ≤ h.geometry.size.toNat) {buffer : List UInt8}
    (hroom : len.toNat ≤ buffer.length) : takeFrom limit h u len buffer m
      = .ok (h.contents (.starting h.geometry u len) m ++ buffer.drop len.toNat) := by
  have hpos := h.geometry.toNat_unitPosition_eq_place u
  have hend := h.geometry.toNat_toEnd u
  have hplace := h.geometry.place_lt u 0
  rw [takeFrom, unitPosition_eq, ok_bind, size_eq, ok_bind, sub_unitPosition_eq, ok_bind]
  split
  · -- two parts
    rename_i hlt
    have hlt' := UInt64.lt_iff_toNat_lt.1 hlt
    have hrest := h.geometry.toNat_sub_toEnd u hlt
    rw [copyOut_eq hlimit (Nat.zero_le _) (by omega) (by omega), ok_bind,
      copyOut_eq hlimit (Nat.le_of_lt hlt')
        (by simp only [List.length_append, List.length_take, List.length_drop,
          Bytes.length_read]; omega) (by omega)]
    simp only [Halves.contents, Transfer.starting, if_pos hlt, Bytes.gather, List.flatMap_cons,
      List.flatMap_nil, List.append_nil, List.take_zero, List.nil_append, Nat.sub_zero, hrest]
    rw [List.take_left' (Bytes.length_read _ _ _), List.drop_append, Bytes.length_read,
      List.drop_of_length_le (by rw [Bytes.length_read]; omega), List.nil_append, List.drop_drop,
      show (h.geometry.toEnd u).toNat + (len.toNat - (h.geometry.toEnd u).toNat) = len.toNat
        from by omega]
  · rename_i hge
    have hge' := (h.geometry.not_toEnd_lt_iff u).1 hge
    rw [copyOut_eq hlimit (Nat.zero_le _) hroom (by omega)]
    simp only [Halves.contents, Transfer.starting, if_neg hge, Bytes.gather, List.flatMap_cons,
      List.flatMap_nil, List.append_nil, List.take_zero, List.nil_append, Nat.sub_zero]

/-- What is truncated from a length of at most a ring is at most a ring. -/
theorem toNat_truncate_le (len : UInt64) : (g.truncate len).toNat ≤ len.toNat := by
  rw [Geometry.toNat_truncate]; exact Nat.div_mul_le_self _ _

theorem write_eq (hlimit : h.geometry.size.toNat ≤ limit) (data : List UInt8) :
    write limit h data v = .ok (h.writeSeeing data v) := by
  rw [write, free_eq, ok_bind, truncate_eq, ok_bind]
  simp only [Halves.writeSeeing, Transfer.write?, Transfer.whole?]
  split
  · rfl
  · -- the length is clamped by the free bytes and by the data
    have htrunc := toNat_truncate_le h.geometry
      (atMost data.length (h.geometry.free v.head v.tail))
    have hmost := toNat_atMost data.length (h.geometry.free v.head v.tail)
    have hfree := h.geometry.toNat_free v.head v.tail
    have hring : (h.geometry.capacity.toNat - 1 - (v.tail - v.head).toNat)
        * h.geometry.unitSize.toNat ≤ h.geometry.size.toNat := by
      rw [Geometry.toNat_size]; exact Nat.mul_le_mul_right _ (by omega)
    rw [putFrom_eq hlimit _ (by omega) (by omega), ok_bind, unitsIn_eq _ (by omega)]
    rfl

/-- One byte less than the ring, and the write into its last unit is stopped. -/
example : let v := Halves.small.lookAsWriter {} .small
    (write 12 .small [1, 2, 3] v).toOption.isSome = true
      ∧ (write 11 .small [1, 2, 3] v).toOption.isSome = false := by decide

theorem wanted_le (available : UInt64) (count : Option UInt64) :
    (wanted available count).toNat ≤ available.toNat := by
  cases count with
  | none => exact Nat.le_refl _
  | some n =>
    rw [wanted]
    split
    · exact Nat.le_refl _
    · rw [toNat_atMost]; exact Nat.min_le_right _ _

theorem readInto_eq (hlimit : h.geometry.size.toNat ≤ limit) (buffer : List UInt8)
    (count : Option UInt64) :
    readInto limit h buffer count v = .ok (h.readSeeing buffer count v) := by
  have hplan : Transfer.read? h.geometry v.head v.tail buffer.length count
      = Transfer.whole? h.geometry v.head (atMost buffer.length (wanted (atMost
          h.geometry.size.toNat (h.geometry.bytesOf (v.tail - v.head))) count)) := rfl
  rw [readInto, size_eq, ok_bind, bytesOf_eq, ok_bind]
  simp only [Halves.readSeeing, hplan, Transfer.whole?, truncate_eq, ok_bind]
  -- the length is clamped by the ring, whatever the counters claim, and by the buffer
  have htrunc := toNat_truncate_le h.geometry (atMost buffer.length (wanted (atMost
    h.geometry.size.toNat (h.geometry.bytesOf (v.tail - v.head))) count))
  have hroom := toNat_atMost buffer.length (wanted (atMost h.geometry.size.toNat
    (h.geometry.bytesOf (v.tail - v.head))) count)
  have hwanted := wanted_le (atMost h.geometry.size.toNat
    (h.geometry.bytesOf (v.tail - v.head))) count
  have hring := toNat_atMost h.geometry.size.toNat (h.geometry.bytesOf (v.tail - v.head))
  generalize h.geometry.truncate _ = len at htrunc ⊢
  split
  · rfl
  · have hlen : len.toNat ≤ h.geometry.size.toNat := by omega
    have hgot : (h.contents (.starting h.geometry v.head len) v.memory).length = len.toNat := by
      rw [h.contents_starting _ _ len hlen, Halves.length_stretch]
    rw [takeFrom_eq hlimit _ hlen (by omega), ok_bind, unitsIn_eq _ hlen]
    simp only [hgot]
    rfl

/-- A chunk from a unit on that ends before the ring does is the plan from there. -/
theorem chunkAt_eq (hlimit : h.geometry.size.toNat ≤ limit) {u : UInt32} {len : UInt64}
    (hlen : len.toNat ≤ (h.geometry.toEnd u).toNat) :
    chunkAt limit h u len = .ok (.starting h.geometry u len) := by
  have hpos := h.geometry.toNat_unitPosition_eq_place u
  have hend := h.geometry.toNat_toEnd u
  have hplace := h.geometry.place_lt u 0
  have hge := (h.geometry.not_toEnd_lt_iff u).2 hlen
  rw [chunkAt, unitPosition_eq, ok_bind, unitsIn_eq _ (by omega), ok_bind,
    within_eq h.geometry hlimit (by omega), ok_bind, Transfer.starting, if_neg hge]
  rfl

theorem isWhole_eq (len : UInt64) : isWhole h len = .ok (h.geometry.isWhole len) := by
  rw [isWhole]
  split
  · rename_i hzero
    rw [hzero]; rfl
  · rename_i hne
    rw [truncate_eq, ok_bind, Geometry.isWhole, bne_iff_ne.2 hne]
    rfl

theorem exactly?_eq (hlimit : h.geometry.size.toNat ≤ limit) (u : UInt32)
    (available len : UInt64) (hwhole : h.geometry.isWhole len = true) :
    exactly? limit h u (atMost (h.geometry.toEnd u).toNat available) len
      = .ok (Transfer.exactly? h.geometry u available len) := by
  have hmost := toNat_atMost (h.geometry.toEnd u).toNat available
  rw [exactly?, Transfer.exactly?, hwhole]
  simp only [Bool.true_and, decide_eq_true_eq]
  rcases Nat.lt_or_ge (atMost (h.geometry.toEnd u).toNat available).toNat len.toNat with hlt | hge
  · have hnot : ¬ len ≤ atMost (h.geometry.toEnd u).toNat available := fun hle => by
      have := UInt64.le_iff_toNat_le.1 hle
      omega
    rw [if_pos (UInt64.lt_iff_toNat_lt.2 hlt), if_neg hnot]
    rfl
  · have hnot : ¬ atMost (h.geometry.toEnd u).toNat available < len := fun hlt => by
      have := UInt64.lt_iff_toNat_lt.1 hlt
      omega
    rw [if_neg hnot, chunkAt_eq hlimit (by omega), if_pos (UInt64.le_iff_toNat_le.2 hge)]
    rfl

theorem reserve?_eq (hlimit : h.geometry.size.toNat ≤ limit) (len : UInt64) :
    reserve? limit h len v = .ok (Transfer.reserve? h.geometry v.head v.tail len) := by
  rw [reserve?, isWhole_eq, ok_bind, Transfer.reserve?]
  cases hwhole : h.geometry.isWhole len with
  | false => rw [Transfer.exactly?, hwhole]; rfl
  | true =>
    simp only [Bool.not_true, Bool.false_eq_true, if_false, toEnd_eq, ok_bind, free_eq]
    exact exactly?_eq hlimit _ _ _ hwhole

theorem contiguous_eq : contiguous h v = .ok (atMost (h.geometry.toEnd v.head).toNat
    (h.geometry.pending v.head v.tail)) := by
  rw [contiguous, toEnd_eq, ok_bind, bytesOf_eq, ok_bind]
  rfl

theorem view?_eq (hlimit : h.geometry.size.toNat ≤ limit) :
    view? limit h v = .ok (Transfer.view? h.geometry v.head v.tail) := by
  rw [view?, contiguous_eq, ok_bind, truncate_eq, ok_bind, Transfer.view?, Transfer.whole?]
  have htrunc := toNat_truncate_le h.geometry (atMost (h.geometry.toEnd v.head).toNat
    (h.geometry.pending v.head v.tail))
  have hmost := toNat_atMost (h.geometry.toEnd v.head).toNat (h.geometry.pending v.head v.tail)
  split
  · rfl
  · rw [chunkAt_eq hlimit (by omega)]; rfl

theorem viewOf?_eq (hlimit : h.geometry.size.toNat ≤ limit) (len : UInt64) :
    viewOf? limit h len v = .ok (Transfer.viewOf? h.geometry v.head v.tail len) := by
  rw [viewOf?, isWhole_eq, ok_bind, Transfer.viewOf?]
  cases hwhole : h.geometry.isWhole len with
  | false => rw [Transfer.exactly?, hwhole]; rfl
  | true =>
    simp only [Bool.not_true, Bool.false_eq_true, if_false, contiguous_eq, ok_bind]
    exact exactly?_eq hlimit _ _ _ hwhole

theorem counts_eq : counts h m = .ok (h.counts m) := by
  rw [counts, bytesOf_eq, ok_bind, bytesOf_eq, ok_bind, bytesOf_eq, ok_bind, free_eq]
  rfl

end SharedRing.Checked
