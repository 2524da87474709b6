/-
  A ring in a file whose header a peer overwrites.

  A peer that maps the same file may store anything to any field of the header, at any moment: before
  a ring is bound, before it is split, and inside every call of its halves.  Two geometries meet
  then.  The one that was checked when the file was made or opened says which bytes may be touched;
  the one that the header declares when a ring is bound says where the ring's units lie.  Splitting
  compares the two, and after that the header's geometry is not looked at again.

  Calls still look at head, tail and signal.  What they make of these is bounded whatever was seen
  (`Session.Chunks.stepSeeing`), and in checked arithmetic a call touches only the bytes that were
  checked (`Checked.stepSeeing_eq`).  So what carries a run is that the halves are the ones that were
  split and that the file is long enough (`SharedFile.Fits`).
-/
import SharedRing.Proofs.Bounds
import SharedRing.Proofs.FileFormat

namespace SharedRing

/-! ## One field of the header for each call -/

/-- The field of the header that a call may store to.  All transfers of the writer store the tail
    and all of the reader the head. -/
def Call.field? : Call → Option Header.Field
  | .write _ | .publish | .peerTail _ => some .tail
  | .read _ _ | .release | .peerHead _ => some .head
  | .addSignal _ | .takeSignal | .peerSignal _ => some .signal
  | _ => none

/-- The fields that a ring is bound to. -/
def Header.Field.isCounter : Field → Bool
  | .head | .tail | .signal => true
  | _ => false

theorem Call.isCounter_of_field? {c : Call} {f : Header.Field} (h : c.field? = some f) :
    f.isCounter = true := by
  cases c with
  | write _ | publish | peerTail _ | read _ _ | release | peerHead _ | addSignal _ | takeSignal
  | peerSignal _ =>
    obtain rfl := Option.some.inj h
    rfl
  | _ => cases h

namespace Header

/-- A field covers a byte of the file. -/
def Field.Covers (f : Field) (j : Nat) : Prop := f.offset ≤ j ∧ j < f.offset + f.width

/-- What a ring's memory says about a field, where it says anything. -/
def Field.inMemory (m : Memory) : Field → Option Nat
  | .head => some (m.counter 0).toNat
  | .tail => some (m.counter 1).toNat
  | .signal => some (m.signal 0).toNat
  | _ => none

/-- Two stores of a field leave the same byte, if they store the same there or found the same. -/
theorem Field.byte_store_congr {f : Field} {b b' : Bytes} {n n' j : Nat} (hsize : size ≤ b.size)
    (hsize' : size ≤ b'.size) (hbyte : b.byte j = b'.byte j) (hstored : f.Covers j → n = n') :
    (f.store n b).byte j = (f.store n' b').byte j := by
  have hstop := f.stop_le_size
  rw [store, store, Bytes.byte_write _ _ _ _ (by rw [LittleEndian.length_encode]; omega),
    Bytes.byte_write _ _ _ _ (by rw [LittleEndian.length_encode]; omega),
    LittleEndian.length_encode, LittleEndian.length_encode]
  split
  · rename_i hcovers
    rw [hstored hcovers]
  · exact hbyte

end Header

namespace Memory

open Header (Field)

/-- Two rings leave the same byte in a file, if they left the same byte in memory and agree on the
    counters that cover it. -/
theorem byte_toFile_congr {m m' : Memory} {j : Nat} (hsize : Header.size ≤ m.bytes.size)
    (hsize' : Header.size ≤ m'.bytes.size) (hbyte : m.bytes.byte j = m'.bytes.byte j)
    (hfields : ∀ f : Field, f.Covers j → f.inMemory m = f.inMemory m') :
    m.toFile.byte j = m'.toFile.byte j := by
  rw [toFile_eq, toFile_eq]
  refine Field.byte_store_congr (by simpa using hsize) (by simpa using hsize') ?_
    fun h => Option.some.inj (hfields .signal h)
  refine Field.byte_store_congr (by simpa using hsize) (by simpa using hsize') ?_
    fun h => Option.some.inj (hfields .tail h)
  exact Field.byte_store_congr hsize hsize' hbyte fun h => Option.some.inj (hfields .head h)

end Memory

/-! ## What one call stores to -/

namespace Header.Field

variable {f : Field} {m : Memory}

theorem inMemory_withBytes (f : Field) (m : Memory) (bytes : Bytes) :
    f.inMemory { m with bytes } = f.inMemory m := by cases f <;> rfl

theorem inMemory_setHead (hf : f ≠ .head) (value : UInt32) :
    f.inMemory (m.setCounter 0 value) = f.inMemory m := by
  cases f with
  | tail =>
    have hcount : (m.setCounter 0 value).counter 1 = m.counter 1 :=
      Cells.load_store_ne _ value (by decide)
    exact congrArg (fun w : UInt32 => some w.toNat) hcount
  | head => exact absurd rfl hf
  | _ => rfl

theorem inMemory_setTail (hf : f ≠ .tail) (value : UInt32) :
    f.inMemory (m.setCounter 1 value) = f.inMemory m := by
  cases f with
  | head =>
    have hcount : (m.setCounter 1 value).counter 0 = m.counter 0 :=
      Cells.load_store_ne _ value (by decide)
    exact congrArg (fun w : UInt32 => some w.toNat) hcount
  | tail => exact absurd rfl hf
  | _ => rfl

theorem inMemory_setSignal (hf : f ≠ .signal) (value : UInt64) :
    f.inMemory (m.setSignal 0 value) = f.inMemory m := by
  cases f with
  | signal => exact absurd rfl hf
  | _ => rfl

end Header.Field

/-- The halves are bound to the counters of a header. -/
structure Halves.AtHeader (h : Halves) : Prop where
  head : h.head = 0
  tail : h.tail = 1
  signal : h.signal = some 0

namespace Session

open Header (Field)

variable {s : Session} {w r : Sight} {m : Memory} {c : Call} {f : Field} {t : Transfer}

theorem ne_of_field? {f' : Field} (hf : c.field? ≠ some f) (h : c.field? = some f') : f ≠ f' :=
  fun heq => hf (heq ▸ h)

/-- Publishing stores the tail. -/
theorem inMemory_publish (bound : s.halves.AtHeader) (hf : f ≠ .tail) (t : Transfer) :
    f.inMemory (s.halves.publish t m) = f.inMemory m := by
  rw [Halves.publish, bound.tail]; exact Field.inMemory_setTail hf _

/-- Releasing stores the head. -/
theorem inMemory_release (bound : s.halves.AtHeader) (hf : f ≠ .head) (t : Transfer) :
    f.inMemory (s.halves.release t m) = f.inMemory m := by
  rw [Halves.release, bound.head]; exact Field.inMemory_setHead hf _

theorem inMemory_writingStep (bound : s.halves.AtHeader) (hf : c.field? ≠ some f) :
    f.inMemory (s.writingStep t c m).2.2 = f.inMemory m := by
  cases c with
  | fill data => exact f.inMemory_withBytes m _
  | publish => exact inMemory_publish bound (ne_of_field? hf rfl) t
  | _ => rfl

theorem inMemory_readingStep (bound : s.halves.AtHeader) (hf : c.field? ≠ some f) :
    f.inMemory (s.readingStep t c m).2.2 = f.inMemory m := by
  cases c with
  | release => exact inMemory_release bound (ne_of_field? hf rfl) t
  | _ => rfl

theorem inMemory_write (bound : s.halves.AtHeader) (hf : f ≠ .tail) (data : List UInt8) :
    f.inMemory (s.halves.writeSeeing data w).2 = f.inMemory w.memory := by
  unfold Halves.writeSeeing
  cases Transfer.write? s.halves.geometry w.head w.tail data.length with
  | none => rfl
  | some t => exact (inMemory_publish bound hf t).trans (f.inMemory_withBytes _ _)

theorem inMemory_read (bound : s.halves.AtHeader) (hf : f ≠ .head) (buffer : List UInt8)
    (count : Option UInt64) :
    f.inMemory (s.halves.readSeeing buffer count r).2.2 = f.inMemory r.memory := by
  unfold Halves.readSeeing
  cases Transfer.read? s.halves.geometry r.head r.tail buffer.length count with
  | none => rfl
  | some t => exact inMemory_release bound hf t

/-- **A call stores to no field but its own.** -/
theorem inMemory_stepSeeing (bound : s.halves.AtHeader) (hw : w.memory = m) (hr : r.memory = m)
    (hf : c.field? ≠ some f) : f.inMemory (s.stepSeeing c w r m).2.2 = f.inMemory m := by
  unfold Session.stepSeeing Session.step
  cases c with
  | write data =>
    cases hwriting : s.writing with
    | none => exact (inMemory_write bound (ne_of_field? hf rfl) data).trans (by rw [hw])
    | some t => exact inMemory_writingStep bound hf
  | reserve len =>
    cases hwriting : s.writing with
    | none => exact congrArg f.inMemory hw
    | some t => exact inMemory_writingStep bound hf
  | fill _ | publish | discard | writerCounts =>
    cases hwriting : s.writing with
    | none => rfl
    | some t => exact inMemory_writingStep bound hf
  | read buffer count =>
    cases hreading : s.reading with
    | none => exact (inMemory_read bound (ne_of_field? hf rfl) buffer count).trans (by rw [hr])
    | some t => exact inMemory_readingStep bound hf
  | view | viewOf _ =>
    cases hreading : s.reading with
    | none => exact congrArg f.inMemory hr
    | some t => exact inMemory_readingStep bound hf
  | addSignal value =>
    cases hreading : s.reading with
    | none =>
      show f.inMemory (s.signalled m (m.addSignal s.halves.signal value)).2.2 = _
      rw [bound.signal]
      exact Field.inMemory_setSignal (ne_of_field? hf rfl) _
    | some t => exact inMemory_readingStep bound hf
  | takeSignal =>
    cases hreading : s.reading with
    | none =>
      show f.inMemory (s.signalled m (m.takeSignal s.halves.signal)).2.2 = _
      rw [bound.signal]
      exact Field.inMemory_setSignal (ne_of_field? hf rfl) _
    | some t => exact inMemory_readingStep bound hf
  | look | release | leave | readerCounts =>
    cases hreading : s.reading with
    | none => rfl
    | some t => exact inMemory_readingStep bound hf
  | peerHead value =>
    show f.inMemory (m.setCounter s.halves.head value) = _
    rw [bound.head]
    exact Field.inMemory_setHead (ne_of_field? hf rfl) _
  | peerTail value =>
    show f.inMemory (m.setCounter s.halves.tail value) = _
    rw [bound.tail]
    exact Field.inMemory_setTail (ne_of_field? hf rfl) _
  | peerSignal value =>
    show f.inMemory (s.step (.peerSignal value) m).2.2 = _
    rw [step_peerSignal_of_bound bound.signal]
    exact Field.inMemory_setSignal (ne_of_field? hf rfl) _

end Session

/-! ## A peer that overwrites the header -/

/-- Stores of a peer to fields of a header, as much of each value as the field is wide. -/
abbrev HeaderStores := List (Header.Field × UInt64)

/-- What a peer stores to the header around a call. -/
structure Tampering where
  /-- before the call -/
  before : HeaderStores := []
  /-- between the two looks of the call -/
  between : HeaderStores := []
  /-- after both looks, and before the store of the call itself -/
  after : HeaderStores := []

namespace SharedFile

variable (file : SharedFile)

/-- The memory that a ring over the file works on. -/
def memory (t : FileTree) : Memory := Memory.ofFile (t.bytes file.file)

/-- A peer stores to the header. -/
def tamper (stores : HeaderStores) (t : FileTree) : FileTree :=
  t.setBytes file.file
    (stores.foldl (fun b store => store.1.store store.2.toNat b) (t.bytes file.file))

/-- What a call has seen of the counters, as the writer's or as the reader's, and the file then. -/
structure Views where
  writer : Sight
  reader : Sight
  tree : FileTree

/-- A writer looks at the tail first, and a reader at the head. -/
def views (h : Halves) (p : Tampering) (t : FileTree) : Views :=
  let t₀ := file.tamper p.before t
  let t₁ := file.tamper p.between t₀
  let t₂ := file.tamper p.after t₁
  { writer := ⟨h.headCount (file.memory t₁), h.tailCount (file.memory t₀), file.memory t₂⟩
    reader := ⟨h.headCount (file.memory t₀), h.tailCount (file.memory t₁), file.memory t₂⟩
    tree := t₂ }

/-- Answers one call on the file, around which a peer stores to the header. -/
def stepAmid (s : Session) (c : Call) (p : Tampering) (t : FileTree) :
    (Answer × Session) × FileTree :=
  let v := file.views s.halves p t
  file.update v.tree fun m =>
    let (a, s, m) := s.stepSeeing c v.writer v.reader m
    ((a, s), m)

/-- Answers a list of calls in order. -/
def runAmid (s : Session) : List (Call × Tampering) → FileTree →
    (List Answer × Session) × FileTree
  | [], t => (([], s), t)
  | (c, p) :: rest, t =>
    let ((a, s), t) := file.stepAmid s c p t
    let ((answers, s), t) := runAmid s rest t
    ((a :: answers, s), t)

end SharedFile

namespace Checked

variable (limit : Nat) (file : SharedFile)

/-- Answers one call on the file in checked arithmetic, touching `limit` bytes behind the header at
    most. -/
def stepInFile (s : Session) (c : Call) (p : Tampering) (t : FileTree) :
    Except Trap ((Answer × Session) × FileTree) := do
  let v := file.views s.halves p t
  let (a, s, m) ← stepSeeing limit s c v.writer v.reader (file.memory v.tree)
  return ((a, s), v.tree.setBytes file.file m.toFile)

/-- Answers a list of calls in order, until one of them traps. -/
def runInFile (s : Session) :
    List (Call × Tampering) → FileTree → Except Trap ((List Answer × Session) × FileTree)
  | [], t => return (([], s), t)
  | (c, p) :: rest, t => do
    let ((a, s), t) ← stepInFile limit file s c p t
    let ((answers, s), t) ← runInFile s rest t
    return ((a :: answers, s), t)

end Checked

/-! ## What a call does to the file -/

namespace SharedFile

variable {file : SharedFile} {s : Session} {c : Call} {p : Tampering} {t : FileTree}
  {g : Geometry} {h : Halves}

/-- A peer that stores to the header leaves the file as long as it is. -/
theorem size_tamper (file : SharedFile) (stores : HeaderStores) (t : FileTree) :
    ((file.tamper stores t).bytes file.file).size = (t.bytes file.file).size := by
  rw [tamper, FileTree.bytes_setBytes]
  generalize t.bytes file.file = b
  induction stores generalizing b with
  | nil => rfl
  | cons store rest ih => exact (ih _).trans (store.1.size_store _ b)

theorem size_views (file : SharedFile) (h : Halves) (p : Tampering) (t : FileTree) :
    ((file.views h p t).tree.bytes file.file).size = (t.bytes file.file).size :=
  (size_tamper ..).trans ((size_tamper ..).trans (size_tamper ..))

/-- The halves were split from a ring over the file, and the file is as long as it was then. -/
structure Fits (file : SharedFile) (s : Session) (t : FileTree) : Prop where
  halves_eq : s.halves = { file.halves with geometry := s.halves.geometry }
  size_le : s.halves.geometry.size.toNat ≤ file.geometry.size.toNat
  chunks : s.Chunks
  file_size_le : Header.size + file.geometry.size.toNat ≤ (t.bytes file.file).size

theorem Fits.atHeader (fits : file.Fits s t) : s.halves.AtHeader := by
  rw [fits.halves_eq]; exact ⟨rfl, rfl, rfl⟩

theorem Fits.header_le (fits : file.Fits s t) : Header.size ≤ (t.bytes file.file).size :=
  Nat.le_trans (Nat.le_add_right _ _) fits.file_size_le

/-- What a call does is bounded, whatever it has seen of the counters. -/
theorem Fits.bounded (fits : file.Fits s t) (c : Call) (p : Tampering) :
    let v := file.views s.halves p t
    s.Bounded c (file.memory v.tree) (s.stepSeeing c v.writer v.reader (file.memory v.tree)) :=
  fits.chunks.stepSeeing c rfl rfl

/-- What one call does to the file, compared with the file as the peer left it. -/
structure Confined (file : SharedFile) (s : Session) (c : Call) (p : Tampering) (t : FileTree) :
    Prop where
  /-- carried out in checked arithmetic it touches no data but what was checked -/
  checked_eq : Checked.stepInFile file.geometry.size.toNat file s c p t
    = .ok (file.stepAmid s c p t)
  /-- it changes no byte but the ring's and those of its own field -/
  bytes_eq : ∀ j, j < Header.size ∨ Header.size + file.geometry.size.toNat ≤ j →
    (∀ f ∈ c.field?, ¬ f.Covers j) →
    ((file.stepAmid s c p t).2.bytes file.file).byte j
      = ((file.views s.halves p t).tree.bytes file.file).byte j
  /-- so all other fields of the header stay -/
  fields_eq : ∀ f : Header.Field, c.field? ≠ some f →
    f.load ((file.stepAmid s c p t).2.bytes file.file)
      = f.load ((file.views s.halves p t).tree.bytes file.file)
  size_eq : ((file.stepAmid s c p t).2.bytes file.file).size = (t.bytes file.file).size
  halves_eq : (file.stepAmid s c p t).1.2.halves = s.halves

/-- What a call leaves in the file is what it left in memory. -/
theorem bytes_stepAmid (file : SharedFile) (s : Session) (c : Call) (p : Tampering)
    (t : FileTree) :
    let v := file.views s.halves p t
    (file.stepAmid s c p t).2.bytes file.file
      = (s.stepSeeing c v.writer v.reader (file.memory v.tree)).2.2.toFile :=
  FileTree.bytes_setBytes _ _ _

/-- A call that has seen anything leaves every byte that is neither the ring's nor its own. -/
theorem byte_toFile_stepSeeing (bound : s.halves.AtHeader) (chunks : s.Chunks) {w r : Sight}
    (hlong : Header.size ≤ (t.bytes file.file).size) (hw : w.memory = file.memory t)
    (hr : r.memory = file.memory t) {j : Nat} (houtside : s.halves.Outside j)
    (hown : ∀ f ∈ c.field?, ¬ f.Covers j) :
    (s.stepSeeing c w r (file.memory t)).2.2.toFile.byte j = (t.bytes file.file).byte j := by
  have bounded := chunks.stepSeeing c (congrArg Memory.bytes hw) (congrArg Memory.bytes hr)
  have hbytes : (file.memory t).bytes = t.bytes file.file := rfl
  have hsame : (file.memory t).toFile.byte j = (t.bytes file.file).byte j := by
    rw [memory, Memory.toFile_ofFile hlong]
  rw [← hsame]
  refine Memory.byte_toFile_congr ?_ hlong (bounded.outside j houtside) ?_
  · rw [bounded.size_eq, hbytes]
    exact hlong
  · intro f hcovers
    exact Session.inMemory_stepSeeing bound hw hr fun hf => hown f hf hcovers

/-- So it leaves every field of the header but its own. -/
theorem load_toFile_stepSeeing (bound : s.halves.AtHeader) (chunks : s.Chunks) {w r : Sight}
    (hlong : Header.size ≤ (t.bytes file.file).size) (hw : w.memory = file.memory t)
    (hr : r.memory = file.memory t) (houtside : ∀ j < Header.size, s.halves.Outside j)
    {f : Header.Field} (hf : c.field? ≠ some f) :
    f.load (s.stepSeeing c w r (file.memory t)).2.2.toFile = f.load (t.bytes file.file) := by
  have hstop := f.stop_le_size
  refine f.load_congr ?_
  intro j hfirst hlast
  refine byte_toFile_stepSeeing bound chunks hlong hw hr (houtside j (by omega)) ?_
  intro f' hf' ⟨hfirst', hlast'⟩
  have hne : f' ≠ f := fun h => hf (h ▸ hf')
  have hapart := Header.Field.apart hne
  omega

theorem Fits.outside (fits : file.Fits s t) {j : Nat}
    (hj : j < Header.size ∨ Header.size + file.geometry.size.toNat ≤ j) : s.halves.Outside j := by
  have hle := fits.size_le
  rw [Halves.Outside, fits.halves_eq]
  show j < Header.size ∨ Header.size + s.halves.geometry.size.toNat ≤ j
  omega

/-- **One call**, with a peer that stores to the header all around it. -/
theorem Fits.confined (fits : file.Fits s t) (c : Call) (p : Tampering) :
    Confined file s c p t := by
  have hsize := size_views file s.halves p t
  have hlong : Header.size ≤ ((file.views s.halves p t).tree.bytes file.file).size := by
    rw [hsize]
    exact fits.header_le
  exact {
    checked_eq := by
      rw [Checked.stepInFile, Checked.stepSeeing_eq fits.size_le fits.chunks]
      rfl
    bytes_eq := by
      intro j hj hown
      rw [bytes_stepAmid]
      exact byte_toFile_stepSeeing fits.atHeader fits.chunks hlong rfl rfl (fits.outside hj) hown
    fields_eq := by
      intro f hf
      rw [bytes_stepAmid]
      exact load_toFile_stepSeeing fits.atHeader fits.chunks hlong rfl rfl
        (fun j hj => fits.outside (.inl hj)) hf
    size_eq := by
      rw [bytes_stepAmid, Memory.size_toFile, (fits.bounded c p).size_eq]
      exact hsize
    halves_eq := (fits.bounded c p).halves_eq }

/-- The next call relies on as much. -/
theorem Fits.step (fits : file.Fits s t) (c : Call) (p : Tampering) :
    file.Fits (file.stepAmid s c p t).1.2 (file.stepAmid s c p t).2 := by
  have confined := fits.confined c p
  exact {
    halves_eq := by rw [confined.halves_eq]; exact fits.halves_eq
    size_le := by rw [confined.halves_eq]; exact fits.size_le
    chunks := (fits.bounded c p).chunks
    file_size_le := by rw [confined.size_eq]; exact fits.file_size_le }

/-- **Any calls**: the halves stay what they are, all goes well in checked arithmetic, and the file
    stays as long as it is. -/
theorem Fits.run (fits : file.Fits s t) (calls : List (Call × Tampering)) :
    Checked.runInFile file.geometry.size.toNat file s calls t = .ok (file.runAmid s calls t)
      ∧ file.Fits (file.runAmid s calls t).1.2 (file.runAmid s calls t).2
      ∧ (file.runAmid s calls t).1.2.halves = s.halves
      ∧ ((file.runAmid s calls t).2.bytes file.file).size = (t.bytes file.file).size := by
  induction calls generalizing s t with
  | nil => exact ⟨rfl, fits, rfl, rfl⟩
  | cons call rest ih =>
    obtain ⟨c, p⟩ := call
    have confined := fits.confined c p
    obtain ⟨hchecked, hlast, hhalves, hsize⟩ := ih (fits.step c p)
    refine ⟨?_, hlast, hhalves.trans confined.halves_eq, hsize.trans confined.size_eq⟩
    rw [Checked.runInFile, confined.checked_eq, Checked.ok_bind]
    show (Checked.runInFile _ file (file.stepAmid s c p t).1.2 rest (file.stepAmid s c p t).2
      >>= _) = _
    rw [hchecked]
    rfl

/-! ## Binding and splitting -/

/-- The file was made or opened in this tree. -/
def Held (file : SharedFile) (t : FileTree) : Prop :=
  (∃ t₀ path g, create t₀ path g = (.ok file, t)) ∨ ∃ path, openFile t path = .ok file

/-- Then it has all the bytes of its ring. -/
theorem Held.file_size_le (held : file.Held t) :
    Header.size + file.geometry.size.toNat ≤ (t.bytes file.file).size := by
  rcases held with ⟨t₀, path, g, hcreate⟩ | ⟨path, hopen⟩
  · rw [(bytes_create hcreate).1, (bytes_create hcreate).2, Bytes.size_write, Bytes.size_grow,
      Header.toNat_fileSize]
    exact Nat.le_max_right _ _
  · exact ((check_eq_ok_iff _ _).1 (check_of_openFile hopen).2).1

/-- So halves with a geometry that is no bigger may be used, unless the file gets shorter. -/
theorem Held.fits (held : file.Held t) (hle : g.size.toNat ≤ file.geometry.size.toNat)
    {t' : FileTree} (whole : (t.bytes file.file).size ≤ (t'.bytes file.file).size) :
    file.Fits { halves := { file.halves with geometry := g } } t' where
  halves_eq := rfl
  size_le := hle
  chunks := .start _
  file_size_le := Nat.le_trans held.file_size_le whole

/-- The ring over the file with any geometry: bound to the header's counters, and to the bytes that
    were checked. -/
def boundRing (file : SharedFile) (g : Geometry) : Ring where
  geometry := g
  region := some file.region
  head := some 0
  tail := some 1
  signal := some 0

theorem ring_of_declared (hdeclared : (file.header t).declared = .ok g) :
    file.ring t = .ok (file.boundRing g) := by
  rw [ring, Header.ringOver, hdeclared]
  rfl

theorem ring_of_refused {refusal : Refusal} (hdeclared : (file.header t).declared = .error refusal) :
    file.ring t = .error (.badHeader refusal) := by
  rw [ring, Header.ringOver, hdeclared]
  rfl

/-- A ring over the file has the geometry that its header declares. -/
theorem ring_eq_ok_iff (r : Ring) : file.ring t = .ok r
    ↔ (file.header t).declared = .ok r.geometry ∧ r = file.boundRing r.geometry := by
  cases hdeclared : (file.header t).declared with
  | ok g =>
    rw [ring_of_declared hdeclared]
    constructor
    · intro h
      obtain rfl := Except.ok.inj h
      exact ⟨rfl, rfl⟩
    · rintro ⟨hg, hr⟩
      rw [hr, Except.ok.inj hg]
  | error refusal =>
    rw [ring_of_refused hdeclared]
    constructor
    · intro h
      cases h
    · rintro ⟨h, -⟩
      cases h

/-- A header that is not to be believed is complained of as such. -/
theorem ring_error {e : ShareError} (h : file.ring t = .error e) :
    ∃ refusal, (file.header t).declared = .error refusal ∧ e = .badHeader refusal := by
  cases hdeclared : (file.header t).declared with
  | ok g =>
    rw [ring_of_declared hdeclared] at h
    cases h
  | error refusal =>
    rw [ring_of_refused hdeclared] at h
    exact ⟨refusal, rfl, (Except.error.inj h).symm⟩

/-- **Splitting compares the two geometries.** -/
theorem halves_boundRing (file : SharedFile) (g : Geometry) : (file.boundRing g).halves
    = if g.size.toNat ≤ file.geometry.size.toNat then .ok { file.halves with geometry := g }
      else .error (.shortRegion g.size file.geometry.size.toNat) := by
  show (if file.geometry.size.toNat < g.size.toNat then
      Except.error (Refusal.shortRegion g.size file.geometry.size.toNat)
    else Except.ok { file.halves with geometry := g }) = _
  by_cases hfits : g.size.toNat ≤ file.geometry.size.toNat
  · rw [if_neg (Nat.not_lt.2 hfits), if_pos hfits]
  · rw [if_pos (Nat.not_le.1 hfits), if_neg hfits]

/-- **A header cannot mislead a ring.**  A file was made or opened, and since then anybody may have
    stored anything to it (`t₁`).  A ring is bound just if the header declares a geometry now, and
    else the complaint says what is wrong with the header.  The ring, also if it is given another
    geometry, is split just if its bytes are no more than were checked.  And whatever is stored after
    that, as long as the file is not shorter (`t₂`), and to the header around and inside every call,
    the halves are what they were; every call touches no data but the bytes that were checked, which
    the file still has, and of the header it stores to no field but its own. -/
theorem header_cannot_mislead (held : file.Held t) (t₁ : FileTree) :
    (∀ g, (∃ r, file.ring t₁ = .ok r ∧ r.geometry = g)
        ↔ Header.Declares (t₁.bytes file.file) g)
      ∧ (∀ e, file.ring t₁ = .error e → ∃ refusal, (file.header t₁).declared = .error refusal
          ∧ e = .badHeader refusal ∧ e.isInvalidData ∧ e.message = refusal.message)
      ∧ (∀ r, file.ring t₁ = .ok r → ∀ g, ({ r with geometry := g } : Ring).halves
          = if g.size.toNat ≤ file.geometry.size.toNat then .ok { file.halves with geometry := g }
            else .error (.shortRegion g.size file.geometry.size.toNat))
      ∧ ∀ r, file.ring t₁ = .ok r → ∀ g h, ({ r with geometry := g } : Ring).halves = .ok h →
          ∀ t₂ : FileTree, (t.bytes file.file).size ≤ (t₂.bytes file.file).size →
          ∀ calls : List (Call × Tampering),
          let out := file.runAmid { halves := h } calls t₂
          out.1.2.halves = h
            ∧ Checked.runInFile file.geometry.size.toNat file { halves := h } calls t₂ = .ok out
            ∧ Header.size + file.geometry.size.toNat ≤ (out.2.bytes file.file).size
            ∧ ∀ c p, Confined file out.1.2 c p out.2 := by
  have hsplit : ∀ r, file.ring t₁ = .ok r → ∀ g, ({ r with geometry := g } : Ring).halves
      = if g.size.toNat ≤ file.geometry.size.toNat then .ok { file.halves with geometry := g }
        else .error (.shortRegion g.size file.geometry.size.toNat) := by
    intro r hr g
    rw [((ring_eq_ok_iff r).1 hr).2]
    exact halves_boundRing file g
  refine ⟨?_, ?_, hsplit, ?_⟩
  · intro g
    rw [← Header.declared_decode_iff]
    constructor
    · rintro ⟨r, hr, rfl⟩
      exact ((ring_eq_ok_iff r).1 hr).1
    · intro hdeclared
      exact ⟨_, ring_of_declared hdeclared, rfl⟩
  · intro e he
    obtain ⟨refusal, hdeclared, rfl⟩ := ring_error he
    exact ⟨refusal, hdeclared, rfl, rfl, rfl⟩
  · intro r hr g h hhalves t₂ whole₂ calls out
    rw [hsplit r hr g] at hhalves
    split at hhalves
    · rename_i hle
      obtain rfl := Except.ok.inj hhalves
      obtain ⟨hchecked, hlast, hsame, -⟩ := (held.fits hle whole₂).run calls
      exact ⟨hsame, hchecked, hlast.file_size_le, fun c p => hlast.confined c p⟩
    · cases hhalves

/-- The file of the small ring, whose header a peer makes promise eight units: the ring is bound and
    cannot be split.  Halves that were split before go on, while the peer stores a capacity, a head
    and a tail inside their calls. -/
theorem header_cannot_mislead_small :
    let file : SharedFile := ⟨0, Ring.small.geometry⟩
    let calls : List (Call × Tampering) := [
      (.write [1, 2, 3, 4, 5, 6, 7], { between := [(.capacity, 0x80000000), (.head, 7)] }),
      (.view, { before := [(.magic, 0), (.unitSize, 0)], after := [(.tail, 0xFFFFFFFF)] }),
      (.reserve 3, {}), (.release, { before := [(.signal, 5)] })]
    ∃ t, file.Held t
      ∧ (∃ r, file.ring (file.tamper [(.capacity, 8)] t) = .ok r
        ∧ r.halves = .error (.shortRegion 24 12))
      ∧ Checked.runInFile 12 file { halves := file.halves } calls t
          = .ok (file.runAmid { halves := file.halves } calls t)
      ∧ (file.runAmid { halves := file.halves } calls t).1.2.halves = file.halves := by
  intro file calls
  have made := create_eq (g := Ring.small.geometry) (FileTree.create_initial (Bytes.zeros 0)) rfl
  generalize FileTree.setBytes _ _ _ = t at made
  have held : file.Held t := .inl ⟨_, _, _, made⟩
  have hlong : Header.size ≤ (t.bytes file.file).size :=
    Nat.le_trans (Nat.le_add_right _ _) held.file_size_le
  have declares := declares_create made
  refine ⟨t, held, ?_, ?_⟩
  · -- the peer's header is believed when the ring is bound
    obtain ⟨hbound, -, hsplit, -⟩ := header_cannot_mislead held (file.tamper [(.capacity, 8)] t)
    have tampered : Header.Declares ((file.tamper [(.capacity, 8)] t).bytes file.file)
        ⟨8, 3, ⟨3, rfl⟩, by decide⟩ := by
      have hbytes : (file.tamper [(.capacity, 8)] t).bytes file.file
          = Header.Field.capacity.store 8 (t.bytes file.file) := FileTree.bytes_setBytes _ _ _
      rw [hbytes]
      exact {
        magic := (Header.Field.load_store_ne _ (by decide) _ hlong).trans declares.magic
        version := (Header.Field.load_store_ne _ (by decide) _ hlong).trans declares.version
        capacity := Header.Field.load_store_self _ _ hlong
        unitSize := (Header.Field.load_store_ne _ (by decide) _ hlong).trans declares.unitSize }
    obtain ⟨r, hr, hgeometry⟩ := (hbound _).2 tampered
    have hhalves := hsplit r hr r.geometry
    rw [hgeometry, if_neg (by decide)] at hhalves
    refine ⟨r, hr, Eq.trans ?_ hhalves⟩
    rw [← hgeometry]
  · obtain ⟨hbound, -, hsplit, hrun⟩ := header_cannot_mislead held t
    obtain ⟨r, hr, -⟩ := (hbound _).2 declares
    have hhalves : ({ r with geometry := Ring.small.geometry } : Ring).halves = .ok file.halves :=
      (hsplit r hr Ring.small.geometry).trans (if_pos (Nat.le_refl _))
    have hlimit : file.geometry.size.toNat = 12 := rfl
    have hcalls := hrun r hr _ _ hhalves t (Nat.le_refl _) calls
    rw [hlimit] at hcalls
    exact ⟨hcalls.2.1, hcalls.1⟩

end SharedFile

end SharedRing
