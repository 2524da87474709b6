/-
  What a ring is bound to, and what it says when it is split.

  A ring is made ready step by step: cells and a region are lent to it, its numbers are changed,
  it is split, used, put together and bound anew.  Of all that has happened splitting looks at six
  things (`Bindings`), and each of them is what was bound last or accepted last (`bindings_acted`).
  What is looked at is looked at in order, and the first thing that is missing is what is said
  (`Splits`).

  Two halves then reach nothing but what they are bound to (`Halves.Confined`): the bytes of the ring
  at the beginning of the region, two counters and a signal.  To be refused leaves everything as it
  was, the ring and the memory.
-/
import SharedRing.Header
import SharedRing.Proofs.Configuration
import SharedRing.Proofs.Footprint

namespace SharedRing

/-! ## What halves reach -/

namespace Halves

variable {h : Halves} {m m' m'' : Memory}

/-- Of the cells only those may differ that the halves are bound to. -/
structure KeepsCells (h : Halves) (m m' : Memory) : Prop where
  counter_eq : ∀ i, i ≠ h.head → i ≠ h.tail → m'.counter i = m.counter i
  signal_eq : ∀ i, h.signal ≠ some i → m'.signal i = m.signal i

/-- Nothing differs but what the halves are bound to. -/
structure Confined (h : Halves) (m m' : Memory) : Prop where
  byte_eq : ∀ j, h.Outside j → m'.bytes.byte j = m.bytes.byte j
  size_eq : m'.bytes.size = m.bytes.size
  cells : h.KeepsCells m m'

namespace KeepsCells

theorem of_eq (hcounters : m'.counters = m.counters) (hsignals : m'.signals = m.signals) :
    h.KeepsCells m m' :=
  ⟨fun i _ _ => congrArg (Cells.load · i) hcounters, fun i _ => congrArg (Cells.load · i) hsignals⟩

theorem refl (h : Halves) (m : Memory) : h.KeepsCells m m := of_eq rfl rfl

theorem trans (first : h.KeepsCells m m') (rest : h.KeepsCells m' m'') : h.KeepsCells m m'' :=
  ⟨fun i hh ht => (rest.counter_eq i hh ht).trans (first.counter_eq i hh ht),
    fun i hi => (rest.signal_eq i hi).trans (first.signal_eq i hi)⟩

theorem setHead (h : Halves) (m : Memory) (value : UInt32) :
    h.KeepsCells m (m.setCounter h.head value) :=
  ⟨fun _ hh _ => Cells.load_store_ne _ _ hh, fun _ _ => rfl⟩

theorem setTail (h : Halves) (m : Memory) (value : UInt32) :
    h.KeepsCells m (m.setCounter h.tail value) :=
  ⟨fun _ _ ht => Cells.load_store_ne _ _ ht, fun _ _ => rfl⟩

theorem setSignal {i : Nat} (hsignal : h.signal = some i) (m : Memory) (value : UInt64) :
    h.KeepsCells m (m.setSignal i value) := by
  refine ⟨fun _ _ _ => rfl, ?_⟩
  intro j hj
  refine Cells.load_store_ne _ _ ?_
  rintro rfl
  exact hj hsignal

theorem write (h : Halves) (data : List UInt8) (m : Memory) :
    h.KeepsCells m (h.write data m).2 := by
  rw [(h.write_eq data m rfl).2]
  exact ⟨fun _ _ ht => h.counter_enqueue _ m ht,
    fun i _ => congrArg (Cells.load · i) (h.signals_enqueue _ m)⟩

theorem read (h : Halves) (room : Nat) (count : Option UInt64) (m : Memory) :
    h.KeepsCells m (h.read room count m).2 := by
  rw [h.read_eq room count m rfl]
  exact ⟨fun _ hh _ => h.counter_dequeue _ m hh,
    fun i _ => congrArg (Cells.load · i) (h.signals_dequeue _ m)⟩

end KeepsCells

end Halves

namespace Session

variable {s : Session} {m : Memory}

theorem keepsCells_peer (s : Session) (c : Call) (m : Memory) :
    s.halves.KeepsCells m (s.peerStep c m).2.2 := by
  cases c with
  | peerHead value => exact .setHead _ _ _
  | peerTail value => exact .setTail _ _ _
  | peerSignal value =>
    unfold peerStep
    cases hsignal : s.halves.signal with
    | none => exact .refl _ _
    | some i => exact .setSignal hsignal m value
  | _ => exact .refl _ _

/-- One call of either half, or of a peer. -/
theorem keepsCells_step (s : Session) (c : Call) (m : Memory) :
    s.halves.KeepsCells m (s.step c m).2.2 := by
  cases hc : c.party with
  | writer =>
    have effect := s.writerEffect m hc
    generalize (s.step c m).2.2 = m' at effect ⊢
    cases effect with
    | nothing => exact .refl _ _
    | write data => exact .write _ data m
    | fill ht data => exact .of_eq rfl rfl
    | publish ht => exact .setTail _ _ _
  | reader =>
    have effect := s.readerEffect m hc
    generalize (s.step c m).2.2 = m' at effect ⊢
    cases effect with
    | nothing => exact .refl _ _
    | read room count => exact .read _ room count m
    | release ht => exact .setHead _ _ _
    | signal hsignal value => exact .setSignal hsignal m value
  | peer =>
    unfold step
    rw [hc]
    exact s.keepsCells_peer c m

/-- **Halves are confined to what they are bound to**, whatever the counters hold, also if head and
    tail are one counter. -/
theorem Chunks.confined (chunks : Chunks s) (calls : List Call) :
    s.halves.Confined m (s.run calls m).2.2 := by
  induction calls generalizing s m with
  | nil => exact ⟨fun _ _ => rfl, rfl, .refl _ _⟩
  | cons c rest ih =>
    have first := chunks.step c m
    have last := ih (s := (s.step c m).2.1) (m := (s.step c m).2.2) first.chunks
    rw [first.halves_eq] at last
    exact ⟨fun j hj => (last.byte_eq j hj).trans (first.outside j hj),
      last.size_eq.trans first.size_eq, (s.keepsCells_step c m).trans last.cells⟩

end Session

/-! ## What is done with a ring -/

namespace Ring

/-- What a ring is bound to, and its two numbers. -/
@[ext]
structure Bindings where
  head : Option Nat
  tail : Option Nat
  signal : Option Nat
  region : Option Region
  capacity : UInt32
  unitSize : UInt32
deriving DecidableEq

/-- The bytes that a ring of these numbers needs. -/
def Bindings.size (b : Bindings) : Nat := b.capacity.toNat * b.unitSize.toNat

def bindings (r : Ring) : Bindings where
  head := r.head
  tail := r.tail
  signal := r.signal
  region := r.region
  capacity := r.geometry.capacity
  unitSize := r.geometry.unitSize

/-- Something that is done with a ring. -/
inductive Act where
  | useHead (i : Nat)
  | useTail (i : Nat)
  | useSignal (i : Nat)
  /-- lend it a region, of which the address may be missing -/
  | useRegion (address : Option Nat) (len : Nat)
  | resize (capacity : UInt32)
  | rescale (unitSize : UInt32)
  /-- add to the flow-control counter of the unsplit ring -/
  | addSignal (value : UInt64)
  /-- split it, make these calls on its halves, and give the halves up -/
  | split (calls : List Call)
deriving DecidableEq, Repr

/-- The ring after that.  What is refused leaves it. -/
def next (r : Ring) : Act → Ring
  | .useHead i => r.useHead i
  | .useTail i => r.useTail i
  | .useSignal i => r.useSignal i
  | .useRegion address len => match Region.ofAddress? address len with
    | .ok region => r.useRegion region
    | .error _ => r
  | .resize value => match r.resize value with
    | .ok r' => r'
    | .error _ => r
  | .rescale value => match r.rescale value with
    | .ok r' => r'
    | .error _ => r
  | .addSignal _ | .split _ => r

/-- The memory after that. -/
def work (r : Ring) (m : Memory) : Act → Memory
  | .addSignal value => match r.addSignal value m with
    | .ok (_, m') => m'
    | .error _ => m
  | .split calls => match r.halves with
    | .ok h => (Session.run { halves := h } calls m).2.2
    | .error _ => m
  | _ => m

/-- A ring and the memory that it borrows from. -/
def act (x : Ring × Memory) (a : Act) : Ring × Memory := (x.1.next a, x.1.work x.2 a)

/-- Both after a number of acts. -/
def acted (x : Ring × Memory) (acts : List Act) : Ring × Memory := acts.foldl act x

namespace Act

def head? : Act → Option Nat
  | .useHead i => some i
  | _ => none

def tail? : Act → Option Nat
  | .useTail i => some i
  | _ => none

def signal? : Act → Option Nat
  | .useSignal i => some i
  | _ => none

/-- The region that is bound; there is none at an address that is missing. -/
def region? : Act → Option Region
  | .useRegion (some offset) len => some ⟨offset, len⟩
  | _ => none

/-- The change that is asked for. -/
def change? : Act → Option Geometry.Change
  | .resize value => some (.resize value)
  | .rescale value => some (.rescale value)
  | _ => none

/-- The capacity that is accepted. -/
def capacity? (a : Act) : Option UInt32 := a.change?.bind Geometry.Change.capacity?

/-- The unit size that is accepted. -/
def unitSize? (a : Act) : Option UInt32 := a.change?.bind Geometry.Change.unitSize?

end Act

/-- Of each thing what these acts bound or had accepted last, and what there was before if they did
    not. -/
def lastBindings (r : Ring) (acts : List Act) : Bindings where
  head := (acts.filterMap Act.head?).getLast?.or r.head
  tail := (acts.filterMap Act.tail?).getLast?.or r.tail
  signal := (acts.filterMap Act.signal?).getLast?.or r.signal
  region := (acts.filterMap Act.region?).getLast?.or r.region
  capacity := (acts.filterMap Act.capacity?).getLast?.getD r.geometry.capacity
  unitSize := (acts.filterMap Act.unitSize?).getLast?.getD r.geometry.unitSize

/-! ## What was bound last -/

/-- A ring takes the changes that its geometry takes. -/
theorem next_resize (r : Ring) (value : UInt32) :
    r.next (.resize value) = { r with geometry := r.geometry.change (.resize value) } := by
  rw [next, Ring.resize, Geometry.change, Geometry.outcome]
  cases r.geometry.resize value <;> rfl

theorem next_rescale (r : Ring) (value : UInt32) :
    r.next (.rescale value) = { r with geometry := r.geometry.change (.rescale value) } := by
  rw [next, Ring.rescale, Geometry.change, Geometry.outcome]
  cases r.geometry.rescale value <;> rfl

/-- What one act does to each of the six. -/
theorem bindings_next (r : Ring) (a : Act) : (r.next a).bindings =
    { head := a.head?.or r.head
      tail := a.tail?.or r.tail
      signal := a.signal?.or r.signal
      region := a.region?.or r.region
      capacity := a.capacity?.getD r.geometry.capacity
      unitSize := a.unitSize?.getD r.geometry.unitSize } := by
  cases a with
  | resize value =>
    obtain ⟨hcapacity, hunit⟩ := r.geometry.change_eq (.resize value)
    rw [next_resize, bindings, hcapacity, hunit]
    rfl
  | rescale value =>
    obtain ⟨hcapacity, hunit⟩ := r.geometry.change_eq (.rescale value)
    rw [next_rescale, bindings, hcapacity, hunit]
    rfl
  | useRegion address len => cases address <;> rfl
  | useHead _ | useTail _ | useSignal _ | addSignal _ | split _ => rfl

/-- **Each of the six is what was bound last or accepted last.** -/
theorem bindings_acted (x : Ring × Memory) (acts : List Act) :
    (acted x acts).1.bindings = x.1.lastBindings acts := by
  refine Bindings.ext ?_ ?_ ?_ ?_ ?_ ?_
  · exact foldl_eq_last (f := fun x : Ring × Memory => x.1.head)
      (fun x a => congrArg Bindings.head (x.1.bindings_next a)) x acts
  · exact foldl_eq_last (f := fun x : Ring × Memory => x.1.tail)
      (fun x a => congrArg Bindings.tail (x.1.bindings_next a)) x acts
  · exact foldl_eq_last (f := fun x : Ring × Memory => x.1.signal)
      (fun x a => congrArg Bindings.signal (x.1.bindings_next a)) x acts
  · exact foldl_eq_last (f := fun x : Ring × Memory => x.1.region)
      (fun x a => congrArg Bindings.region (x.1.bindings_next a)) x acts
  · exact foldl_eq_lastD (f := fun x : Ring × Memory => x.1.geometry.capacity)
      (fun x a => congrArg Bindings.capacity (x.1.bindings_next a)) x acts
  · exact foldl_eq_lastD (f := fun x : Ring × Memory => x.1.geometry.unitSize)
      (fun x a => congrArg Bindings.unitSize (x.1.bindings_next a)) x acts

/-! ## Splitting -/

/-- What splitting says of a ring with these bindings.  The first thing that is missing counts. -/
inductive Splits (b : Bindings) : Except Refusal Halves → Prop
  | noHead (head : b.head = none) : Splits b (.error (.missing .head))
  | noTail (head : b.head.isSome) (tail : b.tail = none) : Splits b (.error (.missing .tail))
  | noRegion (head : b.head.isSome) (tail : b.tail.isSome) (region : b.region = none) :
    Splits b (.error (.missing .region))
  /-- the region does not hold the ring: the complaint says how long both are -/
  | short {lent : Region} {required : UInt64} (head : b.head.isSome) (tail : b.tail.isSome)
    (region : b.region = some lent) (hrequired : required.toNat = b.size)
    (hlt : lent.len < b.size) : Splits b (.error (.shortRegion required lent.len))
  /-- the halves have what the ring is bound to -/
  | ok {h : Halves} (head : b.head = some h.head) (tail : b.tail = some h.tail)
    (signal : b.signal = h.signal) (region : b.region = some h.region)
    (capacity : b.capacity = h.geometry.capacity) (unitSize : b.unitSize = h.geometry.unitSize)
    (hle : b.size ≤ h.region.len) : Splits b (.ok h)

theorem splits_halves (r : Ring) : Splits r.bindings r.halves := by
  have hsize : r.geometry.size.toNat = r.bindings.size := r.geometry.toNat_size
  unfold halves counters bound
  cases hhead : r.head with
  | none => exact .noHead hhead
  | some head =>
    have head_isSome : r.bindings.head.isSome := Option.isSome_of_eq_some hhead
    cases htail : r.tail with
    | none => exact .noTail head_isSome htail
    | some tail =>
      have tail_isSome : r.bindings.tail.isSome := Option.isSome_of_eq_some htail
      cases hregion : r.region with
      | none => exact .noRegion head_isSome tail_isSome hregion
      | some region =>
        simp only [bind, Except.bind, pure, Except.pure]
        rw [hsize]
        rcases Nat.lt_or_ge region.len r.bindings.size with hshort | hlong
        · rw [if_pos hshort]
          exact .short head_isSome tail_isSome hregion hsize hshort
        · rw [if_neg (Nat.not_lt.2 hlong)]
          exact .ok hhead htail rfl hregion rfl rfl hlong

/-- A ring can be split if all is bound and the region holds it. -/
theorem Splits.ok_iff {b : Bindings} {outcome : Except Refusal Halves} (splits : Splits b outcome) :
    (∃ h, outcome = .ok h) ↔ b.head.isSome ∧ b.tail.isSome
      ∧ ∃ region, b.region = some region ∧ b.size ≤ region.len := by
  cases splits with
  | noHead head => simp [head]
  | noTail head tail => simp [tail]
  | noRegion head tail region => simp [region]
  | short head tail region hrequired hlt => simp [region, hlt]
  | ok head tail signal region capacity unitSize hle => simp [head, tail, region, hle]

/-- A ring over a shared header is bound to what that declares and holds. -/
structure Attaches (header : Header) (data : Region) : Prop where
  error_iff : ∀ e, header.ringOver data = .error e ↔ header.declared = .error e
  ok : ∀ r, header.ringOver data = .ok r → ∃ g, header.declared = .ok g ∧ r.bindings =
    { head := some 0, tail := some 1, signal := some 0, region := some data
      capacity := g.capacity, unitSize := g.unitSize }

theorem attaches (header : Header) (data : Region) : Attaches header data := by
  cases hdeclared : header.declared with
  | error e =>
    have hring : header.ringOver data = .error e := by rw [Header.ringOver, hdeclared]; rfl
    refine ⟨?_, ?_⟩
    · intro e'
      rw [hring, hdeclared, Except.error.injEq, Except.error.injEq]
    · intro r hr
      rw [hring] at hr
      cases hr
  | ok g =>
    have hring : header.ringOver data = .ok
        { geometry := g, region := some data, head := some 0, tail := some 1
          signal := some 0 } := by rw [Header.ringOver, hdeclared]; rfl
    refine ⟨?_, ?_⟩
    · intro e
      rw [hring, hdeclared]
      constructor
      · intro he
        cases he
      · intro he
        cases he
    · intro r hr
      rw [hring] at hr
      obtain rfl := Except.ok.inj hr
      exact ⟨g, hdeclared, rfl⟩

/-- What splitting comes to after a number of acts. -/
structure SplitsAsBound (x : Ring × Memory) (acts : List Act) : Prop where
  bindings_eq : (acted x acts).1.bindings = x.1.lastBindings acts
  /-- the ring is split if all was bound, and the region that was bound last is long enough for the
      numbers that were accepted last -/
  ok_iff : (∃ h, (acted x acts).1.halves = .ok h) ↔ (x.1.lastBindings acts).head.isSome
    ∧ (x.1.lastBindings acts).tail.isSome
    ∧ ∃ region, (x.1.lastBindings acts).region = some region
      ∧ (x.1.lastBindings acts).size ≤ region.len
  /-- the halves have what was bound last, and a complaint is about the first thing missing -/
  splits : Splits (x.1.lastBindings acts) (acted x acts).1.halves
  /-- what the halves then do reaches nothing else, and the ring is as it was -/
  confined : ∀ h, (acted x acts).1.halves = .ok h → ∀ calls,
    (act (acted x acts) (.split calls)).1 = (acted x acts).1
      ∧ h.Confined (acted x acts).2 (act (acted x acts) (.split calls)).2
  /-- to be refused changes nothing -/
  refused : ∀ e, (acted x acts).1.halves = .error e → ∀ calls,
    act (acted x acts) (.split calls) = acted x acts

/-- **Splitting decides on what was bound last.**  Take any ring over any memory, and whatever was
    done with it: cells and regions bound and bound again, numbers accepted and refused, transfers of
    halves that it was split into before. -/
theorem splits_as_bound (x : Ring × Memory) (acts : List Act) :
    SplitsAsBound x acts ∧ ∀ header data, Attaches header data := by
  have hsplits := (acted x acts).1.splits_halves
  rw [bindings_acted] at hsplits
  refine ⟨?_, attaches⟩
  refine
    { bindings_eq := bindings_acted x acts
      ok_iff := hsplits.ok_iff
      splits := hsplits
      confined := ?_
      refused := ?_ }
  · intro h hok calls
    refine ⟨rfl, ?_⟩
    show h.Confined _ (work (acted x acts).1 (acted x acts).2 (.split calls))
    rw [work, hok]
    exact (Session.Chunks.start h).confined calls
  · intro e herror calls
    show ((acted x acts).1, work (acted x acts).1 (acted x acts).2 (.split calls)) = _
    rw [work, herror]

/-- A region that has no address is not bound, and the one before it is too short by now. -/
example : (acted ({}, ⟨.zeros 8, [], []⟩) [.useHead 0, .useTail 1, .useRegion (some 0) 8, .resize 4,
    .split [.write [1, 2, 3]], .useRegion none 64, .rescale 3]).1.halves
      = .error (.shortRegion 12 8) := rfl

end Ring

end SharedRing
