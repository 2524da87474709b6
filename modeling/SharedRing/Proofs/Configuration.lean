/-
  A geometry under changes, one after the other.

  Numbers for a ring come from outside, and some of them are impossible.  Whether a number is taken
  depends on nothing but the number (`Decides`), and a refused one leaves the geometry as it is.  So
  after any calls the capacity is the last one that was taken, and the unit size as well
  (`foldl_eq_lastD`): what was refused in between, and in which order the two came, makes no
  difference.

  All that later depends on a geometry is a fact about these two numbers.  The size of the ring is
  their product and is worked out anew each time it is asked for.
-/
import SharedRing.Proofs.Places

namespace SharedRing

/-! ## What was put somewhere last -/

section Last

variable {State Step α : Type} {next : State → Step → State} {new? : Step → Option α}

/-- A place that some steps put something into, and that the others leave, holds in the end what was
    put there last. -/
theorem foldl_eq_last {f : State → Option α} (hstep : ∀ s c, f (next s c) = (new? c).or (f s))
    (s : State) (steps : List Step) :
    f (steps.foldl next s) = (steps.filterMap new?).getLast?.or (f s) := by
  induction steps generalizing s with
  | nil => rfl
  | cons c steps ih =>
    rw [List.foldl_cons, ih, hstep]
    cases hnew : new? c with
    | none => rw [List.filterMap_cons_none hnew, Option.none_or]
    | some a =>
      rw [List.filterMap_cons_some hnew, List.getLast?_cons, Option.some_or, Option.some_or,
        Option.or_some]

/-- The same of a place that is never empty. -/
theorem foldl_eq_lastD {f : State → α} (hstep : ∀ s c, f (next s c) = (new? c).getD (f s))
    (s : State) (steps : List Step) :
    f (steps.foldl next s) = (steps.filterMap new?).getLast?.getD (f s) := by
  have hsome : ∀ s c, some (f (next s c)) = (new? c).or (some (f s)) := by
    intro s c
    rw [hstep, Option.or_some]
  have hlast := foldl_eq_last (f := fun s => some (f s)) hsome s steps
  rw [Option.or_some] at hlast
  exact Option.some.inj hlast

end Last

namespace Geometry

/-! ## Changes -/

/-- A call that makes a geometry or changes one. -/
inductive Change where
  /-- begin anew, with this capacity and units of one byte -/
  | create (capacity : UInt32)
  /-- another capacity -/
  | resize (capacity : UInt32)
  /-- another unit size, in place or in a copy that is given back -/
  | rescale (unitSize : UInt32)
deriving DecidableEq, Repr

/-- What a call answers. -/
def outcome (g : Geometry) : Change → Except Refusal Geometry
  | .create capacity => ofCapacity capacity
  | .resize capacity => g.resize capacity
  | .rescale unitSize => g.rescale unitSize

/-- The geometry after a call.  There is a new one only if the call has given one. -/
def change (g : Geometry) (c : Change) : Geometry :=
  match g.outcome c with
  | .ok g' => g'
  | .error _ => g

/-- The geometry after some calls. -/
def changed (g : Geometry) (calls : List Change) : Geometry := calls.foldl change g

/-- The capacity that a call sets. -/
def Change.capacity? : Change → Option UInt32
  | .create v | .resize v => if ∃ k < 32, v.toNat = 2 ^ k then some v else none
  | .rescale _ => none

/-- The unit size that a call sets. -/
def Change.unitSize? : Change → Option UInt32
  | .create v => if ∃ k < 32, v.toNat = 2 ^ k then some 1 else none
  | .resize _ => none
  | .rescale v => if v ≠ 0 then some v else none

/-- What is answered to a number: a geometry with these numbers if it is acceptable, and this
    complaint if it is not. -/
structure Decides (answer : Except Refusal Geometry) (acceptable : Prop)
    (capacity unitSize : UInt32) (complaint : Refusal) : Prop where
  accepted : acceptable →
    ∃ g, answer = .ok g ∧ g.capacity = capacity ∧ g.unitSize = unitSize
  refused : ¬ acceptable → answer = .error complaint

variable (g : Geometry)

theorem decides_resize (v : UInt32) : Decides (g.outcome (.resize v))
    (∃ k < 32, v.toNat = 2 ^ k) v g.unitSize (.badCapacity v) := by
  rw [← UInt32.isPowerOfTwo_iff, outcome, resize]
  constructor
  · intro hpower
    rw [dif_pos hpower]
    exact ⟨_, rfl, rfl, rfl⟩
  · intro hnot
    rw [dif_neg hnot]

theorem decides_create (v : UInt32) : Decides (g.outcome (.create v))
    (∃ k < 32, v.toNat = 2 ^ k) v 1 (.badCapacity v) := standard.decides_resize v

theorem decides_rescale (v : UInt32) :
    Decides (g.outcome (.rescale v)) (v ≠ 0) g.capacity v .emptyUnit := by
  rw [outcome, rescale]
  constructor
  · intro hne
    rw [dif_pos hne]
    exact ⟨_, rfl, rfl, rfl⟩
  · intro hzero
    rw [dif_neg hzero]

theorem change_of_error {c : Change} {e : Refusal} (h : g.outcome c = .error e) :
    g.change c = g := by
  rw [change, h]

variable {g} in
/-- The numbers after a call that decides so. -/
theorem Decides.change_eq {c : Change} {acceptable : Prop} [Decidable acceptable]
    {capacity unitSize : UInt32} {complaint : Refusal}
    (decides : Decides (g.outcome c) acceptable capacity unitSize complaint) :
    (g.change c).capacity = (if acceptable then capacity else g.capacity)
      ∧ (g.change c).unitSize = if acceptable then unitSize else g.unitSize := by
  split
  · obtain ⟨g', hok, hcapacity, hunit⟩ := decides.accepted (by assumption)
    rw [change, hok]
    exact ⟨hcapacity, hunit⟩
  · rw [g.change_of_error (decides.refused (by assumption))]
    exact ⟨rfl, rfl⟩

/-- What one call does to the two numbers. -/
theorem change_eq (c : Change) : (g.change c).capacity = c.capacity?.getD g.capacity
    ∧ (g.change c).unitSize = c.unitSize?.getD g.unitSize := by
  cases c with
  | create v =>
    rw [(g.decides_create v).change_eq.1, (g.decides_create v).change_eq.2, Change.capacity?,
      Change.unitSize?]
    split <;> exact ⟨rfl, rfl⟩
  | resize v =>
    rw [(g.decides_resize v).change_eq.1, (g.decides_resize v).change_eq.2, Change.capacity?,
      ite_self]
    split <;> exact ⟨rfl, rfl⟩
  | rescale v =>
    rw [(g.decides_rescale v).change_eq.1, (g.decides_rescale v).change_eq.2, Change.unitSize?,
      ite_self]
    split <;> exact ⟨rfl, rfl⟩

theorem capacity_changed (calls : List Change) : (g.changed calls).capacity
    = (calls.filterMap Change.capacity?).getLast?.getD g.capacity :=
  foldl_eq_lastD (f := capacity) (fun g c => (g.change_eq c).1) g calls

theorem unitSize_changed (calls : List Change) : (g.changed calls).unitSize
    = (calls.filterMap Change.unitSize?).getLast?.getD g.unitSize :=
  foldl_eq_lastD (f := unitSize) (fun g c => (g.change_eq c).2) g calls

theorem changed_append (calls rest : List Change) :
    g.changed (calls ++ rest) = (g.changed calls).changed rest := List.foldl_append

/-! ## What the two numbers are good for -/

/-- A geometry is its two numbers. -/
theorem eq_of_numbers {g g' : Geometry} (hcapacity : g.capacity = g'.capacity)
    (hunit : g.unitSize = g'.unitSize) : g = g' := by
  obtain ⟨capacity, unitSize, hpower, hne⟩ := g
  obtain ⟨capacity', unitSize', hpower', hne'⟩ := g'
  obtain rfl : capacity = capacity' := hcapacity
  obtain rfl : unitSize = unitSize' := hunit
  rfl

theorem toNat_gap (behind front : UInt32) : (g.gap behind front).toNat
    = (2 ^ 32 - behind.toNat + front.toNat) % 2 ^ 32 * g.unitSize.toNat := by
  rw [gap, toNat_bytesOf, UInt32.toNat_sub]

/-- A capacity and a unit size may be set in either order. -/
theorem change_comm (v w : UInt32) :
    (g.change (.resize v)).change (.rescale w) = (g.change (.rescale w)).change (.resize v) := by
  refine eq_of_numbers ?_ ?_
  · rw [(change_eq _ _).1, (change_eq _ _).1, (change_eq _ _).1, (change_eq _ _).1]
    rfl
  · rw [(change_eq _ _).2, (change_eq _ _).2, (change_eq _ _).2, (change_eq _ _).2]
    rfl

/-- What is so after some calls. -/
structure Configured (calls : List Change) : Prop where
  /-- each number is the last one that was accepted, or the first one if none was -/
  capacity_eq : (g.changed calls).capacity
    = (calls.filterMap Change.capacity?).getLast?.getD g.capacity
  unitSize_eq : (g.changed calls).unitSize
    = (calls.filterMap Change.unitSize?).getLast?.getD g.unitSize
  /-- a capacity is accepted if it is a power of two, and a unit size if it is not zero; a geometry
      that is begun anew has units of one byte, and any other change leaves the other number -/
  create : ∀ v, Decides ((g.changed calls).outcome (.create v)) (∃ k < 32, v.toNat = 2 ^ k)
    v 1 (.badCapacity v)
  resize : ∀ v, Decides ((g.changed calls).outcome (.resize v)) (∃ k < 32, v.toNat = 2 ^ k)
    v (g.changed calls).unitSize (.badCapacity v)
  rescale : ∀ v, Decides ((g.changed calls).outcome (.rescale v)) (v ≠ 0)
    (g.changed calls).capacity v .emptyUnit
  /-- a refused call changes nothing -/
  refused : ∀ c e, (g.changed calls).outcome c = .error e →
    g.changed (calls ++ [c]) = g.changed calls
  comm : ∀ v w, g.changed (calls ++ [.resize v, .rescale w])
    = g.changed (calls ++ [.rescale w, .resize v])
  capacity_dvd : (g.changed calls).capacity.toNat ∣ 2 ^ 32
  unitSize_pos : 1 ≤ (g.changed calls).unitSize.toNat
  /-- the size is the product of the two numbers, as they are after the calls -/
  size_eq : (g.changed calls).size.toNat
    = ((calls.filterMap Change.capacity?).getLast?.getD g.capacity).toNat
      * ((calls.filterMap Change.unitSize?).getLast?.getD g.unitSize).toNat
  size_lt : (g.changed calls).size.toNat < 2 ^ 63
  bytesOf_eq : ∀ units : UInt32, ((g.changed calls).bytesOf units).toNat
    = units.toNat * (g.changed calls).unitSize.toNat
  gap_eq : ∀ behind front : UInt32, ((g.changed calls).gap behind front).toNat
    = (2 ^ 32 - behind.toNat + front.toNat) % 2 ^ 32 * (g.changed calls).unitSize.toNat

/-- **A geometry is what was last accepted of each of its numbers**, whatever was refused in between.
    Its capacity divides the range of a counter, and no number of bytes overflows. -/
theorem configured (calls : List Change) : g.Configured calls where
  capacity_eq := g.capacity_changed calls
  unitSize_eq := g.unitSize_changed calls
  create := (g.changed calls).decides_create
  resize := (g.changed calls).decides_resize
  rescale := (g.changed calls).decides_rescale
  refused := by
    intro c e herror
    rw [changed_append]
    exact change_of_error _ herror
  comm := by
    intro v w
    rw [changed_append, changed_append]
    exact change_comm _ v w
  capacity_dvd := Geometry.capacity_dvd _
  unitSize_pos := Geometry.unitSize_pos _
  size_eq := by rw [toNat_size, capacity_changed, unitSize_changed]
  size_lt := toNat_size_lt _
  bytesOf_eq := toNat_bytesOf _
  gap_eq := toNat_gap _

example : (standard.changed [.resize 16, .rescale 4, .resize 48, .rescale 0]).size = 64 := by decide

end Geometry

end SharedRing
