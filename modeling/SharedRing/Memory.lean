/-
  The memory that rings borrow: bytes for the data, 32-bit counters for head and tail, 64-bit
  counters for the flow-control signal.

  A ring owns none of it.  Several rings may be bound to one counter, a peer may store into a
  counter at any moment, and the memory outlives every ring; so it is a value of its own that each
  operation takes and gives back.  What a ring keeps is only where its bytes lie (a `Region`) and
  which counters are its own.

  The operations are total.  A byte outside the memory reads as zero and is never written, and a
  counter that nobody has stored to holds zero; that no ring operation ever leaves the memory it was
  lent is a theorem about the ring, not an assumption here.
-/
import SharedRing.Bytes
import SharedRing.Refusal

namespace SharedRing

/-! ## Counters -/

/-- Numbered counters.  The row is as long as the highest counter that was stored to; all others
    hold the default. -/
abbrev Cells (α : Type) := List α

namespace Cells

variable {α : Type} [Inhabited α]

def load (c : Cells α) (i : Nat) : α := c.getD i default

def store : Cells α → Nat → α → Cells α
  | [], 0, v => [v]
  | [], i + 1, v => default :: store [] i v
  | _ :: rest, 0, v => v :: rest
  | x :: rest, i + 1, v => x :: store rest i v

theorem load_store_self (c : Cells α) (i : Nat) (v : α) : (c.store i v).load i = v := by
  fun_induction store c i v with
  | case1 => rfl
  | case2 _ _ ih => exact ih
  | case3 => rfl
  | case4 _ _ _ _ ih => exact ih

theorem load_store_ne (c : Cells α) {i j : Nat} (v : α) (h : j ≠ i) :
    (c.store i v).load j = c.load j := by
  fun_induction store c i v generalizing j with
  | case1 =>
    obtain ⟨k, rfl⟩ := Nat.exists_eq_succ_of_ne_zero h
    simp [load]
  | case2 v i ih =>
    cases j with
    | zero => rfl
    | succ k => exact (ih (by omega)).trans (by simp [load])
  | case3 =>
    obtain ⟨k, rfl⟩ := Nat.exists_eq_succ_of_ne_zero h
    rfl
  | case4 _ _ _ _ ih =>
    cases j with
    | zero => rfl
    | succ k => exact ih (by omega)

end Cells

/-! ## All of it -/

/-- Everything that is lent to rings. -/
structure Memory where
  bytes : Bytes
  counters : Cells UInt32
  signals : Cells UInt64

namespace Memory

/-- The value of a head or tail counter. -/
def counter (m : Memory) (i : Nat) : UInt32 := m.counters.load i

/-- Stores to a head or tail counter. -/
def setCounter (m : Memory) (i : Nat) (v : UInt32) : Memory :=
  { m with counters := m.counters.store i v }

/-- The value of a flow-control counter. -/
def signal (m : Memory) (i : Nat) : UInt64 := m.signals.load i

/-- Stores to a flow-control counter. -/
def setSignal (m : Memory) (i : Nat) (v : UInt64) : Memory :=
  { m with signals := m.signals.store i v }

end Memory

/-! ## What is lent for the data -/

/-- A run of borrowed bytes. -/
structure Region where
  offset : Nat
  len : Nat
deriving DecidableEq, Repr

namespace Region

/-- A region from an address that may be missing. -/
def ofAddress? (address : Option Nat) (len : Nat) : Except Refusal Region :=
  match address with
  | some offset => .ok ⟨offset, len⟩
  | none => .error .nullAddress

def isEmpty (r : Region) : Bool := r.len == 0

/-- Where the region lies relative to some address, as an unsigned word: it wraps if the region
    begins before that address. -/
def relativeTo (r : Region) (base : Nat) : UInt64 := UInt64.ofNat r.offset - UInt64.ofNat base

example : (Region.mk 16 8).relativeTo 20 = 0xFFFFFFFFFFFFFFFC := by decide

end Region

end SharedRing
