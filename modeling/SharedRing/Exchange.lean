/-
  Exchanges: a whole stream sent through a ring, and many parties that count on one counter.

  The writer offers what is left of the stream, a slice at a time, and the reader reads into its
  buffer and counts what it has freed.  Neither waits for the other; what arrives and where the
  counters end depends on the stream alone, not on how the two take turns, so here they simply
  alternate.
-/
import SharedRing.Ring

namespace SharedRing

/-! ## A stream -/

namespace Exchange

/-- An exchange that is under way. -/
structure State where
  memory : Memory
  /-- how many bytes of the stream the writer has written -/
  sent : Nat
  /-- what the reader has got -/
  received : Array UInt8

/-- The halves of a ring that lies at the beginning of its memory. -/
def halves (g : Geometry) : Halves where
  geometry := g
  region := ⟨0, g.size.toNat⟩
  head := 0
  tail := 1
  signal := some 0

/-- An empty ring of zero bytes, both counters at the same value. -/
def begin (g : Geometry) (start : UInt32) : State where
  memory := ⟨.zeros g.size.toNat, [start, start], [0]⟩
  sent := 0
  received := #[]

/-- The writer offers a slice of what is left of the stream.  Bytes that the ring has no room for
    need not be offered (`Halves.write_take_accepts`). -/
def send (h : Halves) (data : Array UInt8) (slice : Nat) (s : State) : State :=
  let fitting := (h.accepts (min slice (data.size - s.sent)) s.memory).toNat
  let (n, m) := h.write (data.extract s.sent (s.sent + fitting)).toList s.memory
  { s with memory := m, sent := s.sent + n.toNat }

/-- The reader reads, and counts what it has read. -/
def receive (h : Halves) (room : Nat) (s : State) : State :=
  let (got, m) := h.read room none s.memory
  let m := match m.addSignal h.signal (UInt64.ofNat got.length) with
    | .ok (_, m) => m
    | .error _ => m
  { s with memory := m, received := s.received ++ got }

/-- Both in turn, until the whole stream has arrived or the rounds are used up. -/
def rounds (h : Halves) (data : Array UInt8) (slice room : Nat) : Nat → State → State
  | 0, s => s
  | n + 1, s =>
    if s.received.size < data.size then
      rounds h data slice room n (receive h room (send h data slice s))
    else s

/-- A whole exchange.  Each round moves a unit at least, so a round for each byte is enough, and one
    for the first bytes to arrive. -/
def run (g : Geometry) (start : UInt32) (data : List UInt8) (slice room : Nat) : State :=
  rounds (halves g) data.toArray slice room (2 * data.length + 1) (begin g start)

end Exchange

/-! ## Counting -/

/-- Adds one value many times, as any number of parties would in any order.  Gives back the memory
    and how many calls failed. -/
def Ring.addRepeatedly (r : Ring) (value : UInt64) : Nat → Memory → Memory × Nat
  | 0, m => (m, 0)
  | n + 1, m => match r.addSignal value m with
    | .ok (_, m) => r.addRepeatedly value n m
    | .error _ =>
      let (m, failed) := r.addRepeatedly value n m
      (m, failed + 1)

end SharedRing
