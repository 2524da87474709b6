/-
  Sessions: any order of calls on the two halves, each half keeping at most one chunk open.

  A half that keeps a chunk open can do nothing else until the chunk is completed or given up; the
  other half goes on meanwhile.  A session remembers which chunks are open and answers one call at a
  time, so a run of a ring is a list of calls.  A call that needs a half which is busy with a chunk,
  or a chunk which is not open, is answered `busy` and changes nothing.

  A peer that shares the memory may store to the counters between any two calls; such stores are
  calls as well.
-/
import SharedRing.Halves

namespace SharedRing

/-- One step of a run. -/
inductive Call where
  /-- copy bytes in -/
  | write (data : List UInt8)
  /-- open a chunk of free bytes -/
  | reserve (len : UInt64)
  /-- put bytes into the open chunk of the writer -/
  | fill (data : List UInt8)
  /-- complete the writer's chunk -/
  | publish
  /-- give the writer's chunk up -/
  | discard
  /-- copy bytes out -/
  | read (buffer : List UInt8) (count : Option UInt64)
  /-- open a chunk of all contiguous readable bytes -/
  | view
  /-- open a chunk of exactly so many readable bytes -/
  | viewOf (len : UInt64)
  /-- look at the bytes of the reader's chunk -/
  | look
  /-- complete the reader's chunk -/
  | release
  /-- give the reader's chunk up -/
  | leave
  /-- add to the flow-control counter -/
  | addSignal (value : UInt64)
  /-- clear the flow-control counter -/
  | takeSignal
  /-- the counters as the writer sees them -/
  | writerCounts
  /-- the counters as the reader sees them -/
  | readerCounts
  /-- a peer stores to the head -/
  | peerHead (value : UInt32)
  /-- a peer stores to the tail -/
  | peerTail (value : UInt32)
  /-- a peer stores to the flow-control counter -/
  | peerSignal (value : UInt64)
deriving DecidableEq, Repr

/-- What a call gives back. -/
inductive Answer where
  /-- so many bytes went in, or were published or released -/
  | moved (len : UInt64)
  /-- so many bytes were read; the buffer afterwards -/
  | received (len : Nat) (buffer : List UInt8)
  /-- a chunk was opened over these bytes, or none was -/
  | chunk (contents : Option (List UInt8))
  /-- the bytes of the open chunk -/
  | seen (contents : List UInt8)
  /-- what the flow-control counter held before -/
  | held (value : UInt64)
  | failed (error : Refusal)
  | counts (counts : Counts)
  | done
  /-- the half is busy with a chunk, or has none -/
  | busy
deriving DecidableEq, Repr

/-- Two halves and their open chunks. -/
structure Session where
  halves : Halves
  /-- the writer's open chunk -/
  writing : Option Transfer := none
  /-- the reader's open chunk -/
  reading : Option Transfer := none
deriving DecidableEq

namespace Session

/-- Opens a chunk of the writer, or none. -/
def openWriting (s : Session) (t : Option Transfer) (m : Memory) : Answer × Session × Memory :=
  (.chunk (t.map fun t => s.halves.contents t m), { s with writing := t }, m)

/-- Opens a chunk of the reader, or none. -/
def openReading (s : Session) (t : Option Transfer) (m : Memory) : Answer × Session × Memory :=
  (.chunk (t.map fun t => s.halves.contents t m), { s with reading := t }, m)

/-- The answer of an operation on the flow-control counter. -/
def signalled (s : Session) (m : Memory) :
    Except Refusal (UInt64 × Memory) → Answer × Session × Memory
  | .ok (value, m) => (.held value, s, m)
  | .error e => (.failed e, s, m)

/-- Calls that the writer answers while it has no chunk open. -/
def writerStep (s : Session) (c : Call) (m : Memory) : Answer × Session × Memory :=
  let h := s.halves
  match c with
  | .write data => let (n, m) := h.write data m; (.moved n, s, m)
  | .reserve len => s.openWriting (h.reserve? len m) m
  | .writerCounts => (.counts (h.counts m), s, m)
  | _ => (.busy, s, m)

/-- What a write gives back is a pair like any other, and need not be computed to be taken apart. -/
theorem writerStep_write (s : Session) (data : List UInt8) (m : Memory) :
    s.writerStep (.write data) m
      = (.moved (s.halves.write data m).1, s, (s.halves.write data m).2) := by
  show (let (n, m') := s.halves.write data m; ((.moved n, s, m') : Answer × Session × Memory)) = _
  generalize s.halves.write data m = out
  rfl

/-- Calls that the reader answers while it has no chunk open. -/
def readerStep (s : Session) (c : Call) (m : Memory) : Answer × Session × Memory :=
  let h := s.halves
  match c with
  | .read buffer count =>
    let (n, buffer, m) := h.readInto buffer count m; (.received n buffer, s, m)
  | .view => s.openReading (h.view? m) m
  | .viewOf len => s.openReading (h.viewOf? len m) m
  | .addSignal value => s.signalled m (m.addSignal h.signal value)
  | .takeSignal => s.signalled m (m.takeSignal h.signal)
  | .readerCounts => (.counts (h.counts m), s, m)
  | _ => (.busy, s, m)

/-- Calls on the writer's open chunk. -/
def writingStep (s : Session) (t : Transfer) (c : Call) (m : Memory) : Answer × Session × Memory :=
  match c with
  | .fill data => (.done, s, s.halves.fill t data m)
  | .publish => (.moved t.len, { s with writing := none }, s.halves.publish t m)
  | .discard => (.done, { s with writing := none }, m)
  | _ => (.busy, s, m)

/-- Calls on the reader's open chunk. -/
def readingStep (s : Session) (t : Transfer) (c : Call) (m : Memory) : Answer × Session × Memory :=
  match c with
  | .look => (.seen (s.halves.contents t m), s, m)
  | .release => (.moved t.len, { s with reading := none }, s.halves.release t m)
  | .leave => (.done, { s with reading := none }, m)
  | _ => (.busy, s, m)

/-- What a peer stores; only bound counters can be reached. -/
def peerStep (s : Session) (c : Call) (m : Memory) : Answer × Session × Memory :=
  match c with
  | .peerHead value => (.done, s, m.setCounter s.halves.head value)
  | .peerTail value => (.done, s, m.setCounter s.halves.tail value)
  | .peerSignal value => (.done, s, match s.halves.signal with
    | some i => m.setSignal i value
    | none => m)
  | _ => (.busy, s, m)

end Session

/-- Who answers a call. -/
inductive Party where
  | writer
  | reader
  | peer
deriving DecidableEq, Repr

/-- The writer's calls move the tail, the reader's the head; a peer may do anything to a counter. -/
def Call.party : Call → Party
  | .write _ | .reserve _ | .fill _ | .publish | .discard | .writerCounts => .writer
  | .read _ _ | .view | .viewOf _ | .look | .release | .leave
  | .addSignal _ | .takeSignal | .readerCounts => .reader
  | .peerHead _ | .peerTail _ | .peerSignal _ => .peer

namespace Session

/-- Answers one call. -/
def step (s : Session) (c : Call) (m : Memory) : Answer × Session × Memory :=
  match c.party with
  | .writer => match s.writing with
    | none => s.writerStep c m
    | some t => s.writingStep t c m
  | .reader => match s.reading with
    | none => s.readerStep c m
    | some t => s.readingStep t c m
  | .peer => s.peerStep c m

/-- Answers a list of calls in order. -/
def run (s : Session) : List Call → Memory → List Answer × Session × Memory
  | [], m => ([], s, m)
  | c :: rest, m =>
    let (a, s, m) := s.step c m
    let (answers, s, m) := s.run rest m
    (a :: answers, s, m)

theorem step_peerSignal_of_bound {s : Session} {i : Nat} (h : s.halves.signal = some i)
    (value : UInt64) (m : Memory) : s.step (.peerSignal value) m = (.done, s, m.setSignal i value) := by
  rw [step, Call.party, peerStep, h]

theorem step_peerSignal_of_free {s : Session} (h : s.halves.signal = none) (value : UInt64)
    (m : Memory) : s.step (.peerSignal value) m = (.done, s, m) := by
  rw [step, Call.party, peerStep, h]

theorem run_cons (s : Session) (c : Call) (rest : List Call) (m : Memory) : s.run (c :: rest) m
    = ((s.step c m).1 :: ((s.step c m).2.1.run rest (s.step c m).2.2).1,
      ((s.step c m).2.1.run rest (s.step c m).2.2).2) := rfl

/-- What is readable and what is writable, asked of a half that is free; neither half can be asked
    while both keep a chunk open. -/
def available? (s : Session) (m : Memory) : Option (UInt64 × UInt64) :=
  match s.writing, s.reading with
  | some _, some _ => none
  | _, _ => some (s.halves.pending m, s.halves.free m)

end Session

end SharedRing
