/-
  A loopback run: a producer and a consumer stream bytes through one ring.

  The producer offers messages of a byte pattern that counts up, as fast as the ring takes them,
  until its time is over; then it says stop.  The consumer drains the ring, checks the pattern, and
  adds what it has freed to the flow-control counter.  Once the counter reaches a threshold, the
  consumer takes it back to zero and notifies its peer.

  The two run side by side and share only the ring and the stop sign, so the run is a list of moves,
  and any list is a possible one.  The consumer looks at three shared things one after the other
  before it may leave (that nothing was read, that the producer has stopped, that nothing is left),
  and each look is a move of its own.
-/
import SharedRing.Settings
import SharedRing.SharedFile

namespace SharedRing.Loopback

/-! ## The two parties -/

/-- The byte at a place in the stream. -/
def streamByte (offset : UInt64) : UInt8 := offset.toUInt8

/-- What both parties were told. -/
structure Job where
  halves : Halves
  messageBytes : UInt64
  /-- the freed bytes at which the peer is notified -/
  threshold : UInt64
deriving DecidableEq

/-- Where the consumer is in its loop. -/
inductive Phase where
  /-- about to read -/
  | reading
  /-- nothing was read: about to look for the stop sign -/
  | sawNothing
  /-- the producer has stopped: about to look whether something is left -/
  | sawStop
  /-- out of the loop -/
  | finished
  /-- a byte that the producer has not written there -/
  | corrupted (offset : UInt64)
  /-- the flow-control counter failed -/
  | failed (error : Refusal)
deriving DecidableEq, Repr

/-- The whole run at one moment. -/
structure State where
  memory : Memory
  /-- bytes that went into the ring -/
  sent : UInt64 := 0
  /-- the producer has stopped -/
  stopped : Bool := false
  phase : Phase := .reading
  /-- bytes that came out of the ring -/
  received : UInt64 := 0
  /-- what the peer was notified of, the latest first -/
  notices : List UInt64 := []

/-- One move of one party. -/
inductive Move where
  /-- the producer offers a message -/
  | produce
  /-- the producer says stop -/
  | stop
  /-- the consumer takes its next step -/
  | consume
deriving DecidableEq, Repr

/-- The beginning of the message that the producer offers next. -/
def message (sent : UInt64) (len : Nat) : List UInt8 :=
  (List.range len).map fun k => streamByte (sent + UInt64.ofNat k)

@[simp] theorem length_message (sent : UInt64) (len : Nat) : (message sent len).length = len := by
  simp [message]

theorem take_message (sent : UInt64) {n len : Nat} (h : n ≤ len) :
    (message sent len).take n = message sent n := by
  rw [message, ← List.map_take, List.take_range, Nat.min_eq_left h, message]

/-- The size of the consumer's buffer. -/
def room (j : Job) : Nat := max j.messageBytes.toNat 4096

/-- The longest buffer that a party can ask for.  Memory for one that is no longer is taken for
    granted. -/
def maxBufferBytes : Nat := 0x7FFFFFFFFFFFFFFF

/-- Whether both parties can have their buffers, which is the first thing that they ask for. -/
def Job.hasBuffers (j : Job) : Bool :=
  j.messageBytes.toNat ≤ maxBufferBytes && room j ≤ maxBufferBytes

/-- The place of the first byte that does not fit the pattern. -/
def firstFault (offset : UInt64) : List UInt8 → Option UInt64
  | [] => none
  | b :: rest => if b != streamByte offset then some offset else firstFault (offset + 1) rest

/-- Counts bytes that were freed, and notifies the peer if they have become enough. -/
def account (j : Job) (freed : UInt64) (s : State) : State :=
  match s.memory.addSignal j.halves.signal freed with
  | .error e => { s with phase := .failed e }
  | .ok (before, m) =>
    if before + freed < j.threshold then { s with memory := m }
    else match m.takeSignal j.halves.signal with
      | .error e => { s with memory := m, phase := .failed e }
      | .ok (taken, m) => { s with memory := m, notices := taken :: s.notices }

/-- The consumer's next step. -/
def consume (j : Job) (s : State) : State :=
  match s.phase with
  | .reading =>
    let (got, m) := j.halves.read (room j) none s.memory
    let s := { s with memory := m }
    if got.isEmpty then { s with phase := .sawNothing }
    else match firstFault s.received got with
      | some offset => { s with phase := .corrupted offset }
      | none =>
        let n := UInt64.ofNat got.length
        account j n { s with received := s.received + n }
  | .sawNothing => { s with phase := if s.stopped then .sawStop else .reading }
  | .sawStop =>
    { s with phase := if j.halves.pending s.memory = 0 then .finished else .reading }
  | .finished | .corrupted _ | .failed _ => s

/-- Offers the producer's next message.  Only as much of it is made as goes into the ring. -/
def offer (j : Job) (sent : UInt64) (m : Memory) : UInt64 × Memory :=
  j.halves.write (message sent (j.halves.accepts j.messageBytes.toNat m).toNat) m

/-- That is as good as to make the whole message. -/
theorem offer_eq_write (j : Job) (sent : UInt64) (m : Memory) :
    offer j sent m = j.halves.write (message sent j.messageBytes.toNat) m := by
  have h := j.halves.write_take_accepts (message sent j.messageBytes.toNat) m
  rw [length_message, take_message _ (j.halves.accepts_le _ _)] at h
  exact h

/-- The producer's next message, unless it has stopped. -/
def produce (j : Job) (s : State) : State :=
  if s.stopped then s
  else
    let (n, m) := offer j s.sent s.memory
    { s with memory := m, sent := s.sent + n }

def step (j : Job) (s : State) : Move → State
  | .produce => produce j s
  | .stop => { s with stopped := true }
  | .consume => consume j s

/-- A run: any moves in any order. -/
def run (j : Job) (s : State) (moves : List Move) : State := moves.foldl (step j) s

/-! ## How it ends -/

/-- Why a run did not succeed. -/
inductive Fault where
  /-- the file holds no ring any more -/
  | noRing (error : ShareError)
  /-- the ring cannot be split -/
  | noHalves (error : Refusal)
  | corrupted (offset : UInt64)
  | signal (error : Refusal)
  /-- bytes were lost on the way -/
  | unbalanced (written read : UInt64)
deriving DecidableEq, Repr

def Fault.message : Fault → String
  | .noRing _ => "failed to bind ring"
  | .noHalves _ => "failed to split ring"
  | .corrupted offset => s!"stream corrupted at byte {offset}"
  | .signal error => error.message
  | .unbalanced written read => s!"wrote {written} bytes but read {read}"

/-- What lies behind a fault. -/
def Fault.cause : Fault → Option String
  | .noRing error => some error.message
  | .noHalves error => some error.message
  | _ => none

/-- The result of a run. -/
structure Totals where
  written : UInt64
  read : UInt64
  notices : Nat
deriving DecidableEq, Repr

/-- The totals of a run that is over, if nothing went wrong and nothing was lost. -/
def totals (s : State) : Except Fault Totals :=
  match s.phase with
  | .corrupted offset => .error (.corrupted offset)
  | .failed e => .error (.signal e)
  | _ =>
    if s.sent ≠ s.received then .error (.unbalanced s.sent s.received)
    else .ok ⟨s.sent, s.received, s.notices.length⟩

/-! ## Runs on a shared file -/

/-- Both halves of the ring in a file, and what the settings say. -/
def job (settings : Settings) (file : SharedFile) (t : FileTree) : Except Fault Job :=
  match file.ring t with
  | .error e => .error (.noRing e)
  | .ok ring => match ring.halves with
    | .error e => .error (.noHalves e)
    | .ok halves => .ok ⟨halves, settings.messageBytes, settings.noticeThreshold⟩

/-- The state before the first move. -/
def begin (file : SharedFile) (t : FileTree) : State :=
  { memory := Memory.ofFile (t.bytes file.file) }

/-- Leaves the file as the run has left its memory. -/
def leave (file : SharedFile) (s : State) (t : FileTree) : FileTree :=
  t.setBytes file.file s.memory.toFile

/-- One message, and time for the consumer to read it. -/
def round (j : Job) (s : State) : State := consume j (consume j (produce j s))

/-- Rounds until the peer has been notified, nothing goes in any more, or the rounds are used up. -/
def alternate (j : Job) : Nat → State → State
  | 0, s => s
  | rounds + 1, s =>
    -- Nothing of `s` is kept beside this number, so the round may change its memory in place.
    let sent := s.sent
    let after := round j s
    if after.sent = sent || !after.notices.isEmpty then after else alternate j rounds after

/-- The consumer alone, until it has left its loop or its steps are used up. -/
def drain (j : Job) : Nat → State → State
  | 0, s => s
  | steps + 1, s => match s.phase with
    | .finished | .corrupted _ | .failed _ => s
    | _ => drain j steps (consume j s)

/-- The steps that the consumer needs at most once the producer has stopped: three for each unit that
    is left, and a few to find that none is. -/
def drainSteps (j : Job) (s : State) : Nat :=
  3 * ((j.halves.tailCount s.memory - j.halves.headCount s.memory).toNat + 3)

/-- Lets the producer stop and the consumer finish. -/
def finish (j : Job) (s : State) : State :=
  let s := step j s .stop
  drain j (drainSteps j s) s

/-- A short run.  If the producer has time at all, it goes on until the peer has been notified, or
    until it is plain that nothing moves.  A ring of rounds is enough for that: as long as something
    moves it is a unit each round, and the threshold is at most a ring. -/
def brief (j : Job) (milliseconds : UInt64) (s : State) : State :=
  let rounds := if milliseconds = 0 then 0 else j.halves.geometry.capacity.toNat + 1
  finish j (alternate j rounds s)

end SharedRing.Loopback
