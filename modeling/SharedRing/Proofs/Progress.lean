/-
  A loopback run does not get stuck, and it ends.

  The consumer's buffer holds a message, and no byte is in the ring unless a message has a unit at
  least.  So wherever there are bytes the consumer reads some (`Streaming.read_ne_nil`), and wherever
  there is none the producer has room, provided that it can write at all.  Where a message has no unit,
  or the ring has only the one that is always kept empty, nothing ever moves (`Streaming.run_still`).

  Once the producer has stopped, nothing comes in any more.  What the consumer still has to do is then
  measured by its phase and the units that are left, in times round its loop (`roundsLeft`) and in
  moves (`movesLeft`).  Every move of the consumer takes one from the latter, and every time that it
  comes round its loop takes one from the former.
-/
import SharedRing.Proofs.Notices

namespace SharedRing

/-! ## Writes that move nothing -/

namespace Halves

variable {h : Halves} {m : Memory}

/-- A write moves what is offered as far as there is room, whatever the counters hold. -/
theorem toNat_write (h : Halves) (data : List UInt8) (m : Memory) : (h.write data m).1.toNat
    = h.geometry.unitSize.toNat * min (data.length / h.geometry.unitSize.toNat)
        (h.geometry.capacity.toNat - 1 - h.occupied m) := by
  rcases Transfer.write?_cases h.geometry (h.headCount m) (h.tailCount m) data.length rfl with
    ⟨hzero, hnone⟩ | ⟨t, hsome, run⟩
  · simp only [write, hnone]
    rw [occupied, hzero, Nat.mul_zero]; rfl
  · simp only [write, hsome]
    rw [run.len_eq, Nat.mul_comm]; rfl

/-- A write that moves nothing does nothing. -/
theorem write_eq_of_zero {data : List UInt8} (hzero : (h.write data m).1.toNat = 0) :
    h.write data m = (0, m) := by
  unfold write at hzero ⊢
  cases hplan : Transfer.write? h.geometry (h.headCount m) (h.tailCount m) data.length with
  | none => rfl
  | some t =>
    obtain ⟨k, run, -⟩ := vacant_of_write? hplan
    have hpos := run.len_pos
    rw [hplan] at hzero
    exact absurd hzero (Nat.ne_of_gt hpos)

/-- Nothing waits just where nothing is pending. -/
theorem pending_eq_zero_iff (h : Halves) (m : Memory) : h.pending m = 0 ↔ h.occupied m = 0 := by
  have hpending := h.toNat_pending m
  have hs := h.geometry.unitSize_pos
  rw [length_unread] at hpending
  rw [← UInt64.toNat_inj, hpending, UInt64.toNat_zero, Nat.mul_eq_zero]
  omega

end Halves

namespace Loopback

variable {j : Job} {s : State} {i sent received : Nat}

/-! ## What the producer can write -/

/-- A message has a unit at least, and the ring one beside that which is kept empty. -/
def Job.Flows (j : Job) : Prop :=
  2 ≤ j.halves.geometry.capacity.toNat
    ∧ j.halves.geometry.unitSize.toNat ≤ j.messageBytes.toNat

theorem toNat_offer (j : Job) (sent : UInt64) (m : Memory) : (offer j sent m).1.toNat
    = j.halves.geometry.unitSize.toNat
      * min (j.messageBytes.toNat / j.halves.geometry.unitSize.toNat)
          (j.halves.geometry.capacity.toNat - 1 - j.halves.occupied m) := by
  rw [offer_eq_write, Halves.toNat_write, length_message]

/-- Where anything goes in, messages are long enough and the ring is large enough. -/
theorem flows_of_offer {sent : UInt64} {m : Memory} (hpos : 0 < (offer j sent m).1.toNat) :
    j.Flows := by
  rw [toNat_offer] at hpos
  have hmin := Nat.pos_of_mul_pos_left hpos
  have hunits : 0 < j.messageBytes.toNat / j.halves.geometry.unitSize.toNat := by omega
  exact ⟨by omega, (Nat.div_pos_iff.1 hunits).2⟩

theorem flows_of_taken {move : Move} (hpos : 0 < taken j s move) : j.Flows := by
  unfold taken at hpos
  cases move with
  | produce =>
    dsimp only at hpos
    split at hpos
    · contradiction
    · exact flows_of_offer hpos
  | stop | consume => contradiction

theorem flows_of_transferred {moves : List Move} (hpos : 0 < transferred j s moves) : j.Flows := by
  induction moves generalizing s with
  | nil => contradiction
  | cons move rest ih =>
    rw [transferred] at hpos
    rcases Nat.eq_zero_or_pos (taken j s move) with hzero | htaken
    · exact ih (s := step j s move) (by omega)
    · exact flows_of_taken htaken

/-- The producer writes unless the ring is full. -/
theorem offer_ne_zero (flows : j.Flows) {m : Memory} (ok : j.halves.InOrder m)
    (hroom : j.halves.occupied m ≠ j.halves.geometry.capacity.toNat - 1) (sent : UInt64) :
    (offer j sent m).1 ≠ 0 := by
  obtain ⟨-, hmessage⟩ := flows
  have hle := ok.occupied_le
  have hs := j.halves.geometry.unitSize_pos
  have hunits := Nat.div_pos hmessage hs
  have hpos : 0 < (offer j sent m).1.toNat := by
    rw [toNat_offer]
    exact Nat.mul_pos hs (by omega)
  intro hzero
  rw [hzero, UInt64.toNat_zero] at hpos
  exact Nat.lt_irrefl 0 hpos

/-! ## What the consumer can read -/

/-- What waits, in units. -/
theorem Streaming.occupied_mul (inv : Streaming j s sent received) :
    j.halves.occupied s.memory * j.halves.geometry.unitSize.toNat = sent - received := by
  have hlen := congrArg List.length inv.unread_eq
  rw [Halves.length_unread, length_message] at hlen
  exact hlen

/-- What is in the ring came from messages that the consumer's buffer can hold. -/
theorem Streaming.unitSize_le_room (inv : Streaming j s sent received)
    (flows : 0 < sent → j.Flows) (hwaits : j.halves.occupied s.memory ≠ 0) :
    j.halves.geometry.unitSize.toNat ≤ room j := by
  have hmul := inv.occupied_mul
  have hbytes := Nat.mul_pos (Nat.pos_of_ne_zero hwaits) j.halves.geometry.unitSize_pos
  exact Nat.le_trans (flows (by omega)).2 (Nat.le_max_left _ _)

/-- The consumer reads unless the ring is empty. -/
theorem Streaming.read_ne_nil (inv : Streaming j s sent received) (flows : 0 < sent → j.Flows)
    (hwaits : j.halves.occupied s.memory ≠ 0) :
    (j.halves.read (room j) none s.memory).1 ≠ [] := by
  have hroom := Nat.div_pos (inv.unitSize_le_room flows hwaits) j.halves.geometry.unitSize_pos
  have hcapacity := j.halves.geometry.capacity_pos
  obtain ⟨amount, -⟩ := Halves.released_read inv.inOrder (room j) none
  have hunits : 0 < Transfer.readUnits j.halves.geometry (j.halves.occupied s.memory) (room j)
      none := by
    rw [Transfer.readUnits.eq_def]
    dsimp only
    omega
  have hpos := Nat.mul_pos j.halves.geometry.unitSize_pos hunits
  rw [← amount] at hpos
  exact List.length_pos_iff.1 hpos

/-! ## Runs in which nothing moves -/

/-- Nothing has moved: the states differ only in what the parties have seen of each other. -/
structure Still (s s' : State) : Prop where
  memory_eq : s'.memory = s.memory
  sent_eq : s'.sent = s.sent
  received_eq : s'.received = s.received
  notices_eq : s'.notices = s.notices

/-- In an empty ring into which nothing goes, a move moves nothing. -/
theorem Streaming.step_still (inv : Streaming j s 0 0) (hsignal : j.halves.signal = some i)
    {move : Move} (htaken : taken j s move = 0) :
    Streaming j (Loopback.step j s move) 0 0 ∧ Still s (Loopback.step j s move) := by
  have hnext := inv.step_drawn hsignal move
  have hdrawn : drawn j s move = 0 := by
    have hle := hnext.received_le
    omega
  rw [htaken, hdrawn] at hnext
  refine ⟨hnext, ?_⟩
  cases move with
  | produce =>
    show Still s (Loopback.produce j s)
    unfold Loopback.produce
    split
    · exact ⟨rfl, rfl, rfl, rfl⟩
    · rename_i hgoes
      have hzero : (j.halves.write (message s.sent j.messageBytes.toNat) s.memory).1.toNat = 0 := by
        rw [taken, if_neg hgoes] at htaken
        rw [← offer_eq_write]
        exact htaken
      rw [offer_eq_write, Halves.write_eq_of_zero hzero]
      exact ⟨rfl, UInt64.add_zero _, rfl, rfl⟩
  | stop => exact ⟨rfl, rfl, rfl, rfl⟩
  | consume =>
    rcases inv.consume_cases with ⟨-, phase, heq⟩ | ⟨got, m, draws⟩
    · show Still s (Loopback.consume j s)
      rw [heq]
      exact ⟨rfl, rfl, rfl, rfl⟩
    · have hpos := draws.length_pos
      rw [← draws.length_eq, hdrawn] at hpos
      contradiction

/-- A run into which nothing goes. -/
theorem Streaming.run_still_of_transferred (inv : Streaming j s 0 0)
    (hsignal : j.halves.signal = some i) {moves : List Move} (hnone : transferred j s moves = 0) :
    Still s (Loopback.run j s moves) := by
  induction moves generalizing s with
  | nil => exact ⟨rfl, rfl, rfl, rfl⟩
  | cons move rest ih =>
    obtain ⟨htaken, hrest⟩ := Nat.add_eq_zero_iff.1 hnone
    obtain ⟨hnext, first⟩ := inv.step_still hsignal htaken
    have last := ih hnext hrest
    exact ⟨last.memory_eq.trans first.memory_eq, last.sent_eq.trans first.sent_eq,
      last.received_eq.trans first.received_eq, last.notices_eq.trans first.notices_eq⟩

/-- Without messages that are long enough and a ring that is large enough, any moves in any order. -/
theorem Streaming.run_still (inv : Streaming j s 0 0) (hsignal : j.halves.signal = some i)
    (dry : ¬ j.Flows) (moves : List Move) : Still s (Loopback.run j s moves) :=
  inv.run_still_of_transferred hsignal
    (Nat.eq_zero_of_not_pos fun hpos => dry (flows_of_transferred hpos))

/-! ## After the producer has stopped -/

/-- Whether a move brings the consumer round its loop, to the next read or out of it. -/
def rounds (j : Job) (s : State) : Move → Nat
  | .consume =>
    if s.phase ≠ .finished
        ∧ ((consume j s).phase = .reading ∨ (consume j s).phase = .finished) then 1
    else 0
  | .produce | .stop => 0

/-- How often the consumer comes round its loop in a run. -/
def iterations (j : Job) : State → List Move → Nat
  | _, [] => 0
  | s, move :: rest => rounds j s move + iterations j (step j s move) rest

/-- How often the consumer comes round its loop at most, with so many units left. -/
def roundsLeft (units : Nat) : Phase → Nat
  | .reading => units + 1
  -- a round that has found nothing to read is still under way, and may find units after all
  | .sawNothing | .sawStop => if units = 0 then 1 else units + 2
  | .finished | .corrupted _ | .failed _ => 0

/-- How many moves that takes at most. -/
def movesLeft (units : Nat) : Phase → Nat
  | .reading => units + 3
  | .sawNothing => if units = 0 then 2 else units + 5
  | .sawStop => if units = 0 then 1 else units + 4
  | .finished | .corrupted _ | .failed _ => 0

theorem roundsLeft_le (units : Nat) (phase : Phase) : roundsLeft units phase ≤ units + 2 := by
  unfold roundsLeft
  repeat' split
  all_goals omega

theorem movesLeft_le (units : Nat) (phase : Phase) : movesLeft units phase ≤ units + 5 := by
  unfold movesLeft
  repeat' split
  all_goals omega

/-- What a move of the consumer makes of the units that are left, and of its phase. -/
inductive Proceeds : Nat → Phase → Nat → Phase → Prop where
  | nothing : Proceeds 0 .reading 0 .sawNothing
  | bytes (units : Nat) {fewer : Nat} (less : fewer < units) :
      Proceeds units .reading fewer .reading
  | stop (units : Nat) : Proceeds units .sawNothing units .sawStop
  | leave : Proceeds 0 .sawStop 0 .finished
  | back (units : Nat) (some : units ≠ 0) : Proceeds units .sawStop units .reading
  | done (units : Nat) : Proceeds units .finished units .finished

theorem Proceeds.roundsLeft_le {units units' : Nat} {phase phase' : Phase}
    (proceeds : Proceeds units phase units' phase') :
    roundsLeft units' phase'
        + (if phase ≠ .finished ∧ (phase' = .reading ∨ phase' = .finished) then 1 else 0)
      ≤ roundsLeft units phase := by
  cases proceeds with
  | nothing => decide
  | bytes units less =>
    simp only [roundsLeft]
    split <;> omega
  | stop units =>
    rw [if_neg (by decide)]
    exact Nat.le_refl _
  | leave => decide
  | back units some =>
    simp only [roundsLeft, if_neg some]
    split <;> omega
  | done units =>
    rw [if_neg (fun hround => hround.1 rfl)]
    exact Nat.le_refl _

theorem Proceeds.movesLeft_le {units units' : Nat} {phase phase' : Phase}
    (proceeds : Proceeds units phase units' phase') :
    movesLeft units' phase' ≤ movesLeft units phase - 1 := by
  cases proceeds with
  | nothing => decide
  | bytes units less =>
    simp only [movesLeft]
    omega
  | stop units =>
    simp only [movesLeft]
    split <;> omega
  | leave => decide
  | back units some =>
    simp only [movesLeft, if_neg some]
    omega
  | done units => exact Nat.zero_le _

/-- Booking what was read is no part of the loop. -/
theorem phase_account (hsignal : j.halves.signal = some i) (freed : UInt64) (s : State) :
    (account j freed s).phase = s.phase ∧ (account j freed s).stopped = s.stopped := by
  rcases account_cases hsignal freed s with ⟨-, heq⟩ | ⟨-, heq⟩
  · rw [heq]
    exact ⟨rfl, rfl⟩
  · rw [heq]
    exact ⟨rfl, rfl⟩

/-- From an empty ring nothing is read. -/
theorem Streaming.read_of_empty (inv : Streaming j s sent received)
    (hempty : j.halves.occupied s.memory = 0) :
    j.halves.read (room j) none s.memory = ([], s.memory) := by
  obtain ⟨amount, -⟩ := Halves.released_read inv.inOrder (room j) none
  have hunits := Transfer.readUnits_le j.halves.geometry (j.halves.occupied s.memory) (room j) none
  have hzero : Transfer.readUnits j.halves.geometry (j.halves.occupied s.memory) (room j) none
      = 0 := by omega
  rw [hzero, Nat.mul_zero] at amount
  exact Halves.read_eq_of_nil (List.length_eq_zero_iff.1 amount)

/-- What is read leaves fewer units, and the consumer where it was. -/
theorem Streaming.consume_bytes (inv : Streaming j s sent received)
    (hsignal : j.halves.signal = some i) {got : List UInt8} {m : Memory}
    (draws : Draws j s sent received got m) :
    (Loopback.consume j s).phase = s.phase ∧ (Loopback.consume j s).stopped = s.stopped
      ∧ j.halves.occupied (Loopback.consume j s).memory < j.halves.occupied s.memory := by
  obtain ⟨hphase, hstopped⟩ := phase_account hsignal (UInt64.ofNat got.length) (s.draw got m)
  rw [← draws.consume_eq] at hphase hstopped
  have hnext : Streaming j (Loopback.consume j s) sent (received + got.length) := by
    have hstep := inv.step_drawn hsignal .consume
    rw [draws.length_eq] at hstep
    exact hstep
  have hbefore := inv.occupied_mul
  have hafter := hnext.occupied_mul
  have hpos := draws.length_pos
  have hle := hnext.received_le
  refine ⟨hphase, hstopped, ?_⟩
  refine Nat.lt_of_mul_lt_mul_right (a := j.halves.geometry.unitSize.toNat) ?_
  omega

/-- **What the consumer does once the producer has stopped.**  It goes on reading as long as there is
    anything to be read, and leaves when it has found nothing twice. -/
theorem Streaming.proceeds (inv : Streaming j s sent received) (hsignal : j.halves.signal = some i)
    (flows : 0 < sent → j.Flows) (hstopped : s.stopped = true) :
    (Loopback.consume j s).stopped = true
      ∧ Proceeds (j.halves.occupied s.memory) s.phase
          (j.halves.occupied (Loopback.consume j s).memory) (Loopback.consume j s).phase := by
  cases hphase : s.phase with
  | reading =>
    by_cases hempty : j.halves.occupied s.memory = 0
    · rw [consume_of_nothing hphase (inv.read_of_empty hempty)]
      dsimp only
      rw [hempty]
      exact ⟨hstopped, .nothing⟩
    · rcases inv.consume_cases with ⟨hdrawn, -⟩ | ⟨got, m, draws⟩
      · -- bytes that wait are read
        rw [drawn, if_pos hphase] at hdrawn
        exact absurd (List.length_eq_zero_iff.1 hdrawn) (inv.read_ne_nil flows hempty)
      · obtain ⟨hsame, hstill, hless⟩ := inv.consume_bytes hsignal draws
        rw [hsame, hphase]
        exact ⟨hstill.trans hstopped, .bytes _ hless⟩
  | sawNothing =>
    have hconsume : Loopback.consume j s = { s with phase := .sawStop } := by
      unfold Loopback.consume
      rw [hphase]
      dsimp only
      rw [if_pos hstopped]
    rw [hconsume]
    exact ⟨hstopped, .stop _⟩
  | sawStop =>
    have hconsume : Loopback.consume j s
        = { s with phase := if j.halves.pending s.memory = 0 then .finished else .reading } := by
      unfold Loopback.consume
      rw [hphase]
    rw [hconsume]
    refine ⟨hstopped, ?_⟩
    dsimp only
    split
    · rename_i hempty
      rw [Halves.pending_eq_zero_iff] at hempty
      rw [hempty]
      exact .leave
    · rename_i hwaits
      rw [Halves.pending_eq_zero_iff] at hwaits
      exact .back _ hwaits
  | finished =>
    have hself : Loopback.consume j s = s := by
      unfold Loopback.consume
      rw [hphase]
    rw [hself, hphase]
    exact ⟨hstopped, .done _⟩
  | corrupted offset => exact absurd hphase (inv.not_corrupted offset)
  | failed e => exact absurd hphase (inv.not_failed e)

/-- A producer that has stopped does nothing more. -/
theorem step_of_stopped (hstopped : s.stopped = true) {move : Move} (hmove : move ≠ .consume) :
    step j s move = s := by
  cases move with
  | produce =>
    show produce j s = s
    unfold produce
    rw [if_pos hstopped]
  | stop =>
    show { s with stopped := true } = s
    rw [← hstopped]
  | consume => contradiction

/-- **Any moves once the producer has stopped.**  Each time that the consumer comes round its loop, and
    each of its moves, leaves it less to do. -/
theorem Streaming.run_stopped (inv : Streaming j s sent received)
    (hsignal : j.halves.signal = some i) (flows : 0 < sent → j.Flows) (hstopped : s.stopped = true)
    (later : List Move) :
    (∃ received', Streaming j (Loopback.run j s later) sent received')
      ∧ roundsLeft (j.halves.occupied (Loopback.run j s later).memory)
            (Loopback.run j s later).phase + iterations j s later
          ≤ roundsLeft (j.halves.occupied s.memory) s.phase
      ∧ movesLeft (j.halves.occupied (Loopback.run j s later).memory)
            (Loopback.run j s later).phase
          ≤ movesLeft (j.halves.occupied s.memory) s.phase - later.count .consume := by
  induction later generalizing s received with
  | nil => exact ⟨⟨received, inv⟩, Nat.le_refl _, Nat.le_refl _⟩
  | cons move rest ih =>
    have hrun : Loopback.run j s (move :: rest) = Loopback.run j (Loopback.step j s move) rest := rfl
    by_cases hmove : move = .consume
    · subst hmove
      have hstep : Loopback.step j s .consume = Loopback.consume j s := rfl
      obtain ⟨hstopped', proceeds⟩ := inv.proceeds hsignal flows hstopped
      have hnext := inv.step_drawn hsignal .consume
      rw [show taken j s .consume = 0 from rfl, Nat.add_zero, hstep] at hnext
      obtain ⟨hstream, hrounds, hmoves⟩ := ih hnext hstopped'
      have hround := proceeds.roundsLeft_le
      have hmove := proceeds.movesLeft_le
      rw [hrun, iterations, rounds, hstep, List.count_cons_self]
      exact ⟨hstream, by omega, by omega⟩
    · obtain ⟨hstream, hrounds, hmoves⟩ := ih inv hstopped
      have hzero : rounds j s move = 0 := by
        cases move with
        | consume => contradiction
        | produce | stop => rfl
      rw [hrun, iterations, hzero, Nat.zero_add, step_of_stopped hstopped hmove,
        List.count_cons_of_ne hmove]
      exact ⟨hstream, hrounds, hmoves⟩

/-- A consumer that has nothing left to do is out of its loop. -/
theorem Streaming.finished_of_left (inv : Streaming j s sent received) (units : Nat)
    (hnone : roundsLeft units s.phase = 0 ∨ movesLeft units s.phase = 0) :
    s.phase = .finished := by
  cases hphase : s.phase with
  | finished => rfl
  | reading =>
    rw [hphase] at hnone
    simp only [roundsLeft, movesLeft] at hnone
    omega
  | sawNothing | sawStop =>
    rw [hphase] at hnone
    simp only [roundsLeft, movesLeft] at hnone
    split at hnone <;> omega
  | corrupted offset => exact absurd hphase (inv.not_corrupted offset)
  | failed e => exact absurd hphase (inv.not_failed e)

/-- The consumer comes round its loop at most once for each unit and twice besides. -/
theorem Streaming.iterations_le (inv : Streaming j s sent received)
    (hsignal : j.halves.signal = some i) (flows : 0 < sent → j.Flows) (hstopped : s.stopped = true)
    (later : List Move) : iterations j s later ≤ j.halves.occupied s.memory + 2 := by
  obtain ⟨-, hrounds, -⟩ := inv.run_stopped hsignal flows hstopped later
  have hle := roundsLeft_le (j.halves.occupied s.memory) s.phase
  omega

/-- Once it has come round so often, or has made so many moves, it is out of its loop. -/
theorem Streaming.finished_of_enough (inv : Streaming j s sent received)
    (hsignal : j.halves.signal = some i) (flows : 0 < sent → j.Flows) (hstopped : s.stopped = true)
    {later : List Move} (henough : j.halves.occupied s.memory + 2 ≤ iterations j s later
      ∨ j.halves.occupied s.memory + 5 ≤ later.count .consume) :
    (Loopback.run j s later).phase = .finished := by
  obtain ⟨⟨_, hlast⟩, hrounds, hmoves⟩ := inv.run_stopped hsignal flows hstopped later
  have hroundsLe := roundsLeft_le (j.halves.occupied s.memory) s.phase
  have hmovesLe := movesLeft_le (j.halves.occupied s.memory) s.phase
  refine hlast.finished_of_left (j.halves.occupied (Loopback.run j s later).memory) ?_
  rcases henough with hmany | hmany
  · exact .inl (by omega)
  · exact .inr (by omega)

/-! ## The consumer alone -/

/-- What may be counted on in a state of a run. -/
structure Progresses (j : Job) (s : State) : Prop where
  /-- wherever there are bytes, the consumer's buffer has room for a unit, and its next read gives
      some -/
  consumer : j.halves.occupied s.memory ≠ 0 →
    j.halves.geometry.unitSize.toNat ≤ room j ∧ (j.halves.read (room j) none s.memory).1 ≠ []
  /-- a producer that can write at all does so wherever the ring is not full -/
  producer : j.Flows → j.halves.occupied s.memory ≠ j.halves.geometry.capacity.toNat - 1 →
    (offer j s.sent s.memory).1 ≠ 0
  /-- the two are never both stuck -/
  either : j.Flows →
    (j.halves.read (room j) none s.memory).1 ≠ [] ∨ (offer j s.sent s.memory).1 ≠ 0
  /-- once the producer has stopped, the consumer comes round its loop at most once for each unit that
      is left and twice besides; it is out of it when it has done so, and also when it has made five
      moves more than there were units -/
  ends : s.stopped = true → ∀ later : List Move,
    iterations j s later ≤ j.halves.occupied s.memory + 2
      ∧ (j.halves.occupied s.memory + 2 ≤ iterations j s later
        ∨ j.halves.occupied s.memory + 5 ≤ later.count .consume →
          (run j s later).phase = .finished)

theorem Streaming.progresses (inv : Streaming j s sent received)
    (hsignal : j.halves.signal = some i) (flows : 0 < sent → j.Flows) : Progresses j s where
  consumer := fun hwaits => ⟨inv.unitSize_le_room flows hwaits, inv.read_ne_nil flows hwaits⟩
  producer := fun hflows hroom => offer_ne_zero hflows inv.inOrder hroom s.sent
  either := by
    intro hflows
    by_cases hempty : j.halves.occupied s.memory = 0
    · -- a ring of two units or more cannot be full and empty
      have hcapacity := hflows.1
      exact .inr (offer_ne_zero hflows inv.inOrder (by omega) s.sent)
    · exact .inl (inv.read_ne_nil flows hempty)
  ends := fun hstopped later => ⟨inv.iterations_le hsignal flows hstopped later,
    fun henough => inv.finished_of_enough hsignal flows hstopped henough⟩

/-- **A loopback run makes progress, and it ends.**  Take a file in which a ring was just made, of any
    geometry, and messages of any length, and let the two parties move in any order.  Wherever there
    are bytes the consumer reads some, and wherever the ring is not full the producer writes some if
    it can write at all.  Once the producer has stopped, the consumer leaves its loop, and that after
    no more than two iterations beside one for each unit.  In a ring of one unit, or with messages
    that are shorter than a unit, nothing ever moves. -/
theorem loopback_progresses {t t' : FileTree} {path : String} {g : Geometry} {file : SharedFile}
    (fresh : SharedFile.create t path g = (.ok file, t')) (messageBytes threshold : UInt64)
    (moves : List Move) :
    let j : Job := ⟨file.halves, messageBytes, threshold⟩
    let s := run j (begin file t') moves
    Progresses j s
      ∧ (j.Flows ↔ 2 ≤ g.capacity.toNat ∧ g.unitSize.toNat ≤ messageBytes.toNat)
      ∧ (g.capacity.toNat = 1 ∨ messageBytes.toNat < g.unitSize.toNat →
        Still (begin file t') s ∧ s.sent = 0 ∧ s.received = 0
          ∧ j.halves.headCount s.memory = 0 ∧ j.halves.tailCount s.memory = 0
          ∧ s.memory.signal 0 = 0) := by
  intro j s
  have hgeometry : j.halves.geometry = g := (SharedFile.bytes_create fresh).1
  have start := Streaming.init fresh messageBytes threshold
  obtain ⟨received, inv⟩ := start.run (i := 0) rfl moves
  rw [Nat.zero_add] at inv
  refine ⟨inv.progresses (i := 0) rfl flows_of_transferred, by rw [Job.Flows, hgeometry], ?_⟩
  intro hdry
  have dry : ¬ j.Flows := by
    rintro ⟨hcapacity, hmessage⟩
    rw [hgeometry] at hcapacity hmessage
    have hsame : j.messageBytes = messageBytes := rfl
    rw [hsame] at hmessage
    omega
  have still : Still (begin file t') s := start.run_still (i := 0) rfl dry moves
  obtain ⟨hhead, htail, -⟩ := SharedFile.empty_create fresh
  have hsignal : (begin file t').memory.signal 0 = 0 :=
    congrArg Header.signal (SharedFile.header_create fresh)
  rw [still.memory_eq]
  exact ⟨still, still.sent_eq, still.received_eq, hhead, htail, hsignal⟩

/-- A ring of four units of three bytes, and messages of seven bytes.  The producer fills the ring and
    stops, and eight moves later the consumer is out of its loop.  With messages of two bytes, nothing
    goes in. -/
theorem loopback_progresses_small :
    let g := Ring.small.geometry
    let file : SharedFile := ⟨0, g⟩
    let t' := (SharedFile.create .initial "ring" g).2
    let j : Job := ⟨file.halves, 7, 8⟩
    let moves : List Move := [.produce, .consume, .produce, .produce, .stop]
    let s := run j (begin file t') moves
    SharedFile.create .initial "ring" g = (.ok file, t') ∧ s.stopped = true
      ∧ j.halves.occupied s.memory = 3 ∧ (j.halves.read (room j) none s.memory).1 ≠ []
      ∧ iterations j s (List.replicate 8 .consume) ≤ 5
      ∧ (run j s (List.replicate 8 .consume)).phase = .finished
      ∧ (run ⟨file.halves, 2, 8⟩ (begin file t') moves).sent = 0 := by
  intro g file t' j moves s
  have fresh : SharedFile.create .initial "ring" g = (.ok file, t') := create_small
  have hstopped : s.stopped = true := by
    show (run j (begin file t') moves).stopped = _
    rw [begin_small]
    decide +kernel
  have hunits : j.halves.occupied s.memory = 3 := by
    show j.halves.occupied (run j (begin file t') moves).memory = _
    rw [begin_small]
    decide +kernel
  obtain ⟨progresses, -, -⟩ := loopback_progresses fresh 7 8 moves
  obtain ⟨-, -, hdry⟩ := loopback_progresses fresh 2 8 moves
  obtain ⟨-, hread⟩ := progresses.consumer (by
    show j.halves.occupied s.memory ≠ 0
    rw [hunits]
    decide)
  obtain ⟨hrounds, hends⟩ := progresses.ends hstopped (List.replicate 8 .consume)
  have hcount : j.halves.occupied s.memory + 5 ≤ (List.replicate 8 Move.consume).count .consume := by
    rw [hunits]
    decide
  refine ⟨fresh, hstopped, hunits, hread, ?_, hends (.inr hcount), (hdry (.inr (by decide))).2.1⟩
  rw [← show j.halves.occupied s.memory + 2 = 5 from by rw [hunits]]
  exact hrounds

end Loopback

end SharedRing
