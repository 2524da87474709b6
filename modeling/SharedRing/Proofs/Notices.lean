/-
  The books of a loopback run balance.

  After each read the consumer adds the bytes to the flow-control counter.  It works out for itself
  what the counter holds then, and if that has reached the threshold it takes the counter back to zero
  and notifies its peer of what it held.  So no byte that was read is lost or counted twice: what the
  peer was notified of and what the counter holds is together what was read (`Booked`).  Each notice
  is for a threshold at least, so there are no more of them than the bytes allow.

  What was read is an exact number here (`drained`), which does not wrap.  Nobody but the consumer
  touches the counter, so it makes no difference whether the producer moves before or after the
  consumer has brought its books up to date (`step_account`).
-/
import SharedRing.Proofs.Stream

namespace SharedRing

/-! ## What a read and a write leave alone -/

namespace Halves

variable {h : Halves} {m : Memory}

/-- A read that gives nothing does nothing. -/
theorem read_eq_of_nil {room : Nat} {count : Option UInt64}
    (hnil : (h.read room count m).1 = []) : h.read room count m = ([], m) := by
  unfold read at hnil ⊢
  cases hplan : Transfer.read? h.geometry (h.headCount m) (h.tailCount m) room count with
  | none => rfl
  | some t =>
    -- a plan covers a unit at least
    have hold : h.Waiting m t := waiting_of_read? hplan
    have hpos := hold.len_pos
    have hlen := hold.length_contents m
    rw [hplan] at hnil
    rw [show h.contents t m = [] from hnil] at hlen
    rw [← hlen] at hpos
    contradiction

theorem signals_read (h : Halves) (m : Memory) (room : Nat) (count : Option UInt64) :
    (h.read room count m).2.signals = m.signals := by
  unfold read
  split
  · rfl
  · rfl

/-- A read gives no more than a ring. -/
theorem length_read_le (ok : h.InOrder m) (room : Nat) (count : Option UInt64) :
    (h.read room count m).1.length ≤ h.geometry.size.toNat := by
  obtain ⟨amount, -⟩ := released_read ok room count
  have hunits := Transfer.readUnits_le h.geometry (h.occupied m) room count
  rw [amount, Nat.mul_comm, Geometry.toNat_size]
  exact Nat.mul_le_mul_right _ (Nat.le_trans hunits (Nat.min_le_right _ _))

/-- A write does not look at the signals and leaves them alone. -/
theorem write_setSignal (h : Halves) (data : List UInt8) (m : Memory) (i : Nat) (value : UInt64) :
    h.write data (m.setSignal i value)
      = ((h.write data m).1, (h.write data m).2.setSignal i value) := by
  have hhead : h.headCount (m.setSignal i value) = h.headCount m := rfl
  have htail : h.tailCount (m.setSignal i value) = h.tailCount m := rfl
  unfold write
  rw [hhead, htail]
  cases Transfer.write? h.geometry (h.headCount m) (h.tailCount m) data.length with
  | none => rfl
  | some t => rfl

theorem signal_write (h : Halves) (data : List UInt8) (m : Memory) (i : Nat) :
    (h.write data m).2.signal i = m.signal i := by
  unfold write
  split
  · rfl
  · rfl

end Halves

namespace Loopback

variable {j : Job} {s : State} {i sent received : Nat}

/-! ## What the consumer reads -/

/-- The bytes that a move reads. -/
def drawn (j : Job) (s : State) : Move → Nat
  | .consume => if s.phase = .reading then (j.halves.read (room j) none s.memory).1.length else 0
  | .produce | .stop => 0

/-- The bytes that a run reads, as an exact number. -/
def drained (j : Job) : State → List Move → Nat
  | _, [] => 0
  | s, move :: rest => drawn j s move + drained j (step j s move) rest

/-- The state in which the consumer opens its books: what it has read is out of the ring, and it has
    counted it for itself. -/
def State.draw (s : State) (got : List UInt8) (m : Memory) : State :=
  { s with memory := m, received := s.received + UInt64.ofNat got.length }

/-- What a move of the consumer does that reads bytes. -/
structure Draws (j : Job) (s : State) (sent received : Nat) (got : List UInt8) (m : Memory) :
    Prop where
  length_eq : drawn j s .consume = got.length
  length_pos : 0 < got.length
  length_le : got.length ≤ j.halves.geometry.size.toNat
  signals_eq : m.signals = s.memory.signals
  streaming : Streaming j (s.draw got m) sent (received + got.length)
  consume_eq : consume j s = account j (UInt64.ofNat got.length) (s.draw got m)

theorem consume_of_nothing (hphase : s.phase = .reading) {m : Memory}
    (hread : j.halves.read (room j) none s.memory = ([], m)) :
    consume j s = { s with memory := m, phase := .sawNothing } := by
  unfold consume
  rw [hphase]
  dsimp only
  rw [hread]
  rfl

theorem consume_of_bytes (hphase : s.phase = .reading) {got : List UInt8} {m : Memory}
    (hread : j.halves.read (room j) none s.memory = (got, m)) (hne : got ≠ [])
    (hpattern : firstFault s.received got = none) :
    consume j s = account j (UInt64.ofNat got.length) (s.draw got m) := by
  unfold consume State.draw
  rw [hphase]
  dsimp only
  rw [hread]
  dsimp only
  rw [if_neg (fun hempty => hne (List.isEmpty_iff.1 hempty)), hpattern]

/-- **A move of the consumer** either reads nothing, and then it is only about the stop sign, or it
    reads bytes and enters them in the books. -/
theorem Streaming.consume_cases (inv : Streaming j s sent received) :
    (drawn j s .consume = 0 ∧ ∃ phase, Loopback.consume j s = { s with phase })
      ∨ ∃ got m, Draws j s sent received got m := by
  cases hphase : s.phase with
  | reading =>
    have hdrawn : drawn j s .consume = (j.halves.read (room j) none s.memory).1.length := by
      rw [drawn, if_pos hphase]
    obtain ⟨amount, released⟩ := Halves.released_read inv.inOrder (room j) none
    obtain ⟨hgot, hnext⟩ := inv.read hphase released ⟨_, amount⟩
    have hle := Halves.length_read_le inv.inOrder (room j) none
    have hsignals := j.halves.signals_read s.memory (room j) none
    cases hread : j.halves.read (room j) none s.memory with
    | mk got m =>
      rw [hread] at hdrawn hgot hnext hle hsignals
      by_cases hempty : got = []
      · rw [hempty] at hread hdrawn
        have hsame := Halves.read_eq_of_nil (congrArg Prod.fst hread)
        obtain rfl : m = s.memory := (Prod.mk.inj (hread.symm.trans hsame)).2
        exact .inl ⟨hdrawn, .sawNothing, consume_of_nothing hphase hread⟩
      · have hpattern : firstFault s.received got = none := by
          rw [inv.received_eq, show got = _ from hgot]
          exact firstFault_message _ _
        exact .inr ⟨got, m, hdrawn, List.length_pos_iff.2 hempty, hle, hsignals, hnext,
          consume_of_bytes hphase hread hempty hpattern⟩
  | sawNothing | sawStop =>
    refine .inl ⟨by rw [drawn, hphase]; exact if_neg (by decide), ?_⟩
    unfold Loopback.consume
    rw [hphase]
    exact ⟨_, rfl⟩
  | finished | corrupted _ | failed _ =>
    have hself : Loopback.consume j s = s := by
      unfold Loopback.consume
      rw [hphase]
    exact .inl ⟨by rw [drawn, hphase]; exact if_neg (by intro h; cases h), s.phase, hself⟩

/-- How much has come out is determined by what waits. -/
theorem Streaming.received_unique {s' : State} {received' : Nat}
    (inv : Streaming j s sent received) (inv' : Streaming j s' sent received')
    (hsame : s'.memory = s.memory) : received' = received := by
  have hlen := congrArg List.length inv.unread_eq
  have hlen' := congrArg List.length inv'.unread_eq
  rw [hsame, length_message] at hlen'
  rw [length_message, hlen'] at hlen
  have hle := inv.received_le
  have hle' := inv'.received_le
  omega

/-- The exact number of bytes that come out with one move. -/
theorem Streaming.step_drawn (inv : Streaming j s sent received)
    (hsignal : j.halves.signal = some i) (move : Move) :
    Streaming j (Loopback.step j s move) (sent + taken j s move) (received + drawn j s move) := by
  cases move with
  | produce => exact inv.produce
  | stop =>
    obtain ⟨received', hnext⟩ := inv.step hsignal .stop
    rw [inv.received_unique hnext rfl] at hnext
    exact hnext
  | consume =>
    rcases inv.consume_cases with ⟨hdrawn, phase, heq⟩ | ⟨got, m, draws⟩
    · obtain ⟨received', hnext⟩ := inv.step hsignal .consume
      have hsame : (Loopback.step j s .consume).memory = s.memory := by
        show (Loopback.consume j s).memory = _
        rw [heq]
      rw [inv.received_unique hnext hsame] at hnext
      rw [hdrawn]
      exact hnext
    · rw [draws.length_eq]
      show Streaming j (Loopback.consume j s) _ _
      rw [draws.consume_eq]
      exact draws.streaming.account hsignal _

/-! ## The books -/

/-- With a counter that is bound, booking does not fail: either the counter stays below the threshold,
    or the peer is notified of all that it holds. -/
theorem account_cases (hsignal : j.halves.signal = some i) (freed : UInt64) (s : State) :
    (s.memory.signal i + freed < j.threshold ∧ account j freed s = { s with
        memory := s.memory.setSignal i (s.memory.signal i + freed) })
      ∨ (j.threshold ≤ s.memory.signal i + freed ∧ account j freed s = { s with
        memory := (s.memory.setSignal i (s.memory.signal i + freed)).setSignal i 0
        notices := (s.memory.signal i + freed) :: s.notices }) := by
  have hheld : (s.memory.setSignal i (s.memory.signal i + freed)).signal i
      = s.memory.signal i + freed := Cells.load_store_self ..
  unfold account Memory.addSignal Memory.takeSignal
  rw [hsignal]
  dsimp only
  by_cases hbelow : s.memory.signal i + freed < j.threshold
  · exact .inl ⟨hbelow, if_pos hbelow⟩
  · refine .inr ⟨UInt64.not_lt.1 hbelow, ?_⟩
    rw [if_neg hbelow, hheld]

/-- The books of a state in which so many bytes have been read. -/
structure Booked (j : Job) (i : Nat) (s : State) (received : Nat) : Prop where
  signal_lt : s.memory.signal i < j.threshold
  notices_ge : ∀ n ∈ s.notices, j.threshold ≤ n
  balance : (s.notices.map UInt64.toNat).sum + (s.memory.signal i).toNat = received

/-- There are no more notices than the bytes that were read allow. -/
theorem Booked.length_notices_mul_le (books : Booked j i s received) :
    s.notices.length * j.threshold.toNat ≤ received := by
  have hbalance := books.balance
  have hsum := List.card_nsmul_le_sum (s.notices.map UInt64.toNat) j.threshold.toNat
    (List.forall_mem_map.2 fun n hn => UInt64.le_iff_toNat_le.1 (books.notices_ge n hn))
  rw [List.length_map, smul_eq_mul] at hsum
  omega

/-- There is none just as long as these are fewer than the threshold. -/
theorem Booked.notices_eq_nil_iff (books : Booked j i s received) :
    s.notices = [] ↔ received < j.threshold.toNat := by
  have hbalance := books.balance
  have hbelow := UInt64.lt_iff_toNat_lt.1 books.signal_lt
  constructor
  · intro hnone
    rw [hnone, List.map_nil, List.sum_nil] at hbalance
    omega
  · intro hfew
    -- one notice would tell of a threshold already
    by_contra hsome
    have hone : 1 ≤ s.notices.length := List.length_pos_iff.2 hsome
    have hmul := Nat.mul_le_mul_right j.threshold.toNat hone
    have hle := books.length_notices_mul_le
    omega

/-- Booking what was freed keeps the balance, unless the counter overflows. -/
theorem Booked.account (books : Booked j i s received) (hsignal : j.halves.signal = some i)
    (hpos : 0 < j.threshold) (freed : UInt64)
    (fits : (s.memory.signal i).toNat + freed.toNat < 2 ^ 64) :
    Booked j i (Loopback.account j freed s) (received + freed.toNat) := by
  have hsum : (s.memory.signal i + freed).toNat = (s.memory.signal i).toNat + freed.toNat := by
    rw [UInt64.toNat_add]
    exact Nat.mod_eq_of_lt fits
  have hbalance := books.balance
  rcases account_cases hsignal freed s with ⟨hbelow, heq⟩ | ⟨hreached, heq⟩
  · have hheld : (s.memory.setSignal i (s.memory.signal i + freed)).signal i
        = s.memory.signal i + freed := Cells.load_store_self ..
    rw [heq]
    refine ⟨?_, books.notices_ge, ?_⟩
    · rw [hheld]
      exact hbelow
    · dsimp only
      rw [hheld, hsum]
      omega
  · have hcleared : ((s.memory.setSignal i (s.memory.signal i + freed)).setSignal i 0).signal i
        = 0 := Cells.load_store_self ..
    rw [heq]
    refine ⟨?_, ?_, ?_⟩
    · rw [hcleared]
      exact hpos
    · intro n hn
      rcases List.mem_cons.1 hn with rfl | hold
      · exact hreached
      · exact books.notices_ge n hold
    · dsimp only
      rw [List.map_cons, List.sum_cons, hcleared, hsum, UInt64.toNat_zero]
      omega

/-- What the producer leaves alone. -/
theorem step_of_producer {move : Move} (hmove : move ≠ .consume) :
    (step j s move).memory.signal i = s.memory.signal i
      ∧ (step j s move).notices = s.notices := by
  cases move with
  | produce =>
    have hsignal := j.halves.signal_write (message s.sent j.messageBytes.toNat) s.memory i
    show (produce j s).memory.signal i = _ ∧ (produce j s).notices = _
    unfold produce
    split
    · exact ⟨rfl, rfl⟩
    · rw [offer_eq_write]
      exact ⟨hsignal, rfl⟩
  | stop => exact ⟨rfl, rfl⟩
  | consume => contradiction

/-- The producer does not look at the books. -/
theorem step_setSignal {move : Move} (hmove : move ≠ .consume) (value : UInt64)
    (notices : List UInt64) :
    step j { s with memory := s.memory.setSignal i value, notices } move
      = { step j s move with
          memory := (step j s move).memory.setSignal i value, notices } := by
  cases move with
  | produce =>
    unfold step produce
    dsimp only
    split
    · rfl
    · rw [offer_eq_write, offer_eq_write, Halves.write_setSignal]
  | stop => rfl
  | consume => contradiction

/-- **Booking and the producer's moves do not meet**: what is booked before such a move may as well be
    booked after it. -/
theorem step_account (hsignal : j.halves.signal = some i) (freed : UInt64) {move : Move}
    (hmove : move ≠ .consume) :
    step j (account j freed s) move = account j freed (step j s move) := by
  obtain ⟨hheld, hnotices⟩ := step_of_producer (j := j) (s := s) (i := i) hmove
  rcases account_cases hsignal freed s with ⟨hbelow, heq⟩ | ⟨hreached, heq⟩
  · rcases account_cases hsignal freed (step j s move) with ⟨-, hafter⟩ | ⟨hreached, -⟩
    · rw [heq, hafter, hheld, step_setSignal hmove, hnotices]
    · rw [hheld] at hreached
      exact absurd hbelow (UInt64.not_lt.2 hreached)
  · rcases account_cases hsignal freed (step j s move) with ⟨hbelow, -⟩ | ⟨-, hafter⟩
    · rw [hheld] at hbelow
      exact absurd hbelow (UInt64.not_lt.2 hreached)
    · -- the counter is added to, and then taken back to zero
      have hadd := step_setSignal (j := j) (s := s) (i := i) hmove (s.memory.signal i + freed)
        s.notices
      have htake := step_setSignal (j := j) (i := i)
        (s := { s with memory := s.memory.setSignal i (s.memory.signal i + freed) }) hmove 0
        ((s.memory.signal i + freed) :: s.notices)
      rw [hadd] at htake
      rw [heq, hafter, hheld, hnotices]
      exact htake

/-- The state of a run with its books. -/
structure Balanced (j : Job) (i : Nat) (s : State) (sent received : Nat) : Prop where
  streaming : Streaming j s sent received
  booked : Booked j i s received

/-- What a read that is about to be booked adds to the counter fits into it. -/
theorem Balanced.fits (inv : Balanced j i s sent received)
    (hle : j.threshold.toNat ≤ j.halves.geometry.size.toNat) :
    (s.memory.signal i).toNat + drawn j s .consume < 2 ^ 64 := by
  have hheld := UInt64.lt_iff_toNat_lt.1 inv.booked.signal_lt
  have hsize := j.halves.geometry.toNat_size_lt
  have hdrawn : drawn j s .consume ≤ j.halves.geometry.size.toNat := by
    rcases inv.streaming.consume_cases with ⟨hzero, -⟩ | ⟨got, m, draws⟩
    · rw [hzero]
      exact Nat.zero_le _
    · rw [draws.length_eq]
      exact draws.length_le
  omega

/-- What one move does to the books.  Either what is booked then is below the threshold, and it stays
    in the counter; or the peer is notified of all of it, and the notice is due: the read that was
    made just now was needed for it. -/
def Books (j : Job) (i : Nat) (s : State) (move : Move) : Prop :=
  let booked := (s.memory.signal i).toNat + drawn j s move
  (booked < j.threshold.toNat ∧ (step j s move).notices = s.notices
      ∧ ((step j s move).memory.signal i).toNat = booked)
    ∨ (j.threshold.toNat ≤ booked ∧ booked < j.threshold.toNat + drawn j s move
      ∧ ((step j s move).memory.signal i).toNat = 0
      ∧ ∃ taken, taken.toNat = booked ∧ (step j s move).notices = taken :: s.notices)

/-- A move that reads nothing books nothing. -/
theorem Booked.books_of_nothing (books : Booked j i s received) {move : Move}
    (hdrawn : drawn j s move = 0)
    (hheld : (Loopback.step j s move).memory.signal i = s.memory.signal i)
    (hnotices : (Loopback.step j s move).notices = s.notices) :
    Booked j i (Loopback.step j s move) (received + drawn j s move) ∧ Books j i s move := by
  have hbelow := UInt64.lt_iff_toNat_lt.1 books.signal_lt
  refine ⟨⟨?_, ?_, ?_⟩, .inl ⟨?_, hnotices, ?_⟩⟩
  · rw [hheld]
    exact books.signal_lt
  · rw [hnotices]
    exact books.notices_ge
  · rw [hheld, hnotices, hdrawn]
    exact books.balance
  · rw [hdrawn]
    exact hbelow
  · rw [hdrawn, hheld]
    rfl

/-- A move that reads bytes books them. -/
theorem Booked.books_of_bytes (books : Booked j i s received) (hsignal : j.halves.signal = some i)
    (hpos : 0 < j.threshold) {got : List UInt8} {m : Memory} (draws : Draws j s sent received got m)
    (fits : (s.memory.signal i).toNat + drawn j s .consume < 2 ^ 64) :
    Booked j i (Loopback.step j s .consume) (received + drawn j s .consume)
      ∧ Books j i s .consume := by
  have hstep : Loopback.step j s .consume
      = Loopback.account j (UInt64.ofNat got.length) (s.draw got m) := draws.consume_eq
  -- the counter is as it was before the read
  have hheld : (s.draw got m).memory.signal i = s.memory.signal i :=
    congrArg (Cells.load · i) draws.signals_eq
  have hfreed : (UInt64.ofNat got.length).toNat = drawn j s .consume := by
    rw [draws.length_eq, UInt64.toNat_ofNat']
    rw [draws.length_eq] at fits
    exact Nat.mod_eq_of_lt (by omega)
  have hbooked : ((s.draw got m).memory.signal i + UInt64.ofNat got.length).toNat
      = (s.memory.signal i).toNat + drawn j s .consume := by
    rw [UInt64.toNat_add, hheld, hfreed]
    exact Nat.mod_eq_of_lt fits
  have hopen : Booked j i (s.draw got m) received :=
    ⟨by rw [hheld]; exact books.signal_lt, books.notices_ge, by rw [hheld]; exact books.balance⟩
  have hclosed := hopen.account hsignal hpos (UInt64.ofNat got.length)
    (by rw [hheld, hfreed]; exact fits)
  rw [hfreed, ← hstep] at hclosed
  refine ⟨hclosed, ?_⟩
  have hbefore := UInt64.lt_iff_toNat_lt.1 books.signal_lt
  unfold Books
  dsimp only
  rw [← hbooked, hstep]
  rcases account_cases hsignal (UInt64.ofNat got.length) (s.draw got m) with
    ⟨hbelow, heq⟩ | ⟨hreached, heq⟩
  · refine .inl ⟨UInt64.lt_iff_toNat_lt.1 hbelow, by rw [heq]; rfl, ?_⟩
    rw [heq]
    exact congrArg UInt64.toNat (Cells.load_store_self ..)
  · refine .inr ⟨UInt64.le_iff_toNat_le.1 hreached, by omega, ?_, _, rfl, by rw [heq]; rfl⟩
    rw [heq]
    exact congrArg UInt64.toNat (Cells.load_store_self ..)

/-- **One move** keeps the books in balance. -/
theorem Balanced.step (inv : Balanced j i s sent received) (hsignal : j.halves.signal = some i)
    (hpos : 0 < j.threshold) (hle : j.threshold.toNat ≤ j.halves.geometry.size.toNat) (move : Move) :
    Balanced j i (Loopback.step j s move) (sent + taken j s move) (received + drawn j s move)
      ∧ Books j i s move := by
  have hstream := inv.streaming.step_drawn hsignal move
  by_cases hmove : move = .consume
  · subst hmove
    rcases inv.streaming.consume_cases with ⟨hdrawn, phase, heq⟩ | ⟨got, m, draws⟩
    · have hstep : Loopback.step j s .consume = { s with phase } := heq
      obtain ⟨hbooked, hbooks⟩ := inv.booked.books_of_nothing hdrawn (by rw [hstep]) (by rw [hstep])
      exact ⟨⟨hstream, hbooked⟩, hbooks⟩
    · obtain ⟨hbooked, hbooks⟩ := inv.booked.books_of_bytes hsignal hpos draws (inv.fits hle)
      exact ⟨⟨hstream, hbooked⟩, hbooks⟩
  · obtain ⟨hheld, hnotices⟩ := step_of_producer (j := j) (s := s) (i := i) hmove
    have hnone : drawn j s move = 0 := by
      cases move with
      | consume => contradiction
      | produce | stop => rfl
    obtain ⟨hbooked, hbooks⟩ := inv.booked.books_of_nothing hnone hheld hnotices
    exact ⟨⟨hstream, hbooked⟩, hbooks⟩

/-- Any moves in any order. -/
theorem Balanced.run (inv : Balanced j i s sent received) (hsignal : j.halves.signal = some i)
    (hpos : 0 < j.threshold) (hle : j.threshold.toNat ≤ j.halves.geometry.size.toNat)
    (moves : List Move) :
    Balanced j i (Loopback.run j s moves) (sent + transferred j s moves)
      (received + drained j s moves) := by
  induction moves generalizing s sent received with
  | nil => exact inv
  | cons move rest ih =>
    obtain ⟨hnext, -⟩ := inv.step hsignal hpos hle move
    rw [transferred, drained, ← Nat.add_assoc, ← Nat.add_assoc]
    exact ih hnext

/-- The beginning, in a file that was just made. -/
theorem Balanced.init {t t' : FileTree} {path : String} {g : Geometry} {file : SharedFile}
    (fresh : SharedFile.create t path g = (.ok file, t')) (messageBytes : UInt64)
    {threshold : UInt64} (hpos : 0 < threshold) :
    Balanced ⟨file.halves, messageBytes, threshold⟩ 0 (begin file t') 0 0 := by
  have hzero : (begin file t').memory.signal 0 = 0 :=
    congrArg Header.signal (SharedFile.header_create fresh)
  refine ⟨Streaming.init fresh messageBytes threshold, ?_, ?_, ?_⟩
  · rw [hzero]
    exact hpos
  · intro n hn
    cases hn
  · rw [hzero]
    rfl

/-- The small ring, in a file that is just being made. -/
theorem create_small : SharedFile.create .initial "ring" Ring.small.geometry
    = (.ok ⟨0, Ring.small.geometry⟩,
      (SharedFile.create .initial "ring" Ring.small.geometry).2) := Prod.ext (by cbv) rfl

/-- A run of it begins with a header and zero bytes. -/
theorem begin_small : begin ⟨0, Ring.small.geometry⟩
      (SharedFile.create .initial "ring" Ring.small.geometry).2
    = { memory := Memory.ofFile (((Bytes.zeros 0).grow 52).write 0
        (Header.ofGeometry Ring.small.geometry).encode) } := by
  rw [begin, (SharedFile.bytes_create create_small).2]; rfl

/-- **The books of a loopback run balance.**  Take a file in which a ring was just made, of any
    geometry, messages of any length, and any threshold that is not zero and not more than the ring.
    In whatever order the two parties move, the counter stays below the threshold, and what the peer
    was notified of is together with the counter just what was read.  Each notice tells of a threshold
    at least, and it is due: without the last read it would have been too early.  So the notices are
    no more than the bytes that were read allow, there is none only as long as these are too few, and
    no addition to the counter overflows.  It does not matter whether the producer moves between a
    read and its booking or after both. -/
theorem books_balance {t t' : FileTree} {path : String} {g : Geometry} {file : SharedFile}
    (fresh : SharedFile.create t path g = (.ok file, t')) (messageBytes threshold : UInt64)
    (hpos : 1 ≤ threshold.toNat) (hle : threshold.toNat ≤ g.size.toNat) (moves : List Move) :
    let j : Job := ⟨file.halves, messageBytes, threshold⟩
    let s := run j (begin file t') moves
    let received := drained j (begin file t') moves
    let held := (s.memory.signal 0).toNat
    j.halves.signal = some 0 ∧ s.received = UInt64.ofNat received
      ∧ held < threshold.toNat
      ∧ (s.notices.map UInt64.toNat).sum + held = received
      ∧ s.notices.length * threshold.toNat ≤ received
      ∧ (s.notices = [] ↔ received < threshold.toNat)
      ∧ held + drawn j s .consume < 2 ^ 64
      ∧ (∀ move, Books j 0 s move)
      ∧ ∀ (between : State) (freed : UInt64), ∀ move ≠ .consume,
          step j (account j freed between) move = account j freed (step j between move) := by
  intro j s received held
  have hsignal : j.halves.signal = some 0 := rfl
  have hthreshold : 0 < j.threshold := UInt64.lt_iff_toNat_lt.2 hpos
  have hring : j.threshold.toNat ≤ j.halves.geometry.size.toNat := by
    rw [show j.halves.geometry = g from (SharedFile.bytes_create fresh).1]
    exact hle
  have inv : Balanced j 0 s (transferred j (begin file t') moves) received := by
    have hrun := (Balanced.init fresh messageBytes hthreshold).run hsignal hthreshold hring moves
    rw [Nat.zero_add, Nat.zero_add] at hrun
    exact hrun
  exact ⟨hsignal, inv.streaming.received_eq, UInt64.lt_iff_toNat_lt.1 inv.booked.signal_lt,
    inv.booked.balance, inv.booked.length_notices_mul_le, inv.booked.notices_eq_nil_iff,
    inv.fits hring, fun move => (inv.step hsignal hthreshold hring move).2,
    fun _ freed move hmove => step_account hsignal freed hmove⟩

/-- A ring of four units of three bytes, messages of seven bytes, and a threshold of eight.  The third
    message goes in only in part, and the consumer reads it with the second one; that makes fifteen
    bytes since the beginning, and the first notice is due. -/
theorem books_balance_small :
    let g := Ring.small.geometry
    let file : SharedFile := ⟨0, g⟩
    let t' := (SharedFile.create .initial "ring" g).2
    let j : Job := ⟨file.halves, 7, 8⟩
    let moves : List Move := [.produce, .consume, .produce, .produce, .consume, .consume, .consume,
      .produce, .consume, .stop, .consume, .consume]
    let s := run j (begin file t') moves
    SharedFile.create .initial "ring" g = (.ok file, t') ∧ s.notices = [15]
      ∧ drained j (begin file t') moves = 21 ∧ s.received = 21 ∧ (s.memory.signal 0).toNat = 6 := by
  intro g file t' j moves s
  have fresh : SharedFile.create .initial "ring" g = (.ok file, t') := create_small
  have hnotices : s.notices = [15] := by
    show (run j (begin file t') moves).notices = _
    rw [begin_small]
    decide +kernel
  have hread : drained j (begin file t') moves = 21 := by
    rw [begin_small]
    decide +kernel
  obtain ⟨-, hreceived, -, hbalance, -⟩ :=
    books_balance fresh 7 8 (by decide) (by decide) moves
  rw [hread] at hreceived hbalance
  rw [show (run j (begin file t') moves).notices = [15] from hnotices] at hbalance
  exact ⟨fresh, hnotices, hread, hreceived, Nat.add_left_cancel (n := 15) hbalance⟩

end Loopback

end SharedRing
