/-
  The stream of a loopback run arrives whole.

  The invariant (`Streaming`) counts exactly, with no wrap: so many bytes went into the ring and so
  many came out.  What waits is then the pattern from the one number to the other, and everything
  that the two parties keep in words is one of these numbers, taken modulo the word.  The consumer
  therefore always finds the pattern it expects, however far the stream has gone.

  It may leave only from `sawStop`, and there the producer has stopped already: what the last look
  finds empty stays empty.  Had it looked for bytes first and for the stop sign afterwards, bytes
  written between the two looks would be lost.
-/
import SharedRing.Proofs.Handover
import SharedRing.Proofs.SharedHeader
import SharedRing.Loopback

namespace SharedRing.Loopback

/-! ## The pattern -/

theorem message_add (first a b : Nat) : message (UInt64.ofNat first) (a + b)
    = message (UInt64.ofNat first) a ++ message (UInt64.ofNat (first + a)) b := by
  rw [message, List.range_add, List.map_append, List.map_map]
  refine congrArg _ (List.map_congr_left ?_)
  intro k _
  rw [Function.comp, UInt64.ofNat_add, UInt64.ofNat_add, UInt64.add_assoc]

/-- The pattern has no fault. -/
theorem firstFault_message (first n : Nat) :
    firstFault (UInt64.ofNat first) (message (UInt64.ofNat first) n) = none := by
  induction n generalizing first with
  | zero => rfl
  | succ n ih =>
    have hone : message (UInt64.ofNat first) 1 = [streamByte (UInt64.ofNat first)] := by
      rw [message, List.range_one, List.map_singleton, show UInt64.ofNat 0 = 0 from rfl,
        UInt64.add_zero]
    have hnext : UInt64.ofNat first + 1 = UInt64.ofNat (first + 1) := by
      rw [UInt64.ofNat_add]; rfl
    rw [Nat.add_comm, message_add, hone, List.singleton_append, firstFault, bne_self_eq_false,
      if_neg Bool.false_ne_true, hnext]
    exact ih (first + 1)

/-- Counters of whole units add up. -/
theorem ofNat_div_add (g : Geometry) {a : Nat} (ha : g.unitSize.toNat ∣ a) (b : Nat) :
    UInt32.ofNat (a / g.unitSize.toNat) + UInt32.ofNat (b / g.unitSize.toNat)
      = UInt32.ofNat ((a + b) / g.unitSize.toNat) := by
  obtain ⟨k, rfl⟩ := ha
  rw [Nat.mul_add_div g.unitSize_pos, Nat.mul_div_cancel_left _ g.unitSize_pos, UInt32.ofNat_add]

/-! ## The invariant -/

/-- So many bytes have gone into the ring, and so many have come out. -/
structure Streaming (j : Job) (s : State) (sent received : Nat) : Prop where
  inOrder : j.halves.InOrder s.memory
  received_le : received ≤ sent
  sent_whole : j.halves.geometry.unitSize.toNat ∣ sent
  received_whole : j.halves.geometry.unitSize.toNat ∣ received
  sent_eq : s.sent = UInt64.ofNat sent
  received_eq : s.received = UInt64.ofNat received
  tail_eq : j.halves.tailCount s.memory
    = UInt32.ofNat (sent / j.halves.geometry.unitSize.toNat)
  head_eq : j.halves.headCount s.memory
    = UInt32.ofNat (received / j.halves.geometry.unitSize.toNat)
  unread_eq : j.halves.unread s.memory = message (UInt64.ofNat received) (sent - received)
  not_corrupted : ∀ offset, s.phase ≠ .corrupted offset
  not_failed : ∀ e, s.phase ≠ .failed e
  stopped_of_sawStop : s.phase = .sawStop → s.stopped = true
  stopped_of_finished : s.phase = .finished → s.stopped = true ∧ received = sent

/-- The bytes that the ring takes in one move. -/
def taken (j : Job) (s : State) : Move → Nat
  | .produce => if s.stopped then 0 else (offer j s.sent s.memory).1.toNat
  | .stop | .consume => 0

/-- The bytes that the ring takes in a run, as an exact number. -/
def transferred (j : Job) : State → List Move → Nat
  | _, [] => 0
  | s, move :: rest => taken j s move + transferred j (step j s move) rest

variable {j : Job} {s : State} {sent received : Nat}

/-- The producer's move. -/
theorem Streaming.produce (inv : Streaming j s sent received) :
    Streaming j (produce j s) (sent + taken j s .produce) received := by
  unfold Loopback.produce taken
  split
  · exact inv
  · rename_i hgoing
    obtain ⟨amount, published⟩ :=
      Halves.published_write inv.inOrder (message s.sent j.messageBytes.toNat)
    have hdvd : j.halves.geometry.unitSize.toNat
        ∣ (j.halves.write (message s.sent j.messageBytes.toNat) s.memory).1.toNat := ⟨_, amount⟩
    have hle : (j.halves.write (message s.sent j.messageBytes.toNat) s.memory).1.toNat
        ≤ j.messageBytes.toNat := by
      rw [amount, length_message, Nat.mul_comm]
      exact Nat.le_trans (Nat.mul_le_mul_right _ (Nat.min_le_left _ _))
        (Nat.div_mul_le_self _ _)
    rw [offer_eq_write]
    generalize j.halves.write (message s.sent j.messageBytes.toNat) s.memory = out
      at published hdvd hle
    obtain ⟨n, m⟩ := out
    rw [take_message _ hle, inv.sent_eq] at published
    have hreceived := inv.received_le
    refine
      { inOrder := published.inOrder
        received_le := Nat.le_add_right_of_le hreceived
        sent_whole := Nat.dvd_add inv.sent_whole hdvd
        received_whole := inv.received_whole
        sent_eq := ?_
        received_eq := inv.received_eq
        tail_eq := ?_
        head_eq := published.head_eq.trans inv.head_eq
        unread_eq := ?_
        not_corrupted := inv.not_corrupted
        not_failed := inv.not_failed
        stopped_of_sawStop := inv.stopped_of_sawStop
        stopped_of_finished := fun hfinished =>
          absurd (inv.stopped_of_finished hfinished).1 hgoing }
    · show s.sent + n = UInt64.ofNat (sent + n.toNat)
      rw [inv.sent_eq, UInt64.ofNat_add, UInt64.ofNat_toNat]
    · show j.halves.tailCount m = _
      rw [published.tail_eq, inv.tail_eq, length_message, ofNat_div_add _ inv.sent_whole]
    · -- what the ring took goes on where the bytes that waited end
      show j.halves.unread m = _
      have hbehind : sent = received + (sent - received) := by omega
      rw [published.unread_eq, inv.unread_eq]
      conv => lhs; rhs; rw [hbehind]
      rw [← message_add]
      show _ = message _ (sent + n.toNat - received)
      rw [Nat.sub_add_comm hreceived]

/-- The consumer's books are no part of the stream. -/
theorem Streaming.account (inv : Streaming j s sent received) {i : Nat}
    (hsignal : j.halves.signal = some i) (freed : UInt64) :
    Streaming j (Loopback.account j freed s) sent received := by
  have hsame : ∃ signals notices, Loopback.account j freed s = { s with
      memory := { s.memory with signals := signals }, notices := notices } := by
    unfold Loopback.account Memory.addSignal Memory.takeSignal
    rw [hsignal]
    simp only
    split
    · exact ⟨_, _, rfl⟩
    · exact ⟨_, _, rfl⟩
  obtain ⟨signals, notices, heq⟩ := hsame
  have inOrder := inv.inOrder
  rw [heq]
  exact
    { inv with
      inOrder := ⟨inOrder.ring_le_region, inOrder.region_le_memory, inOrder.head_ne_tail,
        inOrder.occupied_le⟩ }

/-- What a read gives the consumer is the pattern that it expects. -/
theorem Streaming.read (inv : Streaming j s sent received) (hphase : s.phase = .reading)
    {got : List UInt8} {m : Memory} (released : j.halves.Released s.memory m got)
    (hwhole : j.halves.geometry.unitSize.toNat ∣ got.length) :
    got = message (UInt64.ofNat received) got.length
      ∧ Streaming j { s with memory := m, received := s.received + UInt64.ofNat got.length }
          sent (received + got.length) := by
  have hreceived := inv.received_le
  have hunread := released.unread_eq
  rw [inv.unread_eq] at hunread
  have hlen := congrArg List.length hunread
  rw [length_message, List.length_append] at hlen
  have hsplit : sent - received = got.length + (sent - received - got.length) := by omega
  rw [hsplit, message_add] at hunread
  -- what was released and what still waits are the two parts of one pattern
  obtain ⟨hgot, hrest⟩ := List.append_inj hunread (length_message _ _)
  refine ⟨hgot.symm, ?_⟩
  exact
    { inOrder := released.inOrder
      received_le := by omega
      sent_whole := inv.sent_whole
      received_whole := Nat.dvd_add inv.received_whole hwhole
      sent_eq := inv.sent_eq
      received_eq := by
        show s.received + UInt64.ofNat got.length = _
        rw [inv.received_eq, UInt64.ofNat_add]
      tail_eq := released.tail_eq.trans inv.tail_eq
      head_eq := by
        show j.halves.headCount m = _
        rw [released.head_eq, inv.head_eq, ofNat_div_add _ inv.received_whole]
      unread_eq := by
        show j.halves.unread m = _
        rw [← hrest, Nat.sub_add_eq]
      not_corrupted := inv.not_corrupted
      not_failed := inv.not_failed
      stopped_of_sawStop := inv.stopped_of_sawStop
      stopped_of_finished := fun hfinished => (nomatch hphase.symm.trans hfinished) }

/-- A phase that is neither a failure nor an end. -/
theorem Streaming.withPhase (inv : Streaming j s sent received) {phase : Phase}
    (hphase : phase = .reading ∨ phase = .sawNothing ∨ (phase = .sawStop ∧ s.stopped = true)
      ∨ (phase = .finished ∧ s.stopped = true ∧ received = sent)) :
    Streaming j { s with phase } sent received :=
  { inv with
    not_corrupted := by rintro offset rfl; simp at hphase
    not_failed := by rintro e rfl; simp at hphase
    stopped_of_sawStop := by rintro rfl; simpa using hphase
    stopped_of_finished := by rintro rfl; simpa using hphase }

/-- The consumer's move. -/
theorem Streaming.consume (inv : Streaming j s sent received) {i : Nat}
    (hsignal : j.halves.signal = some i) :
    ∃ received', Streaming j (consume j s) sent received' := by
  unfold Loopback.consume
  cases hphase : s.phase with
  | reading =>
    obtain ⟨amount, released⟩ := Halves.released_read inv.inOrder (room j) none
    obtain ⟨hgot, hnext⟩ := inv.read hphase released ⟨_, amount⟩
    rw [hphase] at hnext
    generalize j.halves.read (room j) none s.memory = out at hgot hnext
    obtain ⟨got, m⟩ := out
    show ∃ received', Streaming j (if got.isEmpty then _ else _) sent received'
    split
    · -- nothing was read, and nothing has changed
      rename_i hempty
      obtain rfl := List.isEmpty_iff.1 hempty
      have hsame : s.received + UInt64.ofNat ([] : List UInt8).length = s.received :=
        UInt64.add_zero _
      rw [hsame] at hnext
      exact ⟨received, hnext.withPhase (.inr (.inl rfl))⟩
    · have hpattern : firstFault s.received got = none := by
        rw [inv.received_eq, show got = _ from hgot]; exact firstFault_message _ _
      rw [hpattern]
      exact ⟨_, hnext.account hsignal _⟩
  | sawNothing =>
    refine ⟨received, inv.withPhase ?_⟩
    cases s.stopped with
    | true => exact .inr (.inr (.inl ⟨rfl, rfl⟩))
    | false => exact .inl rfl
  | sawStop =>
    refine ⟨received, inv.withPhase ?_⟩
    have hstopped := inv.stopped_of_sawStop hphase
    split
    · -- the last look: nothing waits, and nobody is left to write
      rename_i hempty
      have hlen := j.halves.toNat_pending s.memory
      rw [hempty, inv.unread_eq, length_message, UInt64.toNat_zero] at hlen
      have hle := inv.received_le
      exact .inr (.inr (.inr ⟨rfl, hstopped, by omega⟩))
    · exact .inl rfl
  | finished => exact ⟨received, inv⟩
  | corrupted offset => exact ⟨received, inv⟩
  | failed e => exact ⟨received, inv⟩

/-- One move of either party. -/
theorem Streaming.step (inv : Streaming j s sent received) {i : Nat}
    (hsignal : j.halves.signal = some i) (move : Move) :
    ∃ received', Streaming j (step j s move) (sent + taken j s move) received' := by
  cases move with
  | produce => exact ⟨received, inv.produce⟩
  | stop =>
    exact ⟨received, { inv with
      stopped_of_sawStop := fun _ => rfl
      stopped_of_finished := fun hfinished => ⟨rfl, (inv.stopped_of_finished hfinished).2⟩ }⟩
  | consume => exact inv.consume hsignal

/-- Any moves in any order. -/
theorem Streaming.run (inv : Streaming j s sent received) {i : Nat}
    (hsignal : j.halves.signal = some i) (moves : List Move) :
    ∃ received', Streaming j (run j s moves) (sent + transferred j s moves) received' := by
  induction moves generalizing s sent received with
  | nil => exact ⟨received, inv⟩
  | cons move rest ih =>
    obtain ⟨received', hnext⟩ := inv.step hsignal move
    obtain ⟨received'', hrest⟩ := ih hnext
    exact ⟨received'', by rw [transferred, ← Nat.add_assoc]; exact hrest⟩

/-- The beginning, in a file that was just made. -/
theorem Streaming.init {t t' : FileTree} {path : String} {g : Geometry} {file : SharedFile}
    (fresh : SharedFile.create t path g = (.ok file, t')) (messageBytes threshold : UInt64) :
    Streaming ⟨file.halves, messageBytes, threshold⟩ (begin file t') 0 0 := by
  obtain ⟨hhead, htail, inOrder⟩ := SharedFile.empty_create fresh
  have hempty : file.halves.occupied (begin file t').memory = 0 := by
    show (file.halves.tailCount _ - file.halves.headCount _).toNat = 0
    rw [show file.halves.tailCount (begin file t').memory = 0 from htail,
      show file.halves.headCount (begin file t').memory = 0 from hhead]
    rfl
  exact
    { inOrder
      received_le := Nat.le_refl _
      sent_whole := Nat.dvd_zero _
      received_whole := Nat.dvd_zero _
      sent_eq := rfl
      received_eq := rfl
      tail_eq := by rw [Nat.zero_div]; exact htail
      head_eq := by rw [Nat.zero_div]; exact hhead
      unread_eq := by
        show file.halves.unread (begin file t').memory = []
        apply List.length_eq_zero_iff.1
        rw [Halves.length_unread, hempty, Nat.zero_mul]
      not_corrupted := fun _ hphase => (nomatch hphase)
      not_failed := fun _ hphase => (nomatch hphase)
      stopped_of_sawStop := fun hphase => (nomatch hphase)
      stopped_of_finished := fun hphase => (nomatch hphase) }

/-! ## A run that is over -/

/-- Once the consumer has left its loop, everything has come out. -/
theorem Streaming.totals_eq (inv : Streaming j s sent received) (hfinished : s.phase = .finished) :
    totals s = .ok ⟨s.sent, s.sent, s.notices.length⟩ := by
  have hsame : s.received = s.sent := by
    rw [inv.sent_eq, inv.received_eq, (inv.stopped_of_finished hfinished).2]
  unfold totals
  rw [hfinished, hsame]
  exact if_neg fun hne => hne rfl

/-- **The stream of a loopback run arrives whole.**  Take a file in which a ring was just made, of any
    geometry, and any settings.  The run can begin, and in whatever order the two parties move, the
    consumer finds no byte that is wrong, and its signal does not fail.  When it has left its loop,
    the producer has stopped, nothing waits, and the totals agree.  If the stream is not longer than a
    word can count, the totals are the exact number of bytes that went into the ring, that number is
    one of whole units, and both counters have counted these units. -/
theorem stream_arrives_whole {t t' : FileTree} {path : String} {g : Geometry} {file : SharedFile}
    (fresh : SharedFile.create t path g = (.ok file, t')) :
    (∀ settings : Settings, job settings file t'
        = .ok ⟨file.halves, settings.messageBytes, settings.noticeThreshold⟩)
      ∧ ∀ (messageBytes threshold : UInt64) (moves : List Move),
        let j : Job := ⟨file.halves, messageBytes, threshold⟩
        let s := run j (begin file t') moves
        let total := transferred j (begin file t') moves
        (∀ offset, s.phase ≠ .corrupted offset) ∧ (∀ e, s.phase ≠ .failed e)
          ∧ (s.phase = .finished → s.stopped = true
            ∧ j.halves.pending s.memory = 0 ∧ j.halves.unread s.memory = []
            ∧ totals s = .ok ⟨s.sent, s.sent, s.notices.length⟩
            ∧ (total < 2 ^ 64 → s.sent.toNat = total ∧ s.received.toNat = total
              ∧ g.unitSize.toNat ∣ total
              ∧ j.halves.headCount s.memory = UInt32.ofNat (total / g.unitSize.toNat)
              ∧ j.halves.tailCount s.memory = UInt32.ofNat (total / g.unitSize.toNat))) := by
  obtain ⟨ring, hring, hhalves⟩ := SharedFile.halves_create fresh
  have hgeometry : file.geometry = g := (SharedFile.bytes_create fresh).1
  constructor
  · intro settings
    unfold job
    rw [hring]
    simp only
    rw [hhalves]
  · intro messageBytes threshold moves j s total
    obtain ⟨received, inv⟩ :=
      (Streaming.init fresh messageBytes threshold).run (i := 0) rfl moves
    rw [Nat.zero_add] at inv
    refine ⟨inv.not_corrupted, inv.not_failed, ?_⟩
    intro hfinished
    obtain ⟨hstopped, rfl⟩ := inv.stopped_of_finished hfinished
    have hunread : j.halves.unread s.memory = [] := by
      rw [inv.unread_eq, Nat.sub_self]; rfl
    have hpending : j.halves.pending s.memory = 0 := by
      rw [← UInt64.toNat_inj, Halves.toNat_pending, hunread]; rfl
    refine ⟨hstopped, hpending, hunread, inv.totals_eq hfinished, ?_⟩
    intro hword
    have hexact : (UInt64.ofNat total).toNat = total := by
      rw [UInt64.toNat_ofNat']; exact Nat.mod_eq_of_lt hword
    have hwhole := inv.sent_whole
    have hhead := inv.head_eq
    have htail := inv.tail_eq
    rw [show j.halves.geometry = g from hgeometry] at hwhole hhead htail
    exact ⟨by rw [inv.sent_eq]; exact hexact, by rw [inv.received_eq]; exact hexact, hwhole, hhead,
      htail⟩

/-- A ring of four units of three bytes, and messages of seven bytes.  The producer fills the ring
    twice and stops just after the consumer has read nothing; the consumer sees the stop sign, still
    finds bytes, and reads them before it leaves. -/
theorem stream_arrives_whole_small :
    let g := Ring.small.geometry
    let file : SharedFile := ⟨0, g⟩
    let t' := (SharedFile.create .initial "ring" g).2
    let j : Job := ⟨file.halves, 7, 5⟩
    let moves : List Move := [.consume, .produce, .consume, .produce, .consume, .consume, .produce,
      .produce, .stop, .consume, .consume, .produce, .consume, .consume, .consume, .consume]
    let s := run j (begin file t') moves
    SharedFile.create .initial "ring" g = (.ok file, t')
      ∧ s.phase = .finished ∧ transferred j (begin file t') moves = 18
      ∧ s.sent.toNat = 18 ∧ s.received.toNat = 18 ∧ j.halves.unread s.memory = []
      ∧ j.halves.headCount s.memory = 6 ∧ j.halves.tailCount s.memory = 6 := by
  intro g file t' j moves s
  have fresh : SharedFile.create .initial "ring" g = (.ok file, t') := Prod.ext (by cbv) rfl
  have hbegin : begin file t' = { memory := Memory.ofFile (((Bytes.zeros 0).grow 52).write 0
      (Header.ofGeometry Ring.small.geometry).encode) } := by
    rw [begin, (SharedFile.bytes_create fresh).2]; rfl
  have hfinished : s.phase = .finished := by
    show (run j (begin file t') moves).phase = _
    rw [hbegin]
    decide +kernel
  have htotal : transferred j (begin file t') moves = 18 := by
    rw [hbegin]
    decide +kernel
  obtain ⟨-, -, hover⟩ := (stream_arrives_whole fresh).2 7 5 moves
  obtain ⟨-, -, hunread, -, hexact⟩ := hover hfinished
  rw [htotal] at hexact
  obtain ⟨hsent, hreceived, -, hhead, htail⟩ := hexact (by decide)
  exact ⟨fresh, hfinished, htotal, hsent, hreceived, hunread, hhead.trans (by decide),
    htail.trans (by decide)⟩

end SharedRing.Loopback
