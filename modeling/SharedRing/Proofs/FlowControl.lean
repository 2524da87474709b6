/-
  The flow-control counter keeps account.

  Two things are asked of it: to add a value, and to give up what it holds.  Each is answered with
  what it held before (`Kept`), so nothing is lost on the way, and what was there with all that was
  added is what is there with all that was taken (`Kept.balance`), up to the wrap of a word.

  The counter belongs to no ring.  Rings are bound to it and let go of it, are split and put
  together, one after the other, and bytes move all the while; the account is about the requests
  that reached this counter, whoever made them.  The one fact behind it is that every other call does
  the same over any counters and leaves them as they are (`Session.step_unasked`), which also says
  that a ring without such a counter works as one that has one.
-/
import SharedRing.Proofs.Bindings
import SharedRing.Proofs.SharedHeader
import SharedRing.Proofs.Fields

namespace SharedRing

/-! ## A counter by itself -/

/-- What is asked of a flow-control counter. -/
inductive Request where
  | add (value : UInt64)
  | take
deriving DecidableEq, Repr

/-- What a counter holds after that. -/
def Request.after (held : UInt64) : Request → UInt64
  | .add value => held + value
  | .take => 0

/-- A request, the counter that it went to if there was one, and the answer. -/
structure Receipt where
  cell : Option Nat
  request : Request
  answer : Except Refusal UInt64

namespace Receipt

/-- What was added. -/
def added (r : Receipt) : Nat :=
  match r.request with
  | .add value => value.toNat
  | .take => 0

/-- What was given up. -/
def taken (r : Receipt) : Nat :=
  match r.request, r.answer with
  | .take, .ok value => value.toNat
  | _, _ => 0

end Receipt

/-- A counter that held `first` and holds `last` has answered each of these requests with what it
    held before. -/
inductive Kept : UInt64 → List Receipt → UInt64 → Prop
  | nil (held : UInt64) : Kept held [] held
  | cons {held last : UInt64} {receipt : Receipt} {rest : List Receipt}
    (answer : receipt.answer = .ok held) (kept : Kept (receipt.request.after held) rest last) :
    Kept held (receipt :: rest) last

namespace Kept

variable {first mid last : UInt64} {receipts rest : List Receipt}

theorem append (h : Kept first receipts mid) (h' : Kept mid rest last) :
    Kept first (receipts ++ rest) last := by
  induction h with
  | nil => exact h'
  | cons answer _ ih => exact .cons answer (ih h')

/-- What one request changes, as far as a word can tell. -/
theorem balance_step {receipt : Receipt} {held : UInt64} (answer : receipt.answer = .ok held) :
    held.toNat + receipt.added ≡ (receipt.request.after held).toNat + receipt.taken [MOD 2 ^ 64] := by
  obtain ⟨cell, request, verdict⟩ := receipt
  obtain rfl : verdict = .ok held := answer
  cases request with
  | add value =>
    show held.toNat + value.toNat ≡ (held + value).toNat + 0 [MOD 2 ^ 64]
    rw [UInt64.toNat_add, Nat.add_zero]
    exact (Nat.mod_modEq _ _).symm
  | take =>
    show held.toNat + 0 ≡ (0 : UInt64).toNat + held.toNat [MOD 2 ^ 64]
    rw [UInt64.toNat_zero, Nat.zero_add, Nat.add_zero]

/-- **Nothing is lost**: what was there and what was added is what is there and what was taken. -/
theorem balance (h : Kept first receipts last) :
    first.toNat + (receipts.map Receipt.added).sum
      ≡ last.toNat + (receipts.map Receipt.taken).sum [MOD 2 ^ 64] := by
  induction h with
  | nil => exact Nat.ModEq.refl _
  | @cons held last receipt rest answer _ ih =>
    rw [List.map_cons, List.map_cons, List.sum_cons, List.sum_cons]
    have hstep := (balance_step answer).add_right (rest.map Receipt.added).sum
    have hrest := ih.add_right receipt.taken
    have hswap : (receipt.request.after held).toNat + receipt.taken + (rest.map Receipt.added).sum
        = (receipt.request.after held).toNat + (rest.map Receipt.added).sum + receipt.taken :=
      Nat.add_right_comm _ _ _
    rw [hswap] at hstep
    have := hstep.trans hrest
    rwa [Nat.add_assoc, Nat.add_assoc, Nat.add_comm (rest.map Receipt.taken).sum] at this

end Kept

/-! ## Calls that ask nothing of it -/

/-- What a call asks of the flow-control counter. -/
def Call.request? : Call → Option Request
  | .addSignal value => some (.add value)
  | .takeSignal => some .take
  | _ => none

/-- What memory answers to a request, and how it is then. -/
def Memory.ask (m : Memory) (signal : Option Nat) (r : Request) :
    Except Refusal (UInt64 × Memory) :=
  match signal with
  | some i => .ok (m.signal i, m.setSignal i (r.after (m.signal i)))
  | none => .error (.missing .signal)

theorem Memory.addSignal_eq_ask (m : Memory) (signal : Option Nat) (value : UInt64) :
    m.addSignal signal value = m.ask signal (.add value) := by cases signal <;> rfl

theorem Memory.takeSignal_eq_ask (m : Memory) (signal : Option Nat) :
    m.takeSignal signal = m.ask signal .take := by cases signal <;> rfl

/-- Memory with other flow-control counters. -/
def Memory.withSignals (m : Memory) (signals : Cells UInt64) : Memory := { m with signals := signals }

/-- Halves that are bound to another flow-control counter, or to none. -/
def Halves.rebind (h : Halves) (signal : Option Nat) : Halves := { h with signal := signal }

def Session.rebind (s : Session) (signal : Option Nat) : Session :=
  { s with halves := s.halves.rebind signal }

namespace Halves

variable (h : Halves) (signal : Option Nat) (signals : Cells UInt64) (m : Memory)

/-- A transfer does not look at flow-control counters. -/
theorem write_rebind (data : List UInt8) : (h.rebind signal).write data (m.withSignals signals)
    = ((h.write data m).1, (h.write data m).2.withSignals signals) := by
  have hplan : Transfer.write? (h.rebind signal).geometry
      ((h.rebind signal).headCount (m.withSignals signals))
      ((h.rebind signal).tailCount (m.withSignals signals)) data.length
        = Transfer.write? h.geometry (h.headCount m) (h.tailCount m) data.length := rfl
  rw [write, write, hplan]
  cases Transfer.write? h.geometry (h.headCount m) (h.tailCount m) data.length <;> rfl

theorem read_rebind (room : Nat) (count : Option UInt64) :
    (h.rebind signal).read room count (m.withSignals signals)
      = ((h.read room count m).1, (h.read room count m).2.withSignals signals) := by
  have hplan : Transfer.read? (h.rebind signal).geometry
      ((h.rebind signal).headCount (m.withSignals signals))
      ((h.rebind signal).tailCount (m.withSignals signals)) room count
        = Transfer.read? h.geometry (h.headCount m) (h.tailCount m) room count := rfl
  rw [read, read, hplan]
  cases Transfer.read? h.geometry (h.headCount m) (h.tailCount m) room count <;> rfl

end Halves

namespace Session

variable {s : Session} {c : Call} {m : Memory}

/-- **A call that is no request does the same over any flow-control counters**, bound to one of them
    or to none, and leaves them. -/
theorem step_unasked (hrequest : c.request? = none) (hpeer : ∀ value, c ≠ .peerSignal value)
    (signal : Option Nat) (signals : Cells UInt64) (m : Memory) :
    (s.rebind signal).step c (m.withSignals signals)
      = ((s.step c m).1, (s.step c m).2.1.rebind signal, (s.step c m).2.2.withSignals signals) := by
  cases c with
  | addSignal _ | takeSignal => contradiction
  | peerSignal value => exact absurd rfl (hpeer value)
  | write data =>
    cases hw : s.writing with
    | none =>
      have hwrite : (s.rebind signal).halves.write data (m.withSignals signals) = _ :=
        s.halves.write_rebind signal signals m data
      rw [step_write hw, step_write (s := s.rebind signal) hw, hwrite]
    | some t =>
      obtain ⟨h, writing, reading⟩ := s
      obtain rfl : writing = some t := hw
      rfl
  | read buffer count =>
    cases hr : s.reading with
    | none =>
      have hread : (s.rebind signal).halves.read buffer.length count (m.withSignals signals) = _ :=
        s.halves.read_rebind signal signals m buffer.length count
      rw [step_read hr, step_read (s := s.rebind signal) hr, hread]
    | some t =>
      obtain ⟨h, writing, reading⟩ := s
      obtain rfl : reading = some t := hr
      rfl
  | reserve _ | fill _ | publish | discard | writerCounts =>
    obtain ⟨h, writing, reading⟩ := s
    cases writing <;> rfl
  | view | viewOf _ | look | release | leave | readerCounts =>
    obtain ⟨h, writing, reading⟩ := s
    cases reading <;> rfl
  | peerHead _ | peerTail _ => rfl

/-- It leaves all flow-control counters. -/
theorem signals_step (hrequest : c.request? = none) (hpeer : ∀ value, c ≠ .peerSignal value) :
    (s.step c m).2.2.signals = m.signals := by
  have hstep : s.step c m = ((s.step c m).1, (s.step c m).2.1.rebind s.halves.signal,
      (s.step c m).2.2.withSignals m.signals) :=
    step_unasked hrequest hpeer s.halves.signal m.signals m
  exact congrArg (fun x : Answer × Session × Memory => x.2.2.signals) hstep

/-! ## Calls that ask something of it -/

variable {r : Request}

/-- A reader that keeps a chunk open asks nothing. -/
theorem step_request_of_open (hrequest : c.request? = some r) (hopen : s.reading ≠ none)
    (m : Memory) : s.step c m = (.busy, s, m) := by
  obtain ⟨t, ht⟩ := Option.ne_none_iff_exists'.1 hopen
  cases c with
  | addSignal _ | takeSignal =>
    unfold step
    rw [ht]
    rfl
  | _ => contradiction

theorem step_request (hrequest : c.request? = some r) (idle : s.reading = none) (m : Memory) :
    s.step c m = s.signalled m (m.ask s.halves.signal r) := by
  cases c with
  | addSignal value =>
    obtain rfl := Option.some.inj hrequest
    rw [← Memory.addSignal_eq_ask]
    unfold step
    rw [idle]
    rfl
  | takeSignal =>
    obtain rfl := Option.some.inj hrequest
    rw [← Memory.takeSignal_eq_ask]
    unfold step
    rw [idle]
    rfl
  | _ => contradiction

/-- A bound counter answers with what it held. -/
theorem step_request_of_bound (hrequest : c.request? = some r) (idle : s.reading = none) {i : Nat}
    (hsignal : s.halves.signal = some i) (m : Memory) :
    s.step c m = (.held (m.signal i), s, m.setSignal i (r.after (m.signal i))) := by
  rw [step_request hrequest idle, hsignal]
  rfl

/-- Where none is bound, that is the answer. -/
theorem step_request_of_free (hrequest : c.request? = some r) (idle : s.reading = none)
    (hsignal : s.halves.signal = none) (m : Memory) :
    s.step c m = (.failed (.missing .signal), s, m) := by
  rw [step_request hrequest idle, hsignal]
  rfl

/-- What a call has to do with flow-control counters. -/
structure Asks (s : Session) (c : Call) (m : Memory) : Prop where
  /-- a request is answered with what the counter held, and changes nothing else -/
  bound : ∀ r i, c.request? = some r → s.reading = none → s.halves.signal = some i →
    s.step c m = (.held (m.signal i), s, m.setSignal i (r.after (m.signal i)))
  /-- it changes nothing at all where no counter is bound, or a chunk is in its way -/
  free : ∀ r, c.request? = some r → s.reading = none → s.halves.signal = none →
    s.step c m = (.failed (.missing .signal), s, m)
  busy : ∀ r, c.request? = some r → s.reading ≠ none → s.step c m = (.busy, s, m)
  /-- what is no request leaves all counters, if no peer stores to one -/
  others : c.request? = none → (∀ value, c ≠ .peerSignal value) →
    (s.step c m).2.2.signals = m.signals

theorem asks (s : Session) (c : Call) (m : Memory) : s.Asks c m where
  bound := fun _ _ hrequest idle hsignal => step_request_of_bound hrequest idle hsignal m
  free := fun _ hrequest idle hsignal => step_request_of_free hrequest idle hsignal m
  busy := fun _ hrequest hopen => step_request_of_open hrequest hopen m
  others := signals_step

end Session

/-! ## The account of one request -/

/-- The memory after a request, which a complaint leaves as it was. -/
def Memory.asked (m : Memory) (signal : Option Nat) (r : Request) : Memory :=
  match m.ask signal r with
  | .ok (_, m') => m'
  | .error _ => m

/-- The receipt for a request. -/
def Memory.receipt (m : Memory) (signal : Option Nat) (r : Request) : Receipt :=
  ⟨signal, r, (m.ask signal r).map Prod.fst⟩

/-- The receipts for requests that went to one counter. -/
def Receipt.ofCell (i : Nat) (receipts : List Receipt) : List Receipt :=
  receipts.filter (·.cell = some i)

theorem Receipt.ofCell_append (i : Nat) (receipts rest : List Receipt) :
    ofCell i (receipts ++ rest) = ofCell i receipts ++ ofCell i rest := List.filter_append ..

/-- Between two states of the memory these requests were made, and every counter has kept account of
    those that went to it. -/
structure Account (m : Memory) (receipts : List Receipt) (m' : Memory) : Prop where
  kept : ∀ i, Kept (m.signal i) (Receipt.ofCell i receipts) (m'.signal i)
  /-- a request that went to no counter was refused -/
  refused : ∀ receipt ∈ receipts, receipt.cell = none → receipt.answer = .error (.missing .signal)

namespace Account

variable {m m' m'' : Memory} {receipts rest : List Receipt}

theorem of_eq (hsame : m'.signals = m.signals) : Account m [] m' := by
  refine ⟨fun i => ?_, fun _ hmem => absurd hmem List.not_mem_nil⟩
  rw [Memory.signal, Memory.signal, hsame]
  exact .nil _

theorem append (h : Account m receipts m') (h' : Account m' rest m'') :
    Account m (receipts ++ rest) m'' := by
  refine ⟨fun i => ?_, fun receipt hmem => ?_⟩
  · rw [Receipt.ofCell_append]
    exact (h.kept i).append (h'.kept i)
  · exact (List.mem_append.1 hmem).elim (h.refused receipt) (h'.refused receipt)

/-- One request, as the counter that it goes to sees it, and as all others do. -/
theorem of_asked (m : Memory) (signal : Option Nat) (r : Request) :
    Account m [m.receipt signal r] (m.asked signal r) := by
  constructor
  · intro i
    by_cases hsignal : signal = some i
    · subst hsignal
      have hmine : Receipt.ofCell i [m.receipt (some i) r] = [m.receipt (some i) r] := by
        simp [Receipt.ofCell, Memory.receipt]
      have hheld : (m.asked (some i) r).signal i = r.after (m.signal i) :=
        Cells.load_store_self _ _ _
      rw [hmine, hheld]
      exact .cons rfl (.nil _)
    · have hother : Receipt.ofCell i [m.receipt signal r] = [] := by
        simp [Receipt.ofCell, Memory.receipt, hsignal]
      have hsame : (m.asked signal r).signal i = m.signal i := by
        cases signal with
        | none => rfl
        | some j =>
          refine Cells.load_store_ne _ _ ?_
          rintro rfl
          exact hsignal rfl
      rw [hother, hsame]
      exact .nil _
  · intro receipt hmem hnone
    obtain rfl := List.mem_singleton.1 hmem
    obtain rfl : signal = none := hnone
    rfl

end Account

theorem Memory.asked_eq (m : Memory) (signal : Option Nat) (r : Request) :
    ∃ signals, m.asked signal r = m.withSignals signals := by
  cases signal with
  | none => exact ⟨m.signals, rfl⟩
  | some i => exact ⟨_, rfl⟩

/-! ## The account of a run -/

/-- The value or the complaint in an answer to a request. -/
def Answer.verdict? : Answer → Option (Except Refusal UInt64)
  | .held value => some (.ok value)
  | .failed e => some (.error e)
  | _ => none

/-- The receipt for a call, if it was a request and was made. -/
def Halves.receipt? (h : Halves) (x : Call × Answer) : Option Receipt :=
  x.1.request?.bind fun request => x.2.verdict?.map fun answer => ⟨h.signal, request, answer⟩

/-- The receipts for some calls. -/
def Halves.receipts (h : Halves) (calls : List Call) (answers : List Answer) : List Receipt :=
  (calls.zip answers).filterMap h.receipt?

namespace Session

theorem receipts_run_cons (s : Session) (c : Call) (rest : List Call) (m : Memory) :
    s.halves.receipts (c :: rest) (s.run (c :: rest) m).1
      = (s.halves.receipt? (c, (s.step c m).1)).toList
        ++ (s.step c m).2.1.halves.receipts rest ((s.step c m).2.1.run rest (s.step c m).2.2).1 := by
  rw [run_cons, Halves.receipts, List.zip_cons_cons, halves_step, Halves.receipts]
  cases hreceipt : s.halves.receipt? (c, (s.step c m).1) with
  | none => rw [List.filterMap_cons_none hreceipt]; rfl
  | some receipt => rw [List.filterMap_cons_some hreceipt]; rfl

/-- A call leaves all counters and has no receipt, or it makes a request and has that receipt. -/
theorem receipt?_step (s : Session) {c : Call} (hpeer : ∀ value, c ≠ .peerSignal value) (m : Memory) :
    s.halves.receipt? (c, (s.step c m).1) = none ∧ (s.step c m).2.2.signals = m.signals
      ∨ ∃ r, s.halves.receipt? (c, (s.step c m).1) = some (m.receipt s.halves.signal r)
        ∧ (s.step c m).2.2 = m.asked s.halves.signal r := by
  cases hrequest : c.request? with
  | none =>
    refine .inl ⟨?_, signals_step hrequest hpeer⟩
    rw [Halves.receipt?, hrequest]
    rfl
  | some r =>
    by_cases idle : s.reading = none
    case neg =>
      rw [step_request_of_open hrequest idle, Halves.receipt?, hrequest]
      exact .inl ⟨rfl, rfl⟩
    refine .inr ⟨r, ?_⟩
    rw [step_request hrequest idle, Halves.receipt?, hrequest, Memory.receipt, Memory.asked]
    cases m.ask s.halves.signal r <;> exact ⟨rfl, rfl⟩

/-- **A run keeps the account of every counter.** -/
theorem account_run (s : Session) {calls : List Call} (hpeer : ∀ value, .peerSignal value ∉ calls)
    (m : Memory) : Account m (s.halves.receipts calls (s.run calls m).1) (s.run calls m).2.2 := by
  induction calls generalizing s m with
  | nil => exact .of_eq rfl
  | cons c rest ih =>
    have hfirst : ∀ value, c ≠ .peerSignal value := by
      rintro value rfl
      exact hpeer value List.mem_cons_self
    have hrest : ∀ value, .peerSignal value ∉ rest := fun value hmem =>
      hpeer value (List.mem_cons_of_mem _ hmem)
    rw [receipts_run_cons]
    refine Account.append ?_ (ih _ hrest _)
    obtain ⟨hnone, hsame⟩ | ⟨r, hreceipt, hasked⟩ := s.receipt?_step hfirst m
    · rw [hnone]
      exact .of_eq hsame
    · rw [hreceipt, hasked]
      exact .of_asked m s.halves.signal r

/-- A run without requests leaves all counters. -/
theorem signals_run (s : Session) {calls : List Call} (m : Memory)
    (hquiet : ∀ c ∈ calls, c.request? = none ∧ ∀ value, c ≠ .peerSignal value) :
    (s.run calls m).2.2.signals = m.signals := by
  induction calls generalizing s m with
  | nil => rfl
  | cons c rest ih =>
    obtain ⟨hrequest, hpeer⟩ := hquiet c List.mem_cons_self
    exact (ih _ _ fun c' hc' => hquiet c' (List.mem_cons_of_mem _ hc')).trans
      (signals_step hrequest hpeer)

/-! ## Working without a counter -/

theorem signalled_ask (s : Session) (m : Memory) (signal : Option Nat) (r : Request) :
    s.signalled m (m.ask signal r) = ((s.signalled m (m.ask signal r)).1, s, m.asked signal r) := by
  cases signal <;> rfl

theorem step_peerSignal (s : Session) (value : UInt64) (m : Memory) :
    ∃ signals, s.step (.peerSignal value) m = (.done, s, m.withSignals signals) := by
  cases hsignal : s.halves.signal with
  | none => exact ⟨m.signals, step_peerSignal_of_free hsignal value m⟩
  | some i => exact ⟨_, step_peerSignal_of_bound hsignal value m⟩

/-- What another binding makes of one call: a request may be answered in another way, and the
    flow-control counters may differ afterwards. -/
theorem step_rebind (s : Session) (c : Call) (m : Memory) (signal : Option Nat)
    (signals : Cells UInt64) : ∃ answer signals',
      (s.rebind signal).step c (m.withSignals signals)
        = (answer, (s.step c m).2.1.rebind signal, (s.step c m).2.2.withSignals signals')
      ∧ (c.request? = none → answer = (s.step c m).1) := by
  cases hrequest : c.request? with
  | some r =>
    by_cases idle : s.reading = none
    case neg =>
      rw [step_request_of_open hrequest idle,
        step_request_of_open (s := s.rebind signal) hrequest idle]
      exact ⟨_, signals, rfl, fun h => absurd h (Option.some_ne_none r)⟩
    rw [step_request hrequest idle, step_request (s := s.rebind signal) hrequest idle,
      s.signalled_ask, (s.rebind signal).signalled_ask]
    obtain ⟨own, hown⟩ := m.asked_eq s.halves.signal r
    obtain ⟨other, hother⟩ := (m.withSignals signals).asked_eq (s.rebind signal).halves.signal r
    rw [hown, hother]
    exact ⟨_, other, rfl, fun h => absurd h (Option.some_ne_none r)⟩
  | none =>
    by_cases hpeer : ∃ value, c = .peerSignal value
    · obtain ⟨value, rfl⟩ := hpeer
      obtain ⟨own, hown⟩ := s.step_peerSignal value m
      obtain ⟨other, hother⟩ := (s.rebind signal).step_peerSignal value (m.withSignals signals)
      rw [hown, hother]
      exact ⟨_, other, rfl, fun _ => rfl⟩
    · exact ⟨_, _, step_unasked hrequest (fun value heq => hpeer ⟨value, heq⟩) signal signals m,
        fun _ => rfl⟩

/-- What calls come to, bound to another counter or to none. -/
theorem run_rebind (s : Session) (calls : List Call) (m : Memory) (signal : Option Nat)
    (signals : Cells UInt64) : ∃ answers signals',
      (s.rebind signal).run calls (m.withSignals signals)
        = (answers, (s.run calls m).2.1.rebind signal, (s.run calls m).2.2.withSignals signals')
      ∧ ∀ (k : Nat) (c : Call), calls[k]? = some c → c.request? = none →
        answers[k]? = (s.run calls m).1[k]? := by
  induction calls generalizing s m signals with
  | nil => exact ⟨[], signals, rfl, fun _ _ _ _ => rfl⟩
  | cons c rest ih =>
    obtain ⟨answer, signals₁, hstep, hanswer⟩ := s.step_rebind c m signal signals
    obtain ⟨answers, signals₂, hrun, hanswers⟩ := ih (s.step c m).2.1 (s.step c m).2.2 signals₁
    refine ⟨answer :: answers, signals₂, ?_, ?_⟩
    · rw [run_cons, hstep, hrun, run_cons]
    · intro k c' hk hrequest
      rw [run_cons]
      cases k with
      | zero =>
        obtain rfl := Option.some.inj hk
        exact congrArg some (hanswer hrequest)
      | succ k => exact hanswers k c' hk hrequest

/-- Two runs that differ in what flow-control counter is bound, and in what these hold. -/
structure AsIfBound (s : Session) (calls : List Call) (m : Memory) (signal : Option Nat)
    (signals : Cells UInt64) : Prop where
  /-- all that is no request is answered in the same way -/
  answer_eq : ∀ (k : Nat) (c : Call), calls[k]? = some c → c.request? = none →
    ((s.rebind signal).run calls (m.withSignals signals)).1[k]? = (s.run calls m).1[k]?
  /-- the same chunks are open -/
  session_eq : ((s.rebind signal).run calls (m.withSignals signals)).2.1
    = (s.run calls m).2.1.rebind signal
  /-- and the same bytes have moved -/
  bytes_eq : ((s.rebind signal).run calls (m.withSignals signals)).2.2.bytes
    = (s.run calls m).2.2.bytes
  counters_eq : ((s.rebind signal).run calls (m.withSignals signals)).2.2.counters
    = (s.run calls m).2.2.counters

theorem asIfBound (s : Session) (calls : List Call) (m : Memory) (signal : Option Nat)
    (signals : Cells UInt64) : AsIfBound s calls m signal signals := by
  obtain ⟨answers, signals', hrun, hanswers⟩ := s.run_rebind calls m signal signals
  constructor
  · rw [hrun]
    exact hanswers
  · rw [hrun]
  · rw [hrun]
    rfl
  · rw [hrun]
    rfl

end Session

/-! ## The lives of rings -/

namespace Ring

/-- The receipts for one thing that is done with a ring. -/
def receipts (r : Ring) (m : Memory) : Act → List Receipt
  | .addSignal value => [⟨r.signal, .add value, (r.addSignal value m).map Prod.fst⟩]
  | .split calls => match r.halves with
    | .ok h => h.receipts calls (Session.run { halves := h } calls m).1
    | .error _ => []
  | _ => []

/-- The receipts for all that is done with it. -/
def ledger (x : Ring × Memory) : List Act → List Receipt
  | [] => []
  | a :: rest => x.1.receipts x.2 a ++ ledger (act x a) rest

/-- No peer stores to a flow-control counter meanwhile. -/
def Act.Alone : Act → Prop
  | .split calls => ∀ value, .peerSignal value ∉ calls
  | _ => True

theorem account_act (x : Ring × Memory) {a : Act} (alone : a.Alone) :
    Account x.2 (x.1.receipts x.2 a) (act x a).2 := by
  obtain ⟨r, m⟩ := x
  cases a with
  | addSignal value =>
    have account := Account.of_asked m r.signal (.add value)
    rw [Memory.receipt, Memory.asked, ← Memory.addSignal_eq_ask] at account
    exact account
  | split calls =>
    show Account m (r.receipts m (.split calls)) (r.work m (.split calls))
    rw [receipts, work]
    cases r.halves with
    | error e => exact .of_eq rfl
    | ok h => exact Session.account_run { halves := h } alone m
  | useHead _ | useTail _ | useSignal _ | useRegion _ _ | resize _ | rescale _ => exact .of_eq rfl

/-- **The whole life of a ring keeps the account of every counter**, whatever the ring is bound to in
    the course of it. -/
theorem account_acted (x : Ring × Memory) {acts : List Act} (alone : ∀ a ∈ acts, a.Alone) :
    Account x.2 (ledger x acts) (acted x acts).2 := by
  induction acts generalizing x with
  | nil => exact .of_eq rfl
  | cons a rest ih =>
    exact (account_act x (alone a List.mem_cons_self)).append
      (ih (act x a) fun a' ha' => alone a' (List.mem_cons_of_mem _ ha'))

/-- Rings one after the other over one memory: the receipts, and the memory that is left. -/
def inTurn (m : Memory) : List (Ring × List Act) → List Receipt × Memory
  | [] => ([], m)
  | (r, acts) :: rest => (ledger (r, m) acts ++ (inTurn (acted (r, m) acts).2 rest).1,
    (inTurn (acted (r, m) acts).2 rest).2)

theorem account_inTurn (m : Memory) {lives : List (Ring × List Act)}
    (alone : ∀ life ∈ lives, ∀ a ∈ life.2, a.Alone) :
    Account m (inTurn m lives).1 (inTurn m lives).2 := by
  induction lives generalizing m with
  | nil => exact .of_eq rfl
  | cons life rest ih =>
    obtain ⟨r, acts⟩ := life
    exact (account_acted (r, m) (alone (r, acts) List.mem_cons_self)).append
      (ih _ fun life' hlife' => alone life' (List.mem_cons_of_mem _ hlife'))

/-- What a ring has to do with flow-control counters, split or not. -/
structure Asks (r : Ring) (m : Memory) : Prop where
  /-- adding gives back what the bound counter held, and changes nothing else -/
  bound : ∀ i value, r.signal = some i →
    r.addSignal value m = .ok (m.signal i, m.setSignal i (m.signal i + value))
  /-- where none is bound that is the answer, and nothing changes -/
  free : ∀ value, r.signal = none → r.addSignal value m = .error (.missing .signal)
    ∧ act (r, m) (.addSignal value) = (r, m)
  /-- anything else leaves all counters, if the halves make no request and no peer stores to one -/
  others : ∀ a : Act, (∀ value, a ≠ .addSignal value) →
    (∀ calls, a = .split calls → ∀ c ∈ calls, c.request? = none ∧ ∀ value, c ≠ .peerSignal value) →
    (act (r, m) a).2.signals = m.signals
  /-- splitting does not ask for a counter, and hands on the one that is bound -/
  halves_eq : ∀ signal, ({ r with signal := signal } : Ring).halves
    = r.halves.map fun h => h.rebind signal

theorem asks (r : Ring) (m : Memory) : r.Asks m := by
  constructor
  · intro i value hsignal
    rw [addSignal, hsignal]
    rfl
  · intro value hsignal
    have hrefused : r.addSignal value m = .error (.missing .signal) := by
      rw [addSignal, hsignal]
      rfl
    refine ⟨hrefused, ?_⟩
    show (r, r.work m (.addSignal value)) = (r, m)
    rw [work, hrefused]
  · intro a hadd hsplit
    cases a with
    | addSignal value => exact absurd rfl (hadd value)
    | split calls =>
      show (r.work m (.split calls)).signals = m.signals
      rw [work]
      cases r.halves with
      | error e => rfl
      | ok h => exact Session.signals_run { halves := h } m (hsplit calls rfl)
    | useHead _ | useTail _ | useSignal _ | useRegion _ _ | resize _ | rescale _ => rfl
  · intro signal
    obtain ⟨geometry, region, head, tail, old, flags, registration⟩ := r
    cases head with
    | none => rfl
    | some head =>
      cases tail with
      | none => rfl
      | some tail =>
        cases region with
        | none => rfl
        | some region =>
          show (if region.len < geometry.size.toNat then _ else _ : Except Refusal Halves)
            = Except.map _ (if region.len < geometry.size.toNat then _ else _)
          split <;> rfl

end Ring

/-! ## A counter in a file -/

/-- What is done with a ring once it is bound. -/
inductive Use where
  | addSignal (value : UInt64)
  /-- split it, make these calls on its halves, and give the halves up -/
  | split (calls : List Call)

def Use.act : Use → Ring.Act
  | .addSignal value => .addSignal value
  | .split calls => .split calls

namespace Ring

/-- What is done with a ring that is bound leaves its bindings. -/
theorem next_use (r : Ring) (use : Use) : r.next use.act = r := by cases use <;> rfl

/-- No act makes memory longer or shorter. -/
theorem size_acted (x : Ring × Memory) (acts : List Act) :
    (acted x acts).2.bytes.size = x.2.bytes.size := by
  induction acts generalizing x with
  | nil => rfl
  | cons a rest ih =>
    refine (ih (act x a)).trans ?_
    obtain ⟨r, m⟩ := x
    cases a with
    | addSignal value =>
      show (r.work m (.addSignal value)).bytes.size = m.bytes.size
      rw [work, addSignal]
      cases r.signal <;> rfl
    | split calls =>
      show (r.work m (.split calls)).bytes.size = m.bytes.size
      rw [work]
      cases r.halves with
      | error e => rfl
      | ok h => exact ((Session.Chunks.start h).confined calls).size_eq
    | useHead _ | useTail _ | useSignal _ | useRegion _ _ | resize _ | rescale _ => rfl

theorem signal_of_halves {r : Ring} {h : Halves} (split : r.halves = .ok h) : h.signal = r.signal := by
  have splits := r.splits_halves
  rw [split] at splits
  cases splits with
  | ok head tail signal region capacity unitSize hle => exact signal.symm

/-- All receipts are for the counter that the ring is bound to. -/
theorem cell_receipts (r : Ring) (m : Memory) (use : Use) :
    ∀ receipt ∈ r.receipts m use.act, receipt.cell = r.signal := by
  intro receipt hmem
  cases use with
  | addSignal value =>
    obtain rfl := List.mem_singleton.1 hmem
    rfl
  | split calls =>
    rw [Use.act, receipts] at hmem
    cases hsplit : r.halves with
    | error e => rw [hsplit] at hmem; cases hmem
    | ok h =>
      rw [hsplit] at hmem
      obtain ⟨x, -, hx⟩ := List.mem_filterMap.1 hmem
      obtain ⟨request, -, hrequest⟩ := Option.bind_eq_some_iff.1 hx
      obtain ⟨answer, -, rfl⟩ := Option.map_eq_some_iff.1 hrequest
      exact signal_of_halves hsplit

theorem cell_ledger (r : Ring) (m : Memory) (uses : List Use) :
    ∀ receipt ∈ ledger (r, m) (uses.map Use.act), receipt.cell = r.signal := by
  induction uses generalizing m with
  | nil => intro receipt hmem; cases hmem
  | cons use rest ih =>
    intro receipt hmem
    rw [List.map_cons, ledger, act, next_use] at hmem
    rcases List.mem_append.1 hmem with hmem | hmem
    · exact cell_receipts r m use receipt hmem
    · exact ih _ receipt hmem

end Ring

namespace SharedFile

/-- A process binds a ring to the header of the file, as it is now, uses it and goes. -/
def visit (file : SharedFile) (t : FileTree) (uses : List Use) : List Receipt × FileTree :=
  match file.ring t with
  | .error _ => ([], t)
  | .ok r => file.update t fun m =>
    (Ring.ledger (r, m) (uses.map Use.act), (Ring.acted (r, m) (uses.map Use.act)).2)

/-- One process after the other. -/
def visits (file : SharedFile) (t : FileTree) : List (List Use) → List Receipt × FileTree
  | [] => ([], t)
  | uses :: rest => ((file.visit t uses).1 ++ (visits file (file.visit t uses).2 rest).1,
    (visits file (file.visit t uses).2 rest).2)

variable {file : SharedFile} {t : FileTree}

/-- What a process leaves in the file. -/
theorem visit_eq {r : Ring} (hring : file.ring t = .ok r) (uses : List Use) :
    file.visit t uses = (Ring.ledger (r, Memory.ofFile (t.bytes file.file)) (uses.map Use.act),
      t.setBytes file.file
        (Ring.acted (r, Memory.ofFile (t.bytes file.file)) (uses.map Use.act)).2.toFile) := by
  rw [visit, hring]
  rfl

/-- A ring over the file is bound to the counter in the header. -/
theorem signal_of_ring {r : Ring} (hring : file.ring t = .ok r) : r.signal = some 0 := by
  rw [ring] at hring
  split at hring
  · rename_i r' hr'
    obtain rfl := Except.ok.inj hring
    obtain ⟨g, -, hbindings⟩ := (Ring.attaches (file.header t) file.region).ok r' hr'
    exact congrArg Ring.Bindings.signal hbindings
  · cases hring

theorem kept_visit (hsize : Header.size ≤ (t.bytes file.file).size) {uses : List Use}
    (alone : ∀ use ∈ uses, use.act.Alone) :
    Kept (file.header t).signal (file.visit t uses).1 (file.header (file.visit t uses).2).signal
      ∧ ((file.visit t uses).2.bytes file.file).size = (t.bytes file.file).size := by
  cases hring : file.ring t with
  | error e =>
    rw [visit, hring]
    exact ⟨.nil _, rfl⟩
  | ok r =>
    have alone' : ∀ a ∈ uses.map Use.act, a.Alone := List.forall_mem_map.2 alone
    have account := Ring.account_acted (r, Memory.ofFile (t.bytes file.file)) alone'
    have hcell := Ring.cell_ledger r (Memory.ofFile (t.bytes file.file)) uses
    have hlong := Ring.size_acted (r, Memory.ofFile (t.bytes file.file)) (uses.map Use.act)
    rw [visit_eq hring, header, header, FileTree.bytes_setBytes]
    generalize Ring.ledger (r, Memory.ofFile (t.bytes file.file)) (uses.map Use.act) = receipts
      at account hcell ⊢
    generalize (Ring.acted (r, Memory.ofFile (t.bytes file.file)) (uses.map Use.act)).2 = m'
      at account hlong ⊢
    have hall : Receipt.ofCell 0 receipts = receipts := by
      refine List.filter_eq_self.2 fun receipt hmem => ?_
      rw [hcell receipt hmem, signal_of_ring hring]
      rfl
    have kept := account.kept 0
    rw [hall] at kept
    rw [Memory.decode_toFile (hsize.trans (Nat.le_of_eq hlong.symm)), Memory.size_toFile]
    exact ⟨kept, hlong⟩

theorem kept_visits (hsize : Header.size ≤ (t.bytes file.file).size) {processes : List (List Use)}
    (alone : ∀ uses ∈ processes, ∀ use ∈ uses, use.act.Alone) :
    Kept (file.header t).signal (file.visits t processes).1
      (file.header (file.visits t processes).2).signal := by
  induction processes generalizing t with
  | nil => exact .nil _
  | cons uses rest ih =>
    obtain ⟨first, hsame⟩ := kept_visit hsize (alone uses List.mem_cons_self)
    have later := ih (t := (file.visit t uses).2) (by rw [hsame]; exact hsize)
      fun uses' hmem => alone uses' (List.mem_cons_of_mem _ hmem)
    rw [visits]
    exact first.append later

end SharedFile

/-- What is so of a counter that held `first` and then `last`, and of the requests that were made of
    it in between. -/
structure Conserved (first : UInt64) (receipts : List Receipt) (last : UInt64) : Prop where
  /-- each was answered with what the counter held before it -/
  kept : Kept first receipts last
  balance : first.toNat + (receipts.map Receipt.added).sum
    ≡ last.toNat + (receipts.map Receipt.taken).sum [MOD 2 ^ 64]

/-- **What was there and what was added is what is there and what was taken.**  Let rings live one
    after the other over one memory, bound and bound again, split and put together, with any calls on
    their halves; or let processes do so over one file.  As long as no peer stores to it by itself,
    every flow-control counter has answered each request with what it held, and has changed by
    nothing else.  All that is no request is the same with such a counter and without. -/
theorem flow_control_conserved :
    (∀ (m : Memory) (lives : List (Ring × List Ring.Act)),
        (∀ life ∈ lives, ∀ a ∈ life.2, a.Alone) →
        (∀ i, Conserved (m.signal i) (Receipt.ofCell i (Ring.inTurn m lives).1)
            ((Ring.inTurn m lives).2.signal i))
          ∧ ∀ receipt ∈ (Ring.inTurn m lives).1, receipt.cell = none →
            receipt.answer = .error (.missing .signal))
      ∧ (∀ (file : SharedFile) (t : FileTree) (processes : List (List Use)),
          Header.size ≤ (t.bytes file.file).size →
          (∀ uses ∈ processes, ∀ use ∈ uses, use.act.Alone) →
          Conserved (file.header t).signal (file.visits t processes).1
            (file.header (file.visits t processes).2).signal)
      ∧ (∀ (r : Ring) (m : Memory), r.Asks m)
      ∧ (∀ (s : Session) (c : Call) (m : Memory), s.Asks c m)
      ∧ ∀ (s : Session) (calls : List Call) (m : Memory) (signal : Option Nat)
          (signals : Cells UInt64), s.AsIfBound calls m signal signals := by
  refine ⟨fun m lives alone => ?_, fun file t processes hsize alone => ?_, Ring.asks, Session.asks,
    Session.asIfBound⟩
  · have account := Ring.account_inTurn m alone
    exact ⟨fun i => ⟨account.kept i, (account.kept i).balance⟩, account.refused⟩
  · have kept := SharedFile.kept_visits hsize alone
    exact ⟨kept, kept.balance⟩

/-- A counter that wraps, a request that a chunk is in the way of, and one of a ring that has no
    counter. -/
theorem flow_control_conserved_small :
    let m : Memory := { Memory.small with signals := [0xFFFFFFFFFFFFFFFE] }
    let lives := [
      (Ring.small.useSignal 0, [.addSignal 3, .split [.addSignal 5, .write [1, 2, 3], .takeSignal,
        .view, .addSignal 1, .leave]]),
      (Ring.small, [.addSignal 9]),
      (Ring.small.useSignal 0, [.split [.addSignal 4]])]
    Conserved 0xFFFFFFFFFFFFFFFE (Receipt.ofCell 0 (Ring.inTurn m lives).1) 4
      ∧ (Ring.inTurn m lives).1.map (fun r => r.answer.toOption)
        = [some 0xFFFFFFFFFFFFFFFE, some 1, some 6, none, some 0] := by
  intro m lives
  have halone : ∀ life ∈ lives, ∀ a ∈ life.2, a.Alone := by
    simp [lives, Ring.Act.Alone]
  have hfirst : m.signal 0 = 0xFFFFFFFFFFFFFFFE := rfl
  have hlast : (Ring.inTurn m lives).2.signal 0 = 4 := by decide
  have hanswers : (Ring.inTurn m lives).1.map (fun r => r.answer.toOption)
      = [some 0xFFFFFFFFFFFFFFFE, some 1, some 6, none, some 0] := by decide
  clear_value m lives
  obtain ⟨conserved, -⟩ := flow_control_conserved.1 m lives halone
  have counter := conserved 0
  rw [hfirst, hlast] at counter
  exact ⟨counter, hanswers⟩

end SharedRing
