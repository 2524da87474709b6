/-
  Calls that a peer meddles with.

  A session answers each call at once, but a peer in another process does not wait for that.  It may
  store to a counter between the two looks of a call, or after both and before the call's own store.
  The call has then seen a head and a tail that were never there together, and of a single counter
  that is bound as both it may have seen two values.

  All that a call makes of the counters is what it has seen.  So the five calls that look at them
  are said once more over what was seen (`Sight`), and a session with a meddling peer (`stepAmid`) is
  the session itself when the peer keeps still (`runAmid_calm`).
-/
import SharedRing.Session

namespace SharedRing

/-- A store of a peer to a counter. -/
inductive Store where
  | head (value : UInt32)
  | tail (value : UInt32)

/-- What a peer stores while a call is under way. -/
structure Meddling where
  /-- between the two looks of the call -/
  between : List Store := []
  /-- after both looks, and before the store of the call itself -/
  after : List Store := []

/-- What a call has seen of the counters, and the memory after that. -/
structure Sight where
  head : UInt32
  tail : UInt32
  memory : Memory

namespace Halves

def meddle (h : Halves) (stores : List Store) (m : Memory) : Memory :=
  stores.foldl (fun m store => match store with
    | .head value => m.setCounter h.head value
    | .tail value => m.setCounter h.tail value) m

/-- A writer looks at the tail first. -/
def lookAsWriter (h : Halves) (p : Meddling) (m : Memory) : Sight :=
  let tail := h.tailCount m
  let m := h.meddle p.between m
  let head := h.headCount m
  ⟨head, tail, h.meddle p.after m⟩

/-- A reader looks at the head first. -/
def lookAsReader (h : Halves) (p : Meddling) (m : Memory) : Sight :=
  let head := h.headCount m
  let m := h.meddle p.between m
  let tail := h.tailCount m
  ⟨head, tail, h.meddle p.after m⟩

/-- A write that has seen the counters. -/
def writeSeeing (h : Halves) (data : List UInt8) (v : Sight) : UInt64 × Memory :=
  match Transfer.write? h.geometry v.head v.tail data.length with
  | some t => (t.len, h.publish t (h.fill t data v.memory))
  | none => (0, v.memory)

/-- A read that has seen the counters. -/
def readSeeing (h : Halves) (buffer : List UInt8) (count : Option UInt64) (v : Sight) :
    Nat × List UInt8 × Memory :=
  match Transfer.read? h.geometry v.head v.tail buffer.length count with
  | some t =>
    let got := h.contents t v.memory
    (got.length, got ++ buffer.drop got.length, h.release t v.memory)
  | none => (0, buffer, v.memory)

/-- A peer that stores to counters leaves the bytes. -/
theorem bytes_meddle (h : Halves) (stores : List Store) (m : Memory) :
    (h.meddle stores m).bytes = m.bytes := by
  induction stores generalizing m with
  | nil => rfl
  | cons store rest ih =>
    rw [meddle, List.foldl_cons]
    cases store with
    | head value => exact ih (m.setCounter h.head value)
    | tail value => exact ih (m.setCounter h.tail value)

theorem bytes_lookAsWriter (h : Halves) (p : Meddling) (m : Memory) :
    (h.lookAsWriter p m).memory.bytes = m.bytes :=
  (h.bytes_meddle _ _).trans (h.bytes_meddle _ _)

theorem bytes_lookAsReader (h : Halves) (p : Meddling) (m : Memory) :
    (h.lookAsReader p m).memory.bytes = m.bytes :=
  (h.bytes_meddle _ _).trans (h.bytes_meddle _ _)

/-- What a peer that keeps still leaves to be seen. -/
theorem readSeeing_calm (h : Halves) (buffer : List UInt8) (count : Option UInt64) (m : Memory) :
    h.readSeeing buffer count (h.lookAsReader {} m) = h.readInto buffer count m := by
  have hplan : Transfer.read? h.geometry (h.lookAsReader {} m).head (h.lookAsReader {} m).tail
      buffer.length count
      = Transfer.read? h.geometry (h.headCount m) (h.tailCount m) buffer.length count := rfl
  unfold readSeeing readInto read
  rw [hplan]
  cases Transfer.read? h.geometry (h.headCount m) (h.tailCount m) buffer.length count with
  | none => rfl
  | some t => rfl

end Halves

namespace Session

/-- Answers one call of which a peer may see the inside.  A call that looks at no counter to plan
    with has no inside: whatever a peer stores comes before it or after it. -/
def stepAmid (s : Session) (c : Call) (p : Meddling) (m : Memory) : Answer × Session × Memory :=
  match c, s.writing, s.reading with
  | .write data, none, _ =>
    let (n, m) := s.halves.writeSeeing data (s.halves.lookAsWriter p m)
    (.moved n, s, m)
  | .reserve len, none, _ =>
    let v := s.halves.lookAsWriter p m
    s.openWriting (Transfer.reserve? s.halves.geometry v.head v.tail len) v.memory
  | .read buffer count, _, none =>
    let (n, buffer, m) := s.halves.readSeeing buffer count (s.halves.lookAsReader p m)
    (.received n buffer, s, m)
  | .view, _, none =>
    let v := s.halves.lookAsReader p m
    s.openReading (Transfer.view? s.halves.geometry v.head v.tail) v.memory
  | .viewOf len, _, none =>
    let v := s.halves.lookAsReader p m
    s.openReading (Transfer.viewOf? s.halves.geometry v.head v.tail len) v.memory
  | c, _, _ => s.step c m

/-- Answers one call that has seen the counters: as `w` if it is the writer's, as `r` if it is the
    reader's.  Calls that look at no counter to plan with find the memory `m`. -/
def stepSeeing (s : Session) (c : Call) (w r : Sight) (m : Memory) : Answer × Session × Memory :=
  match c, s.writing, s.reading with
  | .write data, none, _ =>
    let (n, m) := s.halves.writeSeeing data w
    (.moved n, s, m)
  | .reserve len, none, _ =>
    s.openWriting (Transfer.reserve? s.halves.geometry w.head w.tail len) w.memory
  | .read buffer count, _, none =>
    let (n, buffer, m) := s.halves.readSeeing buffer count r
    (.received n buffer, s, m)
  | .view, _, none => s.openReading (Transfer.view? s.halves.geometry r.head r.tail) r.memory
  | .viewOf len, _, none =>
    s.openReading (Transfer.viewOf? s.halves.geometry r.head r.tail len) r.memory
  | c, _, _ => s.step c m

/-- What a peer stores inside a call matters for what is seen, and for nothing else. -/
theorem stepAmid_eq (s : Session) (c : Call) (p : Meddling) (m : Memory) : s.stepAmid c p m
    = s.stepSeeing c (s.halves.lookAsWriter p m) (s.halves.lookAsReader p m) m := by
  unfold stepAmid stepSeeing
  cases c with
  | write _ | reserve _ => cases s.writing <;> rfl
  | read _ _ | view | viewOf _ => cases s.reading <;> rfl
  | _ => rfl

/-- Answers a list of calls in order, each with what a peer stores meanwhile. -/
def runAmid (s : Session) : List (Call × Meddling) → Memory → List Answer × Session × Memory
  | [], m => ([], s, m)
  | (c, p) :: rest, m =>
    let (a, s, m) := s.stepAmid c p m
    let (answers, s, m) := s.runAmid rest m
    (a :: answers, s, m)

theorem stepAmid_calm (s : Session) (c : Call) (m : Memory) : s.stepAmid c {} m = s.step c m := by
  unfold stepAmid step
  cases c with
  | write data =>
    cases s.writing with
    | none => rfl
    | some t => rfl
  | reserve len =>
    cases s.writing with
    | none => rfl
    | some t => rfl
  | read buffer count =>
    cases s.reading with
    | none => simp only [Halves.readSeeing_calm]; rfl
    | some t => rfl
  | view =>
    cases s.reading with
    | none => rfl
    | some t => rfl
  | viewOf len =>
    cases s.reading with
    | none => rfl
    | some t => rfl
  | _ => rfl

/-- A call that has seen what is there is the call. -/
theorem stepSeeing_calm (s : Session) (c : Call) (m : Memory) :
    s.stepSeeing c (s.halves.lookAsWriter {} m) (s.halves.lookAsReader {} m) m = s.step c m :=
  (s.stepAmid_eq c {} m).symm.trans (s.stepAmid_calm c m)

/-- **A session with a peer that keeps still inside the calls is the session.** -/
theorem runAmid_calm (s : Session) (calls : List (Call × Meddling)) (m : Memory)
    (calm : ∀ call ∈ calls, call.2 = {}) :
    s.runAmid calls m = s.run (calls.map Prod.fst) m := by
  induction calls generalizing s m with
  | nil => rfl
  | cons call rest ih =>
    obtain ⟨c, p⟩ := call
    obtain rfl : p = {} := calm _ List.mem_cons_self
    have hrest := fun s m => ih s m fun call hcall => calm call (List.mem_cons_of_mem _ hcall)
    rw [runAmid, List.map_cons, run, stepAmid_calm]
    simp only [hrest]

end Session

end SharedRing
