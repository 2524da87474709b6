/-
  Restarts: all that a shared ring is lies in its file.

  Halves and ring may be dropped and made afresh, the file may be opened again, or another handle on
  the same path may go on, whenever no chunk is open.  What is made afresh is what was dropped
  (`Steady.restart`): the header still declares the geometry that it was made with, since no call
  stores to it; the path still leads to the file; and the counters were in the header all along.  So
  a restart changes nothing but the list of handles, and a run with restarts is the run without.

  Without restarts, what goes on in the file goes on alike over plain memory (`Session.InStep`).
  Between two calls the counters are written to the header and read back, and no more than that
  happens (`Session.InStep.toFile`).
-/
import SharedRing.Exchange
import SharedRing.Proofs.Agreement
import SharedRing.Proofs.Tampering

namespace SharedRing

/-! ## Calls on a file -/

namespace SharedFile

/-- Answers one call on the file. -/
def step (file : SharedFile) (s : Session) (c : Call) (t : FileTree) :
    (Answer × Session) × FileTree :=
  file.update t fun m =>
    let (a, s, m) := s.step c m
    ((a, s), m)

/-- Answers a list of calls in order. -/
def run (file : SharedFile) (s : Session) : List Call → FileTree → (List Answer × Session) × FileTree
  | [], t => (([], s), t)
  | c :: rest, t =>
    let ((a, s), t) := file.step s c t
    let ((answers, s), t) := file.run s rest t
    ((a :: answers, s), t)

end SharedFile

/-! ## Handles that come and go -/

namespace Restart

/-- What can fail when a ring is taken up again. -/
inductive Failure where
  /-- the file cannot be opened, or no ring be bound -/
  | unshared (error : ShareError)
  /-- the ring cannot be split -/
  | unsplit (error : Refusal)

/-- The ways to take a ring up again, all of them with new halves. -/
inductive Way where
  /-- bind and split again over the same handle -/
  | rebind
  /-- drop the handle and open the path again -/
  | reopen
  /-- open the path again and keep the handle for later -/
  | another
  /-- go on through a handle that was kept, and keep the present one instead -/
  | goBack (i : Nat)
deriving DecidableEq, Repr

inductive Event where
  | call (c : Call)
  | restart (way : Way)
deriving DecidableEq, Repr

/-- What an event gives back: an answer, or the geometries of the handle, the ring and the halves
    that go on. -/
inductive Result where
  | answered (a : Answer)
  | takenUp (handle ring halves : Geometry)

/-- The files, the handle that is used, the handles that are kept, and the session. -/
structure State where
  tree : FileTree
  handle : SharedFile
  kept : List SharedFile := []
  session : Session

/-- Binds a ring over a handle, and splits it. -/
def takeUp (tree : FileTree) (handle : SharedFile) (kept : List SharedFile) :
    Except Failure (Result × State) := do
  let ring ← (handle.ring tree).mapError .unshared
  let halves ← ring.halves.mapError .unsplit
  return (.takenUp handle.geometry ring.geometry halves.geometry,
    { tree, handle, kept, session := { halves } })

variable (path : String)

/-- Opens the path again. -/
def openAgain (st : State) : Except Failure SharedFile :=
  (SharedFile.openFile st.tree path).mapError .unshared

def restart (st : State) : Way → Except Failure (Result × State)
  | .rebind => takeUp st.tree st.handle st.kept
  | .reopen => do takeUp st.tree (← openAgain path st) st.kept
  | .another => do takeUp st.tree (← openAgain path st) (st.handle :: st.kept)
  | .goBack i => match st.kept[i]? with
    | some handle => takeUp st.tree handle (st.kept.set i st.handle)
    | none => takeUp st.tree st.handle st.kept

def step (st : State) : Event → Except Failure (Result × State)
  | .call c =>
    let ((a, session), tree) := st.handle.step st.session c st.tree
    .ok (.answered a, { st with session, tree })
  | .restart way => restart path st way

/-- Events in order, until a restart fails. -/
def run (st : State) : List Event → Except Failure (List Result × State)
  | [] => return ([], st)
  | e :: rest => do
    let (result, st) ← step path st e
    let (results, st) ← run st rest
    return (result :: results, st)

/-- The calls among some events. -/
def calls (events : List Event) : List Call :=
  events.filterMap fun
    | .call c => some c
    | .restart _ => none

/-- The answers among some results. -/
def answers (results : List Result) : List Answer :=
  results.filterMap fun
    | .answered a => some a
    | .takenUp _ _ _ => none

theorem calls_call (c : Call) (rest : List Event) : calls (.call c :: rest) = c :: calls rest := rfl

theorem calls_restart (way : Way) (rest : List Event) :
    calls (.restart way :: rest) = calls rest := rfl

/-- No chunk is open where a restart comes. -/
def Quiet (s : Session) (m : Memory) : List Event → Prop
  | [] => True
  | .call c :: rest => Quiet (s.step c m).2.1 (s.step c m).2.2 rest
  | .restart _ :: rest => s.writing = none ∧ s.reading = none ∧ Quiet s m rest

instance decidableQuiet (s : Session) (m : Memory) : (events : List Event) →
    Decidable (Quiet s m events)
  | [] => .isTrue trivial
  | .call c :: rest => decidableQuiet (s.step c m).2.1 (s.step c m).2.2 rest
  | .restart _ :: rest =>
    have := decidableQuiet s m rest
    inferInstanceAs (Decidable (s.writing = none ∧ s.reading = none ∧ Quiet s m rest))

end Restart

/-! ## A call keeps what a restart asks for -/

namespace SharedFile

variable {file : SharedFile} {s : Session} {t : FileTree} {c : Call}

theorem run_cons (file : SharedFile) (s : Session) (c : Call) (rest : List Call) (t : FileTree) :
    file.run s (c :: rest) t
      = (((file.step s c t).1.1 :: (file.run (file.step s c t).1.2 rest (file.step s c t).2).1.1,
          (file.run (file.step s c t).1.2 rest (file.step s c t).2).1.2),
        (file.run (file.step s c t).1.2 rest (file.step s c t).2).2) := rfl

theorem bytes_step (file : SharedFile) (s : Session) (c : Call) (t : FileTree) :
    (file.step s c t).2.bytes file.file = (s.step c (file.memory t)).2.2.toFile :=
  FileTree.bytes_setBytes _ _ _

/-- A call leaves the file as long as it is, and its session with halves of the file. -/
theorem Fits.call (fits : file.Fits s t) (c : Call) :
    file.Fits (file.step s c t).1.2 (file.step s c t).2 := by
  have bounded := fits.chunks.step c (file.memory t)
  have hhalves : (file.step s c t).1.2.halves = s.halves := bounded.halves_eq
  exact {
    halves_eq := by rw [hhalves]; exact fits.halves_eq
    size_le := by rw [hhalves]; exact fits.size_le
    chunks := bounded.chunks
    file_size_le := by
      rw [bytes_step, Memory.size_toFile, bounded.size_eq]
      exact fits.file_size_le }

/-- A call leaves the geometry that the header declares. -/
theorem Fits.declares (fits : file.Fits s t) {g : Geometry}
    (declares : Header.Declares (t.bytes file.file) g) (c : Call) :
    Header.Declares ((file.step s c t).2.bytes file.file) g := by
  have hload : ∀ f : Header.Field, f.isCounter = false →
      f.load ((file.step s c t).2.bytes file.file) = f.load (t.bytes file.file) := by
    intro f hf
    rw [bytes_step, ← Session.stepSeeing_calm]
    refine load_toFile_stepSeeing fits.atHeader fits.chunks fits.header_le rfl rfl
      (fun j hj => fits.outside (.inl hj)) ?_
    intro h
    rw [Call.isCounter_of_field? h] at hf
    cases hf
  exact {
    magic := (hload .magic rfl).trans declares.magic
    version := (hload .version rfl).trans declares.version
    capacity := (hload .capacity rfl).trans declares.capacity
    unitSize := (hload .unitSize rfl).trans declares.unitSize }

end SharedFile

/-! ## Between two calls -/

namespace Session

variable {s s' : Session} {m m' : Memory}

/-- **What a call leaves in the file is what the next one finds there**: counters that were written
    to the header are read back, and the bytes of the ring lie behind it. -/
theorem InStep.toFile (h : InStep s s' m m') (bound : s.halves.AtHeader)
    (hregion : Header.size ≤ s.halves.region.offset) (hlong : Header.size ≤ m.bytes.size) :
    InStep s s' (Memory.ofFile m.toFile) m' := by
  have hhead : s.halves.headCount (Memory.ofFile m.toFile) = s.halves.headCount m := by
    rw [Halves.headCount, Halves.headCount, bound.head, Memory.head_ofFile_toFile hlong]
  have htail : s.halves.tailCount (Memory.ofFile m.toFile) = s.halves.tailCount m := by
    rw [Halves.tailCount, Halves.tailCount, bound.tail, Memory.tail_ofFile_toFile hlong]
  have hsignal : s.halves.signal.map (Memory.ofFile m.toFile).signal
      = s.halves.signal.map m.signal := by
    rw [bound.signal, Option.map_some, Option.map_some, Memory.signal_ofFile_toFile hlong]
  have hbyte : ∀ j, Header.size ≤ j → (Memory.ofFile m.toFile).bytes.byte j = m.bytes.byte j :=
    fun j hj => Memory.byte_toFile_outside hlong (.inr hj)
  have hsize : (Memory.ofFile m.toFile).bytes.size = m.bytes.size := m.size_toFile
  have agree : s.halves.Agree s'.halves { p | p < s.halves.geometry.size.toNat }
      (Memory.ofFile m.toFile) m' :=
    ⟨h.agree.geometry_eq, h.agree.head_ne_tail, h.agree.head_ne_tail',
      h.agree.headCount_eq.trans hhead.symm, h.agree.tailCount_eq.trans htail.symm,
      h.agree.signal_eq.trans hsignal.symm, fun p hp => (h.agree.byte_eq p hp).trans
        (hbyte _ (Nat.le_trans hregion (Nat.le_add_right _ _))).symm⟩
  have inside : s.halves.region.offset + s.halves.geometry.size.toNat
      ≤ (Memory.ofFile m.toFile).bytes.size := by
    rw [hsize]
    exact h.inside
  exact ⟨agree, h.writing_eq, h.reading_eq, h.chunks, inside, h.inside'⟩

end Session

namespace SharedFile

variable {file : SharedFile} {s s' : Session} {t : FileTree} {m' : Memory}

/-- A call on the file is answered as over plain memory, and so are those after it. -/
theorem Fits.inStep (fits : file.Fits s t) (h : s.InStep s' (file.memory t) m') (c : Call) :
    (s'.step c m').1 = (file.step s c t).1.1
      ∧ (file.step s c t).1.2.InStep (s'.step c m').2.1 (file.memory (file.step s c t).2)
          (s'.step c m').2.2 := by
  obtain ⟨hanswer, hnext⟩ := h.step c
  have bounded := fits.chunks.step c (file.memory t)
  have hlong : Header.size ≤ (s.step c (file.memory t)).2.2.bytes.size := by
    rw [bounded.size_eq]
    exact fits.header_le
  have hregion : Header.size ≤ (s.step c (file.memory t)).2.1.halves.region.offset := by
    have hregion : s.halves.region = file.region := congrArg Halves.region fits.halves_eq
    rw [bounded.halves_eq, hregion]
    exact Nat.le_refl Header.size
  have hbound : (s.step c (file.memory t)).2.1.halves.AtHeader := by
    rw [bounded.halves_eq]
    exact fits.atHeader
  refine ⟨hanswer, ?_⟩
  rw [memory, bytes_step]
  exact hnext.toFile hbound hregion hlong

end SharedFile

/-! ## A restart makes what it drops -/

namespace Restart

variable {path : String} {file : SharedFile} {st : State}

/-- The handles are all of one file, to which the path leads and whose header declares what was
    checked; and the session goes on over it. -/
structure Steady (path : String) (file : SharedFile) (st : State) : Prop where
  handle_eq : st.handle = file
  kept_eq : ∀ handle ∈ st.kept, handle = file
  found : st.tree.find path = .ok file.file
  declares : Header.Declares (st.tree.bytes file.file) file.geometry
  halves_eq : st.session.halves = file.halves
  fits : file.Fits st.session st.tree

/-- The same result, the same state but for the handles that are kept. -/
def Unnoticed (path : String) (file : SharedFile) (st : State)
    (outcome : Except Failure (Result × State)) : Prop :=
  ∃ kept, outcome = .ok (.takenUp file.geometry file.geometry file.geometry, { st with kept })
    ∧ Steady path file { st with kept }

theorem Steady.openAgain (steady : Steady path file st) : openAgain path st = .ok file := by
  have hopen := SharedFile.openFile_of_declares steady.found steady.fits.file_size_le
    steady.declares
  rw [Restart.openAgain, hopen]
  rfl

/-- Binding and splitting over a file whose header declares what was checked. -/
theorem takeUp_eq {t : FileTree} (declares : Header.Declares (t.bytes file.file) file.geometry)
    (kept : List SharedFile) : takeUp t file kept
      = .ok (.takenUp file.geometry file.geometry file.geometry,
        { tree := t, handle := file, kept, session := { halves := file.halves } }) := by
  have hring : file.ring t = .ok (file.boundRing file.geometry) :=
    SharedFile.ring_of_declared ((Header.declared_decode_iff _ _).2 declares)
  have hhalves : (file.boundRing file.geometry).halves = .ok file.halves :=
    (file.halves_boundRing file.geometry).trans (if_pos (Nat.le_refl _))
  rw [takeUp, hring]
  show (do
    let halves ← (file.boundRing file.geometry).halves.mapError Failure.unsplit
    return (_, _)) = _
  rw [hhalves]
  rfl

/-- The session that is made is the one that was dropped, if it had no chunk open. -/
theorem Steady.takeUp (steady : Steady path file st) (hwriting : st.session.writing = none)
    (hreading : st.session.reading = none) {kept : List SharedFile}
    (hkept : ∀ handle ∈ kept, handle = file) : Unnoticed path file st (takeUp st.tree file kept) := by
  refine ⟨kept, ?_, { steady with kept_eq := hkept }⟩
  rw [takeUp_eq steady.declares]
  obtain ⟨tree, handle, kept₀, halves, writing, reading⟩ := st
  obtain rfl : handle = file := steady.handle_eq
  obtain rfl : halves = handle.halves := steady.halves_eq
  obtain rfl : writing = none := hwriting
  obtain rfl : reading = none := hreading
  rfl

/-- **No way to take a ring up again is noticed.** -/
theorem Steady.restart (steady : Steady path file st) (hwriting : st.session.writing = none)
    (hreading : st.session.reading = none) (way : Way) :
    Unnoticed path file st (restart path st way) := by
  cases way with
  | rebind =>
    rw [Restart.restart, steady.handle_eq]
    exact steady.takeUp hwriting hreading steady.kept_eq
  | reopen =>
    rw [Restart.restart, steady.openAgain]
    simp only [bind, Except.bind]
    exact steady.takeUp hwriting hreading steady.kept_eq
  | another =>
    rw [Restart.restart, steady.openAgain]
    simp only [bind, Except.bind]
    refine steady.takeUp hwriting hreading ?_
    intro handle hhandle
    rcases List.mem_cons.1 hhandle with rfl | hkept
    · exact steady.handle_eq
    · exact steady.kept_eq handle hkept
  | goBack i =>
    rw [Restart.restart]
    cases hi : st.kept[i]? with
    | none =>
      show Unnoticed path file st (Restart.takeUp st.tree st.handle st.kept)
      rw [steady.handle_eq]
      exact steady.takeUp hwriting hreading steady.kept_eq
    | some handle =>
      show Unnoticed path file st (Restart.takeUp st.tree handle (st.kept.set i st.handle))
      rw [steady.kept_eq handle (List.mem_of_getElem? hi)]
      refine steady.takeUp hwriting hreading ?_
      intro other hother
      rcases List.mem_or_eq_of_mem_set hother with hkept | rfl
      · exact steady.kept_eq other hkept
      · exact steady.handle_eq

/-- The state after a call on the file. -/
def State.after (st : State) (file : SharedFile) (c : Call) : State :=
  { st with
    session := (file.step st.session c st.tree).1.2
    tree := (file.step st.session c st.tree).2 }

theorem Steady.step_call (steady : Steady path file st) (c : Call) : step path st (.call c)
    = .ok (.answered (file.step st.session c st.tree).1.1, st.after file c) := by
  obtain rfl := steady.handle_eq
  rfl

/-- After a call all stays ready for a restart. -/
theorem Steady.call (steady : Steady path file st) (c : Call) :
    Steady path file (st.after file c) where
  handle_eq := steady.handle_eq
  kept_eq := steady.kept_eq
  found := steady.found
  declares := steady.fits.declares steady.declares c
  halves_eq := (steady.fits.chunks.step c (file.memory st.tree)).halves_eq.trans steady.halves_eq
  fits := steady.fits.call c

/-- What a run with restarts has in common with the run without (`plain`), and with the answers
    over plain memory. -/
structure Transparent (g : Geometry) (results : List Result) (last : State)
    (plain : (List Answer × Session) × FileTree) (inMemory : List Answer) : Prop where
  takenUp_eq : ∀ handle ring halves, .takenUp handle ring halves ∈ results →
    handle = g ∧ ring = g ∧ halves = g
  answers_eq : answers results = plain.1.1
  tree_eq : last.tree = plain.2
  inMemory_eq : plain.1.1 = inMemory

/-- **Any events**, from any state that is ready for a restart. -/
theorem Steady.run (steady : Steady path file st) {s' : Session} {m' : Memory}
    (alike : st.session.InStep s' (file.memory st.tree) m') (events : List Event)
    (quiet : Quiet s' m' events) : ∃ results last, run path st events = .ok (results, last)
      ∧ Transparent file.geometry results last (file.run st.session (calls events) st.tree)
          (s'.run (calls events) m').1 := by
  -- the induction is on the events: a call moves both runs on, a restart leaves them where they are
  induction events generalizing st s' m' with
  | nil => exact ⟨[], st, rfl, fun _ _ _ h => (nomatch h), rfl, rfl, rfl⟩
  | cons e rest ih =>
    cases e with
    | call c =>
      obtain ⟨hanswer, hnext⟩ := steady.fits.inStep alike c
      obtain ⟨results, last, hrun, transparent⟩ := ih (steady.call c) hnext quiet
      refine ⟨.answered (file.step st.session c st.tree).1.1 :: results, last, ?_, ?_⟩
      · rw [Restart.run, steady.step_call]
        simp only [bind, Except.bind, hrun]
        rfl
      · rw [calls_call, SharedFile.run_cons, Session.run_cons]
        exact {
          takenUp_eq := fun handle ring halves h =>
            transparent.takenUp_eq handle ring halves ((List.mem_cons.1 h).resolve_left nofun)
          answers_eq := congrArg _ transparent.answers_eq
          tree_eq := transparent.tree_eq
          inMemory_eq := by rw [hanswer]; exact congrArg _ transparent.inMemory_eq }
    | restart way =>
      obtain ⟨hwriting, hreading, quietRest⟩ := quiet
      rw [alike.writing_eq] at hwriting
      rw [alike.reading_eq] at hreading
      obtain ⟨kept, hstep, steadyNext⟩ := steady.restart hwriting hreading way
      obtain ⟨results, last, hrun, transparent⟩ := ih steadyNext alike quietRest
      refine ⟨.takenUp file.geometry file.geometry file.geometry :: results, last, ?_, ?_⟩
      · rw [Restart.run, step, hstep]
        simp only [bind, Except.bind, hrun]
        rfl
      · rw [calls_restart]
        refine { transparent with takenUp_eq := ?_ }
        intro handle ring halves h
        rcases List.mem_cons.1 h with heq | hlater
        · injection heq with hhandle hring hhalves
          exact ⟨hhandle, hring, hhalves⟩
        · exact transparent.takenUp_eq handle ring halves hlater

/-- Behind the header of a file that was just made there are only zeros. -/
theorem byte_create {t t' : FileTree} {g : Geometry}
    (made : SharedFile.create t path g = (.ok file, t')) {j : Nat} (hj : Header.size ≤ j) :
    (t'.bytes file.file).byte j = 0 := by
  have hlen := (Header.ofGeometry g).length_encode
  rw [(SharedFile.bytes_create made).2, Bytes.byte_write _ _ _ _ (by
    rw [Bytes.size_grow, Header.toNat_fileSize]; omega), if_neg (by omega), Bytes.byte_grow,
    Bytes.byte_zeros]

/-- A file that was just made, and zeroed memory with zeroed counters. -/
theorem inStep_create {t t' : FileTree} {g : Geometry}
    (made : SharedFile.create t path g = (.ok file, t')) :
    Session.InStep { halves := file.halves } { halves := Exchange.halves g } (file.memory t')
      ⟨.zeros g.size.toNat, [0, 0], [0]⟩ := by
  have hheader := SharedFile.header_create made
  obtain ⟨rfl, -⟩ := SharedFile.bytes_create made
  have held : file.Held t' := .inl ⟨_, _, _, made⟩
  exact {
    agree := {
      geometry_eq := rfl
      head_ne_tail := Nat.zero_ne_one
      head_ne_tail' := Nat.zero_ne_one
      headCount_eq := (congrArg Header.head hheader).symm
      tailCount_eq := (congrArg Header.tail hheader).symm
      signal_eq := (congrArg (fun header : Header => some header.signal) hheader).symm
      byte_eq := fun p _ => (Bytes.byte_zeros _ _).trans
        (byte_create made (Nat.le_add_right Header.size p)).symm }
    writing_eq := rfl
    reading_eq := rfl
    chunks := .start _
    inside := held.file_size_le
    inside' := Nat.le_of_eq (Nat.zero_add _) }

/-- A file that was just made is ready for a restart. -/
theorem steady_create {t t' : FileTree} {g : Geometry}
    (made : SharedFile.create t path g = (.ok file, t')) :
    Steady path file { tree := t', handle := file, session := { halves := file.halves } } := by
  have hfound := SharedFile.find_create made
  have declares := SharedFile.declares_create made
  obtain ⟨rfl, -⟩ := SharedFile.bytes_create made
  have held : file.Held t' := .inl ⟨_, _, _, made⟩
  exact {
    handle_eq := rfl
    kept_eq := fun _ h => (nomatch h)
    found := hfound
    declares
    halves_eq := rfl
    fits := held.fits (Nat.le_refl _) (Nat.le_refl _) }

/-- **Restarts are transparent.**  A file is made, and a ring over it is taken up.  Then calls are
    made on the halves, and wherever no chunk is open they may be dropped and the ring be taken up
    again: over the same handle, over one that the path was opened for again, or over another one
    that was kept.  Every opening, binding and splitting succeeds, with the geometry that the file
    was made for.  The calls are answered as without any restart, the files end up the same, and the
    answers are those of a ring over zeroed memory. -/
theorem restarts_are_transparent {t t' : FileTree} {g : Geometry}
    (made : SharedFile.create t path g = (.ok file, t')) :
    ({ geometry := g, region := some ⟨0, g.size.toNat⟩, head := some 0, tail := some 1,
       signal := some 0 } : Ring).halves = .ok (Exchange.halves g)
      ∧ ∃ begun, takeUp t' file [] = .ok (.takenUp g g g, begun)
        ∧ ∀ events : List Event,
          let memory : Memory := ⟨.zeros g.size.toNat, [0, 0], [0]⟩
          let session : Session := { halves := Exchange.halves g }
          Quiet session memory events → ∃ results last,
            run path begun events = .ok (results, last)
              ∧ Transparent g results last (file.run begun.session (calls events) t')
                  (session.run (calls events) memory).1 := by
  have steady := steady_create made
  have alike := inStep_create made
  obtain ⟨rfl, -⟩ := SharedFile.bytes_create made
  refine ⟨?_, _, takeUp_eq steady.declares [], ?_⟩
  · unfold Ring.halves
    simp only [Ring.counters, Ring.bound, bind, Except.bind, pure, Except.pure,
      if_neg (Nat.lt_irrefl _)]
    rfl
  · intro events memory session quiet
    exact steady.run alike events quiet

/-- The small ring in a file: it is taken up again in every way, between transfers, behind a chunk,
    and between the two operations on the flow-control counter. -/
theorem restarts_are_transparent_small :
    let events : List Event := [.call (.write [1, 2, 3, 4, 5, 6, 7]), .restart .reopen, .call .view,
      .call .look, .call .release, .restart .another, .call (.reserve 3), .call (.fill [8, 9, 10]),
      .call .publish, .restart (.goBack 0), .call (.addSignal 6), .restart .rebind,
      .call .takeSignal, .call (.read [0, 0, 0, 0] none)]
    let file : SharedFile := ⟨0, Ring.small.geometry⟩
    ∃ t', SharedFile.create .initial "ring" Ring.small.geometry = (.ok file, t')
      ∧ ∃ begun results last, run "ring" begun events = .ok (results, last)
        ∧ Transparent Ring.small.geometry results last
            (file.run begun.session (calls events) t')
            (Session.run { halves := Exchange.halves Ring.small.geometry } (calls events)
              ⟨.zeros 12, [0, 0], [0]⟩).1 := by
  intro events file
  have made := SharedFile.create_eq (g := Ring.small.geometry)
    (FileTree.create_initial (Bytes.zeros 0)) rfl
  obtain ⟨-, begun, -, hrun⟩ := restarts_are_transparent made
  obtain ⟨results, last, hevents, transparent⟩ := hrun events (by decide +kernel)
  exact ⟨_, made, begun, results, last, hevents, transparent⟩

end Restart

end SharedRing
