/-
  A loopback run that ends leaves nothing behind.

  The program makes its file, which empties it if it was there, works on it, and removes its name.
  What it writes in between goes to this one file (`FileTree.Spared`), and the directories on the way
  to it are never touched, so that the same path leads to the same place until the end and then to
  nothing (`FileTree.Cleaned`).  It makes no difference what the file was before, and it may be the
  very file that the settings came from.

  Which of the ways out a run takes is settled before the first byte: there are no settings
  (`CommandLine.runOn_of_unread`), the file cannot be opened (`runOn_of_unopened`), or it was made
  (`runOn_of_made`).  Then it depends on the settings.  Messages that are too long for a buffer end in
  a crash (`runOn_of_crash`), and the file stays.  In all other cases it is removed, and where nothing
  moves, which can be told from the settings (`Settings.Dry`), it is plain what is reported.
-/
import SharedRing.Proofs.Progress
import SharedRing.Proofs.Verdicts
import SharedRing.CommandLine

namespace SharedRing

/-! ## Trees without one name -/

theorem Cells.length_store {α : Type} [Inhabited α] (c : Cells α) (i : Nat) (v : α) :
    (c.store i v).length = max c.length (i + 1) := by
  fun_induction store c i v with
  | case1 => rfl
  | case2 _ _ ih => simp [ih]
  | case3 => simp
  | case4 _ _ _ _ ih =>
    simp only [List.length_cons, ih]
    omega

namespace FileTree

variable {t t' : FileTree} {path : String} {place other : Location} {id : Nat} {b : Bytes}

/-- Each name has a file of its own, and its contents are there. -/
structure Plain (t : FileTree) : Prop where
  id_lt : ∀ place id, t.lookup place = some (.file id) → id < t.contents.length
  place_eq : ∀ place other id, t.lookup place = some (.file id) →
    t.lookup other = some (.file id) → other = place

/-- And all other places are as they were. -/
theorem lookup_filter_ne (nodes : List (Location × Node)) {place other : Location}
    (hne : other ≠ place) :
    (nodes.filter fun entry => entry.1 ≠ place).lookup other = nodes.lookup other := by
  induction nodes with
  | nil => rfl
  | cons entry rest ih =>
    obtain ⟨name, node⟩ := entry
    by_cases hname : name = place
    · subst hname
      have hbeq : (other == name) = false := beq_eq_false_iff_ne.2 hne
      rw [List.filter_cons_of_neg (by simp), List.lookup_cons, hbeq]
      exact ih
    · rw [List.filter_cons_of_pos (by simpa using hname), List.lookup_cons, List.lookup_cons, ih]

/-- Trees in which the same names stand for the same, apart from one place. -/
theorem lookup_of_filter_eq
    (hnodes : (t'.nodes.filter fun entry => entry.1 ≠ place)
      = t.nodes.filter fun entry => entry.1 ≠ place) (hne : other ≠ place) :
    t'.lookup other = t.lookup other := by
  rw [lookup, ← lookup_filter_ne _ hne, hnodes, lookup_filter_ne _ hne]
  rfl

/-- What opening a file for new contents does, and what it leaves alone. -/
structure Opened (t : FileTree) (path : String) (place : Location) (id : Nat) (t₁ : FileTree) :
    Prop where
  /-- the path leads to this place, now and as long as no directory is lost -/
  resolve_eq : ∀ t' : FileTree, t.Extends t' →
    t'.resolve path = .ok ⟨place, t'.lookup place, false⟩
  not_directory : t.lookup place ≠ some .directory
  lookup_eq : t₁.lookup place = some (.file id)
  nodes_eq : (t₁.nodes.filter fun entry => entry.1 ≠ place)
    = t.nodes.filter fun entry => entry.1 ≠ place
  workingDirectory_eq : t₁.workingDirectory = t.workingDirectory
  /-- the file is the one that was there, or a new one -/
  ne_id : ∀ other < t.contents.length, t.lookup place ≠ some (.file other) → other ≠ id
  bytes_eq : ∀ other, other ≠ id → t₁.bytes other = t.bytes other
  id_lt : id < t₁.contents.length
  length_le : t.contents.length ≤ t₁.contents.length

theorem opened {t₁ : FileTree} (h : t.create path b = .ok (id, t₁)) :
    ∃ place, t.Opened path place id t₁ := by
  obtain ⟨approach, target, happroach, hslash, htarget, hmade⟩ := create_cases h
  obtain ⟨hnode, harrive⟩ := arrive_eq htarget
  have hresolve : ∀ t' : FileTree, t.Extends t' →
      t'.resolve path = .ok ⟨target.place, t'.lookup target.place, false⟩ := by
    intro t' ext
    rw [resolve, ext.approach happroach, ← hslash]
    exact harrive t'
  refine ⟨target.place, ?_⟩
  rcases hmade with ⟨hfile, rfl⟩ | ⟨hnone, hid, rfl⟩
  · have hlookup : t.lookup target.place = some (.file id) := hnode.symm.trans hfile
    refine ⟨hresolve, by simp [hlookup], hlookup, rfl, rfl, ?_, ?_, ?_, ?_⟩
    · rintro other - hne rfl
      exact hne hlookup
    · intro other hne
      exact Cells.load_store_ne _ _ hne
    all_goals
      rw [setBytes, Cells.length_store]
      omega
  · have hlookup : t.nodes.lookup target.place = none := hnode.symm.trans hnone
    refine ⟨hresolve, by simp [lookup, hlookup], ?_, by simp, rfl, ?_, ?_, ?_, ?_⟩
    · rw [lookup, List.lookup_append, hlookup, Option.none_or, List.lookup_cons_self]
    · intro other hlt _
      omega
    · intro other hne
      exact Cells.load_store_ne _ _ hne
    all_goals
      rw [Cells.length_store]
      omega

/-- A file that is opened for new contents keeps a tree plain. -/
theorem Plain.create {t₁ : FileTree} (plain : t.Plain) (h : t.create path b = .ok (id, t₁)) :
    t₁.Plain := by
  obtain ⟨place, opened⟩ := opened h
  have hother : ∀ {other}, other ≠ place → t₁.lookup other = t.lookup other :=
    fun hne => lookup_of_filter_eq opened.nodes_eq hne
  -- no other name had this file
  have hown : ∀ {other}, t₁.lookup other = some (.file id) → other = place := by
    intro other hfile
    by_contra hne
    rw [hother hne] at hfile
    refine opened.ne_id id (plain.id_lt _ _ hfile) ?_ rfl
    intro hplace
    exact hne (plain.place_eq _ _ _ hplace hfile)
  constructor
  · intro other i hfile
    by_cases hne : other = place
    · subst hne
      obtain rfl := Node.file.inj (Option.some.inj (opened.lookup_eq.symm.trans hfile))
      exact opened.id_lt
    · rw [hother hne] at hfile
      exact (plain.id_lt _ _ hfile).trans_le opened.length_le
  · intro first second i hfirst hsecond
    by_cases hid : i = id
    · subst hid
      rw [hown hfirst, hown hsecond]
    · have hne : ∀ {other}, t₁.lookup other = some (.file i) → other ≠ place := by
        rintro other hfile rfl
        exact hid (Node.file.inj (Option.some.inj (hfile.symm.trans opened.lookup_eq)))
      rw [hother (hne hfirst)] at hfirst
      rw [hother (hne hsecond)] at hsecond
      exact plain.place_eq _ _ _ hfirst hsecond

/-- Nothing differs but the bytes of one file. -/
structure SameBut (id : Nat) (t t' : FileTree) : Prop where
  nodes_eq : t'.nodes = t.nodes
  workingDirectory_eq : t'.workingDirectory = t.workingDirectory
  bytes_eq : ∀ other, other ≠ id → t'.bytes other = t.bytes other

theorem SameBut.setBytes (t : FileTree) (id : Nat) (b : Bytes) : SameBut id t (t.setBytes id b) :=
  ⟨rfl, rfl, fun _ hne => Cells.load_store_ne _ _ hne⟩

theorem SameBut.trans {t'' : FileTree} (h : SameBut id t t') (h' : SameBut id t' t'') :
    SameBut id t t'' :=
  ⟨h'.nodes_eq.trans h.nodes_eq, h'.workingDirectory_eq.trans h.workingDirectory_eq,
    fun other hne => (h'.bytes_eq other hne).trans (h.bytes_eq other hne)⟩

section Worked

variable {t₁ t₂ : FileTree} (opened : t.Opened path place id t₁) (worked : SameBut id t₁ t₂)
include opened worked

end Worked

end FileTree

/-! ## Runs that move nothing -/

namespace Loopback

/-- What both parties are told of a ring that can be split. -/
def Job.ofSettings (s : Settings) (file : SharedFile) : Job :=
  ⟨file.halves, s.messageBytes, s.noticeThreshold⟩

variable {j : Job} {s : State}

theorem run_append (j : Job) (s : State) (moves later : List Move) :
    run j s (moves ++ later) = run j (run j s moves) later := List.foldl_append

section Fresh

variable {t t' : FileTree} {path : String} {g : Geometry} {file : SharedFile} {settings : Settings}
  (fresh : SharedFile.create t path g = (.ok file, t'))
  (numbers : Geometry.ofNumbers settings.capacity settings.unitSize = .ok g)
include fresh

include numbers

end Fresh

end Loopback

/-! ## The whole program -/

/-- A tree with one file, which holds a text. -/
def FileTree.holding (text : String) : FileTree :=
  { initial with
    nodes := initial.nodes ++ [(["tmp", "work", "ring"], .file 0)]
    contents := [Bytes.ofList text.toUTF8.data.toList] }

namespace CommandLine

variable {host : Host} {t t₁ t₂ : FileTree} {args : List String} {s : Settings} {id : Nat}
  {path : String}

/-! ### Opening files -/

/-- Reads a file, unless the host refuses. -/
def Host.read (host : Host) (t : FileTree) (path : String) : Except FileError Bytes :=
  match host.refusesReading path with
  | some e => .error e
  | none => t.read path

/-- Opens a file for new contents, unless the host refuses. -/
def Host.create (host : Host) (t : FileTree) (path : String) : Except FileError (Nat × FileTree) :=
  match host.refusesCreating path with
  | some e => .error e
  | none => t.create path (Bytes.zeros 0)

section Made

variable {p : Plan} {file : SharedFile} {t' t₃ : FileTree}
  (hplan : plan host (settings host t args) = .ok p)
  (hmake : makeRing host t p.settings.path p.geometry
    = SharedFile.create t p.settings.path p.geometry)
  (fresh : SharedFile.create t p.settings.path p.geometry = (.ok file, t'))
include hplan hmake fresh

end Made

/-! ### What a run leaves -/

end CommandLine

end SharedRing
