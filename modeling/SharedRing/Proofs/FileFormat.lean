/-
  The format of a shared file: what is accepted, and what is made.

  A file is accepted for what its bytes say and for nothing else.  `requirements` lists what they
  must fulfil, in the order in which it is looked at and with the complaint that each failure gets;
  the first that is not met decides (`check_ofList`).

  A file that is made holds a header, sixteen zero bytes in place of its counters, and zero bytes for
  the ring (`SharedFile.ofList_create`).  Its path leads to it (`FileTree.find_create`): making a
  file adds a name or none, and every step of a path that was possible before still is.  So the file
  can be opened again, and has the geometry that it was made for.
-/
import SharedRing.Proofs.Fields

namespace SharedRing

/-! ## Bytes and lists -/

namespace Bytes

theorem read_ofList (bs : List UInt8) {pos len : Nat} (h : pos + len ≤ bs.length) :
    (ofList bs).read pos len = (bs.drop pos).take len := by
  have hread := (zeros bs.length).read_write 0 bs (i := pos) (n := len) (by simp) h
  rwa [Nat.zero_add] at hread

theorem toList_ofList (bs : List UInt8) : (ofList bs).toList = bs := by
  rw [toList, size_ofList, read_ofList bs (by omega), List.drop_zero, List.take_length]

/-- Bytes written over zeros. -/
theorem write_grow_zeros (bs : List UInt8) (extra : Nat) :
    ((zeros 0).grow (bs.length + extra)).write 0 bs = ofList (bs ++ List.replicate extra 0) := by
  refine ext_byte (by simp) fun i => ?_
  rw [byte_ofList, byte_write _ _ _ _ (by simp), byte_grow, byte_zeros, Nat.sub_zero, Nat.zero_add,
    List.getD_eq_getElem?_getD, List.getD_eq_getElem?_getD]
  split
  · rename_i hin
    rw [List.getElem?_append_left hin.2]
  · rw [List.getElem?_append_right (by omega), List.getElem?_replicate]
    split <;> rfl

end Bytes

/-! ## Which headers declare a geometry -/

/-- A geometry from two numbers, said at once. -/
theorem Geometry.ofNumbers_eq (capacity unitSize : UInt32) : ofNumbers capacity unitSize
    = if hcapacity : capacity.toNat.isPowerOfTwo then
        if hunit : unitSize ≠ 0 then .ok ⟨capacity, unitSize, hcapacity, hunit⟩
        else .error .emptyUnit
      else .error (.badCapacity capacity) := by
  rw [ofNumbers, ofCapacity, resize]
  split
  · rfl
  · rfl

/-- A header declares a geometry if it is a header of this version and holds its two numbers. -/
theorem Header.declared_eq_ok_iff (h : Header) (g : Geometry) : h.declared = .ok g
    ↔ h.magic = mark ∧ h.version = layoutVersion ∧ h.capacity = g.capacity
      ∧ h.unitSize = g.unitSize := by
  rw [declared, Geometry.ofNumbers_eq]
  constructor
  · intro hok
    split at hok
    · cases hok
    · split at hok
      · cases hok
      · split at hok
        · split at hok
          · obtain rfl := Except.ok.inj hok
            exact ⟨not_ne_iff.1 (by assumption), not_ne_iff.1 (by assumption), rfl, rfl⟩
          · cases hok
        · cases hok
  · rintro ⟨hmagic, hversion, hcapacity, hunit⟩
    obtain ⟨capacity, unitSize, hpower, hne⟩ := g
    obtain rfl : h.capacity = capacity := hcapacity
    obtain rfl : h.unitSize = unitSize := hunit
    rw [if_neg (not_ne_iff.2 hmagic), if_neg (not_ne_iff.2 hversion), dif_pos hpower, dif_pos hne]

/-- Some bytes begin with a header that declares a geometry, said of its numbers. -/
structure Header.Declares (b : Bytes) (g : Geometry) : Prop where
  magic : Field.magic.load b = 0x52454652494E4742
  version : Field.version.load b = 1
  capacity : Field.capacity.load b = g.capacity.toNat
  unitSize : Field.unitSize.load b = g.unitSize.toNat

theorem Header.declared_decode_iff (b : Bytes) (g : Geometry) :
    (decode b).declared = .ok g ↔ Declares b g := by
  have hmagic : (decode b).magic.toNat = Field.magic.load b :=
    UInt64.toNat_ofNat_of_lt (Field.magic.load_lt b)
  have hversion : (decode b).version.toNat = Field.version.load b :=
    UInt64.toNat_ofNat_of_lt (Field.version.load_lt b)
  have hcapacity : (decode b).capacity.toNat = Field.capacity.load b :=
    UInt32.toNat_ofNat_of_lt (Field.capacity.load_lt b)
  have hunit : (decode b).unitSize.toNat = Field.unitSize.load b :=
    UInt32.toNat_ofNat_of_lt (Field.unitSize.load_lt b)
  rw [declared_eq_ok_iff, ← UInt64.toNat_inj, ← UInt64.toNat_inj, ← UInt32.toNat_inj,
    ← UInt32.toNat_inj, hmagic, hversion, hcapacity, hunit]
  exact ⟨fun ⟨h, h', h'', h'''⟩ => ⟨h, h', h'', h'''⟩, fun ⟨h, h', h'', h'''⟩ => ⟨h, h', h'', h'''⟩⟩

/-- A file is accepted if its header declares a geometry for which the file is long enough. -/
theorem SharedFile.check_eq_ok_iff (b : Bytes) (g : Geometry) : check b = .ok g
    ↔ Header.size + g.size.toNat ≤ b.size ∧ (Header.decode b).declared = .ok g := by
  have hpos := g.size_pos
  rw [check]
  constructor
  · intro hok
    split at hok
    · cases hok
    · split at hok
      · cases hok
      · rename_i g' hdeclared
        split at hok
        · cases hok
        · obtain rfl := Except.ok.inj hok
          exact ⟨by rw [← Header.toNat_fileSize]; omega, hdeclared⟩
  · rintro ⟨hsize, hdeclared⟩
    rw [if_neg (by omega), hdeclared]
    exact if_neg (by rw [Header.toNat_fileSize]; omega)

/-! ## What must be fulfilled -/

namespace FileFormat

/-- The number in some bytes of a file, the lowest byte first. -/
def number (f : List UInt8) (offset width : Nat) : Nat :=
  LittleEndian.decode ((f.drop offset).take width)

/-- One thing that must be so, and what is said if it is not. -/
structure Requirement where
  met : Bool
  complaint : String

/-- All that the bytes of a shared file must fulfil, in the order in which it is looked at. -/
def requirements (f : List UInt8) : List Requirement :=
  [ ⟨40 ≤ f.length, "file too small for ring header"⟩,
    ⟨number f 0 8 = 0x52454652494E4742, "bad magic"⟩,
    ⟨number f 8 8 = 1, s!"wrong version {number f 8 8}, expected 1"⟩,
    ⟨(number f 16 4).isPowerOfTwo, s!"capacity {number f 16 4} is not a power of two"⟩,
    ⟨number f 20 4 ≠ 0, "scale must be non-zero"⟩,
    ⟨40 + number f 16 4 * number f 20 4 ≤ f.length,
      "file too small for declared ring capacity"⟩ ]

/-- The first requirement that is not met. -/
def firstUnmet (f : List UInt8) : Option Requirement := (requirements f).find? fun r => !r.met

variable {f : List UInt8}

theorem number_lt (f : List UInt8) (offset width : Nat) : number f offset width < 256 ^ width := by
  have h := LittleEndian.decode_lt ((f.drop offset).take width)
  refine Nat.lt_of_lt_of_le h (Nat.pow_le_pow_right (by decide) ?_)
  exact List.length_take_le _ _

/-- A field of a header, as a number of the file. -/
theorem load_ofList (field : Header.Field) (hlen : Header.size ≤ f.length) :
    field.load (Bytes.ofList f) = number f field.offset field.width := by
  have hstop := field.stop_le_size
  rw [Header.Field.load, Bytes.read_ofList f (by omega), number]

/-- The numbers that decide, as the header has them. -/
theorem decode_ofList (hlen : Header.size ≤ f.length) :
    let h := Header.decode (Bytes.ofList f)
    h.magic.toNat = number f 0 8 ∧ h.version.toNat = number f 8 8
      ∧ h.capacity.toNat = number f 16 4 ∧ h.unitSize.toNat = number f 20 4 := by
  rw [Header.decode_eq_load]
  simp only [load_ofList _ hlen]
  exact ⟨UInt64.toNat_ofNat_of_lt (number_lt f 0 8), UInt64.toNat_ofNat_of_lt (number_lt f 8 8),
    UInt32.toNat_ofNat_of_lt (number_lt f 16 4), UInt32.toNat_ofNat_of_lt (number_lt f 20 4)⟩

/-- What may be said of a file: that it is accepted with the geometry that it names, if it meets all
    requirements, or what its first unmet one has to say. -/
def Verdict (f : List UInt8) : Except ShareError Geometry → Prop
  | .ok g => firstUnmet f = none ∧ g.capacity.toNat = number f 16 4
      ∧ g.unitSize.toNat = number f 20 4
  | .error e => (firstUnmet f).map (·.complaint) = some e.message ∧ e.isInvalidData

theorem find?_of_met {r : Requirement} {rest : List Requirement} (h : r.met = true) :
    (r :: rest).find? (fun r => !r.met) = rest.find? fun r => !r.met :=
  List.find?_cons_of_neg (by rw [h]; decide)

theorem find?_of_unmet {r : Requirement} {rest : List Requirement} (h : r.met = false) :
    (r :: rest).find? (fun r => !r.met) = some r :=
  List.find?_cons_of_pos (by rw [h]; rfl)

theorem message_otherVersion (found : UInt64) :
    (Refusal.otherVersion found Header.layoutVersion).message
      = s!"wrong version {found.toNat}, expected 1" := by
  show "wrong version " ++ toString found.toNat ++ ", expected " ++ "1" = _
  rw [String.append_assoc]
  rfl

/-- **The first requirement that a file does not meet decides what is said about it**; a file that
    meets them all is accepted with the geometry that it names. -/
theorem check_ofList (f : List UInt8) : Verdict f (SharedFile.check (Bytes.ofList f)) := by
  rw [SharedFile.check, Bytes.size_ofList]
  by_cases hlen : 40 ≤ f.length
  · rw [if_neg (Nat.not_lt.2 hlen : ¬ f.length < Header.size)]
    have hnumbers := decode_ofList hlen
    generalize Header.decode (Bytes.ofList f) = h at *
    obtain ⟨hmagic, hversion, hcapacity, hunit⟩ := hnumbers
    -- what is asked of the words is asked of the numbers
    have hm : h.magic = Header.mark ↔ number f 0 8 = 0x52454652494E4742 := by
      rw [← hmagic, ← UInt64.toNat_inj, show Header.mark.toNat = 0x52454652494E4742 from rfl]
    have hv : h.version = Header.layoutVersion ↔ number f 8 8 = 1 := by
      rw [← hversion, ← UInt64.toNat_inj, show Header.layoutVersion.toNat = 1 from rfl]
    have hu : h.unitSize ≠ 0 ↔ number f 20 4 ≠ 0 := by
      rw [← hunit, ne_eq, ← UInt32.toNat_inj, UInt32.toNat_zero]
    rw [Header.declared, Geometry.ofNumbers_eq, Verdict.eq_def, firstUnmet, requirements,
      find?_of_met (decide_eq_true hlen)]
    by_cases magic : h.magic = Header.mark
    · rw [if_neg (not_ne_iff.2 magic), find?_of_met (decide_eq_true (hm.1 magic))]
      by_cases version : h.version = Header.layoutVersion
      · rw [if_neg (not_ne_iff.2 version), find?_of_met (decide_eq_true (hv.1 version))]
        by_cases capacity : h.capacity.toNat.isPowerOfTwo
        · rw [dif_pos capacity, find?_of_met (decide_eq_true (hcapacity ▸ capacity))]
          by_cases unitSize : h.unitSize ≠ 0
          · rw [dif_pos unitSize, find?_of_met (decide_eq_true (hu.1 unitSize))]
            have hsize : (Header.fileSize ⟨h.capacity, h.unitSize, capacity, unitSize⟩).toNat
                = 40 + number f 16 4 * number f 20 4 := by
              rw [Header.toNat_fileSize, Geometry.toNat_size, hcapacity, hunit]
              rfl
            simp only
            rw [hsize]
            by_cases declared : 40 + number f 16 4 * number f 20 4 ≤ f.length
            · rw [if_neg (Nat.not_lt.2 declared), find?_of_met (decide_eq_true declared)]
              exact ⟨rfl, hcapacity, hunit⟩
            · rw [if_pos (Nat.not_le.1 declared), find?_of_unmet (decide_eq_false declared)]
              exact ⟨rfl, rfl⟩
          · rw [dif_neg unitSize, find?_of_unmet (decide_eq_false fun h => unitSize (hu.2 h))]
            exact ⟨rfl, rfl⟩
        · rw [dif_neg capacity, find?_of_unmet (decide_eq_false (hcapacity ▸ capacity)),
            ← hcapacity]
          exact ⟨rfl, rfl⟩
      · rw [if_pos version, find?_of_unmet (decide_eq_false fun h => version (hv.2 h)), ← hversion]
        exact ⟨congrArg some (message_otherVersion h.version).symm, rfl⟩
    · rw [if_pos magic, find?_of_unmet (decide_eq_false fun h => magic (hm.2 h))]
      exact ⟨rfl, rfl⟩
  · rw [if_pos (Nat.not_le.1 hlen : f.length < Header.size)]
    exact ⟨by rw [firstUnmet, requirements, find?_of_unmet (decide_eq_false hlen)]; rfl, rfl⟩

end FileFormat

/-! ## Where a path leads after a file was made -/

namespace FileTree

variable {t t' : FileTree} {path : String} {b : Bytes} {id : Nat}

/-- `t'` has all directories of `t`, and relative paths begin in the same one. -/
structure Extends (t t' : FileTree) : Prop where
  directory : ∀ place, t.lookup place = some .directory → t'.lookup place = some .directory
  workingDirectory_eq : t'.workingDirectory = t.workingDirectory

theorem Extends.enter (ext : t.Extends t') {place next : Location} {name : String}
    (h : t.enter place name = .ok next) : t'.enter place name = .ok next := by
  unfold FileTree.enter at h ⊢
  split at h
  · cases h
  · rename_i hname
    rw [if_neg hname]
    split at h
    · rename_i hnode
      rw [ext.directory _ hnode]
      exact h
    · cases h
    · cases h

theorem Extends.foldlM_enter (ext : t.Extends t') {names : List String} {start last : Location}
    (h : names.foldlM t.enter start = .ok last) : names.foldlM t'.enter start = .ok last := by
  induction names generalizing start with
  | nil => exact h
  | cons name rest ih =>
    rw [List.foldlM_cons] at h ⊢
    cases hfirst : t.enter start name with
    | error e => rw [hfirst] at h; cases h
    | ok next =>
      rw [hfirst] at h
      rw [ext.enter hfirst]
      exact ih h

/-- A path that could be followed still can. -/
theorem Extends.approach (ext : t.Extends t') {approach : Approach}
    (h : t.approach path = .ok approach) : t'.approach path = .ok approach := by
  unfold FileTree.approach at h ⊢
  rw [ext.workingDirectory_eq]
  -- what is asked of the path itself is the same in both; then its directories are entered
  by_cases hnul : path.toList.contains (Char.ofNat 0) = true
  · rw [if_pos hnul] at h; cases h
  · rw [if_neg hnul] at h ⊢
    by_cases hempty : path.isEmpty = true
    · rw [if_pos hempty] at h; cases h
    · rw [if_neg hempty] at h ⊢
      by_cases hlong : path.utf8ByteSize > maxPathBytes
      · rw [if_pos hlong] at h; cases h
      · rw [if_neg hlong] at h ⊢
        dsimp only at h ⊢
        generalize (path.splitOn "/").filter (fun name => !name.isEmpty) = names at h ⊢
        generalize (if path.startsWith "/" = true then [] else t.workingDirectory) = start at h ⊢
        cases hlast : names.dropLast.foldlM t.enter start with
        | error e => rw [hlast] at h; cases h
        | ok last =>
          rw [hlast] at h
          rw [ext.foldlM_enter hlast]
          exact h

/-- Where a path arrives depends on the path; what is there depends on the tree. -/
theorem arrive_eq {approach : Approach} {target : Resolved} (h : t.arrive approach = .ok target) :
    target.node = t.lookup target.place
      ∧ ∀ t' : FileTree, t'.arrive approach = .ok ⟨target.place, t'.lookup target.place, approach.slash⟩ := by
  unfold arrive at h
  split at h
  · rename_i hlast
    obtain rfl := Except.ok.inj h
    exact ⟨rfl, fun t' => by rw [arrive, hlast]⟩
  · rename_i last hlast
    split at h
    · cases h
    · rename_i hlong
      obtain rfl := Except.ok.inj h
      exact ⟨rfl, fun t' => by rw [arrive, hlast]; exact if_neg hlong⟩

/-- Storing bytes moves no name. -/
theorem find_setBytes (t : FileTree) (id : Nat) (b : Bytes) (path : String) :
    (t.setBytes id b).find path = t.find path := rfl

/-- **The path of a file that was made leads to it.** -/
theorem find_create (h : t.create path b = .ok (id, t')) : t'.find path = .ok id := by
  obtain ⟨approach, target, happroach, hslash, htarget, hmade⟩ := create_cases h
  obtain ⟨hnode, harrive⟩ := arrive_eq htarget
  -- no directory is lost, and the last name is that of the file
  have ext : t.Extends t' ∧ t'.lookup target.place = some (.file id) := by
    rcases hmade with ⟨hfile, rfl⟩ | ⟨hnone, -, rfl⟩
    · exact ⟨⟨fun _ h => h, rfl⟩, hnode.symm.trans hfile⟩
    · refine ⟨⟨fun place hplace => ?_, rfl⟩, ?_⟩
      · rw [lookup] at hplace ⊢
        rw [List.lookup_append, hplace]
        rfl
      · have hfree : t.nodes.lookup target.place = none := hnode.symm.trans hnone
        rw [lookup, List.lookup_append, hfree, Option.none_or, List.lookup_cons_self]
  have hresolve : t'.resolve path = .ok ⟨target.place, some (.file id), approach.slash⟩ := by
    rw [resolve, ext.1.approach happroach, ← ext.2]
    exact harrive t'
  rw [find, hresolve, hslash]
  rfl

/-- The first file of all, in the working directory. -/
theorem create_initial (b : Bytes) : initial.create "ring" b = .ok (0, { initial with
    nodes := initial.nodes ++ [(["tmp", "work", "ring"], .file 0)], contents := [b] }) := by cbv

end FileTree

namespace SharedFile

variable {t t' t₁ t₂ : FileTree} {path : String} {g : Geometry} {id : Nat} {b : Bytes}

theorem openFile_eq (found : t.find path = .ok id) :
    openFile t path = (check (t.bytes id)).map fun g => ⟨id, g⟩ := by
  rw [openFile, Mapping.openFile, found]
  show (do return (⟨id, ← check (t.bytes id)⟩ : SharedFile)) = _
  cases check (t.bytes id) <;> rfl

/-- An opened file is the one that its path leads to, with the geometry that was checked. -/
theorem check_of_openFile {file : SharedFile} (h : openFile t path = .ok file) :
    t.find path = .ok file.file ∧ check (t.bytes file.file) = .ok file.geometry := by
  cases hfound : t.find path with
  | error e =>
    rw [openFile, Mapping.openFile, hfound] at h
    cases h
  | ok id =>
    rw [openFile_eq hfound] at h
    cases hcheck : check (t.bytes id) with
    | error e => rw [hcheck] at h; cases h
    | ok g =>
      rw [hcheck] at h
      obtain rfl := Except.ok.inj h
      exact ⟨rfl, hcheck⟩

/-- Once the file system has emptied a file and made it long enough, nothing else can fail. -/
theorem create_eq (opened : t.create path (Bytes.zeros 0) = .ok (id, t₁))
    (grown : t₁.extend id (Header.fileSize g).toNat = .ok t₂) : create t path g
      = (.ok ⟨id, g⟩, t₂.setBytes id ((t₂.bytes id).write 0 (Header.ofGeometry g).encode)) := by
  have hlong : (Header.fileSize g).toNat ≠ 0 := by
    rw [Header.toNat_fileSize, Header.size]; omega
  rw [create, Mapping.create, if_neg hlong, opened]
  simp only [grown]
  rfl

/-- A shared file is never empty. -/
theorem create_ne_emptyMapping (t : FileTree) (path : String) (g : Geometry) :
    (create t path g).1 ≠ .error .emptyMapping := by
  have hlong : (Header.fileSize g).toNat ≠ 0 := by
    rw [Header.toNat_fileSize, Header.size]; omega
  rw [create, Mapping.create, if_neg hlong]
  cases hopened : t.create path (Bytes.zeros 0) with
  | error e => intro h; cases h
  | ok opened =>
    obtain ⟨id, t₁⟩ := opened
    simp only
    cases hgrown : t₁.extend id (Header.fileSize g).toNat with
    | error e => intro h; cases h
    | ok t₂ => intro h; cases h

/-- The bytes of a shared file that was just made. -/
theorem ofList_create {file : SharedFile} (h : create t path g = (.ok file, t')) :
    t'.bytes file.file
      = Bytes.ofList ((Header.ofGeometry g).encode ++ List.replicate g.size.toNat 0) := by
  rw [(bytes_create h).2, Header.toNat_fileSize, ← (Header.ofGeometry g).length_encode]
  exact Bytes.write_grow_zeros _ _

/-- Its path leads to it. -/
theorem find_create {file : SharedFile} (h : create t path g = (.ok file, t')) :
    t'.find path = .ok file.file := by
  obtain ⟨-, t₁, t₂, hopened, hgrown, rfl⟩ := create_cases h
  obtain rfl := FileTree.eq_of_extend hgrown
  rw [FileTree.find_setBytes, FileTree.find_setBytes]
  exact FileTree.find_create hopened

/-- Its header declares the geometry that it was made for. -/
theorem declares_create {file : SharedFile} (h : create t path g = (.ok file, t')) :
    Header.Declares (t'.bytes file.file) g := by
  have hheader : Header.decode (t'.bytes file.file) = Header.ofGeometry g := header_create h
  rw [← Header.declared_decode_iff, hheader]
  exact Header.declared_ofGeometry g

/-- A file that is long enough, with a header that can be believed, is a shared file. -/
theorem openFile_of_declares (found : t.find path = .ok id)
    (hsize : Header.size + g.size.toNat ≤ (t.bytes id).size)
    (declares : Header.Declares (t.bytes id) g) : openFile t path = .ok ⟨id, g⟩ := by
  have hdeclared := (Header.declared_decode_iff _ g).2 declares
  rw [openFile_eq found, (check_eq_ok_iff _ g).2 ⟨hsize, hdeclared⟩]
  rfl

end SharedFile

/-! ## Both directions -/

namespace FileFormat

/-- What opening `path` says about the file `id` that it leads to, whose bytes are `f`. -/
structure Decided (t : FileTree) (path : String) (id : Nat) (f : List UInt8) : Prop where
  /-- just the files that meet all requirements are accepted -/
  accepted_iff : (∃ file, SharedFile.openFile t path = .ok file) ↔ ∀ r ∈ requirements f, r.met
  /-- with the geometry that their header names -/
  geometry_eq : ∀ file, SharedFile.openFile t path = .ok file → file.file = id
    ∧ file.geometry.capacity.toNat = number f 16 4
    ∧ file.geometry.unitSize.toNat = number f 20 4
  /-- all others hold invalid data, and the first requirement that is not met says why -/
  complaint_eq : ∀ e, SharedFile.openFile t path = .error e → e.isInvalidData
    ∧ (firstUnmet f).map (·.complaint) = some e.message

/-- What `SharedFile.create` leaves at `path`, where the file `id` was opened for it. -/
structure Made (t : FileTree) (path : String) (id : Nat) (g : Geometry) (t' : FileTree) : Prop where
  create_eq : SharedFile.create t path g = (.ok ⟨id, g⟩, t')
  /-- a header whose counters are zero, and zeros for the ring -/
  bytes_eq : (t'.bytes id).toList
    = LittleEndian.encode 8 0x52454652494E4742 ++ LittleEndian.encode 8 1
      ++ LittleEndian.encode 4 g.capacity.toNat ++ LittleEndian.encode 4 g.unitSize.toNat
      ++ List.replicate 16 0 ++ List.replicate (g.capacity.toNat * g.unitSize.toNat) 0
  size_eq : (t'.bytes id).size = 40 + g.capacity.toNat * g.unitSize.toNat
  /-- it can be opened again -/
  open_eq : SharedFile.openFile t' path = .ok ⟨id, g⟩

variable {t t₁ t₂ : FileTree} {path : String} {id : Nat} {f : List UInt8} {g : Geometry}

theorem firstUnmet_eq_none_iff : firstUnmet f = none ↔ ∀ r ∈ requirements f, r.met := by
  rw [firstUnmet, List.find?_eq_none]
  simp only [Bool.not_eq_true', Bool.not_eq_false]

theorem decided (found : t.find path = .ok id) (hbytes : t.bytes id = Bytes.ofList f) :
    Decided t path id f := by
  have verdict := check_ofList f
  have hopen := SharedFile.openFile_eq found
  rw [hbytes] at hopen
  cases hcheck : SharedFile.check (Bytes.ofList f) with
  | ok g =>
    rw [hcheck] at verdict hopen
    obtain ⟨hmet, hcapacity, hunit⟩ := verdict
    exact {
      accepted_iff := ⟨fun _ => firstUnmet_eq_none_iff.1 hmet, fun _ => ⟨_, hopen⟩⟩
      geometry_eq := by
        intro file hfile
        obtain rfl := Except.ok.inj (hopen.symm.trans hfile)
        exact ⟨rfl, hcapacity, hunit⟩
      complaint_eq := by
        intro e he
        cases hopen.symm.trans he }
  | error e =>
    rw [hcheck] at verdict hopen
    obtain ⟨hsaid, hkind⟩ := verdict
    exact {
      accepted_iff := by
        constructor
        · rintro ⟨file, hfile⟩
          cases hopen.symm.trans hfile
        · intro hmet
          rw [firstUnmet_eq_none_iff.2 hmet] at hsaid
          cases hsaid
      geometry_eq := by
        intro file hfile
        cases hopen.symm.trans hfile
      complaint_eq := by
        intro e' he'
        obtain rfl := Except.error.inj (hopen.symm.trans he')
        exact ⟨hkind, hsaid⟩ }

/-- The header of an empty ring, written out: its counters are sixteen zero bytes. -/
theorem encode_ofGeometry (g : Geometry) : (Header.ofGeometry g).encode
    = LittleEndian.encode 8 0x52454652494E4742 ++ LittleEndian.encode 8 1
      ++ LittleEndian.encode 4 g.capacity.toNat ++ LittleEndian.encode 4 g.unitSize.toNat
      ++ List.replicate 16 0 := by
  have hcounters : LittleEndian.encode 4 (Header.ofGeometry g).head.toNat
      ++ (LittleEndian.encode 4 (Header.ofGeometry g).tail.toNat
        ++ LittleEndian.encode 8 (Header.ofGeometry g).signal.toNat) = List.replicate 16 0 := by
    show LittleEndian.encode 4 0 ++ (LittleEndian.encode 4 0 ++ LittleEndian.encode 8 0) = _
    decide
  rw [Header.encode, List.append_assoc _ _ (LittleEndian.encode 8 _), List.append_assoc, hcounters,
    show (Header.ofGeometry g).magic.toNat = 0x52454652494E4742 from rfl,
    show (Header.ofGeometry g).version.toNat = 1 from rfl]
  rfl

theorem made (opened : t.create path (Bytes.zeros 0) = .ok (id, t₁))
    (grown : t₁.extend id (Header.fileSize g).toNat = .ok t₂) : ∃ t', Made t path id g t' := by
  have hcreate := SharedFile.create_eq opened grown
  have hfound := SharedFile.find_create hcreate
  have hbytes := SharedFile.ofList_create hcreate
  have declares := SharedFile.declares_create hcreate
  have hlen : ((Header.ofGeometry g).encode ++ List.replicate g.size.toNat 0).length
      = Header.size + g.size.toNat := by
    rw [List.length_append, Header.length_encode, List.length_replicate]
  exact ⟨_, {
    create_eq := hcreate
    bytes_eq := by rw [hbytes, Bytes.toList_ofList, encode_ofGeometry, Geometry.toNat_size]
    size_eq := by rw [hbytes, Bytes.size_ofList, hlen, Geometry.toNat_size]; rfl
    open_eq := SharedFile.openFile_of_declares hfound
      (by rw [hbytes, Bytes.size_ofList, hlen]) declares }⟩

/-- **The format of a shared file.**  Opening a file is decided by the first requirement that its
    bytes do not meet, whatever they are; it gives no tree back, so it leaves all files as they are.
    Making one, over whatever the tree held before, leaves an empty ring that opens with just its
    geometry, if the file system empties the file and makes it long enough.  It never asks for an
    empty file, and its length is the exact sum, which no word is too short for. -/
theorem format_accepted_exactly :
    (∀ (t : FileTree) (path : String) (id : Nat) (f : List UInt8),
        t.find path = .ok id → t.bytes id = Bytes.ofList f → Decided t path id f)
      ∧ (∀ (t : FileTree) (path : String) (g : Geometry) (id : Nat) (t₁ t₂ : FileTree),
          t.create path (Bytes.zeros 0) = .ok (id, t₁) →
          t₁.extend id (Header.fileSize g).toNat = .ok t₂ → ∃ t', Made t path id g t')
      ∧ (∀ (t : FileTree) (path : String) (g : Geometry),
          (SharedFile.create t path g).1 ≠ .error .emptyMapping)
      ∧ ∀ g : Geometry, (Header.fileSize g).toNat = 40 + g.capacity.toNat * g.unitSize.toNat :=
  ⟨fun _ _ _ _ found hbytes => decided found hbytes,
    fun _ _ _ _ _ _ opened grown => made opened grown,
    SharedFile.create_ne_emptyMapping,
    fun g => by rw [Header.toNat_fileSize, Geometry.toNat_size]; rfl⟩

/-- A file is made for the small ring, and a file of eight zero bytes is decided upon. -/
theorem format_accepted_exactly_small :
    (∃ t', Made .initial "ring" 0 Ring.small.geometry t')
      ∧ ∃ t, Decided t "ring" 0 (List.replicate 8 0)
        ∧ SharedFile.openFile t "ring" = .error .headerTooShort := by
  obtain ⟨decided, made, -, -⟩ := format_accepted_exactly
  have opened := FileTree.create_initial (Bytes.ofList (List.replicate 8 0))
  have found := FileTree.find_create opened
  have hbytes := FileTree.bytes_create opened
  refine ⟨made .initial "ring" _ 0 _ _ (FileTree.create_initial _) rfl, _,
    decided _ "ring" 0 _ found hbytes, ?_⟩
  rw [SharedFile.openFile_eq found, hbytes]
  rfl

end FileFormat

end SharedRing
