/-
  A header that was written is read back, and a file that was just made holds an empty ring.

  Reading undoes writing byte by byte (`Bytes.read_write`), so each field of a header is found where
  it was put (`Header.decode_write_encode`), and the header of a geometry declares that geometry
  (`Header.declared_ofGeometry`).  A shared file that could be made is thus as long as its ring and
  its header, its counters are zero, and the ring over it splits into halves with two counters and a
  signal of their own (`SharedFile.halves_create`).
-/
import SharedRing.Proofs.Unread
import SharedRing.SharedFile

namespace SharedRing

namespace Bytes

/-- What was written is read back. -/
theorem read_write (m : Bytes) (pos : Nat) (bs : List UInt8) {i n : Nat}
    (hsize : pos + bs.length ≤ m.size) (hi : i + n ≤ bs.length) :
    (m.write pos bs).read (pos + i) n = (bs.drop i).take n := by
  apply List.ext_getElem
  · rw [length_read, List.length_take, List.length_drop]; omega
  · intro k hk hk'
    rw [length_read] at hk
    have hin : pos ≤ pos + i + k ∧ pos + i + k < pos + bs.length := by omega
    simp only [read, List.getElem_map, List.getElem_range]
    rw [byte_write m pos _ bs hsize, if_pos hin, List.getElem_take, List.getElem_drop,
      show pos + i + k - pos = i + k from by omega, List.getD_eq_getElem?_getD,
      List.getElem?_eq_getElem (by omega)]
    rfl

end Bytes

namespace LittleEndian

theorem decode_encode (width n : Nat) : decode (encode width n) = n % 256 ^ width := by
  induction width generalizing n with
  | zero => rw [encode, decode, Nat.pow_zero, Nat.mod_one]
  | succ width ih =>
    have split : n % (256 * 256 ^ width) = n % 256 + 256 * (n / 256 % 256 ^ width) := Nat.mod_mul
    rw [encode, decode, ih, UInt8.toNat_ofNat', show 256 ^ (width + 1) = 256 * 256 ^ width from
      Nat.pow_succ', split]

/-- A number that was written is read back, if it fits. -/
theorem decode_encode_of_lt {width n : Nat} (h : n < 256 ^ width) :
    decode (encode width n) = n := by
  rw [decode_encode]; exact Nat.mod_eq_of_lt h

theorem decode_lt (bs : List UInt8) : decode bs < 256 ^ bs.length := by
  induction bs with
  | nil => exact Nat.one_pos
  | cons b rest ih =>
    have hb : b.toNat < 256 := b.toNat_lt
    rw [decode, List.length_cons, Nat.pow_succ']
    omega

end LittleEndian

namespace Header

/-- **A header is read back as it was written.** -/
theorem decode_write_encode (h : Header) (b : Bytes) (hsize : size ≤ b.size) :
    decode (b.write 0 h.encode) = h := by
  have hlen : h.encode.length = 40 := h.length_encode
  have hread : ∀ i n, i + n ≤ 40 →
      (b.write 0 h.encode).read i n = (h.encode.drop i).take n := fun i n hi => by
    have := b.read_write 0 h.encode (i := i) (n := n) (by rw [hlen, Nat.zero_add]; exact hsize)
      (by rw [hlen]; exact hi)
    rwa [Nat.zero_add] at this
  -- each field lies where the fields before it end, and fits its width
  obtain ⟨magic, version, capacity, unitSize, head, tail, signal⟩ := h
  have h8 : ∀ w : UInt64, LittleEndian.decode (LittleEndian.encode 8 w.toNat) = w.toNat :=
    fun w => LittleEndian.decode_encode_of_lt w.toNat_lt
  have h4 : ∀ w : UInt32, LittleEndian.decode (LittleEndian.encode 4 w.toNat) = w.toNat :=
    fun w => LittleEndian.decode_encode_of_lt w.toNat_lt
  have hdrop : ∀ width k n, width ≤ k → (LittleEndian.encode width n).drop k = [] :=
    fun width k n hk => List.drop_of_length_le (by rw [LittleEndian.length_encode]; exact hk)
  have htake : ∀ width n, (LittleEndian.encode width n).take width = LittleEndian.encode width n :=
    fun width n => List.take_of_length_le (Nat.le_of_eq (LittleEndian.length_encode width n))
  unfold decode
  rw [hread 0 8 (by decide), hread 8 8 (by decide), hread 16 4 (by decide), hread 20 4 (by decide),
    hread 24 4 (by decide), hread 28 4 (by decide), hread 32 8 (by decide)]
  simp [encode, List.drop_append, hdrop, htake, h8, h4]

/-- The header of a geometry declares it. -/
theorem declared_ofGeometry (g : Geometry) : (ofGeometry g).declared = .ok g := by
  have hnumbers : Geometry.ofNumbers g.capacity g.unitSize = .ok g := by
    rw [Geometry.ofNumbers, Geometry.ofCapacity, Geometry.resize,
      dif_pos g.capacity_isPowerOfTwo]
    show Geometry.rescale _ g.unitSize = _
    rw [Geometry.rescale, dif_pos g.unitSize_ne_zero]
  rw [declared, if_neg (fun hne => hne rfl), if_neg (fun hne => hne rfl)]
  exact hnumbers

/-- A header and the largest ring behind it have a length that a word can hold. -/
theorem toNat_fileSize (g : Geometry) : (fileSize g).toNat = size + g.size.toNat := by
  have hsize := g.toNat_size_lt
  rw [fileSize, UInt64.toNat_add]
  exact Nat.mod_eq_of_lt (by show 40 + g.size.toNat < 2 ^ 64; omega)

end Header

/-! ## A file that was just made -/

namespace FileTree

theorem bytes_setBytes (t : FileTree) (id : Nat) (b : Bytes) : (t.setBytes id b).bytes id = b :=
  Cells.load_store_self _ _ _

/-- What opening for new contents does: the name is there and its file is emptied, or it is not and a
    file is made for it. -/
theorem create_cases {t t' : FileTree} {path : String} {b : Bytes} {id : Nat}
    (h : t.create path b = .ok (id, t')) :
    ∃ approach target, t.approach path = .ok approach ∧ approach.slash = false
      ∧ t.arrive approach = .ok target
      ∧ (target.node = some (.file id) ∧ t' = t.setBytes id b
        ∨ target.node = none ∧ id = t.contents.length ∧ t' = { t with
            nodes := t.nodes ++ [(target.place, .file id)], contents := t.contents.store id b }) := by
  unfold create at h
  -- every other branch is a failure
  cases ha : t.approach path with
  | error e => rw [ha] at h; nomatch h
  | ok approach =>
    rw [ha] at h
    simp only [bind, Except.bind] at h
    split at h
    · nomatch h
    · rename_i hslash
      cases htarget : t.arrive approach with
      | error e => rw [htarget] at h; nomatch h
      | ok target =>
        rw [htarget] at h
        simp only at h
        refine ⟨approach, target, rfl, Bool.eq_false_iff.2 hslash, htarget, ?_⟩
        split at h
        · nomatch h
        · rename_i hnode
          obtain ⟨rfl, rfl⟩ := Prod.mk.inj (Except.ok.inj h)
          exact .inl ⟨hnode, rfl⟩
        · rename_i hnode
          obtain ⟨rfl, rfl⟩ := Prod.mk.inj (Except.ok.inj h)
          exact .inr ⟨hnode, rfl, rfl⟩

/-- A file that was opened for new contents holds them. -/
theorem bytes_create {t t' : FileTree} {path : String} {b : Bytes} {id : Nat}
    (h : t.create path b = .ok (id, t')) : t'.bytes id = b := by
  obtain ⟨-, -, -, -, -, ⟨-, rfl⟩ | ⟨-, -, rfl⟩⟩ := create_cases h
  · exact bytes_setBytes _ _ _
  · exact Cells.load_store_self _ _ _

/-- A file that could be made longer has been. -/
theorem eq_of_extend {t t' : FileTree} {id len : Nat} (h : t.extend id len = .ok t') :
    t' = t.setBytes id ((t.bytes id).grow len) := by
  unfold extend at h
  split at h
  · nomatch h
  · split at h
    · nomatch h
    · exact (Except.ok.inj h).symm

end FileTree

/-- What making a mapping does: a file is opened for new contents and made as long as asked for. -/
theorem Mapping.create_cases {t t' : FileTree} {path : String} {len : Nat} {mp : Mapping}
    (h : create t path len = (.ok mp, t')) :
    ∃ t₁, t.create path (Bytes.zeros 0) = .ok (mp.file, t₁) ∧ t₁.extend mp.file len = .ok t' := by
  unfold create at h
  split at h
  · nomatch h
  · cases hcreate : t.create path (Bytes.zeros 0) with
    | error e => rw [hcreate] at h; nomatch h
    | ok made =>
      obtain ⟨file, t₁⟩ := made
      rw [hcreate] at h
      simp only at h
      cases hextend : t₁.extend file len with
      | error e => rw [hextend] at h; nomatch h
      | ok t₂ =>
        rw [hextend] at h
        obtain ⟨hmp, rfl⟩ := Prod.mk.inj h
        obtain rfl := Except.ok.inj hmp
        exact ⟨t₁, rfl, hextend⟩

namespace SharedFile

variable {t t' : FileTree} {path : String} {g : Geometry} {file : SharedFile}

/-- What making a shared file does: a mapping is made, and the header written to it. -/
theorem create_cases (h : create t path g = (.ok file, t')) : file.geometry = g
    ∧ ∃ t₁ t₂, t.create path (Bytes.zeros 0) = .ok (file.file, t₁)
      ∧ t₁.extend file.file (Header.fileSize g).toNat = .ok t₂
      ∧ t' = t₂.setBytes file.file ((t₂.bytes file.file).write 0 (Header.ofGeometry g).encode) := by
  unfold create at h
  cases hmap : Mapping.create t path (Header.fileSize g).toNat with
  | mk outcome t₂ =>
    rw [hmap] at h
    cases outcome with
    | error e => nomatch h
    | ok mp =>
      obtain ⟨hfile, rfl⟩ := Prod.mk.inj h
      obtain rfl := Except.ok.inj hfile
      obtain ⟨t₁, hopened, hgrown⟩ := Mapping.create_cases hmap
      exact ⟨rfl, t₁, t₂, hopened, hgrown, rfl⟩

/-- A shared file that was just made: a header, and zero bytes behind it. -/
theorem bytes_create (h : create t path g = (.ok file, t')) : file.geometry = g
    ∧ t'.bytes file.file
      = ((Bytes.zeros 0).grow (Header.fileSize g).toNat).write 0 (Header.ofGeometry g).encode := by
  obtain ⟨hgeometry, t₁, t₂, hopened, hgrown, rfl⟩ := create_cases h
  refine ⟨hgeometry, ?_⟩
  rw [FileTree.bytes_setBytes, FileTree.eq_of_extend hgrown, FileTree.bytes_setBytes,
    FileTree.bytes_create hopened]

/-- The halves of the ring in a shared file. -/
def halves (file : SharedFile) : Halves where
  geometry := file.geometry
  region := file.region
  head := 0
  tail := 1
  signal := some 0

theorem header_create (h : create t path g = (.ok file, t')) :
    file.header t' = Header.ofGeometry g := by
  have hsize : Header.size ≤ ((Bytes.zeros 0).grow (Header.fileSize g).toNat).size := by
    rw [Bytes.size_grow, Header.toNat_fileSize]; omega
  rw [header, (bytes_create h).2]
  exact Header.decode_write_encode _ _ hsize

/-- **The ring in a file that was just made can be split**, and its halves are bound to the counters
    of the header. -/
theorem halves_create (h : create t path g = (.ok file, t')) :
    ∃ ring, file.ring t' = .ok ring ∧ ring.halves = .ok file.halves := by
  obtain ⟨hgeometry, -⟩ := bytes_create h
  have hring : file.ring t' = .ok
      { geometry := g, region := some file.region, head := some 0, tail := some 1
        signal := some 0 } := by
    rw [ring, header_create h, Header.ringOver, Header.declared_ofGeometry]
    rfl
  refine ⟨_, hring, ?_⟩
  have hlong : ¬ file.region.len < g.size.toNat := by
    rw [region, hgeometry]; exact Nat.lt_irrefl _
  unfold Ring.halves
  simp only [Ring.counters, Ring.bound, bind, Except.bind, pure, Except.pure, if_neg hlong, halves,
    hgeometry]

/-- Nothing waits in it, and both counters are zero. -/
theorem empty_create (h : create t path g = (.ok file, t')) :
    let m := Memory.ofFile (t'.bytes file.file)
    file.halves.headCount m = 0 ∧ file.halves.tailCount m = 0 ∧ file.halves.InOrder m := by
  intro m
  have hhead : file.halves.headCount m = 0 := congrArg Header.head (header_create h)
  have htail : file.halves.tailCount m = 0 := congrArg Header.tail (header_create h)
  obtain ⟨hgeometry, hbytes⟩ := bytes_create h
  refine ⟨hhead, htail, Nat.le_refl _, ?_, Nat.zero_ne_one, ?_⟩
  · show Header.size + file.geometry.size.toNat ≤ (t'.bytes file.file).size
    rw [hbytes, hgeometry, Bytes.size_write, Bytes.size_grow, Header.toNat_fileSize]
    exact Nat.le_max_right _ _
  · rw [Halves.occupied, hhead, htail]
    exact Nat.zero_le _

end SharedFile

end SharedRing
