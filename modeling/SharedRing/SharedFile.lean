/-
  Rings that live in a file.

  A file is mapped as a whole, and a mapping keeps the length that the file had then.  On top of a
  mapping lies the ring: its header first, its bytes behind it.  Creating a shared ring writes both
  afresh; opening one believes nothing before it is checked, and remembers the geometry that it has
  checked.  The ring that is bound later reads its geometry from the header once more, but its region
  is the one that was checked: a header that changes in between can make the ring unusable, never
  larger than the file.
-/
import SharedRing.FileTree
import SharedRing.Header

namespace SharedRing

/-! ## What can go wrong -/

/-- The causes for which a file cannot be mapped or holds no ring. -/
inductive ShareError where
  | file (error : FileError)
  | emptyMapping
  | headerTooShort
  | badHeader (error : Refusal)
  | dataTooShort
deriving DecidableEq, Repr

def ShareError.message : ShareError → String
  | .file error => error.message
  | .emptyMapping => "cannot map an empty file"
  | .headerTooShort => "file too small for ring header"
  | .badHeader error => error.message
  | .dataTooShort => "file too small for declared ring capacity"

/-- Whether a cause lies in what a file holds: invalid data, and not a file that is not there or
    cannot be used. -/
def ShareError.isInvalidData : ShareError → Bool
  | .headerTooShort | .badHeader _ | .dataTooShort => true
  | .file _ | .emptyMapping => false

/-- A complaint of the file system, as a cause for a ring. -/
def FileTree.forSharing : Except FileError α → Except ShareError α
  | .ok a => .ok a
  | .error e => .error (.file e)

/-! ## Mappings -/

/-- A mapped file.  The length is the one that the file had when it was mapped. -/
structure Mapping where
  file : Nat
  len : Nat
  path : String
deriving DecidableEq, Repr

namespace Mapping

/-- Makes a file of `len` zero bytes, whatever it held before, and maps it.  Where no file can be so
    long an empty one is left. -/
def create (t : FileTree) (path : String) (len : Nat) : Except ShareError Mapping × FileTree :=
  if len = 0 then (.error .emptyMapping, t)
  else match t.create path (Bytes.zeros 0) with
    | .error e => (.error (.file e), t)
    | .ok (file, t) => match t.extend file len with
      | .error e => (.error (.file e), t)
      | .ok t => (.ok ⟨file, len, path⟩, t)

/-- Maps a file that is there. -/
def openFile (t : FileTree) (path : String) : Except ShareError Mapping := do
  let file ← FileTree.forSharing (t.find path)
  return ⟨file, (t.bytes file).size, path⟩

def isEmpty (mp : Mapping) : Bool := mp.len == 0

/-- Some of the mapped bytes. -/
def read (mp : Mapping) (t : FileTree) (pos len : Nat) : List UInt8 :=
  (t.bytes mp.file).read pos len

/-- Writes some of the mapped bytes. -/
def write (mp : Mapping) (t : FileTree) (pos : Nat) (data : List UInt8) : FileTree :=
  t.setBytes mp.file ((t.bytes mp.file).write pos data)

end Mapping

/-! ## Shared rings -/

/-- A mapped file that holds a ring, and the geometry it was checked against. -/
structure SharedFile where
  file : Nat
  geometry : Geometry
deriving DecidableEq

namespace SharedFile

/-- Makes a file that holds an empty ring. -/
def create (t : FileTree) (path : String) (g : Geometry) : Except ShareError SharedFile × FileTree :=
  match Mapping.create t path (Header.fileSize g).toNat with
  | (.error e, t) => (.error e, t)
  | (.ok mp, t) => (.ok ⟨mp.file, g⟩, mp.write t 0 (Header.ofGeometry g).encode)

/-- The geometry of the ring that some bytes hold, if they hold one: a whole header, one that can be
    believed, and all the bytes that it declares. -/
def check (b : Bytes) : Except ShareError Geometry :=
  if b.size < Header.size then .error .headerTooShort
  else match (Header.decode b).declared with
    | .error e => .error (.badHeader e)
    | .ok g => if b.size < (Header.fileSize g).toNat then .error .dataTooShort else .ok g

/-- Opens a file that holds a ring. -/
def openFile (t : FileTree) (path : String) : Except ShareError SharedFile := do
  let mp ← Mapping.openFile t path
  return ⟨mp.file, ← check (t.bytes mp.file)⟩

/-- The header as it stands in the file now. -/
def header (s : SharedFile) (t : FileTree) : Header := Header.decode (t.bytes s.file)

/-- Where the ring's bytes lie in the file: as many as were checked. -/
def region (s : SharedFile) : Region := ⟨Header.size, s.geometry.size.toNat⟩

/-- A ring over this file, with the geometry that its header declares now. -/
def ring (s : SharedFile) (t : FileTree) : Except ShareError Ring :=
  match (s.header t).ringOver s.region with
  | .ok ring => .ok ring
  | .error e => .error (.badHeader e)

/-! ## Working on the file -/

/-- Lets something happen to the memory that rings over this file see, and keeps what it did. -/
def update (s : SharedFile) (t : FileTree) (f : Memory → α × Memory) : α × FileTree :=
  let (a, m) := f (Memory.ofFile (t.bytes s.file))
  (a, t.setBytes s.file m.toFile)

end SharedFile

end SharedRing
