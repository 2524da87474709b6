/-
  A tree of files, as far as rings and their settings need one.

  A directory entry names a file by number and the contents are kept under that number, because the
  two live separately: a mapping holds on to the file it was made from when its name is removed, and
  sees the new contents when somebody writes the file again under the same name.

  Paths are walked the usual way, one name after the other from the working directory or from the
  root.  Every name but the last must be a directory; what the last may be depends on the operation.
-/
import SharedRing.Memory

namespace SharedRing

/-! ## What can go wrong -/

/-- The complaints of a file system. -/
inductive FileError where
  | notFound
  | alreadyExists
  | isDirectory
  | notDirectory
  | nameTooLong
  | nulInName
  /-- a file cannot hold so many bytes -/
  | tooLarge
  /-- no word of the system is so large a place in a file -/
  | badOffset
  /-- no word of the system is so large a length -/
  | badLength
  /-- a real file system may complain of more than the trees below ever do -/
  | denied
  | other (text : String)
deriving DecidableEq, Repr

def FileError.message : FileError → String
  | .notFound => "No such file or directory (os error 2)"
  | .alreadyExists => "File exists (os error 17)"
  | .isDirectory => "Is a directory (os error 21)"
  | .notDirectory => "Not a directory (os error 20)"
  | .nameTooLong => "File name too long (os error 36)"
  | .nulInName => "file name contained an unexpected NUL byte"
  | .tooLarge => "File too large (os error 27)"
  | .badOffset => "Invalid argument (os error 22)"
  | .badLength => "out of range integral type conversion attempted"
  | .denied => "Permission denied (os error 13)"
  | .other text => text

/-! ## Trees -/

/-- What a name stands for. -/
inductive Node where
  | directory
  | file (id : Nat)
deriving DecidableEq, Repr

/-- All names from the root down to a place. -/
abbrev Location := List String

/-- Named nodes, the contents of the files, and where relative paths begin. -/
structure FileTree where
  nodes : List (Location × Node)
  contents : Cells Bytes
  workingDirectory : Location

namespace FileTree

/-- A root with a directory for temporary files, and an empty working directory in that. -/
def initial : FileTree where
  nodes := [([], .directory), (["tmp"], .directory), (["tmp", "work"], .directory)]
  contents := []
  workingDirectory := ["tmp", "work"]

def lookup (t : FileTree) (place : Location) : Option Node := t.nodes.lookup place

/-- The contents of a file. -/
def bytes (t : FileTree) (id : Nat) : Bytes := t.contents.load id

/-- Replaces the contents of a file. -/
def setBytes (t : FileTree) (id : Nat) (b : Bytes) : FileTree :=
  { t with contents := t.contents.store id b }

/-- The names in the working directory, sorted. -/
def list (t : FileTree) : List String :=
  (t.nodes.filterMap fun (place, _) =>
    if place.dropLast = t.workingDirectory && place ≠ [] then place.getLast? else none).mergeSort

/-! ## Paths -/

/-- The longest path and the longest name, in bytes. -/
def maxPathBytes : Nat := 4095

def maxNameBytes : Nat := 255

/-- Where one name leads from a directory. -/
def child (place : Location) : String → Location
  | "." => place
  | ".." => place.dropLast
  | name => place ++ [name]

/-- Goes one directory further. -/
def enter (t : FileTree) (place : Location) (name : String) : Except FileError Location :=
  if name.utf8ByteSize > maxNameBytes then .error .nameTooLong
  else match t.lookup (child place name) with
    | some .directory => .ok (child place name)
    | some (.file _) => .error .notDirectory
    | none => .error .notFound

/-- A path that was followed up to its last name: the directory that it has led to, that name if there
    is one, and whether the path ends in a slash and so asks for a directory. -/
structure Approach where
  parent : Location
  last : Option String
  slash : Bool

/-- Follows a path up to its last name. -/
def approach (t : FileTree) (path : String) : Except FileError Approach := do
  if path.toList.contains (Char.ofNat 0) then throw .nulInName
  if path.isEmpty then throw .notFound
  if path.utf8ByteSize > maxPathBytes then throw .nameTooLong
  let names := (path.splitOn "/").filter fun name => !name.isEmpty
  let start := if path.startsWith "/" then [] else t.workingDirectory
  return {
    parent := ← names.dropLast.foldlM t.enter start
    last := names.getLast?
    slash := path.endsWith "/" }

/-- Where a path leads, and what is there. -/
structure Resolved where
  place : Location
  node : Option Node
  slash : Bool

/-- Looks for the last name, which need not exist but must not be too long. -/
def arrive (t : FileTree) (a : Approach) : Except FileError Resolved :=
  match a.last with
  | none => .ok ⟨a.parent, t.lookup a.parent, a.slash⟩
  | some last =>
    if last.utf8ByteSize > maxNameBytes then .error .nameTooLong
    else .ok ⟨child a.parent last, t.lookup (child a.parent last), a.slash⟩

/-- Follows a path to its end. -/
def resolve (t : FileTree) (path : String) : Except FileError Resolved := do
  t.arrive (← t.approach path)

/-! ## Operations -/

/-- The longest file, in bytes. -/
def maxFileBytes : Nat := 0xFFFFFFFF000

/-- Places and lengths are signed words to the system: the first number that is no such word. -/
def offsetLimit : Nat := 0x8000000000000000

/-- Opens a file that is there. -/
def find (t : FileTree) (path : String) : Except FileError Nat := do
  let target ← t.resolve path
  match target.node with
  | none => throw .notFound
  | some .directory => throw .isDirectory
  | some (.file id) => if target.slash then throw .notDirectory else return id

/-- Opens a file for new contents: an existing one loses what it held but stays the same file.  A
    path that asks for a directory is refused before its last name is looked at. -/
def create (t : FileTree) (path : String) (b : Bytes) : Except FileError (Nat × FileTree) := do
  let approach ← t.approach path
  if approach.slash then throw .isDirectory
  let target ← t.arrive approach
  match target.node with
  | some .directory => throw .isDirectory
  | some (.file id) => return (id, t.setBytes id b)
  | none =>
    let id := t.contents.length
    return (id, { t with
      nodes := t.nodes ++ [(target.place, .file id)], contents := t.contents.store id b })

/-- The contents of a file. -/
def read (t : FileTree) (path : String) : Except FileError Bytes := do
  return t.bytes (← t.find path)

/-- Makes a file as long as `len` bytes; what is new is zero. -/
def extend (t : FileTree) (id len : Nat) : Except FileError FileTree :=
  if offsetLimit ≤ len then .error .badLength
  else if maxFileBytes < len then .error .tooLarge
  else .ok (t.setBytes id ((t.bytes id).grow len))

/-- Writes over part of a file, which grows if it is too short.  No bytes can be written anywhere. -/
def overwrite (t : FileTree) (path : String) (pos : Nat) (data : List UInt8) :
    Except FileError FileTree := do
  let id ← t.find path
  let stop := pos + data.length
  if data.isEmpty then return t
  if offsetLimit ≤ stop then throw .badOffset
  if maxFileBytes < stop then throw .tooLarge
  return t.setBytes id (((t.bytes id).grow stop).write pos data)

/-- Removes the name of a file. -/
def remove (t : FileTree) (path : String) : Except FileError FileTree := do
  let target ← t.resolve path
  match target.node with
  | none => throw .notFound
  | some .directory => throw .isDirectory
  | some (.file _) =>
    if target.slash then throw .notDirectory
    return { t with nodes := t.nodes.filter fun entry => entry.1 ≠ target.place }

/-- Makes an empty directory. -/
def makeDirectory (t : FileTree) (path : String) : Except FileError FileTree := do
  let target ← t.resolve path
  match target.node with
  | some _ => throw .alreadyExists
  | none => return { t with nodes := t.nodes ++ [(target.place, .directory)] }

end FileTree

end SharedRing
