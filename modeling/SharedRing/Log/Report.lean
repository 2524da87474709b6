/-
  What each operation reports to the log.

  An event depends on what was asked and on what came of it, and on nothing else; so the operations
  themselves are silent, and this file says for each of them which events its outcome gives.  An
  operation that is built from others reports what they report, in order.
-/
import SharedRing.Log.Event
import SharedRing.SharedFile

namespace SharedRing.Report

/-! ## Geometry -/

def resize (value : UInt32) : Except Refusal Geometry → List Event
  | .ok g => [⟨.debug, .config, "ring capacity set",
      [("capacity_units", toString value), ("capacity_bytes", toString g.size)]⟩]
  | .error _ => [⟨.warn, .config, "rejected ring capacity, must be a power of 2",
      [("value", toString value)]⟩]

/-- A refused unit size is not worth an event. -/
def rescale (value : UInt32) : Except Refusal Geometry → List Event
  | .ok g => [⟨.debug, .config, "ring scale set",
      [("scale", toString value), ("capacity_bytes", toString g.size)]⟩]
  | .error _ => []

/-- Both numbers, the capacity first; the unit size is not tried after a refused capacity. -/
def ofNumbers (capacity unitSize : UInt32) : List Event :=
  let first := Geometry.ofCapacity capacity
  resize capacity first ++ match first with
    | .ok g => rescale unitSize (g.rescale unitSize)
    | .error _ => []

/-! ## Rings -/

def useRegion (region : Region) : List Event :=
  [⟨.debug, .ring, "bound ring region", [("len", toString region.len)]⟩]

def halves : Except Refusal Halves → List Event
  | .ok h => [⟨.debug, .ring, "ring split into writer and reader",
      [("capacity_units", toString h.geometry.capacity),
        ("scale", toString h.geometry.unitSize), ("region_len", toString h.region.len)]⟩]
  | .error _ => []

/-- The length is the one that was asked for, also where the region is shorter. -/
def dump (len : Nat) : Except Refusal String → List Event
  | .ok text => [⟨.debug, .ring, "ring region dump", [("len", toString len), ("dump", text)]⟩]
  | .error _ => []

/-! ## Headers and files -/

/-- A header that is one, of a known version, has its geometry rebuilt. -/
def declared (h : Header) : List Event :=
  if h.magic = Header.mark ∧ h.version = Header.layoutVersion then
    ofNumbers h.capacity h.unitSize
  else []

/-- A ring over a header's counters: the header is looked at, and the data is bound. -/
def ringOver (h : Header) (data : Region) : List Event :=
  declared h ++ match h.declared with
    | .ok g => ⟨.debug, .header, "attaching ring to shared header",
        [("capacity_units", toString g.capacity), ("scale", toString g.unitSize),
          ("data_len", toString data.len)]⟩ :: useRegion data
    | .error _ => []

def create (path : String) (g : Geometry) : Except ShareError α → List Event
  | .ok _ => [⟨.info, .sharedFile, "created shared ring",
      [("path", path), ("capacity_units", toString g.capacity),
        ("scale", toString g.unitSize), ("bytes", toString (Header.fileSize g))]⟩]
  | .error _ => []

/-- A file with room for a header has it looked at, whatever comes of it. -/
def openFile (t : FileTree) (path : String) : List Event :=
  match t.find path with
  | .error _ => []
  | .ok id =>
    if (t.bytes id).size < Header.size then []
    else declared (Header.decode (t.bytes id)) ++ match SharedFile.check (t.bytes id) with
      | .ok g => [⟨.info, .sharedFile, "opened shared ring",
          [("path", path), ("capacity_units", toString g.capacity),
            ("scale", toString g.unitSize)]⟩]
      | .error _ => []

/-- A ring over a shared file uses the header that stands there now. -/
def ring (s : SharedFile) (t : FileTree) : List Event := ringOver (s.header t) s.region

end SharedRing.Report
