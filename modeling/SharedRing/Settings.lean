/-
  The settings of a loopback run.

  Settings come from a flat TOML document.  Every setting has a default, so a document only says what
  differs; but it may say nothing that is no setting, and nothing of a wrong kind or out of range.
  All that is a fault of the document, found before any value is judged.  Only then are the values
  checked, in a fixed order, and the first that is impossible is reported.
-/
import SharedRing.FileTree
import SharedRing.Toml.Document

namespace SharedRing

/-! ## What can go wrong -/

/-- The settings whose values can be impossible, in the order in which they are checked. -/
inductive Setting where
  | capacity
  | unitSize
  | messageBytes
  | noticeFraction
deriving DecidableEq, Repr

def Setting.name : Setting → String
  | .capacity => "capacity_units"
  | .unitSize => "scale"
  | .messageBytes => "message_size"
  | .noticeFraction => "notify_fraction"

/-- What a setting has to be. -/
def Setting.demand : Setting → String
  | .capacity => "must be a power of 2"
  | .unitSize => "must be non-zero"
  | .messageBytes => "must be non-zero"
  | .noticeFraction => "must be in (0, 1]"

/-- Why a file could not be read as text. -/
inductive ReadError where
  | file (error : FileError)
  | notText
deriving DecidableEq, Repr

def ReadError.message : ReadError → String
  | .file error => error.message
  | .notText => "stream did not contain valid UTF-8"

/-- Why there are no settings. -/
inductive SettingsError where
  | unreadable (path : String) (cause : ReadError)
  | malformed
  | impossible (setting : Setting)
deriving DecidableEq, Repr

def SettingsError.message : SettingsError → String
  | .unreadable path _ => s!"failed to read '{path}'"
  | .malformed => "failed to parse config"
  | .impossible setting => s!"invalid {setting.name}: {setting.demand}"

/-! ## Settings -/

/-- What a run is told. -/
structure Settings where
  /-- the file that holds the ring -/
  path : String := "/tmp/refring_loopback"
  /-- what is logged -/
  logging : String := "info"
  capacity : UInt32 := 65536
  /-- bytes per unit -/
  unitSize : UInt32 := 1
  /-- bytes that the producer offers at a time -/
  messageBytes : UInt64 := 64
  /-- how long the producer goes on -/
  milliseconds : UInt64 := 3000
  /-- the part of the ring that is to be freed before the peer is notified -/
  noticeFraction : Float := 0.5
deriving BEq

namespace Settings

instance : Inhabited Settings := ⟨{}⟩

/-- The length of the ring in bytes. -/
def size (s : Settings) : UInt64 := s.capacity.toUInt64 * s.unitSize.toUInt64

/-- The freed bytes at which the peer is notified: that part of the ring, rounded down, and at least
    one byte. -/
def noticeThreshold (s : Settings) : UInt64 :=
  max (s.size.toFloat * s.noticeFraction).toUInt64 1

/-- The first setting that cannot be, if there is one. -/
def firstFault (s : Settings) : Option Setting :=
  if ¬ s.capacity.toNat.isPowerOfTwo then some .capacity
  else if s.unitSize = 0 then some .unitSize
  else if s.messageBytes = 0 then some .messageBytes
  else if !(s.noticeFraction > 0.0 && s.noticeFraction ≤ 1.0) then some .noticeFraction
  else none

/-- The verdict on the values. -/
def check (s : Settings) : Except SettingsError Unit :=
  match s.firstFault with
  | some fault => .error (.impossible fault)
  | none => .ok ()

end Settings

/-! ## From a document -/

namespace Toml.Value

/-- The value as text. -/
def text? : Value → Option String
  | .text s => some s
  | _ => none

/-- The value as a natural number below a bound. -/
def below? (bound : Nat) : Value → Option Nat
  | .integer n => if 0 ≤ n && n < bound then some n.toNat else none
  | _ => none

def word32? (v : Value) : Option UInt32 := UInt32.ofNat <$> v.below? UInt32.size

def word64? (v : Value) : Option UInt64 := UInt64.ofNat <$> v.below? UInt64.size

/-- The value as a fraction.  An integer will do if it is one that a machine word can hold, with a
    sign or without. -/
def real? : Value → Option Float
  | .real x => some x
  | .integer n => if -0x8000000000000000 ≤ n && n < 0x10000000000000000 then some (Float.ofInt n) else none
  | _ => none

end Toml.Value

namespace Settings

/-- Settings with one of them replaced.  There is none of any other name, and a value must be of the
    setting's kind and in its range. -/
def set? (s : Settings) (key : String) (value : Toml.Value) : Option Settings :=
  match key with
  | "shm_file_path" => (fun v => { s with path := v }) <$> value.text?
  | "log_level" => (fun v => { s with logging := v }) <$> value.text?
  | "capacity_units" => (fun v => { s with capacity := v }) <$> value.word32?
  | "scale" => (fun v => { s with unitSize := v }) <$> value.word32?
  | "message_size" => (fun v => { s with messageBytes := v }) <$> value.word64?
  | "duration_ms" => (fun v => { s with milliseconds := v }) <$> value.word64?
  | "notify_fraction" => (fun v => { s with noticeFraction := v }) <$> value.real?
  | _ => none

/-- The defaults with the entries of a table laid over them. -/
def ofTable? (table : Toml.Table) : Option Settings :=
  table.foldlM (fun s entry => s.set? entry.1 entry.2) {}

/-- The settings that a table gives, if it may be believed. -/
def ofTable (table : Toml.Table) : Except SettingsError Settings := do
  match ofTable? table with
  | none => throw .malformed
  | some s =>
    s.check
    return s

/-- The settings that a text gives if its table is read in this way. -/
def ofTextBy (read : String → Option Toml.Table) (text : String) : Except SettingsError Settings :=
  match read text with
  | none => .error .malformed
  | some table => ofTable table

/-- The settings that a text gives. -/
def ofText (text : String) : Except SettingsError Settings := ofTextBy Toml.readTable text

/-- The text that a file holds. -/
def readText (t : FileTree) (path : String) : Except ReadError String :=
  match t.read path with
  | .error e => .error (.file e)
  | .ok b => match String.fromUTF8? b.toByteArray with
    | none => .error .notText
    | some text => .ok text

/-- The settings that a file gives. -/
def ofFile (t : FileTree) (path : String) : Except SettingsError Settings :=
  match readText t path with
  | .error cause => .error (.unreadable path cause)
  | .ok text => ofText text

end Settings

end SharedRing
