/-
  The loopback program, from its arguments to its exit code.

  A run has five stages, any of which may be the last: the settings are read, the ring's file is
  made, the ring is bound and split, bytes are streamed, and the totals are compared.  The file is
  removed as soon as it has been made and used, whatever the totals are, so a run that ends leaves
  nothing behind.  Only a crash skips that: a party that cannot have its buffer takes the program with
  it.  The log begins once the settings are known, because they say what is logged.

  All of this is a function of the files, the arguments and the host: what the system refuses, and
  what the log keeps.  A program that works on real files goes through the same stages and uses the
  same texts.
-/
import SharedRing.Log.Filter
import SharedRing.Log.Report
import SharedRing.Loopback
import SharedRing.Speed

namespace SharedRing.CommandLine

/-! ## Failures -/

/-- What follows the message of a failure. -/
inductive Detail where
  | nothing
  | cause (text : String)
  /-- a fault in a document, which whoever read the document describes -/
  | inDocument
deriving DecidableEq, Repr

/-- Why the program gives up. -/
structure Failure where
  message : String
  detail : Detail
deriving DecidableEq, Repr

namespace Failure

/-- What is written about a failure. -/
def text (f : Failure) : String :=
  let line := "Error: " ++ f.message
  match f.detail with
  | .nothing => line ++ "\n"
  | .cause text => line ++ "\n\nCaused by:\n    " ++ text ++ "\n"
  | .inDocument => line

def ofSettings (e : SettingsError) : Failure where
  message := e.message
  detail := match e with
    | .unreadable _ cause => .cause cause.message
    | .malformed => .inDocument
    | .impossible _ => .nothing

def ofRing (e : Refusal) : Failure := ⟨e.message, .nothing⟩

def ofCreation (path : String) (e : ShareError) : Failure :=
  ⟨s!"failed to create ring at {path}", .cause e.message⟩

def ofFault (f : Loopback.Fault) : Failure :=
  ⟨f.message, match f.cause with
    | some text => .cause text
    | none => .nothing⟩

end Failure

/-! ## The host -/

/-- What a run meets beside files and arguments.  The system may refuse to open a file although
    nothing in the tree of files is in the way; such a refusal leaves the tree alone. -/
structure Host where
  /-- why a file may not be read -/
  refusesReading : String → Option FileError := fun _ => none
  /-- why a file may not be opened for new contents -/
  refusesCreating : String → Option FileError := fun _ => none
  /-- what a setting lets the log keep, and complaints about directives that were left out -/
  log : String → (Event → Bool) × List String

/-- A host that refuses nothing, with a log that the environment may rule. -/
def Host.ofEnvironment (environment : Option String) : Host where
  log setting :=
    let (filter, complaints) := Log.Filter.choose environment setting
    (filter.keeps, complaints)

/-! ## Stages -/

/-- What is known before the ring's file is made. -/
structure Plan where
  settings : Settings
  /-- what the log keeps -/
  keeps : Event → Bool
  complaints : List String
  geometry : Geometry

/-- The plan that settings make. -/
def plan (host : Host) (loaded : Except SettingsError Settings) : Except Failure Plan :=
  match loaded with
  | .error e => .error (.ofSettings e)
  | .ok settings => match Geometry.ofNumbers settings.capacity settings.unitSize with
    | .error e => .error (.ofRing e)
    | .ok geometry =>
      let (keeps, complaints) := host.log settings.logging
      .ok { settings, keeps, complaints, geometry }

/-- What is logged up to the moment at which the ring's file is made, or is not. -/
def Plan.openingEvents (p : Plan) (created : Except ShareError α) : List Event :=
  let s := p.settings
  Report.ofNumbers s.capacity s.unitSize ++ Report.create s.path p.geometry created
    ++ match created with
      | .error _ => []
      | .ok _ => [⟨.info, .program, "LOOPBACK: streaming through shared ring",
          [("path", s.path), ("capacity_bytes", toString p.geometry.size),
            ("message_size", toString s.messageBytes)]⟩]

/-- What is logged while the ring is bound and split. -/
def bindingEvents (file : SharedFile) (t : FileTree) : List Event :=
  Report.ring file t ++ match file.ring t with
    | .ok ring => Report.halves ring.halves
    | .error _ => []

/-- What is logged while bytes are streamed: each notice that the peer was given. -/
def noticeEvents (s : Loopback.State) : List Event :=
  s.notices.reverse.map fun freed =>
    ⟨.trace, .loopback, "notify peer of freed space", [("freed", toString freed)]⟩

/-- What is logged when a run has succeeded.  A time that nobody took is written as a star. -/
def closingEvents (totals : Loopback.Totals) (elapsed : Option Elapsed) : List Event :=
  let speed := megabytesPerSecond totals.read (elapsed.getD { secs := 0, nanos := 0 })
  [⟨.debug, .loopback, "loopback finished",
      [("written", toString totals.written), ("bytes_read", toString totals.read),
        ("notifications", toString totals.notices)]⟩,
    ⟨.info, .program, "LOOPBACK: done",
      [("bytes_written", toString totals.written), ("bytes_read", toString totals.read),
        ("notifications", toString totals.notices),
        ("elapsed", (elapsed.map Elapsed.text).getD "*"),
        ("throughput_mb_s", onePlace speed)]⟩]

/-! ## The whole program -/

/-- What a run of the program leaves. -/
structure Outcome where
  exitCode : UInt8
  errorText : String
  /-- what was logged -/
  events : List Event
  /-- what was streamed, if the run has succeeded -/
  totals : Option Loopback.Totals
  files : FileTree

/-- The lines of the log.  Text that an event holds may break its line. -/
def Outcome.lines (o : Outcome) : List String :=
  o.events.flatMap fun e => e.line.splitOn "\n"

/-- The settings: those of the file that the first argument names, or the defaults. -/
def settings (host : Host) (t : FileTree) (args : List String) : Except SettingsError Settings :=
  match args.head? with
  | none => .ok {}
  | some path => match host.refusesReading path with
    | some e => .error (.unreadable path (.file e))
    | none => Settings.ofFile t path

/-- Makes the ring's file. -/
def makeRing (host : Host) (t : FileTree) (path : String) (g : Geometry) :
    Except ShareError SharedFile × FileTree :=
  match host.refusesCreating path with
  | some e => (.error (.file e), t)
  | none => SharedFile.create t path g

/-- How streaming ends. -/
inductive Ending (α : Type) where
  /-- Both parties went down before their first move.  The program leaves off at the first of them, to
      report it, and the other one, for which nobody has waited, takes it down. -/
  | crashed
  | ended (result : Except Loopback.Fault α)

/-- What is said when the program goes down: the complaint of each party, and that they are gone.
    Where in the program that happened is said as well, and is left out here. -/
def crashText : String := "capacity overflow\ncapacity overflow\na scoped thread panicked\n"

/-- Binds the ring, streams, and compares the totals.  Also gives what is logged meanwhile. -/
def stream (p : Plan) (file : SharedFile) (t : FileTree) :
    Ending Loopback.Totals × List Event × FileTree :=
  match Loopback.job p.settings file t with
  | .error fault => (.ended (.error fault), [], t)
  | .ok job =>
    if job.hasBuffers then
      let s := Loopback.brief job p.settings.milliseconds (Loopback.begin file t)
      (.ended (Loopback.totals s), noticeEvents s, Loopback.leave file s t)
    else (.crashed, [], t)

/-- The program on a host. -/
def runOn (host : Host) (t : FileTree) (args : List String) : Outcome :=
  match plan host (settings host t args) with
  | .error failure => ⟨1, failure.text, [], none, t⟩
  | .ok p =>
    let path := p.settings.path
    let complaints := String.join (p.complaints.map (· ++ "\n"))
    let log (events : List Event) := events.filter p.keeps
    match makeRing host t path p.geometry with
    | (.error e, t) =>
      let failure := Failure.ofCreation path e
      let events := p.openingEvents (.error e : Except ShareError Unit)
      ⟨1, complaints ++ failure.text, log events, none, t⟩
    | (.ok file, t) =>
      let before := p.openingEvents (.ok ()) ++ bindingEvents file t
      let (ending, meanwhile, t) := stream p file t
      let events := before ++ meanwhile
      match ending with
      -- nobody is left to remove the file
      | .crashed => ⟨101, complaints ++ crashText, log events, none, t⟩
      | .ended result =>
        let t := match t.remove path with
          | .ok t => t
          | .error _ => t
        match result with
        | .error fault => ⟨1, complaints ++ (Failure.ofFault fault).text, log events, none, t⟩
        | .ok totals =>
          ⟨0, complaints, log (events ++ closingEvents totals none), some totals, t⟩

/-- The program on a host that refuses nothing. -/
def run (t : FileTree) (args : List String) (environment : Option String) : Outcome :=
  runOn (.ofEnvironment environment) t args

end SharedRing.CommandLine
