/-
  The program on real files.

  It goes through the stages of `CommandLine.run`, with the real file system, the environment and the
  clock in place of values.  Only these are here: reading the settings, making and removing the ring's
  file, letting the parties move until the time is over, and printing.
-/
import SharedRing.CommandLine

namespace SharedRing.Program

open SharedRing.CommandLine

/-- The complaint behind a failed operation on a file. -/
def complaint : IO.Error → FileError
  | .noFileOrDirectory _ _ _ => .notFound
  | .alreadyExists _ _ _ => .alreadyExists
  | .permissionDenied _ _ _ => .denied
  | .inappropriateType _ code _ => if code = 21 then .isDirectory else .notDirectory
  | .resourceExhausted _ 36 _ => .nameTooLong
  | e => .other (toString e)

/-- The settings of the file that the first argument names, or the defaults. -/
def readSettings (args : List String) : IO (Except SettingsError Settings) := do
  match args.head? with
  | none => return .ok {}
  | some path =>
    match ← (IO.FS.readBinFile path).toBaseIO with
    | .error e => return .error (.unreadable path (.file (complaint e)))
    | .ok bytes => match String.fromUTF8? bytes with
      | none => return .error (.unreadable path .notText)
      | some text => return Settings.ofText text

/-- Lets both parties move until the clock shows a given time. -/
partial def streamUntil (job : Loopback.Job) (deadline : Nat) (s : Loopback.State) :
    IO Loopback.State := do
  if (← IO.monoNanosNow) < deadline then streamUntil job deadline (Loopback.round job s)
  else return s

/-- Prints what the log keeps. -/
def log (p : Plan) (events : List Event) : IO Unit :=
  (events.filter p.keeps).forM fun e => IO.println e.line

def fail (failure : Failure) : IO UInt32 := do
  IO.eprint failure.text
  return 1

/-- Streams through a ring for as long as the settings say. -/
def stream (p : Plan) (file : SharedFile) (t : FileTree) :
    IO (Ending (Loopback.Totals × Elapsed)) := do
  match Loopback.job p.settings file t with
  | .error fault => return .ended (.error fault)
  | .ok job =>
    if !job.hasBuffers then return .crashed
    let start ← IO.monoNanosNow
    let deadline := start + p.settings.milliseconds.toNat * 1000000
    let s := Loopback.finish job (← streamUntil job deadline (Loopback.begin file t))
    log p (noticeEvents s)
    let nanos := (← IO.monoNanosNow) - start
    let elapsed := Elapsed.ofParts (UInt64.ofNat (nanos / 1000000000))
      (UInt32.ofNat (nanos % 1000000000))
    return .ended ((Loopback.totals s).map fun totals => (totals, elapsed))

/-- Gives up because the ring's file cannot be made. -/
def failCreation (p : Plan) (e : ShareError) : IO UInt32 := do
  log p (p.openingEvents (.error e : Except ShareError Unit))
  fail (.ofCreation p.settings.path e)

/-- The program, once it has a plan. -/
def runPlan (p : Plan) : IO UInt32 := do
  p.complaints.forM IO.eprintln
  let path := p.settings.path
  match SharedFile.create .initial "ring" p.geometry with
  | (.error e, _) => failCreation p e
  | (.ok file, t) =>
    match ← (IO.FS.writeBinFile path (t.bytes file.file).toByteArray).toBaseIO with
    | .error e => failCreation p (.file (complaint e))
    | .ok _ =>
      log p (p.openingEvents (.ok ()) ++ bindingEvents file t)
      match ← stream p file t with
      | .crashed =>
        IO.eprint crashText
        return 101
      | .ended result =>
        let _ ← (IO.FS.removeFile path).toBaseIO
        match result with
        | .error fault => fail (.ofFault fault)
        | .ok (totals, elapsed) =>
          log p (closingEvents totals (some elapsed))
          return 0

end SharedRing.Program

def main (args : List String) : IO UInt32 := do
  let loaded ← SharedRing.Program.readSettings args
  let host := SharedRing.CommandLine.Host.ofEnvironment (← IO.getEnv "RUST_LOG")
  match SharedRing.CommandLine.plan host loaded with
  | .error failure => SharedRing.Program.fail failure
  | .ok p => SharedRing.Program.runPlan p
