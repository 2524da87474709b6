/-
  Log events and their text.

  An event is data: how important it is, which part of the program speaks, a message, and named
  values in the order in which they are written.  Whoever keeps a log decides what to do with it.
-/
namespace SharedRing

/-- How important an event is, the most important first. -/
inductive Level where
  | error
  | warn
  | info
  | debug
  | trace
deriving DecidableEq, Repr

namespace Level

/-- How a level is written. -/
def name : Level → String
  | .error => "ERROR"
  | .warn => "WARN"
  | .info => "INFO"
  | .debug => "DEBUG"
  | .trace => "TRACE"

/-- The number of a level: a filter set to `n` lets levels up to `n` pass. -/
def rank : Level → Nat
  | .error => 1
  | .warn => 2
  | .info => 3
  | .debug => 4
  | .trace => 5

end Level

/-- The parts of the program that speak. -/
inductive Target where
  | config
  | ring
  | header
  | sharedFile
  | program
  | loopback
deriving DecidableEq, Repr

/-- How a part is called in a log and in a filter. -/
def Target.name : Target → String
  | .config => "refring_core::config"
  | .ring => "refring_core::ring"
  | .header => "refring_core::shm_layout"
  | .sharedFile => "refring_core::shm"
  | .program => "refring_loopback"
  | .loopback => "refring_loopback::loopback"

/-- One thing that happened. -/
structure Event where
  level : Level
  target : Target
  message : String
  fields : List (String × String)
deriving DecidableEq, Repr

namespace Event

/-- The names of all that an event holds; the message has a name as well. -/
def names (e : Event) : List String := "message" :: e.fields.map (·.1)

/-- The message and its values. -/
def text (e : Event) : String :=
  e.fields.foldl (fun line field => line ++ " " ++ field.1 ++ "=" ++ field.2) e.message

/-- A line that does not say who speaks. -/
def shortLine (e : Event) : String := e.level.name ++ " " ++ e.text

/-- A line that does. -/
def line (e : Event) : String := e.level.name ++ " " ++ e.target.name ++ ": " ++ e.text

example : (Event.mk .debug .ring "bound ring region" [("len", "16")]).shortLine
    = "DEBUG bound ring region len=16" := by decide

end Event

end SharedRing
