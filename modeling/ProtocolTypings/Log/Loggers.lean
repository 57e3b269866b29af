import ProtocolTypings.Entries
import ProtocolTypings.Log.Journal

/-!
# Loggers

A logger has a name, and is below the one whose name its own goes on from after a point; one logger is above all. A
message that is given to a logger counts if it has at least the level of the first logger on the way up that has one.
Then it goes to the handlers of all loggers on the way. If there are none at all it may come out by a last resort; that
is not counted as shown.
-/

namespace ProtocolTypings.Log

inductive Handler where
  /-- Shows the message on the error output. -/
  | echo
  /-- Shows nothing there. -/
  | other
deriving DecidableEq

structure Logger where
  /-- None where the loggers above decide. -/
  level : Option Level := none
  handlers : List Handler := []

/-- The logger above all, and those that have been changed, by name. -/
structure Loggers where
  top : Logger := { level := some .warning }
  named : List (String × Logger) := []

/-- What a handler shows of a template with its arguments: nothing if it cannot be filled in. -/
def Handler.shown (memory : Nat) (template : String) (args : List Json) : Handler → List String
  | .echo => (fill memory template args).toList
  | .other => []

namespace Loggers

def find (ls : Loggers) (name : String) : Logger :=
  (ls.named.lookup name).getD {}

/-! ## The way up -/

/-- The names above one that is given backwards, from the nearest on: it is cut before each of its points. -/
def cuts : List Char → List String
  | [] => []
  | c :: rest => if c = '.' then String.ofList rest.reverse :: cuts rest else cuts rest

def namesAbove (name : String) : List String :=
  cuts name.toList.reverse

/-- The loggers that a message comes to. -/
def wayUp (ls : Loggers) (name : String) : List Logger :=
  (name :: namesAbove name).map ls.find ++ [ls.top]

/-- The level from which on messages to a logger count, if any logger on the way has one. -/
def levelAt (ls : Loggers) (name : String) : Option Level :=
  (ls.wayUp name).findSome? (·.level)

/-- A message without a positive rank never counts. -/
def admits (ls : Loggers) (name : String) (rank : Int) : Bool :=
  0 < rank && (ls.levelAt name).elim true fun least => least.rank ≤ rank

/-- What is shown of a message to a logger. -/
def shown (memory : Nat) (ls : Loggers) (name : String) (rank : Int) (template : String) (args : List Json) :
    List String :=
  if ls.admits name rank then
    (ls.wayUp name).flatMap fun logger => logger.handlers.flatMap (·.shown memory template args)
  else []

/-! ## Steps -/

/-- Set the level of the package, and show its messages unless that is done. -/
def configure (verbose quiet : Bool) (ls : Loggers) : Loggers :=
  let handlers := (ls.find rootName).handlers
  let package : Logger := {
    level := some (Journal.levelFor verbose quiet)
    handlers := if .echo ∈ handlers then handlers else handlers ++ [.echo] }
  { ls with named := Entries.put rootName package ls.named }

/-- One use of the loggers. -/
inductive Step where
  | configure (verbose quiet : Bool)
  /-- Give a message to the logger that a name stands for. -/
  | log (name : Option String) (rank : Int) (template : String) (args : List Json)

/-- The loggers that a step leaves, and what it shows. -/
def perform (memory : Nat) (ls : Loggers) : Step → Loggers × List String
  | .configure verbose quiet => (ls.configure verbose quiet, [])
  | .log name rank template args => (ls, ls.shown memory (loggerName name) rank template args)

end Loggers

end ProtocolTypings.Log
