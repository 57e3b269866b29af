import ProtocolTypings.Log.Record
import ProtocolTypings.Log.Template

/-!
# The journal

The journal decides which messages are shown. Before it is configured it shows none; then it shows those of at
least its level, each once.
-/

namespace ProtocolTypings.Log

structure Journal where
  level : Option Level := none
  /-- How many times a message is shown. -/
  handlers : Nat := 0

def rootName : String := "protocol_dts_generator"

/-- The text after the last point, or the whole of a text without one. -/
def lastPart (name : String) : String :=
  String.ofList (name.toList.reverse.takeWhile (· != '.')).reverse

/-- The full name of the logger that a name stands for: the root, or one directly below it. -/
def loggerName : Option String → String
  | none => rootName
  | some name => if name = rootName then rootName else rootName ++ "." ++ lastPart name

def Topic.loggerName : Topic → String
  | .schemas => Log.loggerName (some "parser")
  | .artifacts => Log.loggerName (some "generator")

namespace Journal

def levelFor (verbose quiet : Bool) : Level :=
  if verbose then .debug else if quiet then .warning else .info

/-- Set the level, and start showing messages unless that has been done. -/
def configure (verbose quiet : Bool) (j : Journal) : Journal where
  level := some (levelFor verbose quiet)
  handlers := if j.handlers = 0 then 1 else j.handlers

/-- Is a message of this level important enough? -/
def admits (j : Journal) (level : Level) : Bool :=
  j.level.elim false fun least => least.rank ≤ level.rank

/-- What is shown of a message. -/
def shown (j : Journal) (level : Level) (message : String) : List String :=
  if j.admits level then List.replicate j.handlers message else []

/-- What is shown of a template with its arguments: nothing if it cannot be filled in. -/
def shownFilled (memory : Nat) (j : Journal) (level : Level) (template : String) (args : List Json) : List String :=
  if j.admits level then (fill memory template args).elim [] (j.shown level) else []

def levelName (j : Journal) : String :=
  j.level.elim "NOTSET" Level.name

end Journal

end ProtocolTypings.Log
