import ProtocolTypings.Fault

/-!
# Log records

A computation keeps the records it makes, also when it fails: what was noted before the failure stays.
-/

namespace ProtocolTypings

namespace Log

inductive Level where
  | debug | info | warning | error | critical
deriving DecidableEq

def Level.name : Level → String
  | .debug => "DEBUG"
  | .info => "INFO"
  | .warning => "WARNING"
  | .error => "ERROR"
  | .critical => "CRITICAL"

def Level.rank : Level → Nat
  | .debug => 10
  | .info => 20
  | .warning => 30
  | .error => 40
  | .critical => 50

/-- What a record is about. -/
inductive Topic where
  | schemas | artifacts
deriving DecidableEq

structure Record where
  level : Level
  topic : Topic
  message : String
deriving DecidableEq

end Log

/-- An outcome together with the records made on the way to it. -/
structure Logged (α : Type) where
  log : List Log.Record
  result : Except Fault α

namespace Logged

variable {α β : Type}

def bind (x : Logged α) (f : α → Logged β) : Logged β :=
  match x.result with
  | .ok a => ⟨x.log ++ (f a).log, (f a).result⟩
  | .error e => ⟨x.log, .error e⟩

instance : Monad Logged where
  pure a := ⟨[], .ok a⟩
  bind := bind

def note (level : Log.Level) (topic : Log.Topic) (message : String) : Logged Unit :=
  ⟨[⟨level, topic, message⟩], .ok ()⟩

def fail (fault : Fault) : Logged α :=
  ⟨[], .error fault⟩

/-- An outcome reached without a record. -/
def ofExcept (result : Except Fault α) : Logged α :=
  ⟨[], result⟩

end Logged

end ProtocolTypings
