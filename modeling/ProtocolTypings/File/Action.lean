import ProtocolTypings.File.Change
import ProtocolTypings.Log.Record

/-!
# File actions

An action is a plan of requests to a file system, each followed by what depends on the answer, with log records in
between. It is carried out on a file tree here; a program may carry out the same plan on real files.
-/

namespace ProtocolTypings

/-- What is known about an entry without reading it. -/
inductive EntryStatus where
  | folder (mode : Mode)
  | file (mode : Mode)
deriving DecidableEq

def EntryStatus.mode : EntryStatus → Mode
  | .folder mode | .file mode => mode

inductive FileRequest where
  | status (p : Path)
  | read (p : Path)
  | makeFolder (p : Path)
  /-- A new empty file that only its owner may use, with a name made from the label. -/
  | makeTemporary (folder : Path) (label : String)
  /-- Replace the contents of a file, or make a new one. -/
  | write (p : Path) (bytes : ByteArray)
  | setMode (p : Path) (mode : Mode)
  /-- Move a file to another path, in place of the file that is there. -/
  | move (source target : Path)
  | remove (p : Path)

@[reducible] def FileRequest.Answer : FileRequest → Type
  | .status _ => EntryStatus
  | .read _ => ByteArray
  | .makeTemporary _ _ => Path
  | .makeFolder _ | .write _ _ | .setMode _ _ | .move _ _ | .remove _ => Unit

inductive Action (α : Type) : Type where
  | done (a : α)
  | fail (fault : Fault)
  | note (record : Log.Record) (next : Action α)
  | ask (request : FileRequest) (next : Except FileFault request.Answer → Action α)

namespace Action

variable {α β : Type}

def bind : Action α → (α → Action β) → Action β
  | .done a, f => f a
  | .fail fault, _ => .fail fault
  | .note record next, f => .note record (next.bind f)
  | .ask request next, f => .ask request fun answer => (next answer).bind f

instance : Monad Action where
  pure := done
  bind := bind

/-- Make a request that has to succeed. -/
def request (r : FileRequest) : Action r.Answer :=
  .ask r fun
    | .ok answer => .done answer
    | .error fault => .fail (.file fault)

def report (level : Log.Level) (topic : Log.Topic) (message : String) : Action Unit :=
  .note ⟨level, topic, message⟩ (.done ())

def ofExcept : Except Fault α → Action α
  | .ok a => .done a
  | .error fault => .fail fault

def ofLogged (x : Logged α) : Action α :=
  x.log.foldr .note (ofExcept x.result)

/-- Clean up after a failure, which stays one. -/
def onFailure : Action α → Action Unit → Action α
  | .done a, _ => .done a
  | .fail fault, cleanup => cleanup.bind fun _ => .fail fault
  | .note record next, cleanup => .note record (next.onFailure cleanup)
  | .ask request next, cleanup => .ask request fun answer => (next answer).onFailure cleanup

/-! ## On a file tree -/

def statusOf : FileTree → EntryStatus
  | .folder mode _ => .folder mode
  | .file f => .file f.mode

/-- The outcome of a request that changes the tree if it succeeds. -/
def changed (root : FileTree) : Except FileFault FileTree → FileTree × Except FileFault Unit
  | .ok tree => (tree, .ok ())
  | .error fault => (root, .error fault)

/-- Carry out one request. -/
def perform (root : FileTree) : (r : FileRequest) → FileTree × Except FileFault r.Answer
  | .status p => (root, (root.find p).map statusOf)
  | .read p => (root, root.read p)
  | .makeFolder p => changed root (root.makeFolder p)
  | .makeTemporary folder label =>
    match root.makeTemporary folder label with
    | .ok (tree, p) => (tree, .ok p)
    | .error fault => (root, .error fault)
  | .write p bytes => changed root (root.write p bytes)
  | .setMode p mode => changed root (root.setMode p mode)
  | .move source target => changed root (root.move source target)
  | .remove p => changed root (root.remove p)

/-- Carry out an action: the tree that it leaves, its records and its outcome. -/
def run (root : FileTree) : Action α → FileTree × Logged α
  | .done a => (root, ⟨[], .ok a⟩)
  | .fail fault => (root, ⟨[], .error fault⟩)
  | .note record next =>
    let (root, x) := run root next
    (root, ⟨record :: x.log, x.result⟩)
  | .ask request next =>
    let (root, answer) := perform root request
    run root (next answer)

end Action

end ProtocolTypings
