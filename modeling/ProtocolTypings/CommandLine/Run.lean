import ProtocolTypings.Artifact.Delivery
import ProtocolTypings.CommandLine.Arguments
import ProtocolTypings.Log.Journal

/-!
# Running the command

A run reads its words, looks at the places that they name, and generates. A command line that is not understood, or
names what cannot be used, changes nothing. Messages are shown as the journal says; a refusal is shown after them.
-/

namespace ProtocolTypings.CommandLine

/-- What an invocation asks for, with the places that it names. -/
structure Request where
  config : Option Path
  schemas : List Path
  folder : Path
  strict : Bool
  check : Bool
  verbose : Bool
  quiet : Bool

/-! ## Places -/

/-- The absolute path of a word, seen from the working folder. Pairs of points in it are resolved. -/
def place (cwd : Path) (word : String) : Action Path :=
  if word.toList.contains '\x00' then .fail (.file .nameWithNull) else pure (cwd.resolve word).straighten

/-- The file that a word names; none unless there is one that may be read. -/
def file? (cwd : Path) (word : String) : Action (Option Path) := do
  let p ← place cwd word
  .ask (.status p) fun
    | .ok (.file mode) => .done (if mode.readable then some p else none)
    | _ => .done none

/-- The files that words name; none if one of them names no file. -/
def files? (cwd : Path) : List String → Action (Option (List Path))
  | [] => pure (some [])
  | word :: rest => do
    match ← file? cwd word with
    | some p => return (← files? cwd rest).map (p :: ·)
    | none => return none

/-- The folder that a word names, which need not be there; none if there is a file. -/
def folder? (cwd : Path) (word : String) : Action (Option Path) := do
  let p ← place cwd word
  .ask (.status p) fun
    | .ok (.file _) => .done none
    | .ok (.folder mode) => .done (if mode.readable then some p else none)
    | .error _ => .done (some p)

/-- The configuration file, if the invocation names one: none if it cannot be used. -/
def config? (cwd : Path) : Option String → Action (Option (Option Path))
  | some word => do return (← file? cwd word).map some
  | none => pure (some none)

/-- The request that an invocation makes. The places are looked at in order, and there is no request if one of them
cannot be used, or if there is no schema or no folder. -/
def request? (cwd : Path) (i : Invocation) : Action (Option Request) := do
  let some config ← config? cwd i.config | return none
  let some schemas ← files? cwd i.schemas | return none
  match i.folder? with
  | none => return none
  | some word =>
    if schemas.isEmpty then return none
    else
      return (← folder? cwd word).map fun folder =>
        { config, schemas, folder, strict := i.strict, check := i.check, verbose := i.verbose, quiet := i.quiet }

/-! ## Generation -/

/-- The settings of the file that is named, or the default ones, changed by the options. -/
def loadSettings (r : Request) : Action Settings := do
  let settings ← match r.config with
    | some p => do .ofExcept (Settings.decode (← readJson p))
    | none => pure {}
  let settings := if r.strict then { settings with strict := .bool true } else settings
  if r.check then .ofExcept (settings.withMode .check) else return settings

def generate (r : Request) : Action (List Path) := do
  let settings ← loadSettings r
  let documents ← loadSchemas r.schemas
  let edition ← .ofLogged (Edition.ofDocuments settings documents)
  edition.deliver r.folder

/-! ## Outcome -/

/-- What follows a control sequence of a terminal, given without its escape character: a bracket, parameters,
intermediate characters, and one character that ends it. -/
def afterControl? : List Char → Option (List Char)
  | '[' :: rest =>
    match (rest.dropWhile fun c => '0' ≤ c && c ≤ '?').dropWhile fun c => ' ' ≤ c && c ≤ '/' with
    | c :: rest => if '@' ≤ c && c ≤ '~' then some rest else none
    | [] => none
  | _ => none

/-- A text without control sequences. Its length is enough `fuel`. -/
def stripControls : (fuel : Nat) → List Char → List Char
  | 0, cs => cs
  | _, [] => []
  | fuel + 1, c :: cs =>
    if c == '\x1b' then
      match afterControl? cs with
      | some rest => stripControls fuel rest
      | none => c :: stripControls fuel cs
    else
      c :: stripControls fuel cs

/-- A message as it is shown on a line of its own. -/
def plainLine (message : String) : String :=
  String.ofList (stripControls message.length message.toList) ++ "\n"

inductive Outcome where
  | help
  /-- The command line was not understood. -/
  | usage
  | finished (output : List String)
  /-- A fault stopped the work; the output ends with its message if it is a refusal. -/
  | stopped (output : List String) (fault : Fault)

def Outcome.exitCode : Outcome → Nat
  | .help | .finished _ => 0
  | .stopped _ _ => 1
  | .usage => 2

def shownRecords (journal : Log.Journal) (records : List Log.Record) : List String :=
  records.flatMap fun r => journal.shown r.level r.message

def faultLines : Fault → List String
  | .refusal refusal => ["Error: " ++ refusal.message]
  | _ => []

/-- The outcome of a request that has been carried out. -/
def conclude (journal : Log.Journal) (x : Logged (List Path)) : Outcome :=
  let shown := shownRecords journal x.log
  match x.result with
  | .ok _ => .finished (shown.map plainLine)
  | .error fault => .stopped ((shown ++ faultLines fault).map plainLine) fault

/-- Run the command on a file tree. -/
def run (cwd : Path) (words : List String) (journal : Log.Journal) (root : FileTree) :
    FileTree × Log.Journal × Outcome :=
  match Invocation.ofWords? words with
  | none => (root, journal, .usage)
  | some i =>
    if i.help then (root, journal, .help)
    else
      let (root, found) := (request? cwd i).run root
      match found.result with
      | .ok (some r) =>
        let journal := journal.configure r.verbose r.quiet
        let (root, x) := (generate r).run root
        (root, journal, conclude journal x)
      | .ok none => (root, journal, .usage)
      | .error fault => (root, journal, .stopped [] fault)

end ProtocolTypings.CommandLine
