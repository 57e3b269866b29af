import ProtocolTypings.CommandLine.Run

/-!
# The program

Carries out the command on real files. The plan is that of `CommandLine`; here each request is passed on to the
system and each record is shown when it is made. Permission bits cannot be asked for, so a file that is
replaced gets the usual ones.
-/

namespace ProtocolTypings.Program

/-! ## Requests -/

/-- The fault of an error code of the system, which comes as a positive or as a negative number. -/
def codeFault (code : UInt32) (details : String) : FileFault :=
  match code.toInt32.toInt.natAbs with
  | 1 | 13 => .notPermitted
  | 2 => .missing
  | 16 => .busy
  | 17 => .exists
  | 20 => .notFolder
  | 21 => .isFolder
  | 36 => .nameTooLong
  | _ => .other details

def faultOf (e : IO.Error) : FileFault :=
  match e with
  | .noFileOrDirectory _ code details => codeFault code details
  | .alreadyExists _ code details | .inappropriateType _ code details | .invalidArgument _ code details
  | .permissionDenied _ code details | .resourceExhausted _ code details => codeFault code details
  | .resourceBusy code details | .illegalOperation code details | .unsatisfiedConstraints code details =>
    codeFault code details
  | other => .other (toString other)

def attempt {α : Type} (act : IO α) : IO (Except FileFault α) := do
  try
    return .ok (← act)
  catch e =>
    return .error (faultOf e)

def rights (mode : Mode) : IO.FileRight :=
  let right (i : Nat) : IO.AccessRight :=
    { read := mode.bits.testBit (i + 2), write := mode.bits.testBit (i + 1), execution := mode.bits.testBit i }
  { user := right 6, group := right 3, other := right 0 }

/-- A new file under the first name that is not taken, of at most `tries`. -/
def makeTemporary (folder : Path) (label : String) : (tries : Nat) → IO (Except FileFault Path)
  | 0 => return .error .exists
  | tries + 1 => do
    let name := FileTree.temporaryName label (← IO.rand 0 99999999)
    let p := folder.extend [name]
    match ← attempt (IO.FS.Handle.mk p.text .writeNew) with
    | .ok _ =>
      let _ ← attempt (IO.setAccessRights p.text (rights .temporary))
      return .ok p
    | .error .exists => makeTemporary folder label tries
    | .error fault => return .error fault

def perform : (r : FileRequest) → IO (Except FileFault r.Answer)
  | .status p => do
    match ← attempt (IO.FS.readBinFile p.text) with
    | .ok _ => return .ok (.file .newFile)
    | .error .isFolder => return .ok (.folder .newFolder)
    | .error fault => return .error fault
  | .read p => attempt (IO.FS.readBinFile p.text)
  | .makeFolder p => attempt (IO.FS.createDir p.text)
  | .makeTemporary folder label => makeTemporary folder label 100
  | .write p bytes => attempt (IO.FS.writeBinFile p.text bytes)
  | .setMode p mode => attempt (IO.setAccessRights p.text (rights mode))
  | .move source target => attempt (IO.FS.rename source.text target.text)
  | .remove p => attempt (IO.FS.removeFile p.text)

/-! ## Actions -/

def showLines (lines : List String) : IO Unit := do
  for line in lines do
    IO.eprint (CommandLine.plainLine line)

def carryOut {α : Type} (journal : Log.Journal) : Action α → IO (Except Fault α)
  | .done a => return .ok a
  | .fail fault => return .error fault
  | .note record next => do
    showLines (CommandLine.shownRecords journal [record])
    carryOut journal next
  | .ask request next => do
    carryOut journal (next (← perform request))

/-- What is said about a fault that has no message of its own. -/
def summary : Fault → List String
  | .refusal refusal => CommandLine.faultLines (.refusal refusal)
  | .misuse _ => ["Error: a value in the settings or in a schema is of the wrong kind"]
  | .file .missing => ["Error: no such file or folder"]
  | .file .exists => ["Error: a file is in the place of a folder"]
  | .file .isFolder => ["Error: a folder is in the place of a file"]
  | .file .notFolder => ["Error: a file is in the place of a folder above"]
  | .file .busy => ["Error: the place of the file is in use"]
  | .file .notPermitted => ["Error: a file or a folder may not be used in this way"]
  | .file .nameTooLong => ["Error: a file name is too long"]
  | .file .nameWithNull => ["Error: a file name holds a null character"]
  | .file (.other details) => ["Error: " ++ details]
  | .json .malformed => ["Error: a file does not hold JSON"]
  | .json .numberTooLong => ["Error: a file holds a number that is too long"]
  | .json .loneHalf => ["Error: a file holds half of a surrogate pair"]
  | .notUtf8 => ["Error: a file does not hold UTF-8 text"]
  | .notEncodable => ["Error: a text cannot be written as UTF-8"]

def usage : List String :=
  ["Usage: protocol_dts_generator [OPTIONS] SCHEMAS... OUTPUT_DIR",
    "",
    "  Generate declaration files from protocol SCHEMAS into OUTPUT_DIR.",
    "",
    "  Domains of all SCHEMAS are concatenated in argument order.",
    "",
    "Options:",
    "  -c, --config FILE",
    "  --strict           Fail on shapes and references that cannot be interpreted",
    "  --check            Do not write anything, exit with status 1 if the output",
    "                     files are out of date",
    "  -v, --verbose",
    "  -q, --quiet",
    "  --help             Show this message and exit."]

def refuseUsage : IO Nat := do
  usage.forM IO.eprintln
  return CommandLine.Outcome.usage.exitCode

def stop (fault : Fault) : IO Nat := do
  showLines (summary fault)
  return (CommandLine.Outcome.stopped [] fault).exitCode

def run (cwd : Path) (words : List String) : IO Nat := do
  match CommandLine.Invocation.ofWords? words with
  | none => refuseUsage
  | some i =>
    if i.help then
      usage.forM IO.println
      return CommandLine.Outcome.help.exitCode
    else
      match ← carryOut {} (CommandLine.request? cwd i) with
      | .ok (some r) =>
        let journal := ({} : Log.Journal).configure r.verbose r.quiet
        match ← carryOut journal (CommandLine.generate r) with
        | .ok _ => return (CommandLine.Outcome.finished []).exitCode
        | .error fault => stop fault
      | .ok none => refuseUsage
      | .error fault => stop fault

end ProtocolTypings.Program

def main (words : List String) : IO UInt32 := do
  let cwd := ProtocolTypings.Path.resolve { components := [] } (toString (← IO.currentDir))
  return .ofNat (← ProtocolTypings.Program.run cwd words)
