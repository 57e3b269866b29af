import ProtocolTypings.Artifact.Edition
import ProtocolTypings.File.Writing

/-!
# Delivery

Artifacts are written into a folder one after the other, or compared with the files that are there. A failure leaves
the ones written before it in place.
-/

namespace ProtocolTypings

namespace Artifact

/-- The check of a content before it is written, which all pass when none is wanted. -/
def checkIf (wanted : Bool) (content : Content) : Except Fault Unit :=
  if wanted then validate content.text else .ok ()

/-- Write one artifact as the output section says. -/
def write (output : OutputSetting) (folder : Path) (a : Artifact) : Action Path := do
  let p ← .ofExcept (a.pathIn folder)
  .report .info .artifacts ("Writing to " ++ p.text)
  match output with
  | .other _ | .missing => .fail (.misuse .outputNotSection)
  | .of output =>
    let content := Content.ofString a.text
    let check := checkIf output.validate.truthy
    if output.atomic.truthy then
      Action.writeAtomically p content check
    else do
      .ofExcept (check content)
      Action.writeDirectly p content
    return p

def writeAll (output : OutputSetting) (folder : Path) : List Artifact → Action (List Path)
  | [] => pure []
  | a :: rest => do
    let p ← a.write output folder
    return p :: (← writeAll output folder rest)

/-- Is there a file or a folder? A path that leads through no folder, or that no file can have, leads to nothing. -/
def isThere (p : Path) : Action Bool :=
  .ask (.status p) fun
    | .ok _ => .done true
    | .error .missing | .error .notFolder | .error .nameWithNull => .done false
    | .error fault => .fail (.file fault)

/-- Does a file hold exactly the text of the artifact? -/
def isCurrent (p : Path) (a : Artifact) : Action Bool := do
  if ← isThere p then
    return (← Action.request (.read p)) == a.text.toUTF8
  else
    return false

/-- The paths of the artifacts that are missing or differ. -/
def outdated (folder : Path) : List Artifact → Action (List Path)
  | [] => pure []
  | a :: rest => do
    let p ← .ofExcept (a.pathIn folder)
    if ← isCurrent p a then
      .report .debug .artifacts ("Up to date: " ++ p.text)
      outdated folder rest
    else
      .report .info .artifacts ("Out of date: " ++ p.text)
      return p :: (← outdated folder rest)

end Artifact

namespace Edition

/-- Make the artifacts and write them, if the settings say anything about output. -/
def write (e : Edition) (folder : Path) : Action (List Path) := do
  let output ← .ofExcept e.settings.presentOutput
  Artifact.writeAll output folder (← .ofExcept e.artifacts)

/-- Make the artifacts and compare them with the files. -/
def outdated (e : Edition) (folder : Path) : Action (List Path) := do
  Artifact.outdated folder (← .ofExcept e.artifacts)

/-- Write or compare, as the mode says. Artifacts that are out of date are refused. -/
def deliver (e : Edition) (folder : Path) : Action (List Path) := do
  let output ← .ofExcept e.settings.outputSection
  if output.mode = .named .check then
    match ← e.outdated folder with
    | [] => return []
    | stale => .fail (.refusal (.artifact (.outOfDate (stale.map (·.text)))))
  else
    e.write folder

end Edition

/-- Read JSON documents from files, in the given order. -/
def readJson (p : Path) : Action Json := do
  match String.fromUTF8? (← Action.request (.read p)) with
  | none => .fail .notUtf8
  | some s => .ofExcept ((Json.read s).mapError .json)

def loadSchemas : List Path → Action (List Json)
  | [] => pure []
  | p :: rest => do
    .report .debug .schemas ("Reading schema " ++ p.text)
    let document ← readJson p
    return document :: (← loadSchemas rest)

end ProtocolTypings
