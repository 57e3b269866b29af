import ProtocolTypings.Artifact.Validation
import ProtocolTypings.File.Action

/-!
# Writing files

Both ways of writing make the folders above the file. Atomic writing goes through a temporary file in the same
folder, which takes the place of the target when the text is known to be sound, and is removed on any failure. Not
every text can be encoded, and this is found out when the file is open.
-/

namespace ProtocolTypings

/-! ## Contents -/

/-- A text that is to be written. Halves of surrogate pairs, which no file can hold, may stand in it. -/
structure Content where
  start : String
  /-- The halves, each counted from the first code of one, with what stands between it and the next. -/
  halves : List (Fin 0x800 × String)

namespace Content

def ofString (s : String) : Content :=
  ⟨s, []⟩

/-- The text as it is checked. What is looked for there has no halves; they are replaced. -/
def text (content : Content) : String :=
  content.start ++ String.join (content.halves.map fun (_, s) => "\uFFFD" ++ s)

def encode (content : Content) : Except Fault ByteArray :=
  if content.halves.isEmpty then .ok content.start.toUTF8 else .error .notEncodable

end Content

namespace Action

/-! ## Folders -/

/-- Pass over a failure to make a folder if there is one. -/
def unlessFolder (p : Path) (fault : FileFault) : Action Unit :=
  .ask (.status p) fun
    | .ok (.folder _) => .done ()
    | _ => .fail (.file fault)

/-- Make a folder, unless it is there. -/
def makeFolder (p : Path) : Action Unit :=
  .ask (.makeFolder p) fun
    | .ok () => .done ()
    | .error fault => unlessFolder p fault

/-- Make the folder of the first components of a path, given backwards, and those above it. -/
def makeFoldersTo (p : Path) : List String → Action Unit
  | [] => makeFolder { p with components := [] }
  | c :: above =>
    let here := { p with components := (c :: above).reverse }
    .ask (.makeFolder here) fun
      | .ok () => .done ()
      | .error .missing => do
        makeFoldersTo p above
        makeFolder here
      | .error fault => unlessFolder here fault

def makeFolders (p : Path) : Action Unit :=
  makeFoldersTo p p.components.reverse

/-! ## Files -/

/-- Write a content into a file. To open the file empties it, and then the content is encoded. -/
def writeContent (p : Path) (content : Content) : Action Unit :=
  match content.encode with
  | .ok bytes => request (.write p bytes)
  | .error fault => do
    request (.write p .empty)
    .fail fault

/-- Write a content directly. -/
def writeDirectly (p : Path) (content : Content) : Action Unit := do
  makeFolders p.parent
  writeContent p content

/-- The permission bits of what is there, or those of a new file. -/
def targetMode (p : Path) : Action Mode :=
  .ask (.status p) fun
    | .ok status => .done status.mode
    | .error .missing => .done .newFile
    | .error fault => .fail (.file fault)

/-- Write a content to a temporary file, check it, and put the file in the place of the target. -/
def replaceBy (temporary p : Path) (content : Content) (check : Content → Except Fault Unit) : Action Unit := do
  writeContent temporary content
  ofExcept (check content)
  request (.setMode temporary (← targetMode p))
  request (.move temporary p)

def writeAtomically (p : Path) (content : Content) (check : Content → Except Fault Unit) : Action Unit := do
  makeFolders p.parent
  let temporary ← request (.makeTemporary p.parent p.name)
  (replaceBy temporary p content check).onFailure (request (.remove temporary))

end Action

end ProtocolTypings
