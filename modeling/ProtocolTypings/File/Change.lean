import ProtocolTypings.File.Tree

/-!
# Reading and changing file trees

What can be done at a path, and the fault where it cannot. A file is read and written as its own bits allow; an
entry is made, replaced and removed as the bits of the folder above it allow. A change that fails changes nothing.
-/

namespace ProtocolTypings.FileTree

/-- May entries be made, replaced and removed beside the one at a location? -/
def mayChange (root : FileTree) (location : List String) : Bool :=
  match root.entryAt location.dropLast with
  | some (.folder mode _) => mode.writable
  | _ => false

/-- Put a new entry at a location. -/
def make (root : FileTree) (location : List String) (new : FileTree) : Except FileFault FileTree :=
  if root.mayChange location then .ok (root.put location new) else .error .notPermitted

def read (root : FileTree) (p : Path) : Except FileFault ByteArray := do
  match ← root.find p with
  | .file f => if f.mode.readable then .ok f.bytes else .error .notPermitted
  | .folder mode _ => if mode.readable then .error .isFolder else .error .notPermitted

def makeFolder (root : FileTree) (p : Path) : Except FileFault FileTree := do
  let location ← root.locate p
  if (root.entryAt location).isSome then .error .exists else root.make location .empty

/-- Replace the contents of a file, or make a new one. -/
def write (root : FileTree) (p : Path) (bytes : ByteArray) : Except FileFault FileTree := do
  let location ← root.locate p
  match root.entryAt location with
  | some (.folder _ _) => .error .isFolder
  | some (.file f) =>
    if f.mode.writable then .ok (root.put location (.file ⟨f.mode.written, bytes⟩)) else .error .notPermitted
  | none => root.make location (.file ⟨.newFile, bytes⟩)

def setMode (root : FileTree) (p : Path) (mode : Mode) : Except FileFault FileTree := do
  let location ← root.locate p
  match root.entryAt location with
  | some (.file f) => .ok (root.put location (.file { f with mode }))
  | some (.folder _ entries) => .ok (root.put location (.folder mode entries))
  | none => .error .missing

/-- Move a file to another path, in place of the file that is there. Nothing takes the place of a folder. -/
def move (root : FileTree) (source target : Path) : Except FileFault FileTree := do
  let s ← root.locate source
  let t ← root.locate target
  match root.entryAt s with
  | some (.file f) =>
    if target.name = ".." || target.components.isEmpty then .error .busy
    else if !(root.mayChange s && root.mayChange t) then .error .notPermitted
    else
      match root.entryAt t with
      | some (.folder _ _) => .error .isFolder
      | _ => .ok ((root.erase s).put t (.file f))
  | some (.folder _ _) => .error .isFolder
  | none => .error .missing

/-- Remove a file. -/
def remove (root : FileTree) (p : Path) : Except FileFault FileTree := do
  let location ← root.locate p
  match root.entryAt location with
  | some (.file _) => if root.mayChange location then .ok (root.erase location) else .error .notPermitted
  | some (.folder _ _) => if root.mayChange location then .error .isFolder else .error .notPermitted
  | none => .error .missing

/-! ## Temporary files -/

/-- The name of a temporary file: the label and eight digits. -/
def temporaryName (label : String) (i : Nat) : String :=
  let digits := Nat.toDigits 10 i
  "." ++ label ++ "." ++ String.ofList (List.replicate (8 - digits.length) '0' ++ digits) ++ ".tmp"

/-- The first name that is not taken, out of one more than there are entries. -/
def freeName (label : String) (entries : List (String × FileTree)) : String :=
  let names := (List.range (entries.length + 1)).map (temporaryName label)
  (names.find? fun name => (entries.lookup name).isNone).getD (temporaryName label 0)

/-- Make a new empty file that only its owner may use; the tree with it, and its path. -/
def makeTemporary (root : FileTree) (folder : Path) (label : String) : Except FileFault (FileTree × Path) := do
  match root.entryAt (← root.locate folder) with
  | some (.folder _ entries) =>
    let p := folder.extend [freeName label entries]
    return (← root.make (← root.locate p) (.file ⟨.temporary, .empty⟩), p)
  | some (.file _) => .error .notFolder
  | none => .error .missing

end ProtocolTypings.FileTree
