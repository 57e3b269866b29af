import ProtocolTypings.Entries
import ProtocolTypings.Fault
import ProtocolTypings.File.Mode
import ProtocolTypings.File.Path

/-!
# File trees

Folders and files with their contents and permission bits. A path is followed from the root component by component;
each but the last has to name a folder that may be searched, and a pair of points leads back to the folder above.
-/

namespace ProtocolTypings

structure StoredFile where
  mode : Mode
  bytes : ByteArray

inductive FileTree where
  | file (file : StoredFile)
  | folder (mode : Mode) (entries : List (String × FileTree))

namespace FileTree

/-- A new folder. -/
def empty : FileTree :=
  .folder .newFolder []

/-- What a location holds. A location is a path without pairs of points. -/
def entryAt : List String → FileTree → Option FileTree
  | [], tree => some tree
  | c :: cs, .folder _ entries => (entries.lookup c).bind (entryAt cs)
  | _ :: _, .file _ => none

/-- The tree with a new entry at a location. -/
def put : FileTree → List String → FileTree → FileTree
  | _, [], new => new
  | .folder mode entries, c :: cs, new =>
    .folder mode (Entries.put c (put ((entries.lookup c).getD empty) cs new) entries)
  | .file f, _ :: _, _ => .file f

/-- The tree without the entry at a location. -/
def erase : List String → FileTree → FileTree
  | [], tree => tree
  | [c], .folder mode entries => .folder mode (Entries.erase c entries)
  | c :: cs, .folder mode entries =>
    match entries.lookup c with
    | some below => .folder mode (Entries.put c (erase cs below) entries)
    | none => .folder mode entries
  | _ :: _, .file f => .file f

/-! ## Following paths -/

/-- The longest name of an entry, in bytes. -/
def maxName : Nat := 255

/-- The longest text of a path, in bytes. -/
def maxPath : Nat := 4095

/-- The location that components lead to from the location `done`. -/
def follow (root : FileTree) (done : List String) : List String → Except FileFault (List String)
  | [] => .ok done
  | c :: rest =>
    match root.entryAt done with
    | none => .error .missing
    | some (.file _) => .error .notFolder
    | some (.folder mode _) =>
      if !mode.searchable then .error .notPermitted
      else if c = ".." then follow root done.dropLast rest
      else if maxName < c.utf8ByteSize then .error .nameTooLong
      else follow root (done ++ [c]) rest

/-- The location of a path. All but its last component exist; the last one need not. -/
def locate (root : FileTree) (p : Path) : Except FileFault (List String) :=
  if p.hasNull then .error .nameWithNull
  else if maxPath < p.text.utf8ByteSize then .error .nameTooLong
  else follow root [] p.components

/-- What a path leads to. -/
def find (root : FileTree) (p : Path) : Except FileFault FileTree := do
  match root.entryAt (← locate root p) with
  | some tree => .ok tree
  | none => .error .missing

/-! ## Listing -/

mutual
/-- The files and folders from `here` on, each by its location; a folder comes before what it holds. What a folder
holds shows if the folder may be read and is `reached`, that is, lies in one that may be searched. -/
def listingFrom (here : List String) (reached : Bool) : FileTree → List (List String × Option StoredFile)
  | .file f => [(here, some f)]
  | .folder mode entries =>
    (here, none) :: if reached && mode.readable then listingOf here mode.searchable entries else []

def listingOf (here : List String) (reached : Bool) :
    List (String × FileTree) → List (List String × Option StoredFile)
  | [] => []
  | (name, tree) :: rest => listingFrom (here ++ [name]) reached tree ++ listingOf here reached rest
end

/-- The files and folders of a tree. -/
def listing (root : FileTree) : List (List String × Option StoredFile) :=
  listingFrom [] true root

end FileTree

end ProtocolTypings
