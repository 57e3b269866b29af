/-!
# Paths

An absolute path is the list of its components below the root. Empty components and single points are dropped
when a text is read; a pair of points stays, because what it leads to depends on the files.
-/

namespace ProtocolTypings

/-- The slashes that a path begins with. Two are told apart from one, though they lead to the same root; more than two
are one. -/
inductive Path.Anchor where
  | one
  | two
deriving DecidableEq, Inhabited

structure Path where
  components : List String
  anchor : Path.Anchor := .one
deriving DecidableEq, Inhabited

namespace Path

/-- The pieces of a text between the occurrences of a separator. -/
def cut (separator : Char) : List Char → List (List Char)
  | [] => [[]]
  | c :: cs =>
    if c = separator then [] :: cut separator cs
    else
      match cut separator cs with
      | [] => [[c]]
      | piece :: pieces => (c :: piece) :: pieces

def componentsOf (s : String) : List String :=
  ((cut '/' s.toList).map String.ofList).filter fun c => c != "" && c != "."

/-- The anchor that a text begins with; none unless it begins with a slash. -/
def anchorOf? : List Char → Option Anchor
  | '/' :: '/' :: '/' :: _ => some .one
  | '/' :: '/' :: _ => some .two
  | '/' :: _ => some .one
  | _ => none

/-- A path that leads on from a folder. -/
def extend (base : Path) (names : List String) : Path :=
  { base with components := base.components ++ names }

/-- The path of a text as seen from a folder. -/
def resolve (base : Path) (s : String) : Path :=
  match anchorOf? s.toList with
  | some anchor => { components := componentsOf s, anchor }
  | none => base.extend (componentsOf s)

def Anchor.text : Anchor → String
  | .one => "/"
  | .two => "//"

def text (p : Path) : String :=
  p.anchor.text ++ "/".intercalate p.components

def parent (p : Path) : Path :=
  { p with components := p.components.dropLast }

/-- Is there a null character in the path? -/
def hasNull (p : Path) : Bool :=
  p.components.any (·.toList.contains '\x00')

/-- The last component, empty for the root. -/
def name (p : Path) : String :=
  p.components.getLastD ""

def undoPairs (done : List String) : List String → List String
  | [] => done
  | c :: rest => undoPairs (if c = ".." then done.dropLast else done ++ [c]) rest

/-- The path without pairs of points, each taken to undo the component before it, and with one slash before it. -/
def straighten (p : Path) : Path :=
  { components := undoPairs [] p.components }

/-! ## File names -/

/-- The text before and after the last point; none without a point. -/
def splitLastPoint? (cs : List Char) : Option (List Char × List Char) :=
  match cs.reverse.dropWhile (· != '.') with
  | [] => none
  | _ :: before => some (before.reverse, (cs.reverse.takeWhile (· != '.')).reverse)

/-- A file name without its last extension. A point at either end begins no extension. -/
def stem (name : String) : String :=
  match splitLastPoint? name.toList with
  | some (before, after) => if before.isEmpty || after.isEmpty then name else String.ofList before
  | none => name

end Path

end ProtocolTypings
