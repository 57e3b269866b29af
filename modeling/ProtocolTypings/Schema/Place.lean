/-!
# Places in a document

A place is a starting point, which stands for a document or a part of one, and the keys and positions that lead on
from there. Its text joins them by slashes.
-/

namespace ProtocolTypings

namespace Place

inductive Step where
  | key (name : String)
  | position (i : Nat)
deriving DecidableEq

def Step.text : Step → String
  | .key name => name
  | .position i => toString i

end Place

structure Place where
  base : String
  /-- From the starting point onwards. -/
  steps : List Place.Step
deriving DecidableEq, Inhabited

namespace Place

def start (base : String) : Place :=
  ⟨base, []⟩

/-- The document at a position in the list of all documents. -/
def document (i : Nat) : Place :=
  start ("#" ++ toString i)

def key (p : Place) (name : String) : Place :=
  { p with steps := p.steps ++ [.key name] }

def position (p : Place) (i : Nat) : Place :=
  { p with steps := p.steps ++ [.position i] }

def text (p : Place) : String :=
  p.steps.foldl (fun s step => s ++ "/" ++ step.text) p.base

end Place

end ProtocolTypings
