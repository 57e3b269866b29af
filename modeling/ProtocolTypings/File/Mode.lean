/-!
# Permission bits

The bits of a file or a folder as one number. Whoever runs the program owns all files and folders and has no
further rights, so the three bits of the owner decide.
-/

namespace ProtocolTypings

structure Mode where
  bits : Nat
deriving DecidableEq, Inhabited

namespace Mode

/-- The mode of a file that is made without a choice of it. -/
def newFile : Mode := ⟨0o644⟩

def newFolder : Mode := ⟨0o755⟩

/-- The mode of a temporary file, which only its owner may use. -/
def temporary : Mode := ⟨0o600⟩

/-- Twelve bits count: nine permissions, and three that change what it means to run a file. -/
def ofNat (n : Nat) : Mode :=
  ⟨n % 0o10000⟩

def readable (m : Mode) : Bool :=
  m.bits.testBit 8

def writable (m : Mode) : Bool :=
  m.bits.testBit 7

/-- May a path lead through the folder? -/
def searchable (m : Mode) : Bool :=
  m.bits.testBit 6

/-- The mode without one bit. -/
def drop (i : Nat) (m : Mode) : Mode :=
  if m.bits.testBit i then ⟨m.bits - Nat.pow 2 i⟩ else m

/-- The mode of a file that has been written. It no longer runs in the name of its owner, nor in that of its group
where the group may run it. -/
def written (m : Mode) : Mode :=
  let m := m.drop 11
  if m.bits.testBit 3 then m.drop 10 else m

end Mode

end ProtocolTypings
