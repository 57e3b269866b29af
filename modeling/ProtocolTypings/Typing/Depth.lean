import ProtocolTypings.Typing.TypeText

/-!
# Depths beyond the open blocks

Inside a module the depth counts open blocks and stays small. A depth that is asked for may be any integer, and then
the indentation has limits: a count of copies is a word of 64 bits, the copies have to be held, and a factor of a
floating-point number has to be one itself. They are found out in the order in which the text is written. How much can
be held is not known here: `memory` is the length of the longest text or list.
-/

namespace ProtocolTypings

/-- The counts of copies are from `-maxCopies - 1` to `maxCopies`. -/
def maxCopies : Int := Nat.pow 2 63 - 1

variable (memory : Nat)

/-- Why the indentation unit cannot be taken `depth` times. -/
def repetitionFault? (unit : Json) (depth : Int) : Option Misuse :=
  match unit with
  | .str s =>
    if depth < -maxCopies - 1 || maxCopies < depth || maxCopies < s.length * depth then some .depthTooLarge
    else if memory < s.length * depth then some .indentTooLarge
    else none
  | .arr items =>
    if depth < -maxCopies - 1 || maxCopies < depth then some .depthTooLarge
    else if memory < items.length * depth then some .indentTooLarge
    else none
  | .real _ => if (Binary64.ofInt depth).isFinite then none else some .depthTooLarge
  | _ => none

/-- The indentation unit `depth` times, for any depth. -/
def repeatedAt (unit : Json) (depth : Int) : Except Fault Json :=
  match repetitionFault? memory unit depth with
  | some cause => .error (.misuse cause)
  | none => repeated depth unit

mutual
/-- The depths at which the text of a shape takes the indentation unit, in order. An object takes it for its members
even if there are none. -/
def Shape.depths (depth : Int) : Shape → List Int
  | .array _ items => items.depths depth
  | .object _ properties => (depth + 1) :: (memberDepths (depth + 1) properties ++ [depth])
  | _ => []

def memberDepths (depth : Int) : List Property → List Int
  | [] => []
  | p :: ps => p.depths depth ++ memberDepths depth ps

def Property.depths (depth : Int) : Property → List Int
  | ⟨_, shape, _, _, _⟩ => shape.depths depth
end

/-- The text of a shape, for any depth. -/
def Shape.typeTextAt (unit : Json) (depth : Int) (shape : Shape) : Except Fault String :=
  match (shape.depths depth).findSome? (repetitionFault? memory unit) with
  | some cause => .error (.misuse cause)
  | none => shape.typeText unit depth

/-- The property with its type, for any depth. -/
def Property.typeTextAt (unit : Json) (depth : Int) (p : Property) : Except Fault String :=
  match (p.depths depth).findSome? (repetitionFault? memory unit) with
  | some cause => .error (.misuse cause)
  | none => p.typeText unit depth

end ProtocolTypings
