import ProtocolTypings.Json.Basic
import ProtocolTypings.Schema.Place

/-!
# Shapes and properties

A shape says which values a type, a parameter or a list element may take. Every shape knows the place of the record
that it was read from.
-/

namespace ProtocolTypings

structure Marks where
  experimental : Bool
  deprecated : Bool
deriving DecidableEq, Inhabited

mutual
inductive Shape where
  | ref (place : Place) (target : String)
  | array (place : Place) (items : Shape)
  /-- A list of unknown elements. -/
  | bareArray (place : Place)
  | object (place : Place) (properties : List Property)
  /-- An object of unknown properties. -/
  | openObject (place : Place)
  | primitive (place : Place) (kind : String) (values : Option (List String))
  | unknown (place : Place)

structure Property where
  name : String
  shape : Shape
  optional : Bool
  /-- The value as it stands in the document, null where there is none. -/
  description : Json
  marks : Marks
end

namespace Shape

def place : Shape → Place
  | .ref p _ | .array p _ | .bareArray p | .object p _ | .openObject p | .primitive p _ _ | .unknown p => p

/-- The shape of any value at all. -/
def any (place : Place) : Shape :=
  .primitive place "any" none

end Shape

instance : Inhabited Shape := ⟨.unknown default⟩

instance : Inhabited Property := ⟨⟨"", default, false, .null, default⟩⟩

end ProtocolTypings
