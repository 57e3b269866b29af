import ProtocolTypings.Schema.Shape
import ProtocolTypings.Typing.Sheet
import ProtocolTypings.Typing.Name

/-!
# Type expressions

The text of a shape in the declaration language. An object spreads over several lines, so the text depends on the
depth of the line on which it starts.
-/

namespace ProtocolTypings

/-- The union of the texts that a primitive is restricted to. -/
def unionText (values : List String) : String :=
  "(" ++ " | ".intercalate (values.map fun v => "'" ++ v ++ "'") ++ ")"

mutual
def Shape.typeText (unit : Json) (depth : Int) : Shape → Except Fault String
  | .ref _ target => .ok target
  | .array _ items => do return (← items.typeText unit depth) ++ "[]"
  | .bareArray _ => .ok "any[]"
  | .object _ properties => do
    let members ← membersText unit (depth + 1) properties
    return "\x7b\n" ++ members ++ (← indentation unit depth) ++ "\x7d"
  | .openObject _ => .ok "any"
  | .primitive _ "string" (some values) => .ok (unionText values)
  | .primitive _ kind _ => .ok kind
  | .unknown _ => .ok "any"

/-- One indented line for each property. -/
def membersText (unit : Json) (depth : Int) : List Property → Except Fault String
  | [] => .ok ""
  | p :: ps => do
    let line := (← indentation unit depth) ++ (← p.typeText unit depth) ++ ";\n"
    return line ++ (← membersText unit depth ps)

/-- The property with its type, and a question mark if it is optional. -/
def Property.typeText (unit : Json) (depth : Int) : Property → Except Fault String
  | ⟨name, shape, optional, _, _⟩ => do
    return Name.property name ++ (if optional then "?" else "") ++ ": " ++ (← shape.typeText unit depth)
end

end ProtocolTypings
