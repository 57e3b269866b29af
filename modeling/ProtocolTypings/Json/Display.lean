import ProtocolTypings.Json.Basic
import ProtocolTypings.Number.Shortest
import ProtocolTypings.Text.Quoted

/-!
# Text of a value

How names, identifiers and kinds that are not texts are written: a text stands for itself at the top and is
quoted inside lists and objects.
-/

namespace ProtocolTypings.Json

mutual
/-- A value as it stands inside a list or an object. -/
def nested : Json → String
  | .null => "None"
  | .bool b => if b then "True" else "False"
  | .int n => toString n
  | .real x => x.text
  | .str s => Text.quoted s
  | .arr items => "[" ++ ", ".intercalate (nestedItems items) ++ "]"
  | .obj fields => "\x7b" ++ ", ".intercalate (nestedFields fields) ++ "\x7d"

def nestedItems : List Json → List String
  | [] => []
  | v :: vs => nested v :: nestedItems vs

def nestedFields : List (String × Json) → List String
  | [] => []
  | (k, v) :: rest => (Text.quoted k ++ ": " ++ nested v) :: nestedFields rest
end

/-- A value as the text of a name. -/
def display : Json → String
  | .str s => s
  | v => nested v

end ProtocolTypings.Json
