import ProtocolTypings.Json.Basic
import ProtocolTypings.Number.Shortest
import ProtocolTypings.Text.Quoted

/-!
# Writing JSON

A value on one line in printable ASCII: a blank after each comma and colon, and a Unicode escape, or a pair of
them, for every other character. The numbers that are none of the finite ones are written by name.
-/

namespace ProtocolTypings.Json

def unicodeEscape (n : Nat) : List Char :=
  '\\' :: 'u' :: Text.hexOfWidth 4 n

def escapedChar (c : Char) : List Char :=
  if c == '"' || c == '\\' then ['\\', c]
  else if c == '\n' then ['\\', 'n']
  else if c == '\r' then ['\\', 'r']
  else if c == '\t' then ['\\', 't']
  else if c == '\x08' then ['\\', 'b']
  else if c == '\x0c' then ['\\', 'f']
  else if 0x20 ≤ c.toNat && c.toNat ≤ 0x7E then [c]
  else if c.toNat < 0x10000 then unicodeEscape c.toNat
  else
    let n := c.toNat - 0x10000
    unicodeEscape (0xD800 + n / 0x400) ++ unicodeEscape (0xDC00 + n % 0x400)

def writeText (s : String) : String :=
  String.ofList ('"' :: s.toList.flatMap escapedChar ++ ['"'])

def writeReal (x : Binary64) : String :=
  if x.isNaN then "NaN"
  else if x.isFinite then x.text
  else if x.isNegative then "-Infinity" else "Infinity"

mutual
def write : Json → String
  | .null => "null"
  | .bool b => if b then "true" else "false"
  | .int n => toString n
  | .real x => writeReal x
  | .str s => writeText s
  | .arr items => "[" ++ ", ".intercalate (writeItems items) ++ "]"
  | .obj fields => "\x7b" ++ ", ".intercalate (writeFields fields) ++ "\x7d"

def writeItems : List Json → List String
  | [] => []
  | v :: vs => write v :: writeItems vs

def writeFields : List (String × Json) → List String
  | [] => []
  | (k, v) :: rest => (writeText k ++ ": " ++ write v) :: writeFields rest
end

end ProtocolTypings.Json
