/-!
# Blanks and lines

Blanks separate words without showing: the ASCII ones, the separators of Unicode, and the four information
separators. A line ends at a line feed, a carriage return, both together, a vertical tab, a form feed, one of the
first three information separators, a next-line character, or one of the two Unicode separators. A boundary at the
end of a text opens no further line.
-/

namespace ProtocolTypings.Text

def isBlank (c : Char) : Bool :=
  let n := c.toNat
  (0x09 ≤ n && n ≤ 0x0D) || (0x1C ≤ n && n ≤ 0x20) || n == 0x85 || n == 0xA0 || n == 0x1680 ||
    (0x2000 ≤ n && n ≤ 0x200A) || n == 0x2028 || n == 0x2029 || n == 0x202F || n == 0x205F || n == 0x3000

/-- The text without the blanks it starts with. -/
def dropBlanks (cs : List Char) : List Char :=
  cs.dropWhile isBlank

def endsLine (c : Char) : Bool :=
  let n := c.toNat
  (0x0A ≤ n && n ≤ 0x0D) || (0x1C ≤ n && n ≤ 0x1E) || n == 0x85 || n == 0x2028 || n == 0x2029

/-- The lines of a text whose current line has begun with `current`, given backwards. -/
def linesFrom (current : List Char) : List Char → List (List Char)
  | [] => if current.isEmpty then [] else [current.reverse]
  | '\r' :: '\n' :: rest => current.reverse :: linesFrom [] rest
  | c :: rest =>
    if endsLine c then current.reverse :: linesFrom [] rest else linesFrom (c :: current) rest

/-- The lines of a text, without their boundaries. -/
def lines (s : String) : List String :=
  (linesFrom [] s.toList).map String.ofList

end ProtocolTypings.Text
