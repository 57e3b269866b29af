import ProtocolTypings.Fault
import ProtocolTypings.Json.Display
import ProtocolTypings.Text.Lines

/-!
# Sheets of indented text

A sheet holds the text so far and the number of blocks that are open. Each line starts with the indentation unit
once for every open block.
-/

namespace ProtocolTypings

/-- A list `n` times over. Copies of nothing are nothing, however many. -/
def copies {α : Type} (n : Nat) (xs : List α) : List α :=
  if xs.isEmpty then [] else (List.replicate n xs).flatten

theorem copies_eq_flatten {α : Type} (n : Nat) (xs : List α) : copies n xs = (List.replicate n xs).flatten := by
  cases xs <;> simp [copies]

/-- A value `n` times: a text or a list is repeated, a number is multiplied. -/
def repeated (n : Int) : Json → Except Fault Json
  | .str s => .ok (.str (String.ofList (copies n.toNat s.toList)))
  | .int m => .ok (.int (m * n))
  | .bool b => .ok (.int (b.toInt * n))
  | .real x => .ok (.real (x.mul (.ofInt n)))
  | .arr items => .ok (.arr (copies n.toNat items))
  | .null | .obj _ => .error (.misuse .indentNotRepeatable)

/-- The text of a value that is used as indentation. -/
def indentationText : Json → Except Fault String
  | .int n => if n.natAbs < Nat.pow 10 Json.maxDigits then .ok (toString n) else .error (.misuse .indentTooLong)
  | v => .ok v.display

/-- The text of the indentation unit `depth` times. -/
def indentation (unit : Json) (depth : Int) : Except Fault String :=
  repeated depth unit >>= indentationText

structure Sheet where
  unit : Json := .str "    "
  depth : Nat := 0
  text : String := ""

namespace Sheet

/-- Add a text as it is. -/
def add (s : Sheet) (text : String) : Sheet :=
  { s with text := s.text ++ text }

/-- Add one indented line, or a bare line end for an empty text. -/
def line (s : Sheet) (text : String) : Except Fault Sheet :=
  if text = "" then .ok (s.add "\n")
  else do return s.add ((← indentation s.unit s.depth) ++ text ++ "\n")

def beginBlock (s : Sheet) (header : String) (opening : String := " \x7b") : Except Fault Sheet := do
  let s ← s.line (header ++ opening)
  return { s with depth := s.depth + 1 }

/-- Close the innermost block; there has to be one. -/
def endBlock (s : Sheet) (closing : String := "\x7d") : Except Fault Sheet :=
  match s.depth with
  | 0 => .error (.refusal (.layout (.closeAtTop closing)))
  | depth + 1 => { s with depth }.line closing

def commentLines (s : Sheet) : List String → Except Fault Sheet
  | [] => .ok s
  | text :: rest => do (← s.line (" * " ++ text)).commentLines rest

/-- Add a description as a comment with one line for each of its own. A value that counts as no adds nothing. -/
def comment (s : Sheet) (description : Json) : Except Fault Sheet :=
  if description.truthy then do
    let s ← s.line "/**"
    match description with
    | .str text => (← s.commentLines (Text.lines text)).line " */"
    | _ => .error (.misuse .descriptionNotText)
  else
    .ok s

/-- Back to an empty text without open blocks. -/
def clear (s : Sheet) : Sheet :=
  { s with depth := 0, text := "" }

end Sheet

end ProtocolTypings
