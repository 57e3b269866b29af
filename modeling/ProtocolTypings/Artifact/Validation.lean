import ProtocolTypings.Fault
import ProtocolTypings.Text.Lines

/-!
# Validation

A module is sound if its code has as many opening braces as closing ones and it exports something by default. Lines
that start like a comment are no code: descriptions may hold any braces.
-/

namespace ProtocolTypings.Artifact

def isCommentLine (line : String) : Bool :=
  match Text.dropBlanks line.toList with
  | '/' :: '*' :: _ => true
  | '*' :: _ => true
  | _ => false

def codeLines (content : String) : List String :=
  (Text.lines content).filter (!isCommentLine ·)

/-- How often a character occurs in some lines. -/
def countIn (c : Char) : List String → Nat
  | [] => 0
  | line :: rest => line.toList.count c + countIn c rest

/-- Does `word` occur in the text? -/
def occursIn (word : List Char) : List Char → Bool
  | [] => word.isEmpty
  | c :: cs => word.isPrefixOf (c :: cs) || occursIn word cs

def defaultExport : String :=
  "export default "

def validate (content : String) : Except Fault Unit :=
  let opened := countIn '\x7b' (codeLines content)
  let closed := countIn '\x7d' (codeLines content)
  if opened != closed then .error (.refusal (.artifact (.unbalanced opened closed)))
  else if occursIn defaultExport.toList content.toList then .ok ()
  else .error (.refusal (.artifact .noDefaultExport))

end ProtocolTypings.Artifact
