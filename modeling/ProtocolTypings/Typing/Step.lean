import ProtocolTypings.Typing.Depth

/-!
# Steps on a sheet

A sheet is used step by step. It may also be asked for the indentation, which changes nothing. A step that fails can
still leave something behind.
-/

namespace ProtocolTypings.Sheet

/-- One use of a sheet. -/
inductive Step where
  | add (text : String)
  | line (text : String)
  | beginBlock (header opening : String)
  | endBlock (closing : String)
  | comment (description : Json)
  /-- Ask for the indentation, that of the next line if no depth is given. -/
  | indent (depth : Option Int)
  | clear

/-- The sheet after an attempt, which answers nothing. One that fails leaves `s`. -/
def attempt (s : Sheet) : Except Fault Sheet → Sheet × Except Fault Json
  | .ok s => (s, .ok .null)
  | .error fault => (s, .error fault)

/-- The sheet that a step leaves, and how the step ended. A block whose closing line fails is closed all the same, and
a comment that fails after its first line leaves that line. -/
def perform (memory : Nat) (s : Sheet) : Step → Sheet × Except Fault Json
  | .add text => (s.add text, .ok .null)
  | .line text => s.attempt (s.line text)
  | .beginBlock header opening => s.attempt (s.beginBlock header opening)
  | .endBlock closing => { s with depth := s.depth - 1 }.attempt (s.endBlock closing)
  | .comment description => ((s.line "/**").toOption.getD s).attempt (s.comment description)
  | .indent none => (s, repeated s.depth s.unit)
  | .indent (some depth) => (s, repeatedAt memory s.unit depth)
  | .clear => (s.clear, .ok .null)

end ProtocolTypings.Sheet
