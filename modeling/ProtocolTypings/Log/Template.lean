import ProtocolTypings.Json.Display
import ProtocolTypings.Number.Rounded

/-!
# Message templates

A template is a text with directives, each a percent sign, options and a letter that says how the next argument is
written; two percent signs stand for one. An argument that is an object and the only one may be picked from by key.
A template that asks for an argument that is not there or is of the wrong kind, or leaves one over, cannot be filled
in. Nor can one with a field that cannot be held: `memory` is the length of the longest field.
-/

namespace ProtocolTypings.Log

/-! ## Directives -/

structure Flags where
  left : Bool := false
  plus : Bool := false
  blank : Bool := false
  alternate : Bool := false
  zero : Bool := false

structure Directive where
  flags : Flags
  width : Nat
  precision : Option Nat
  letter : Char

/-- The arguments still to be used: a list, or an object with the value that is picked from it. -/
inductive Arguments where
  | listed (rest : List Json)
  | keyed (fields : List (String × Json)) (picked : Option Json)

def Arguments.ofList : List Json → Arguments
  | [.obj (field :: fields)] => .keyed (field :: fields) (some (.obj (field :: fields)))
  | args => .listed args

def Arguments.next? : Arguments → Option (Json × Arguments)
  | .listed (arg :: rest) => some (arg, .listed rest)
  | .keyed fields (some arg) => some (arg, .keyed fields none)
  | _ => none

def Arguments.pick? (key : String) : Arguments → Option Arguments
  | .keyed fields _ => (fields.lookup key).map fun arg => .keyed fields (some arg)
  | .listed _ => none

def Arguments.allUsed : Arguments → Bool
  | .listed rest => rest.isEmpty
  | .keyed _ _ => true

/-- The text up to the parenthesis that closes one already open, and what follows it. -/
def keyText (depth : Nat) (done : List Char) : List Char → Option (List Char × List Char)
  | [] => none
  | ')' :: rest =>
    match depth with
    | 0 => some (done.reverse, rest)
    | depth + 1 => keyText depth (')' :: done) rest
  | c :: rest => keyText (if c == '(' then depth + 1 else depth) (c :: done) rest

def readFlags (flags : Flags) : List Char → Flags × List Char
  | '-' :: rest => readFlags { flags with left := true } rest
  | '+' :: rest => readFlags { flags with plus := true } rest
  | ' ' :: rest => readFlags { flags with blank := true } rest
  | '#' :: rest => readFlags { flags with alternate := true } rest
  | '0' :: rest => readFlags { flags with zero := true } rest
  | rest => (flags, rest)

def natOf (digits : List Char) : Nat :=
  digits.foldl (fun n c => n * 10 + (c.toNat - '0'.toNat)) 0

def integer? : Json → Option Int
  | .int n => some n
  | .bool b => some b.toInt
  | _ => none

/-- Widths are words of 64 bits, and precisions of 32. -/
def widthLimit : Nat := Nat.pow 2 63

def precisionLimit : Nat := Nat.pow 2 31

/-- A size below `limit`: digits, none of them for zero, or a star for the next argument, which may be as low as
`-limit`. -/
def readSize (limit : Nat) (args : Arguments) (cs : List Char) : Option (Int × Arguments × List Char) := do
  let (n, args, rest) ← match cs with
    | '*' :: rest => do
      let (arg, args) ← args.next?
      pure (← integer? arg, args, rest)
    | _ => some ((natOf (cs.takeWhile Char.isDigit) : Int), args, cs.dropWhile Char.isDigit)
  if -limit ≤ n && n < limit then some (n, args, rest) else none

/-- The width that a size stands for. The lowest size has no opposite among the sizes and asks for none. -/
def widthOf (size : Int) : Nat :=
  if size = -widthLimit then 0 else size.natAbs

/-- The directive that follows a percent sign. A negative width asks for blanks on the right. -/
def readDirective (args : Arguments) (cs : List Char) : Option (Directive × Arguments × List Char) := do
  let (args, cs) ← match cs with
    | '(' :: rest => do
      let (key, rest) ← keyText 0 [] rest
      pure (← args.pick? (String.ofList key), rest)
    | _ => some (args, cs)
  let (flags, cs) := readFlags {} cs
  let (width, args, cs) ← readSize widthLimit args cs
  let flags := if width < 0 then { flags with left := true } else flags
  let (precision, args, cs) ← match cs with
    | '.' :: rest => do
      let (n, args, cs) ← readSize precisionLimit args rest
      pure (some n.toNat, args, cs)
    | _ => some (none, args, cs)
  let cs := match cs with
    | 'h' :: rest | 'l' :: rest | 'L' :: rest => rest
    | _ => cs
  match cs with
  | letter :: rest => some (⟨flags, widthOf width, precision, letter⟩, args, rest)
  | [] => none

/-! ## Writing an argument -/

def upperCase (cs : List Char) : List Char :=
  cs.map Char.toUpper

/-- Fill up to the width. Zeros go between the sign and the digits, blanks around the whole. -/
def Directive.pad (d : Directive) (zero : Bool) (sign body : List Char) : List Char :=
  let missing := d.width - (sign.length + body.length)
  if d.flags.left then sign ++ body ++ List.replicate missing ' '
  else if zero then sign ++ List.replicate missing '0' ++ body
  else List.replicate missing ' ' ++ sign ++ body

def Directive.sign (d : Directive) (negative : Bool) : List Char :=
  if negative then ['-'] else if d.flags.plus then ['+'] else if d.flags.blank then [' '] else []

def Directive.textOf (d : Directive) (s : String) : List Char :=
  d.pad false [] (d.precision.elim s.toList (s.toList.take ·))

section

variable (memory : Nat)

/-- An integer in a base, with a mark of the base before its digits if there is one. -/
def Directive.writeInteger? (d : Directive) (base : Nat) (mark : List Char) (n : Int) : Option (List Char) :=
  let least := d.precision.getD 0
  if memory < least then none
  else
    let digits := Nat.toDigits base n.natAbs
    let digits := List.replicate (least - digits.length) '0' ++ digits
    some (d.pad d.flags.zero (d.sign (n < 0) ++ if d.flags.alternate then mark else []) digits)

/-- The integer part of a number. -/
def whole? : Json → Option Int
  | .real x => x.truncate?
  | v => integer? v

/-- A number as a floating-point one, unless it is beyond them all. -/
def real? : Json → Option Binary64
  | .real x => some x
  | v => do
    let x := Binary64.ofInt (← integer? v)
    if x.isFinite then some x else none

/-- The magnitude of a number. Only a field that is filled with zeros can be too long. One digit more than the
places of an exponential form is asked for, and the largest count has no successor: it leaves no places. -/
def Directive.magnitude? (d : Directive) (x : Binary64) : Option (List Char) :=
  let places := d.precision.getD 6
  let short := places ≤ memory
  if x.isNaN then some ['n', 'a', 'n']
  else if !x.isFinite then some ['i', 'n', 'f']
  else match d.letter.toLower with
    | 'f' => if short then some (x.fixedText places d.flags.alternate) else none
    | 'e' =>
      if places + 1 = precisionLimit then some (x.exponentForm 0 d.flags.alternate)
      else if short then some (x.exponentForm places d.flags.alternate)
      else none
    | _ => if short || !d.flags.alternate then some (x.generalForm places d.flags.alternate) else none

def Directive.writeReal? (d : Directive) (x : Binary64) : Option (List Char) := do
  let body ← d.magnitude? memory x
  let body := if d.letter.isUpper then upperCase body else body
  return d.pad d.flags.zero (d.sign (x.isNegative && !x.isNaN)) body

def character? : Json → Option (List Char)
  | .str s => if s.length = 1 then some s.toList else none
  | v => do
    let n ← integer? v
    if 0 ≤ n && n.toNat.isValidChar then some [Char.ofNat n.toNat] else none

/-- The text of a value as in a list, with all characters beyond ASCII escaped. -/
def asciiText (v : Json) : String :=
  String.ofList (v.nested.toList.flatMap fun c => if c.toNat < 0x80 then [c] else Text.escapeCode c)

def Directive.write? (d : Directive) (arg : Json) : Option (List Char) :=
  if memory < d.width then none
  else match d.letter with
  | 's' => some (d.textOf arg.display)
  | 'r' => some (d.textOf arg.nested)
  | 'a' => some (d.textOf (asciiText arg))
  | 'd' | 'i' | 'u' => do d.writeInteger? memory 10 [] (← whole? arg)
  | 'o' => do d.writeInteger? memory 8 ['0', 'o'] (← integer? arg)
  | 'x' => do d.writeInteger? memory 16 ['0', 'x'] (← integer? arg)
  | 'X' => do return upperCase (← d.writeInteger? memory 16 ['0', 'x'] (← integer? arg))
  | 'e' | 'E' | 'f' | 'F' | 'g' | 'G' => do d.writeReal? memory (← real? arg)
  | 'c' => (character? arg).map (d.pad false [])
  | _ => none

/-! ## Filling in -/

/-- Fill in the rest of a template. Each step takes at least one character, so `fuel` is enough when it exceeds
their number. -/
def fillFrom : (fuel : Nat) → Arguments → List Char → Option (List Char)
  | 0, _, _ => none
  | _ + 1, args, [] => if args.allUsed then some [] else none
  | fuel + 1, args, '%' :: '%' :: cs => do return '%' :: (← fillFrom fuel args cs)
  | fuel + 1, args, '%' :: cs => do
    let (d, args, rest) ← readDirective args cs
    let (arg, args) ← args.next?
    return (← d.write? memory arg) ++ (← fillFrom fuel args rest)
  | fuel + 1, args, c :: cs => do return c :: (← fillFrom fuel args cs)

/-- The message of a template and its arguments. Without arguments the template is the message. -/
def fill (template : String) (args : List Json) : Option String :=
  if args.isEmpty then some template
  else (fillFrom memory (template.length + 1) (.ofList args) template.toList).map String.ofList

end

end ProtocolTypings.Log
