import ProtocolTypings.Entries
import ProtocolTypings.Json.Basic

/-!
# Reading JSON

A text is cut into tokens, and each token moves a machine that keeps the lists and objects still open. Besides the
standard numbers the names `NaN`, `Infinity` and `-Infinity` are read. A repeated key keeps its first place and
takes the last value. A text may be written with half of a surrogate pair that stands alone; no text here can hold it,
and the reading fails.
-/

namespace ProtocolTypings.Json

inductive ReadFault where
  | malformed
  /-- An integer of more digits than are converted. -/
  | numberTooLong
  /-- A text with half of a surrogate pair that stands alone. -/
  | loneHalf
deriving DecidableEq

namespace Reader

inductive Token where
  | scalar (value : Json)
  | text (s : String)
  | openList
  | closeList
  | openObject
  | closeObject
  | comma
  | colon

/-! ## Tokens -/

def isSpace (c : Char) : Bool :=
  c == ' ' || c == '\t' || c == '\n' || c == '\r'

/-- The rest of a text that starts with `word`. -/
def after? (word : String) (cs : List Char) : Option (List Char) :=
  if word.toList.isPrefixOf cs then some (cs.drop word.length) else none

def hexDigit? (c : Char) : Option Nat :=
  if '0' ≤ c && c ≤ '9' then some (c.toNat - '0'.toNat)
  else if 'a' ≤ c && c ≤ 'f' then some (c.toNat - 'a'.toNat + 10)
  else if 'A' ≤ c && c ≤ 'F' then some (c.toNat - 'A'.toNat + 10)
  else none

def hexUnit? (a b c d : Char) : Option Nat := do
  return (((← hexDigit? a) * 16 + (← hexDigit? b)) * 16 + (← hexDigit? c)) * 16 + (← hexDigit? d)

def escaped? : Char → Option Char
  | '"' => some '"'
  | '\\' => some '\\'
  | '/' => some '/'
  | 'b' => some '\x08'
  | 'f' => some '\x0c'
  | 'n' => some '\n'
  | 'r' => some '\r'
  | 't' => some '\t'
  | _ => none

/-- The code points of a text after its opening quote, backwards, and what follows the closing quote. -/
def textBody (done : List Nat) : List Char → Option (List Nat × List Char)
  | '"' :: rest => some (done, rest)
  | '\\' :: 'u' :: a :: b :: c :: d :: rest =>
    match hexUnit? a b c d with
    | some n => textBody (n :: done) rest
    | none => none
  | '\\' :: c :: rest =>
    match escaped? c with
    | some e => textBody (e.toNat :: done) rest
    | none => none
  | c :: rest => if c.toNat < 0x20 then none else textBody (c.toNat :: done) rest
  | [] => none

def isHighHalf (code : Nat) : Bool :=
  0xD800 ≤ code && code < 0xDC00

def isLowHalf (code : Nat) : Bool :=
  0xDC00 ≤ code && code < 0xE000

/-- Two halves of a pair make one character. A half that stands alone makes none. -/
def joinPairs : List Nat → Option (List Char)
  | [] => some []
  | high :: low :: rest =>
    if isHighHalf high && isLowHalf low then do
      return Char.ofNat (0x10000 + (high - 0xD800) * 0x400 + (low - 0xDC00)) :: (← joinPairs rest)
    else if isHighHalf high || isLowHalf high then none
    else do return Char.ofNat high :: (← joinPairs (low :: rest))
  | [code] => if isHighHalf code || isLowHalf code then none else some [Char.ofNat code]

def natOfDigits (cs : List Char) : Nat :=
  cs.foldl (fun n c => n * 10 + (c.toNat - '0'.toNat)) 0

/-- The digits that a text starts with, and the rest. -/
def digits (cs : List Char) : List Char × List Char :=
  (cs.takeWhile Char.isDigit, cs.dropWhile Char.isDigit)

/-- A fraction: a point with at least one digit after it. -/
def fraction (cs : List Char) : Option (List Char × List Char) :=
  match cs with
  | '.' :: rest => if (digits rest).1.isEmpty then none else some (digits rest)
  | _ => none

/-- An exponent: its mark, an optional sign and at least one digit. -/
def power (cs : List Char) : Option (Int × List Char) :=
  match cs with
  | c :: rest =>
    if c == 'e' || c == 'E' then
      let (negative, body) :=
        match rest with
        | '-' :: r => (true, r)
        | '+' :: r => (false, r)
        | r => (false, r)
      let (ds, rest) := digits body
      let n : Int := natOfDigits ds
      if ds.isEmpty then none else some (if negative then -n else n, rest)
    else
      none
  | [] => none

def number (negative : Bool) (cs : List Char) : Except ReadFault (Json × List Char) :=
  let (all, _) := digits cs
  let (whole, rest) := if all.head? == some '0' then (['0'], cs.drop 1) else digits cs
  if whole.isEmpty then
    .error .malformed
  else
    match fraction rest, power ((fraction rest).elim rest (·.2)) with
    | none, none =>
      let n : Int := natOfDigits whole
      if maxDigits < whole.length then .error .numberTooLong
      else .ok (.int (if negative then -n else n), rest)
    | f, p =>
      let places := f.elim [] (·.1)
      let scale := p.elim 0 (·.1)
      .ok (.real (.ofDecimal negative (natOfDigits (whole ++ places)) (scale - places.length)),
        p.elim (f.elim rest (·.2)) (·.2))

/-- The token that a text starts with, and the rest. -/
def token : List Char → Except ReadFault (Token × List Char)
  | '[' :: rest => .ok (.openList, rest)
  | ']' :: rest => .ok (.closeList, rest)
  | '\x7b' :: rest => .ok (.openObject, rest)
  | '\x7d' :: rest => .ok (.closeObject, rest)
  | ',' :: rest => .ok (.comma, rest)
  | ':' :: rest => .ok (.colon, rest)
  | '"' :: rest =>
    match textBody [] rest with
    | some (codes, rest) =>
      match joinPairs codes.reverse with
      | some cs => .ok (.text (String.ofList cs), rest)
      | none => .error .loneHalf
    | none => .error .malformed
  | '-' :: rest =>
    match after? "Infinity" rest with
    | some rest => .ok (.scalar (.real (.infinity true)), rest)
    | none => (number true rest).map fun (v, rest) => (.scalar v, rest)
  | cs =>
    let words : List (String × Json) :=
      [("null", .null), ("true", .bool true), ("false", .bool false), ("NaN", .real .nan),
        ("Infinity", .real (.infinity false))]
    match words.findSome? fun (word, v) => (after? word cs).map fun rest => (Token.scalar v, rest) with
    | some found => .ok found
    | none => (number false cs).map fun (v, rest) => (.scalar v, rest)

/-! ## The machine -/

/-- A list or an object that is still open: what it holds so far, a list backwards. -/
inductive Frame where
  | list (done : List Json)
  | object (done : List (String × Json))
  | member (done : List (String × Json)) (key : String)

/-- What may come next. -/
inductive Expect where
  | value
  | itemOrEnd
  | keyOrEnd
  | key
  | colon
  | commaOrEnd
deriving DecidableEq

/-- Why a text cannot be read that has no token here. A number is too long only where a value is read, and a half
stands alone only where a text is. -/
def Expect.fault : Expect → ReadFault → ReadFault
  | .value, fault | .itemOrEnd, fault => fault
  | .key, .loneHalf | .keyOrEnd, .loneHalf => .loneHalf
  | _, _ => .malformed

inductive State where
  | going (stack : List Frame) (expect : Expect)
  | done (value : Json)

def start : State :=
  .going [] .value

/-- A whole value has been read. -/
def complete (value : Json) : List Frame → Option State
  | [] => some (.done value)
  | .list done :: stack => some (.going (.list (value :: done) :: stack) .commaOrEnd)
  | .member done key :: stack => some (.going (.object (Entries.put key value done) :: stack) .commaOrEnd)
  | .object _ :: _ => none

def advance (stack : List Frame) (expect : Expect) (token : Token) : Option State :=
  match expect, token with
  | .value, .scalar v | .itemOrEnd, .scalar v => complete v stack
  | .value, .text s | .itemOrEnd, .text s => complete (.str s) stack
  | .value, .openList | .itemOrEnd, .openList => some (.going (.list [] :: stack) .itemOrEnd)
  | .value, .openObject | .itemOrEnd, .openObject => some (.going (.object [] :: stack) .keyOrEnd)
  | .key, .text s | .keyOrEnd, .text s =>
    match stack with
    | .object done :: stack => some (.going (.member done s :: stack) .colon)
    | _ => none
  | .colon, .colon => some (.going stack .value)
  | .commaOrEnd, .comma =>
    match stack with
    | .list _ :: _ => some (.going stack .value)
    | .object _ :: _ => some (.going stack .key)
    | _ => none
  | .itemOrEnd, .closeList | .commaOrEnd, .closeList =>
    match stack with
    | .list done :: stack => complete (.arr done.reverse) stack
    | _ => none
  | .keyOrEnd, .closeObject | .commaOrEnd, .closeObject =>
    match stack with
    | .object done :: stack => complete (.obj done) stack
    | _ => none
  | _, _ => none

/-- Read tokens until a value is whole; nothing but blanks may follow it. Each step takes at least one character,
so `fuel` is enough when it exceeds their number. -/
def run : (fuel : Nat) → State → List Char → Except ReadFault Json
  | 0, _, _ => .error .malformed
  | _ + 1, .done value, cs => if (cs.dropWhile isSpace).isEmpty then .ok value else .error .malformed
  | fuel + 1, .going stack expect, cs => do
    let (t, rest) ← (token (cs.dropWhile isSpace)).mapError expect.fault
    match advance stack expect t with
    | some state => run fuel state rest
    | none => .error .malformed

end Reader

/-- The value that a text writes. -/
def read (s : String) : Except ReadFault Json :=
  Reader.run (s.length + 2) Reader.start s.toList

end ProtocolTypings.Json
