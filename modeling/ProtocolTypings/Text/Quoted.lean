import ProtocolTypings.Text.Unprintable

/-!
# Quoted texts

A text between quotes, such that no character of it can be mistaken for the end or for a line boundary. Single
quotes are used unless the text holds one and no double quote. The backslash, the quote in use and all
unprintable characters are escaped.
-/

namespace ProtocolTypings.Text

/-- The hexadecimal digits of a number, filled with zeros on the left. -/
def hexOfWidth (width n : Nat) : List Char :=
  let digits := Nat.toDigits 16 n
  List.replicate (width - digits.length) '0' ++ digits

/-- An escape that names the code point, as short as its size allows. -/
def escapeCode (c : Char) : List Char :=
  if c.toNat < 0x100 then '\\' :: 'x' :: hexOfWidth 2 c.toNat
  else if c.toNat < 0x10000 then '\\' :: 'u' :: hexOfWidth 4 c.toNat
  else '\\' :: 'U' :: hexOfWidth 8 c.toNat

def quotedChar (quote c : Char) : List Char :=
  if c == quote || c == '\\' then ['\\', c]
  else if c == '\n' then ['\\', 'n']
  else if c == '\r' then ['\\', 'r']
  else if c == '\t' then ['\\', 't']
  else if isPrintable c then [c]
  else escapeCode c

def quoteFor (cs : List Char) : Char :=
  if cs.contains '\'' && !cs.contains '"' then '"' else '\''

def quoted (s : String) : String :=
  let quote := quoteFor s.toList
  String.ofList (quote :: s.toList.flatMap (quotedChar quote) ++ [quote])

end ProtocolTypings.Text
