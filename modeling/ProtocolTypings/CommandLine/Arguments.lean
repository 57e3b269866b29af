/-!
# Command-line arguments

Options may stand among the places. A word that starts with a dash is an option, or several one-letter options in a
row; after a double dash, and for a dash alone, it is a place. The last place is the output folder, and at least one
schema comes before it.
-/

namespace ProtocolTypings.CommandLine

/-- What the options and places of a command line ask for. -/
structure Invocation where
  config : Option String := none
  strict : Bool := false
  check : Bool := false
  verbose : Bool := false
  quiet : Bool := false
  help : Bool := false
  places : List String := []

namespace Invocation

/-- An option that takes no value. -/
def switch? (name : String) (i : Invocation) : Option Invocation :=
  match name with
  | "strict" => some { i with strict := true }
  | "check" => some { i with check := true }
  | "verbose" => some { i with verbose := true }
  | "quiet" => some { i with quiet := true }
  | "help" => some { i with help := true }
  | _ => none

/-- The option of one letter and no value. -/
def letterName? : Char → Option String
  | 'v' => some "verbose"
  | 'q' => some "quiet"
  | _ => none

/-- One-letter options in a row. The one with a value takes it from the rest of the word or from the next word. -/
def letters (i : Invocation) (following : List String) : List Char → Option (Invocation × List String)
  | [] => some (i, following)
  | ['c'] =>
    match following with
    | value :: rest => some ({ i with config := some value }, rest)
    | [] => none
  | 'c' :: value => some ({ i with config := some (String.ofList value) }, following)
  | c :: rest => do ((← letterName? c >>= (switch? · i))).letters following rest

/-- A named option, with a value after an equals sign or, where it needs one, in the next word. -/
def named (i : Invocation) (following : List String) (word : List Char) : Option (Invocation × List String) :=
  let name := String.ofList (word.takeWhile (· != '='))
  match word.dropWhile (· != '=') with
  | _ :: value => if name = "config" then some ({ i with config := some (String.ofList value) }, following) else none
  | [] =>
    if name = "config" then
      match following with
      | value :: rest => some ({ i with config := some value }, rest)
      | [] => none
    else
      (switch? name i).map (·, following)

def addPlaces (i : Invocation) (places : List String) : Invocation :=
  { i with places := i.places ++ places }

/-- Take one word after the other. Each step takes at least one, so their number is enough `fuel`. -/
def takeWords : (fuel : Nat) → Invocation → List String → Option Invocation
  | _, i, [] => some i
  | 0, _, _ => none
  | fuel + 1, i, word :: rest =>
    match word.toList with
    | ['-', '-'] => some (i.addPlaces rest)
    | '-' :: '-' :: name => do
      let (i, rest) ← i.named rest name
      takeWords fuel i rest
    | '-' :: c :: more => do
      let (i, rest) ← i.letters rest (c :: more)
      takeWords fuel i rest
    | _ => takeWords fuel (i.addPlaces [word]) rest

/-- The invocation that the words make; none if they are not understood. -/
def ofWords? (words : List String) : Option Invocation :=
  takeWords words.length {} words

/-- The schemas are all places but the last. -/
def schemas (i : Invocation) : List String :=
  i.places.dropLast

/-- The output folder is the last place. -/
def folder? (i : Invocation) : Option String :=
  i.places.getLast?

end Invocation

end ProtocolTypings.CommandLine
