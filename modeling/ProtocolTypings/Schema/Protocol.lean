import ProtocolTypings.Schema.Reading
import ProtocolTypings.Schema.Reference

/-!
# Protocols of several documents

The domains of all documents follow one another in the order of the documents. A repeated domain name is noted and
not merged. References that stay unresolved are noted in a lenient reading and refused in a strict one.
-/

namespace ProtocolTypings.Schema

open Logged (note)

/-- The domains of the documents, the first of which is at position `i`. -/
def readDocuments (strict : Bool) (i : Nat) : List Json → Logged (List Domain)
  | [] => pure []
  | document :: rest => do
    let domains ← readDocument strict (.document i) document
    return domains ++ (← readDocuments strict (i + 1) rest)

/-- The names that occur earlier in the list or among `seen`, one for each occurrence after the first. -/
def repeatedNames (seen : List String) : List Domain → List String
  | [] => []
  | d :: ds =>
    if seen.contains d.name then d.name :: repeatedNames seen ds else repeatedNames (d.name :: seen) ds

def noteAll (level : Log.Level) (topic : Log.Topic) : List String → Logged Unit
  | [] => pure ()
  | message :: rest => do
    note level topic message
    noteAll level topic rest

/-- Report what the documents together leave unresolved. -/
def checkReferences (strict : Bool) (domains : List Domain) : Logged Unit :=
  match unresolved domains with
  | [] => pure ()
  | first :: rest =>
    if strict then refuse (.start "") (.unresolved (first :: rest))
    else note .warning .schemas (toString (rest.length + 1) ++ " unresolved references, first: " ++ first)

def readProtocol (strict : Bool) (documents : List Json) : Logged (List Domain) := do
  let domains ← readDocuments strict 0 documents
  noteAll .warning .schemas
    ((repeatedNames [] domains).map fun name => "Domain " ++ name ++ " is declared more than once")
  checkReferences strict domains
  return domains

end ProtocolTypings.Schema
