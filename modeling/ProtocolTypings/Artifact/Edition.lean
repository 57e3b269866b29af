import ProtocolTypings.Schema.Protocol
import ProtocolTypings.Settings
import ProtocolTypings.Typing.ApiModule
import ProtocolTypings.Typing.MappingModule
import ProtocolTypings.Typing.ProtocolModule

/-!
# Editions

An edition is a protocol together with the settings under which it is published. From its domains come three
modules, each an artifact with the file name that the settings give it.
-/

namespace ProtocolTypings

/-- A module text and the value that names its file. -/
structure Artifact where
  file : Json
  text : String

structure Edition where
  domains : List Domain
  settings : Settings
  /-- The name of the protocol module, taken from its file name. -/
  protocol : String

namespace Artifact

/-- Do two values name the same file? Numbers are compared by their value, and true counts as one. -/
def sameFile : Json → Json → Bool
  | .null, .null => true
  | .str a, .str b => a == b
  | a, b =>
    match number? a, number? b with
    | some (.inl m), some (.inl n) => m == n
    | some (.inl n), some (.inr x) | some (.inr x), some (.inl n) => x.equalsInt n
    | some (.inr x), some (.inr y) => x.sameValue y
    | _, _ => false
where
  number? : Json → Option (Int ⊕ Binary64)
    | .bool b => some (.inl b.toInt)
    | .int n => some (.inl n)
    | .real x => some (.inr x)
    | _ => none

/-- Enter a text. A file that is named already keeps its place and takes the new text. -/
def put (file : Json) (text : String) : List Artifact → List Artifact
  | [] => [⟨file, text⟩]
  | a :: rest => if sameFile a.file file then ⟨a.file, text⟩ :: rest else a :: put file text rest

/-- Enter artifacts one after the other. A list or an object cannot name a file. -/
def collect (done : List Artifact) : List Artifact → Except Fault (List Artifact)
  | [] => .ok done
  | a :: rest =>
    match a.file with
    | .arr _ | .obj _ => .error (.misuse .fileNameNotAKey)
    | _ => collect (put a.file a.text done) rest

/-- The path of an artifact in a folder. -/
def pathIn (folder : Path) (a : Artifact) : Except Fault Path :=
  match a.file with
  | .str name => .ok (folder.resolve name)
  | _ => .error (.misuse .fileNameNotText)

end Artifact

/-- The namespace that a setting names. What counts as no names an empty one. -/
def namespaceOf (name : Json) : Except Fault String :=
  if name.truthy then
    match name with
    | .str s => .ok (Text.capitalize s)
    | .arr (.str _ :: _) => .error (.misuse .moduleNameNotText)
    | .arr _ => .error (.misuse .moduleNameListOfOther)
    | .obj _ => .error (.misuse .moduleNameObject)
    | _ => .error (.misuse .moduleNameNotText)
  else
    .ok ""

namespace Edition

def ofDomains (domains : List Domain) (settings : Settings) : Except Fault Edition :=
  match settings.protocolFile with
  | .str path => .ok { domains, settings, protocol := Name.moduleOf path }
  | _ => .error (.misuse .fileNameNotText)

/-- Read the documents and make the edition of their domains. -/
def ofDocuments (settings : Settings) (documents : List Json) : Logged Edition := do
  let domains ← Schema.readProtocol settings.strict.truthy documents
  .ofExcept (ofDomains domains settings)

def moduleText (e : Edition) (m : DeclarationModule) : Except Fault String :=
  m.text e.settings.indent e.settings.banner.truthy

def protocolText (e : Edition) : Except Fault String :=
  e.moduleText (protocolModule (Text.capitalize e.protocol) e.domains)

def mappingText (e : Edition) : Except Fault String := do
  e.moduleText (mappingModule (← namespaceOf e.settings.mappingModule) e.protocol e.domains)

def apiText (e : Edition) : Except Fault String := do
  e.moduleText (apiModule (← namespaceOf e.settings.apiModule) e.protocol e.domains)

/-- The three artifacts, or fewer where their files coincide. -/
def artifacts (e : Edition) : Except Fault (List Artifact) := do
  let protocol ← e.protocolText
  let mapping ← e.mappingText
  let api ← e.apiText
  Artifact.collect [] [
    ⟨e.settings.protocolFile, protocol⟩,
    ⟨e.settings.mappingFile, mapping⟩,
    ⟨e.settings.apiFile, api⟩]

end Edition

end ProtocolTypings
