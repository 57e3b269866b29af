import ProtocolTypings.Typing.Declaration
import ProtocolTypings.Typing.Name

/-!
# The mapping module

Two interfaces that lead from the names of all events and commands to the types that they need. A list in brackets
holds the type that is passed; it is empty where nothing is, and the type is marked as optional where every
parameter is.
-/

namespace ProtocolTypings

/-- May the whole of the parameters be left out? -/
def allOptional (parameters : List Property) : Bool :=
  parameters.all (·.optional)

/-- A property that stands in no document. -/
def madeProperty (name : String) (shape : Shape) (description : Json) : Property :=
  { name, shape, optional := false, description, marks := ⟨false, false⟩ }

def madeRef (target : String) : Shape :=
  .ref (.start "") target

def Event.entry (module domain : String) (e : Event) : Property :=
  madeProperty (Name.member domain e.name)
    (madeRef ("[" ++ (e.payloadType module domain).getD "" ++ "]"))
    e.description

/-- What a command takes, as a list of one type or none. -/
def Command.parametersType (module domain : String) (c : Command) : String :=
  let mark := if c.parameters.elim false allOptional then "?" else ""
  "[" ++ (c.requestType module domain).elim "" (· ++ mark) ++ "]"

def Command.entry (module domain : String) (c : Command) : Property :=
  madeProperty (Name.member domain c.name)
    (.object (.start "") [
      madeProperty "paramsType" (madeRef (c.parametersType module domain)) .null,
      madeProperty "returnType" (madeRef ((c.responseType module domain).getD "void")) .null])
    c.description

def Domain.eventEntries (module : String) (d : Domain) : List Property :=
  d.events.map (·.entry module d.name)

def Domain.commandEntries (module : String) (d : Domain) : List Property :=
  d.commands.map (·.entry module d.name)

def mappingSummary : String :=
  "Mappings from protocol event and command names to the types required for them."

/-- The mapping module of the given name over the declarations of the module `protocol`. -/
def mappingModule (name protocol : String) (domains : List Domain) : DeclarationModule :=
  let module := Text.capitalize protocol
  { imports := [protocol]
    items := [
      .comment (.str mappingSummary),
      .block .scope name [
        interfaceItem "Events" (some (domains.flatMap (·.eventEntries module))),
        .blank,
        interfaceItem "Commands" (some (domains.flatMap (·.commandEntries module)))]]
    name }

end ProtocolTypings
