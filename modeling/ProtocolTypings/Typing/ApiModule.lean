import ProtocolTypings.Typing.Declaration
import ProtocolTypings.Typing.Name

/-!
# The API module

One interface for each domain, with a method for each command and a listener for each event that carries anything,
and an interface that holds those of all domains.
-/

namespace ProtocolTypings

def Command.apiItems (module domain : String) (c : Command) : List Item :=
  [.comment c.description,
    .method c.name (c.requestType module domain) (c.responseType module domain),
    .blank]

def Event.apiItems (module domain : String) (e : Event) : List Item :=
  (e.payloadType module domain).elim [] fun payload =>
    [.comment e.description, .listener e.name payload, .blank]

/-- The field for a domain keeps the name of the domain unchanged. -/
def Domain.apiField (d : Domain) : List Item :=
  [.field d.name (Name.api d.name), .blank]

def Domain.apiItems (module : String) (d : Domain) : List Item :=
  [.blank,
    .block .record (Name.api d.name)
      (d.commands.flatMap (·.apiItems module d.name) ++ d.events.flatMap (·.apiItems module d.name))]

def apiSummary : String :=
  "API generated from Protocol commands and events."

/-- The API module of the given name over the declarations of the module `protocol`. -/
def apiModule (name protocol : String) (domains : List Domain) : DeclarationModule :=
  let module := Text.capitalize protocol
  { imports := [protocol]
    items := [
      .comment (.str apiSummary),
      .block .scope name
        ([.blank, .block .record "ProtocolApi" (domains.flatMap (·.apiField)), .blank] ++
          domains.flatMap (·.apiItems module))]
    name }

end ProtocolTypings
