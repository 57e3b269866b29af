import ProtocolTypings.Schema.Domain
import ProtocolTypings.Typing.Declaration

/-!
# The protocol module

One namespace for each domain. It declares the types of the domain and the interfaces that its commands take and
answer and its events carry.
-/

namespace ProtocolTypings

/-- Types keep their identifier unchanged, since references name them by it. -/
def TypeDecl.items (t : TypeDecl) : List Item :=
  [.blank, .comment t.description,
    match t.shape with
    | .object _ properties => interfaceItem t.id (some properties)
    | .openObject _ => interfaceItem t.id none
    | shape => .typeAlias t.id shape]

/-- The interfaces of what a command takes and of what it answers, where there are such. -/
def Command.payloadItems (c : Command) : List Item :=
  (c.parameters.elim [] fun ps => [.blank, interfaceItem (Name.request c.name) (some ps)]) ++
    (c.returns.elim [] fun ps => [.blank, interfaceItem (Name.response c.name) (some ps)])

/-- The interface of what an event carries. An event without parameters carries nothing. -/
def Event.payloadItems (e : Event) : List Item :=
  e.parameters.elim [] fun ps => [.blank, .comment e.description, interfaceItem (Name.payload e.name) (some ps)]

def Domain.protocolItems (d : Domain) : List Item :=
  [.blank, .comment d.description,
    .block .scope (Text.capitalize d.name)
      (d.types.flatMap (·.items) ++ d.commands.flatMap (·.payloadItems) ++ d.events.flatMap (·.payloadItems))]

/-- The protocol module of the given name. -/
def protocolModule (name : String) (domains : List Domain) : DeclarationModule where
  imports := []
  items := [.block .scope name ([.blank, .integerAlias] ++ domains.flatMap (·.protocolItems))]
  name := name

end ProtocolTypings
