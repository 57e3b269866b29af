import ProtocolTypings.File.Path
import ProtocolTypings.Schema.Domain
import ProtocolTypings.Text.Capital

/-!
# Names of declarations

Every name that one module declares and another refers to is made here, so that the modules agree on it.
-/

namespace ProtocolTypings

namespace Name

open Text (capitalize)

def request (command : String) : String :=
  capitalize command ++ "Request"

def response (command : String) : String :=
  capitalize command ++ "Response"

/-- The name of what an event carries. -/
def payload (event : String) : String :=
  capitalize event ++ "Event"

/-- The name of the interface with the methods of a domain. -/
def api (domain : String) : String :=
  capitalize domain ++ "Api"

/-- A command or an event as named outside its domain. -/
def member (domain name : String) : String :=
  capitalize domain ++ "." ++ name

/-- A declaration of the protocol module as named outside it. -/
def declaration (module domain name : String) : String :=
  module ++ "." ++ capitalize domain ++ "." ++ name

/-- A property name, between quotes if there is a point in it. -/
def property (name : String) : String :=
  if name.toList.contains '.' then "'" ++ name ++ "'" else name

/-- The extension of declaration files. -/
def declarationExtension : List Char :=
  ['.', 'd', '.', 't', 's']

/-- The name of the module that a declaration file holds. -/
def moduleOf (path : String) : String :=
  let file := (Path.componentsOf path).getLastD ""
  if declarationExtension.isSuffixOf file.toList then
    String.ofList (file.toList.take (file.length - declarationExtension.length))
  else
    Path.stem file

end Name

/-! ## Payload types

What a command takes and answers and what an event carries, as modules other than that of the protocol name them. -/

/-- The name of what a command takes, if it takes anything. -/
def Command.requestType (module domain : String) (c : Command) : Option String :=
  c.parameters.map fun _ => Name.declaration module domain (Name.request c.name)

/-- The name of what a command answers, if it answers anything. -/
def Command.responseType (module domain : String) (c : Command) : Option String :=
  c.returns.map fun _ => Name.declaration module domain (Name.response c.name)

/-- The name of what an event carries, if it carries anything. -/
def Event.payloadType (module domain : String) (e : Event) : Option String :=
  e.parameters.map fun _ => Name.declaration module domain (Name.payload e.name)

end ProtocolTypings
