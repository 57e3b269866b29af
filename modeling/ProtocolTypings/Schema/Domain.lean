import ProtocolTypings.Schema.Shape

/-!
# Domains

A protocol is a list of domains. Each groups types, commands that a client may send, and events that it may hear.
An absent list of parameters or results differs from an empty one.
-/

namespace ProtocolTypings

structure TypeDecl where
  id : String
  shape : Shape
  description : Json
  marks : Marks

structure Command where
  name : String
  description : Json
  parameters : Option (List Property)
  returns : Option (List Property)
  redirect : Json
  marks : Marks

structure Event where
  name : String
  description : Json
  parameters : Option (List Property)
  marks : Marks

structure Domain where
  name : String
  description : Json
  types : List TypeDecl
  commands : List Command
  events : List Event
  dependencies : List Json
  marks : Marks

end ProtocolTypings
