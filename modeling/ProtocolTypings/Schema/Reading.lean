import ProtocolTypings.Json.Display
import ProtocolTypings.Log.Record
import ProtocolTypings.Schema.Domain

/-!
# Reading schema documents

Only the structure of a document is checked; names, kinds and descriptions are taken as they are. A strict reading
refuses the shapes that a lenient one passes through with a loss: those without a type, arrays without items, and
kinds that no primitive has.
-/

namespace ProtocolTypings.Schema

open Logged (fail note)

def refuse {α : Type} (place : Place) (cause : SchemaFault) : Logged α :=
  fail (.refusal (.schema place cause))

def primitiveKinds : List String :=
  ["string", "integer", "number", "boolean", "any"]

def marksOf (fields : List (String × Json)) : Marks :=
  ⟨Json.flag fields "experimental", Json.flag fields "deprecated"⟩

/-- The text of a field that the record must have. -/
def required (fields : List (String × Json)) (key : String) (place : Place) : Logged String :=
  match fields.lookup key with
  | some value => pure value.display
  | none => refuse place (.missingKey key)

def expectList (place : Place) : Json → Logged (List Json)
  | .arr items => pure items
  | other => refuse place (.expectedList other.kind)

def expectFields (place : Place) : Json → Logged (List (String × Json))
  | .obj fields => pure fields
  | other => refuse place (.expectedObject other.kind)

/-- The items of a list that the record may leave out. -/
def listIn (fields : List (String × Json)) (key : String) (place : Place) : Logged (List Json) :=
  match fields.lookup key with
  | some value => expectList (place.key key) value
  | none => pure []

/-! ## Shapes and properties -/

/-- The values that a primitive is restricted to; null restricts nothing. -/
def valuesIn (fields : List (String × Json)) (place : Place) : Logged (Option (List String)) :=
  match Json.fieldOrNull fields "enum" with
  | .null => pure none
  | value => do return some ((← expectList (place.key "enum") value).map Json.display)

/-- A shape whose kind is neither that of arrays nor that of objects. -/
def primitiveOf (strict : Bool) (place : Place) (fields : List (String × Json)) (kind : Json) : Logged Shape :=
  match kind with
  | .arr _ | .obj _ => fail (.misuse .kindNotScalar)
  | _ =>
    if strict && !primitiveKinds.any (.str · = kind) then
      refuse place (.unknownKind kind.display)
    else
      return .primitive place kind.display (← valuesIn fields place)

/-- The shape of a record, given how its items and its properties are read. -/
def shapeOf (strict : Bool) (place : Place) (fields : List (String × Json))
    (items properties : Unit → Logged Shape) : Logged Shape :=
  match fields.lookup "$ref" with
  | some target => pure (.ref place target.display)
  | none =>
    match Json.fieldOrNull fields "type" with
    | .null =>
      if strict then
        refuse place .untypedShape
      else do
        note .debug .schemas ("Shape without type at " ++ place.text ++ " degrades to any")
        return .any place
    | .str "array" => items ()
    | .str "object" => properties ()
    | kind => primitiveOf strict place fields kind

mutual
def readShape (strict : Bool) (place : Place) : Json → Logged Shape
  | .obj fields =>
    shapeOf strict place fields (fun _ => itemsIn strict place fields) (fun _ => propertiesIn strict place fields)
  | other => refuse place (.expectedObject other.kind)

/-- The array whose items are described among the fields. -/
def itemsIn (strict : Bool) (place : Place) : List (String × Json) → Logged Shape
  | [] =>
    if strict then refuse place .arrayWithoutItems
    else return .array place (.any (place.key "items"))
  | (key, value) :: rest =>
    if key = "items" then do return .array place (← readShape strict (place.key "items") value)
    else itemsIn strict place rest

/-- The object whose properties are listed among the fields. -/
def propertiesIn (strict : Bool) (place : Place) : List (String × Json) → Logged Shape
  | [] => pure (.openObject place)
  | (key, value) :: rest =>
    if key = "properties" then
      match value with
      | .arr items => do return .object place (← readProperties strict (place.key "properties") 0 items)
      | other => refuse (place.key "properties") (.expectedList other.kind)
    else propertiesIn strict place rest

/-- The properties in a list, the first of which is at position `i`. -/
def readProperties (strict : Bool) (place : Place) (i : Nat) : List Json → Logged (List Property)
  | [] => pure []
  | value :: rest => do
    let property ← readProperty strict (place.position i) value
    return property :: (← readProperties strict place (i + 1) rest)

def readProperty (strict : Bool) (place : Place) : Json → Logged Property
  | .obj fields => do
    let name ← required fields "name" place
    let shape ← shapeOf strict place fields
      (fun _ => itemsIn strict place fields) (fun _ => propertiesIn strict place fields)
    return {
      name, shape
      optional := Json.flag fields "optional"
      description := Json.fieldOrNull fields "description"
      marks := marksOf fields }
  | other => refuse place (.expectedObject other.kind)
end

/-- The properties under a key that the record may leave out. -/
def propertyList (strict : Bool) (fields : List (String × Json)) (key : String) (place : Place) :
    Logged (Option (List Property)) :=
  match fields.lookup key with
  | some value => do return some (← readProperties strict (place.key key) 0 (← expectList (place.key key) value))
  | none => pure none

/-! ## Domains and documents -/

/-- Read the items of a list, the first of which is at position `i`. -/
def readEach {α : Type} (read : Place → Json → Logged α) (place : Place) (i : Nat) : List Json → Logged (List α)
  | [] => pure []
  | value :: rest => do
    let item ← read (place.position i) value
    return item :: (← readEach read place (i + 1) rest)

def readType (strict : Bool) (place : Place) (value : Json) : Logged TypeDecl := do
  let fields ← expectFields place value
  let id ← required fields "id" place
  let shape ← readShape strict place value
  return { id, shape, description := Json.fieldOrNull fields "description", marks := marksOf fields }

def readCommand (strict : Bool) (place : Place) (value : Json) : Logged Command := do
  let fields ← expectFields place value
  let name ← required fields "name" place
  let parameters ← propertyList strict fields "parameters" place
  let returns ← propertyList strict fields "returns" place
  return {
    name, parameters, returns
    description := Json.fieldOrNull fields "description"
    redirect := Json.fieldOrNull fields "redirect"
    marks := marksOf fields }

def readEvent (strict : Bool) (place : Place) (value : Json) : Logged Event := do
  let fields ← expectFields place value
  let name ← required fields "name" place
  let parameters ← propertyList strict fields "parameters" place
  return { name, parameters, description := Json.fieldOrNull fields "description", marks := marksOf fields }

def readDomain (strict : Bool) (place : Place) (value : Json) : Logged Domain := do
  let fields ← expectFields place value
  let name ← required fields "domain" place
  let types ← readEach (readType strict) (place.key "types") 0 (← listIn fields "types" place)
  let commands ← readEach (readCommand strict) (place.key "commands") 0 (← listIn fields "commands" place)
  let events ← readEach (readEvent strict) (place.key "events") 0 (← listIn fields "events" place)
  let dependencies ← listIn fields "dependencies" place
  return {
    name, types, commands, events, dependencies
    description := Json.fieldOrNull fields "description"
    marks := marksOf fields }

/-- The domains of one document, in the order of their declaration. -/
def readDocument (strict : Bool) (place : Place) (document : Json) : Logged (List Domain) := do
  let fields ← expectFields place document
  let records ← expectList (place.key "domains") (Json.fieldOrNull fields "domains")
  let domains ← readEach (readDomain strict) (place.key "domains") 0 records
  note .debug .schemas ("Parsed " ++ toString domains.length ++ " domains from " ++ place.text)
  return domains

end ProtocolTypings.Schema
