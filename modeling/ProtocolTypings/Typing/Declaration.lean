import ProtocolTypings.Typing.TypeText

/-!
# Declarations

A declaration module is a tree: blocks that hold declarations, comments and blank lines. Writing the tree never
leaves a block open, so every item leaves the depth as it was.
-/

namespace ProtocolTypings

inductive BlockKind where
  | scope | record
deriving DecidableEq

/-- What a block opens with, before its name. -/
def BlockKind.keyword : BlockKind → String
  | .scope => "export namespace "
  | .record => "export interface "

inductive Item where
  | blank
  | comment (description : Json)
  /-- The name that schemas use for whole numbers. -/
  | integerAlias
  | typeAlias (name : String) (shape : Shape)
  | property (property : Property)
  /-- Any further property, with a text as its value. -/
  | openProperties
  | field (name type : String)
  /-- A method that answers with a promise; nothing is passed or promised where there is no type. -/
  | method (name : String) (payload result : Option String)
  | listener (event payload : String)
  | block (kind : BlockKind) (name : String) (body : List Item)

/-- A module with what it imports, its items, and the name that it exports by default. -/
structure DeclarationModule where
  imports : List String
  items : List Item
  name : String

/-! ## Text -/

def methodText (name : String) (payload result : Option String) : String :=
  name ++ "(" ++ payload.elim "" ("params: " ++ ·) ++ "): Promise<" ++ result.getD "void" ++ ">;"

def listenerText (event payload : String) : String :=
  "on(event: '" ++ event ++ "', listener: (params: " ++ payload ++ ") => void): void;"

mutual
def Item.write (s : Sheet) : Item → Except Fault Sheet
  | .blank => s.line ""
  | .comment description => s.comment description
  | .integerAlias => s.line "export type integer = number"
  | .typeAlias name shape => do
    s.line ("export type " ++ name ++ " = " ++ (← shape.typeText s.unit s.depth) ++ ";")
  | .property p => do s.line ((← p.typeText s.unit s.depth) ++ ";")
  | .openProperties => s.line "[key: string]: string;"
  | .field name type => s.line (name ++ ": " ++ type ++ ";")
  | .method name payload result => s.line (methodText name payload result)
  | .listener event payload => s.line (listenerText event payload)
  | .block kind name body => do
    let s ← s.beginBlock (kind.keyword ++ name)
    let s ← writeItems s body
    s.endBlock

def writeItems (s : Sheet) : List Item → Except Fault Sheet
  | [] => .ok s
  | item :: rest => do writeItems (← item.write s) rest
end

/-! ## Around the items -/

def generationMessage : String :=
  "Auto-generated by protocol_dts_generator, do not edit manually."

/-- The message in a box of stars. -/
def bannerText : String :=
  let stars (n : Nat) : String := String.ofList (List.replicate n '*')
  let width := generationMessage.length
  "/" ++ stars (width + 4) ++ "\n * " ++ generationMessage ++ " *\n " ++ stars (width + 3) ++ "/\n\n"

def importText (module : String) : String :=
  "import " ++ Text.capitalize module ++ " from './" ++ module ++ "'\n"

/-- What stands before the items: the banner, if wanted, and one line for each import. -/
def headText (banner : Bool) (imports : List String) : String :=
  (if banner then bannerText else "") ++ String.join (imports.map importText)

def exportText (name : String) : String :=
  "\nexport default " ++ name ++ ";\n"

/-- The text of a module. A blank line divides imports from the items. -/
def DeclarationModule.text (m : DeclarationModule) (unit : Json) (banner : Bool) : Except Fault String := do
  let s : Sheet := { unit, text := headText banner m.imports }
  let s ← if m.imports.isEmpty then .ok s else s.line ""
  let s ← writeItems s m.items
  return s.text ++ exportText m.name

/-- An interface with the given properties, each under its description. Without a list it is open. -/
def interfaceItem (name : String) (properties : Option (List Property)) : Item :=
  .block .record name
    (match properties with
    | none => [.openProperties]
    | some ps => ps.flatMap fun p => [.comment p.description, .property p])

end ProtocolTypings
