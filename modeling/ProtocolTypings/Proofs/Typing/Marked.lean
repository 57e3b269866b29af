import ProtocolTypings.Proofs.Typing.Written

/-!
# Texts with marked names

A module text cut into stretches, of which those that name something are marked with what they name. Without the
marks it is the text that is written; with them the names can be read off in the order of the text.
-/

namespace ProtocolTypings

/-- What a stretch of a module text names. -/
inductive Mark where
  /-- What the module imports or exports. -/
  | imported | exported
  /-- A block that is opened. -/
  | scope | record
  /-- The innermost block, which is closed. -/
  | closing
  /-- The type of a field. -/
  | field
  /-- The type of what is passed to a method or a listener, or promised by a method. -/
  | payload
  /-- The target of a reference in a type expression. -/
  | reference
deriving DecidableEq

def BlockKind.mark : BlockKind → Mark
  | .scope => .scope
  | .record => .record

structure Stretch where
  mark : Option Mark
  text : String

abbrev Marked := List Stretch

/-- A stretch without a name in it. -/
def filler (text : String) : Stretch :=
  ⟨none, text⟩

namespace Marked

def plain : Marked → String
  | [] => ""
  | stretch :: rest => stretch.text ++ plain rest

end Marked

/-! ## Marking -/

mutual
def Shape.marked (unit : Json) (depth : Int) : Shape → Except Fault Marked
  | .ref _ target => .ok [⟨some .reference, target⟩]
  | .array _ items => do return (← items.marked unit depth) ++ [filler "[]"]
  | .object _ properties => do
    let members ← markedMembers unit (depth + 1) properties
    return filler "\x7b\n" :: members ++ [filler ((← indentation unit depth) ++ "\x7d")]
  | .bareArray place => do return [filler (← (Shape.bareArray place).typeText unit depth)]
  | .openObject place => do return [filler (← (Shape.openObject place).typeText unit depth)]
  | .primitive place kind values => do return [filler (← (Shape.primitive place kind values).typeText unit depth)]
  | .unknown place => do return [filler (← (Shape.unknown place).typeText unit depth)]

def markedMembers (unit : Json) (depth : Int) : List Property → Except Fault Marked
  | [] => .ok []
  | p :: ps => do
    let line := filler (← indentation unit depth) :: (← p.marked unit depth) ++ [filler ";\n"]
    return line ++ (← markedMembers unit depth ps)

def Property.marked (unit : Json) (depth : Int) : Property → Except Fault Marked
  | ⟨name, shape, optional, _, _⟩ => do
    return filler (Name.property name ++ (if optional then "?" else "") ++ ": ") :: (← shape.marked unit depth)
end

/-- A line of stretches between its margin and a line end. -/
def markedLine (unit : Json) (depth : Nat) (stretches : Marked) : Except Fault Marked := do
  return filler (← indentation unit depth) :: stretches ++ [filler "\n"]

/-- The stretches of a method: what is passed and what is promised are marked where they are. -/
def markedMethod (name : String) (payload result : Option String) : Marked :=
  filler (name ++ "(") :: payload.elim [] (fun p => [filler "params: ", ⟨some .payload, p⟩]) ++
    [filler "): Promise<", result.elim (filler "void") fun r => ⟨some .payload, r⟩, filler ">;"]

mutual
def Item.marked (unit : Json) (depth : Nat) : Item → Except Fault Marked
  | .typeAlias name shape => do
    markedLine unit depth (filler ("export type " ++ name ++ " = ") :: (← shape.marked unit depth) ++ [filler ";"])
  | .property p => do markedLine unit depth ((← p.marked unit depth) ++ [filler ";"])
  | .field name type => markedLine unit depth [filler (name ++ ": "), ⟨some .field, type⟩, filler ";"]
  | .method name payload result => markedLine unit depth (markedMethod name payload result)
  | .listener event payload =>
    markedLine unit depth [
      filler ("on(event: '" ++ event ++ "', listener: (params: "), ⟨some .payload, payload⟩,
      filler ") => void): void;"]
  | .block kind name body => do
    let header ← markedLine unit depth [filler kind.keyword, ⟨some kind.mark, name⟩, filler " \x7b"]
    let body ← markedItems unit (depth + 1) body
    return header ++ (body ++ (← markedLine unit depth [⟨some .closing, "\x7d"⟩]))
  | .blank => do return [filler (← Item.blank.text unit depth)]
  | .comment description => do return [filler (← (Item.comment description).text unit depth)]
  | .integerAlias => do return [filler (← Item.integerAlias.text unit depth)]
  | .openProperties => do return [filler (← Item.openProperties.text unit depth)]

def markedItems (unit : Json) (depth : Nat) : List Item → Except Fault Marked
  | [] => .ok []
  | item :: rest => do return (← item.marked unit depth) ++ (← markedItems unit depth rest)
end

def markedImport (module : String) : Marked :=
  [filler "import ", ⟨some .imported, Text.capitalize module⟩, filler (" from './" ++ module ++ "'\n")]

/-- The stretches of a module text. -/
def DeclarationModule.marked (m : DeclarationModule) (unit : Json) (banner : Bool) : Except Fault Marked := do
  let gap := if m.imports.isEmpty then "" else "\n"
  return filler (if banner then bannerText else "") :: m.imports.flatMap markedImport ++
    (filler gap :: (← markedItems unit 0 m.items)) ++
    [filler "\nexport default ", ⟨some .exported, m.name⟩, filler ";\n"]

/-! ## Without the marks -/

namespace Marked

@[simp] theorem plain_nil : plain [] = "" := rfl

@[simp] theorem plain_cons (s : Stretch) (m : Marked) : plain (s :: m) = s.text ++ plain m := rfl

@[simp] theorem plain_append (m n : Marked) : plain (m ++ n) = plain m ++ plain n := by
  induction m with
  | nil => simp
  | cons s m ih => simp [ih, String.append_assoc]

end Marked

@[simp] theorem filler_text (text : String) : (filler text).text = text := rfl

open Marked

mutual
theorem Shape.map_plain_marked (unit : Json) (depth : Int) :
    (s : Shape) → (s.marked unit depth).map plain = s.typeText unit depth
  | .ref _ target => by simp [Shape.marked, Shape.typeText]
  | .array _ items => by
      simp only [Shape.marked, Shape.typeText, ← Shape.map_plain_marked unit depth items]
      cases items.marked unit depth <;> simp
  | .object _ properties => by
      simp only [Shape.marked, Shape.typeText, ← map_plain_markedMembers unit (depth + 1) properties]
      cases markedMembers unit (depth + 1) properties with
      | error fault => rfl
      | ok members =>
          cases indentation unit depth <;>
            simp [String.append_assoc]
  | .bareArray place => by simp [Shape.marked, Shape.typeText]
  | .openObject place => by simp [Shape.marked, Shape.typeText]
  | .primitive place kind values => by
      rw [Shape.marked]
      cases (Shape.primitive place kind values).typeText unit depth <;> simp
  | .unknown place => by simp [Shape.marked, Shape.typeText]

theorem map_plain_markedMembers (unit : Json) (depth : Int) :
    (ps : List Property) → (markedMembers unit depth ps).map plain = membersText unit depth ps
  | [] => rfl
  | p :: ps => by
      simp only [markedMembers, membersText, ← Property.map_plain_marked unit depth p,
        ← map_plain_markedMembers unit depth ps]
      cases indentation unit depth with
      | error fault => rfl
      | ok margin =>
          cases p.marked unit depth with
          | error fault => rfl
          | ok m =>
              cases markedMembers unit depth ps <;>
                simp [String.append_assoc]

theorem Property.map_plain_marked (unit : Json) (depth : Int) :
    (p : Property) → (p.marked unit depth).map plain = p.typeText unit depth
  | ⟨name, shape, optional, description, marks⟩ => by
      simp only [Property.marked, Property.typeText, ← Shape.map_plain_marked unit depth shape]
      cases shape.marked unit depth <;>
        simp [String.append_assoc]
end

theorem map_plain_markedLine (unit : Json) (depth : Nat) (stretches : Marked) :
    (markedLine unit depth stretches).map plain = lineText unit depth (plain stretches) := by
  simp only [markedLine, lineText]
  cases indentation unit depth <;> simp [String.append_assoc]

theorem plain_markedMethod (name : String) (payload result : Option String) :
    plain (markedMethod name payload result) = methodText name payload result := by
  cases payload <;> cases result <;>
    simp only [markedMethod, methodText, plain_cons, plain_nil, filler_text, Option.elim, Option.getD,
      List.cons_append, List.nil_append, String.append_assoc, String.append_empty]

mutual
theorem Item.map_plain_marked (unit : Json) (depth : Nat) :
    (item : Item) → (item.marked unit depth).map plain = item.text unit depth
  | .typeAlias name shape => by
      rw [Item.text_typeAlias, Item.marked, ← Shape.map_plain_marked unit depth shape]
      cases shape.marked unit depth with
      | error fault => rfl
      | ok m => simp [map_plain_markedLine, String.append_assoc]
  | .property p => by
      rw [Item.text_property, Item.marked, ← Property.map_plain_marked unit depth p]
      cases p.marked unit depth with
      | error fault => rfl
      | ok m => simp [map_plain_markedLine]
  | .field name type => by
      rw [Item.text_field, Item.marked, map_plain_markedLine]
      simp [String.append_assoc]
  | .method name payload result => by
      rw [Item.text_method, Item.marked, map_plain_markedLine, plain_markedMethod]
  | .listener event payload => by
      rw [Item.text_listener, Item.marked, map_plain_markedLine]
      simp [listenerText, String.append_assoc]
  | .block kind name body => by
      rw [Item.text_block, Item.marked, ← map_plain_markedItems unit (depth + 1) body]
      have header := map_plain_markedLine unit depth [filler kind.keyword, ⟨some kind.mark, name⟩, filler " \x7b"]
      have closing := map_plain_markedLine unit depth [⟨some .closing, "\x7d"⟩]
      simp only [plain_cons, plain_nil, filler_text, String.append_empty, ← String.append_assoc] at header closing
      rw [← header, ← closing]
      cases markedLine unit depth [filler kind.keyword, ⟨some kind.mark, name⟩, filler " \x7b"] with
      | error fault => rfl
      | ok h =>
          cases markedItems unit (depth + 1) body with
          | error fault => rfl
          | ok m => cases markedLine unit depth [⟨some .closing, "\x7d"⟩] <;> simp
  | .blank => by
      rw [Item.marked]
      cases Item.blank.text unit depth <;> simp
  | .comment description => by
      rw [Item.marked]
      cases (Item.comment description).text unit depth <;> simp
  | .integerAlias => by
      rw [Item.marked]
      cases Item.integerAlias.text unit depth <;> simp
  | .openProperties => by
      rw [Item.marked]
      cases Item.openProperties.text unit depth <;> simp

theorem map_plain_markedItems (unit : Json) (depth : Nat) :
    (items : List Item) → (markedItems unit depth items).map plain = itemsText unit depth items
  | [] => rfl
  | item :: rest => by
      rw [itemsText_cons, markedItems, ← Item.map_plain_marked unit depth item, ← map_plain_markedItems unit depth rest]
      cases item.marked unit depth with
      | error fault => rfl
      | ok m => cases markedItems unit depth rest <;> simp
end

theorem plain_markedImport (module : String) : plain (markedImport module) = importText module := by
  simp [markedImport, importText, String.append_assoc]

theorem plain_flatMap_markedImport (imports : List String) :
    plain (imports.flatMap markedImport) = String.join (imports.map importText) := by
  induction imports with
  | nil => rfl
  | cons module rest ih => simp [ih, plain_markedImport]

theorem plain_markedHead (banner : Bool) (imports : List String) :
    plain (filler (if banner then bannerText else "") :: imports.flatMap markedImport) = headText banner imports := by
  rw [plain_cons, plain_flatMap_markedImport]
  rfl

theorem DeclarationModule.map_plain_marked (m : DeclarationModule) (unit : Json) (banner : Bool) :
    (m.marked unit banner).map plain = m.text unit banner := by
  rw [DeclarationModule.marked, DeclarationModule.text_eq, ← map_plain_markedItems unit 0 m.items]
  cases markedItems unit 0 m.items with
  | error fault => rfl
  | ok items =>
      simp only [ok_bind, pure_eq_ok, map_ok, plain_append, plain_markedHead]
      simp only [exportText_eq, plain_cons, plain_nil, filler_text, String.append_assoc, String.append_empty]

end ProtocolTypings
