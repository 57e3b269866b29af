import ProtocolTypings.Proofs.Lists
import ProtocolTypings.Proofs.Typing.Written
import ProtocolTypings.Schema.Reference
import ProtocolTypings.Typing.ApiModule
import ProtocolTypings.Typing.MappingModule
import ProtocolTypings.Typing.ProtocolModule

/-!
# Modules of alike domains

Two domains are alike if they have the same names and types, and their descriptions are related. Where they were read
from, their marks, redirections and dependencies do not count, nor do the descriptions inside type expressions. Modules
over alike domains are made of the same items, with related comments.
-/

namespace ProtocolTypings

/-! ## Bare shapes -/

mutual
/-- The shape without what is not written of it. -/
def Shape.bare : Shape → Shape
  | .ref _ target => .ref default target
  | .array _ items => .array default items.bare
  | .bareArray _ => .bareArray default
  | .object _ properties => .object default (bareAll properties)
  | .openObject _ => .openObject default
  | .primitive _ kind values => .primitive default kind values
  | .unknown _ => .unknown default

def bareAll : List Property → List Property
  | [] => []
  | p :: ps => p.bare :: bareAll ps

def Property.bare : Property → Property
  | ⟨name, shape, optional, _, _⟩ => ⟨name, shape.bare, optional, .null, default⟩
end

mutual
theorem Shape.typeText_bare (unit : Json) (depth : Int) :
    (s : Shape) → s.bare.typeText unit depth = s.typeText unit depth
  | .ref _ _ => rfl
  | .array _ items => by rw [Shape.bare, Shape.typeText, Shape.typeText, Shape.typeText_bare unit depth items]
  | .bareArray _ => rfl
  | .object _ properties => by
      rw [Shape.bare, Shape.typeText, Shape.typeText, membersText_bareAll unit (depth + 1) properties]
  | .openObject _ => rfl
  | .primitive _ kind none => by simp [Shape.bare, Shape.typeText]
  | .primitive _ kind (some values) => by
      by_cases hkind : kind = "string"
      · subst hkind
        simp [Shape.bare, Shape.typeText]
      · simp [Shape.bare, Shape.typeText, hkind]
  | .unknown _ => rfl

theorem membersText_bareAll (unit : Json) (depth : Int) :
    (ps : List Property) → membersText unit depth (bareAll ps) = membersText unit depth ps
  | [] => rfl
  | p :: ps => by
      rw [bareAll, membersText, membersText, Property.typeText_bare unit depth p, membersText_bareAll unit depth ps]

theorem Property.typeText_bare (unit : Json) (depth : Int) :
    (p : Property) → p.bare.typeText unit depth = p.typeText unit depth
  | ⟨_, shape, _, _, _⟩ => by
      rw [Property.bare, Property.typeText, Property.typeText, Shape.typeText_bare unit depth shape]
end

theorem Shape.typeText_congr {s t : Shape} (h : s.bare = t.bare) (unit : Json) (depth : Int) :
    s.typeText unit depth = t.typeText unit depth := by
  rw [← s.typeText_bare, h, t.typeText_bare]

theorem Property.typeText_congr {p q : Property} (h : p.bare = q.bare) (unit : Json) (depth : Int) :
    p.typeText unit depth = q.typeText unit depth := by
  rw [← p.typeText_bare, h, q.typeText_bare]

theorem Property.optional_congr {p q : Property} (h : p.bare = q.bare) : p.optional = q.optional := by
  cases p
  cases q
  simp only [Property.bare, Property.mk.injEq] at h
  exact h.2.2.1

/-! ## Alike domains -/

/-- The properties that an interface made of the shape has. -/
def Shape.members : Shape → List Property
  | .object _ properties => properties
  | _ => []

structure Property.Alike (R : Json → Json → Prop) (p q : Property) : Prop where
  bare : p.bare = q.bare
  description : R p.description q.description

/-- Lists of properties that are both absent, or alike one by one. -/
abbrev PropertiesAlike (R : Json → Json → Prop) : Option (List Property) → Option (List Property) → Prop :=
  Option.Rel (List.Forall₂ (Property.Alike R))

structure Shape.Alike (R : Json → Json → Prop) (s t : Shape) : Prop where
  bare : s.bare = t.bare
  members : List.Forall₂ (Property.Alike R) s.members t.members

structure TypeDecl.Alike (R : Json → Json → Prop) (t u : TypeDecl) : Prop where
  id : t.id = u.id
  description : R t.description u.description
  shape : t.shape.Alike R u.shape

structure Command.Alike (R : Json → Json → Prop) (c d : Command) : Prop where
  name : c.name = d.name
  description : R c.description d.description
  parameters : PropertiesAlike R c.parameters d.parameters
  returns : PropertiesAlike R c.returns d.returns

structure Event.Alike (R : Json → Json → Prop) (e f : Event) : Prop where
  name : e.name = f.name
  description : R e.description f.description
  parameters : PropertiesAlike R e.parameters f.parameters

/-- The domains have the same names and types, and related descriptions. -/
structure Domain.Alike (R : Json → Json → Prop) (d e : Domain) : Prop where
  name : d.name = e.name
  description : R d.description e.description
  types : List.Forall₂ (TypeDecl.Alike R) d.types e.types
  commands : List.Forall₂ (Command.Alike R) d.commands e.commands
  events : List.Forall₂ (Event.Alike R) d.events e.events

/-- The items write the same, but for what their comments say. -/
inductive Item.Alike (R : Json → Json → Prop) : Item → Item → Prop
  | blank : Alike R .blank .blank
  | comment {v w : Json} : R v w → Alike R (.comment v) (.comment w)
  | integerAlias : Alike R .integerAlias .integerAlias
  | typeAlias {name : String} {s t : Shape} : s.bare = t.bare → Alike R (.typeAlias name s) (.typeAlias name t)
  | property {p q : Property} : p.bare = q.bare → Alike R (.property p) (.property q)
  | openProperties : Alike R .openProperties .openProperties
  | field {name type : String} : Alike R (.field name type) (.field name type)
  | method {name : String} {payload result : Option String} :
      Alike R (.method name payload result) (.method name payload result)
  | listener {event payload : String} : Alike R (.listener event payload) (.listener event payload)
  | block {kind : BlockKind} {name : String} {body body' : List Item} :
      List.Forall₂ (Item.Alike R) body body' → Alike R (.block kind name body) (.block kind name body')

section

variable {R : Json → Json → Prop}

theorem Shape.eq_object_of_bare {s : Shape} {place : Place} {properties : List Property}
    (h : (Shape.object place properties).bare = s.bare) : ∃ place properties, s = .object place properties := by
  cases s with
  | object place properties => exact ⟨place, properties, rfl⟩
  | _ => cases h

theorem Shape.eq_openObject_of_bare {s : Shape} {place : Place} (h : (Shape.openObject place).bare = s.bare) :
    ∃ place, s = .openObject place := by
  cases s with
  | openObject place => exact ⟨place, rfl⟩
  | _ => cases h

theorem bareAll_eq_of_alike {ps qs : List Property} (h : List.Forall₂ (Property.Alike R) ps qs) :
    bareAll ps = bareAll qs := by
  induction h with
  | nil => rfl
  | cons hp _ ih => rw [bareAll, bareAll, hp.bare, ih]

namespace Shape.Alike

theorem refl (hR : ∀ v, R v v) (s : Shape) : s.Alike R s :=
  ⟨rfl, List.forall₂_same.2 fun p _ => ⟨rfl, hR p.description⟩⟩

theorem array {s t : Shape} (h : s.Alike R t) (place : Place) : (Shape.array place s).Alike R (.array place t) :=
  ⟨by rw [Shape.bare, Shape.bare, h.bare], .nil⟩

theorem object {ps qs : List Property} (h : List.Forall₂ (Property.Alike R) ps qs) (place : Place) :
    (Shape.object place ps).Alike R (.object place qs) :=
  ⟨by rw [Shape.bare, Shape.bare, bareAll_eq_of_alike h], h⟩

end Shape.Alike

/-! ## Items of alike domains -/

theorem alike_interfaceItem {name : String} {ps qs : Option (List Property)} (h : PropertiesAlike R ps qs) :
    (interfaceItem name ps).Alike R (interfaceItem name qs) := by
  cases h with
  | none => exact .block (.cons .openProperties .nil)
  | some h =>
      exact .block (List.rel_flatMap h fun _ _ hp => .cons (.comment hp.description) (.cons (.property hp.bare) .nil))

theorem TypeDecl.Alike.items {t u : TypeDecl} (h : t.Alike R u) :
    List.Forall₂ (Item.Alike R) t.items u.items := by
  obtain ⟨id, s, v, marks⟩ := t
  obtain ⟨id', s', w, marks'⟩ := u
  obtain ⟨rfl, hdescription, hbare, hmembers⟩ := h
  refine .cons .blank (.cons (.comment hdescription) (.cons ?_ .nil))
  cases s with
  | object place properties =>
      obtain ⟨place', properties', rfl⟩ := Shape.eq_object_of_bare hbare
      exact alike_interfaceItem (.some hmembers)
  | openObject place =>
      obtain ⟨place', rfl⟩ := Shape.eq_openObject_of_bare hbare
      exact alike_interfaceItem .none
  | _ =>
      cases s' with
      | object place properties => cases hbare
      | openObject place => cases hbare
      | _ => exact .typeAlias hbare

theorem PropertiesAlike.items {ps qs : Option (List Property)} (h : PropertiesAlike R ps qs)
    {f g : List Property → List Item}
    (hitems : ∀ ps qs, List.Forall₂ (Property.Alike R) ps qs → List.Forall₂ (Item.Alike R) (f ps) (g qs)) :
    List.Forall₂ (Item.Alike R) (ps.elim [] f) (qs.elim [] g) := by
  cases h with
  | none => exact .nil
  | some h => exact hitems _ _ h

theorem Command.Alike.payloadItems {c d : Command} (h : c.Alike R d) :
    List.Forall₂ (Item.Alike R) c.payloadItems d.payloadItems := by
  rw [Command.payloadItems, Command.payloadItems, h.name]
  exact List.rel_append
    (h.parameters.items fun _ _ hps => .cons .blank (.cons (alike_interfaceItem (.some hps)) .nil))
    (h.returns.items fun _ _ hps => .cons .blank (.cons (alike_interfaceItem (.some hps)) .nil))

theorem Event.Alike.payloadItems {e f : Event} (h : e.Alike R f) :
    List.Forall₂ (Item.Alike R) e.payloadItems f.payloadItems := by
  rw [Event.payloadItems, Event.payloadItems, h.name]
  refine h.parameters.items fun _ _ hps => ?_
  exact .cons .blank (.cons (.comment h.description) (.cons (alike_interfaceItem (.some hps)) .nil))

theorem Domain.Alike.protocolItems {d e : Domain} (h : d.Alike R e) :
    List.Forall₂ (Item.Alike R) d.protocolItems e.protocolItems := by
  rw [Domain.protocolItems, Domain.protocolItems, h.name]
  have htypes := List.rel_flatMap h.types fun _ _ ht => TypeDecl.Alike.items ht
  have hcommands := List.rel_flatMap h.commands fun _ _ hc => Command.Alike.payloadItems hc
  have hevents := List.rel_flatMap h.events fun _ _ he => Event.Alike.payloadItems he
  have hbody := List.rel_append (List.rel_append htypes hcommands) hevents
  exact .cons .blank (.cons (.comment h.description) (.cons (.block hbody) .nil))

/-! ## Payloads -/

theorem PropertiesAlike.map_eq {ps qs : Option (List Property)} (h : PropertiesAlike R ps qs) (name : String) :
    ps.map (fun _ => name) = qs.map fun _ => name := by
  cases h <;> rfl

theorem PropertiesAlike.allOptional_eq {ps qs : Option (List Property)} (h : PropertiesAlike R ps qs) :
    ps.elim false allOptional = qs.elim false allOptional := by
  cases h with
  | none => rfl
  | some h =>
      show allOptional _ = allOptional _
      induction h with
      | nil => rfl
      | @cons p q ps qs hp _ ih =>
          have hoptional := Property.optional_congr hp.bare
          rw [allOptional, allOptional, List.all_cons, List.all_cons, hoptional]
          exact congrArg (q.optional && ·) ih

variable {c d : Command} {e f : Event} {module domain domain' : String}

theorem Command.Alike.requestType (h : c.Alike R d) : c.requestType module domain = d.requestType module domain := by
  rw [Command.requestType, Command.requestType, h.name]
  exact h.parameters.map_eq _

theorem Command.Alike.responseType (h : c.Alike R d) : c.responseType module domain = d.responseType module domain := by
  rw [Command.responseType, Command.responseType, h.name]
  exact h.returns.map_eq _

theorem Event.Alike.payloadType (h : e.Alike R f) : e.payloadType module domain = f.payloadType module domain := by
  rw [Event.payloadType, Event.payloadType, h.name]
  exact h.parameters.map_eq _

theorem Command.Alike.apiItems (h : c.Alike R d) :
    List.Forall₂ (Item.Alike R) (c.apiItems module domain) (d.apiItems module domain) := by
  rw [Command.apiItems, Command.apiItems, h.requestType, h.responseType, h.name]
  exact .cons (.comment h.description) (.cons .method (.cons .blank .nil))

theorem Event.Alike.apiItems (h : e.Alike R f) :
    List.Forall₂ (Item.Alike R) (e.apiItems module domain) (f.apiItems module domain) := by
  rw [Event.apiItems, Event.apiItems, h.payloadType, h.name]
  cases f.payloadType module domain with
  | none => exact .nil
  | some payload => exact .cons (.comment h.description) (.cons .listener (.cons .blank .nil))

theorem Command.Alike.entry (h : c.Alike R d) : (c.entry module domain).Alike R (d.entry module domain) where
  bare := by
    rw [Command.entry, Command.entry, Command.parametersType, Command.parametersType, h.requestType, h.responseType,
      h.name, h.parameters.allOptional_eq]
    rfl
  description := h.description

theorem Event.Alike.entry (h : e.Alike R f) : (e.entry module domain).Alike R (f.entry module domain) where
  bare := by
    rw [Event.entry, Event.entry, h.payloadType, h.name]
    rfl
  description := h.description

/-! ## Modules of alike domains -/

variable {ds es : List Domain} {name protocol : String}

theorem alike_protocolModule (h : List.Forall₂ (Domain.Alike R) ds es) :
    List.Forall₂ (Item.Alike R) (protocolModule name ds).items (protocolModule name es).items := by
  have hdomains := List.rel_flatMap h fun _ _ hd => Domain.Alike.protocolItems hd
  exact .cons (.block (.cons .blank (.cons .integerAlias hdomains))) .nil

theorem Domain.Alike.apiField {d e : Domain} (h : d.Alike R e) :
    List.Forall₂ (Item.Alike R) d.apiField e.apiField := by
  rw [Domain.apiField, Domain.apiField, h.name]
  exact .cons .field (.cons .blank .nil)

theorem Domain.Alike.apiItems {d e : Domain} (h : d.Alike R e) (module : String) :
    List.Forall₂ (Item.Alike R) (d.apiItems module) (e.apiItems module) := by
  rw [Domain.apiItems, Domain.apiItems, h.name]
  refine .cons .blank (.cons (.block (List.rel_append ?_ ?_)) .nil)
  · exact List.rel_flatMap h.commands fun _ _ hc => Command.Alike.apiItems hc
  · exact List.rel_flatMap h.events fun _ _ he => Event.Alike.apiItems he

theorem alike_apiModule (hsummary : R (.str apiSummary) (.str apiSummary)) (h : List.Forall₂ (Domain.Alike R) ds es) :
    List.Forall₂ (Item.Alike R) (apiModule name protocol ds).items (apiModule name protocol es).items := by
  have hfields := List.rel_flatMap h fun _ _ hd => Domain.Alike.apiField hd
  have hinterfaces := List.rel_flatMap h fun _ _ hd => Domain.Alike.apiItems hd (Text.capitalize protocol)
  refine .cons (.comment hsummary) (.cons (.block ?_) .nil)
  exact List.rel_append (.cons .blank (.cons (.block hfields) (.cons .blank .nil))) hinterfaces

theorem Domain.Alike.eventEntries {d e : Domain} (h : d.Alike R e) (module : String) :
    List.Forall₂ (Property.Alike R) (d.eventEntries module) (e.eventEntries module) := by
  rw [Domain.eventEntries, Domain.eventEntries, h.name]
  exact List.rel_map (fun _ _ he => Event.Alike.entry he) h.events

theorem Domain.Alike.commandEntries {d e : Domain} (h : d.Alike R e) (module : String) :
    List.Forall₂ (Property.Alike R) (d.commandEntries module) (e.commandEntries module) := by
  rw [Domain.commandEntries, Domain.commandEntries, h.name]
  exact List.rel_map (fun _ _ hc => Command.Alike.entry hc) h.commands

theorem alike_mappingModule (hsummary : R (.str mappingSummary) (.str mappingSummary))
    (h : List.Forall₂ (Domain.Alike R) ds es) :
    List.Forall₂ (Item.Alike R) (mappingModule name protocol ds).items (mappingModule name protocol es).items := by
  have hevents := List.rel_flatMap h fun _ _ hd => Domain.Alike.eventEntries hd (Text.capitalize protocol)
  have hcommands := List.rel_flatMap h fun _ _ hd => Domain.Alike.commandEntries hd (Text.capitalize protocol)
  refine .cons (.comment hsummary) (.cons (.block ?_) .nil)
  exact .cons (alike_interfaceItem (.some hevents)) (.cons .blank (.cons (alike_interfaceItem (.some hcommands)) .nil))

end

/-! ## Texts of alike items -/

mutual
/-- Where the comments say the same, the text is the same. -/
theorem Item.Alike.text_eq (unit : Json) : {a b : Item} → a.Alike Eq b → (depth : Nat) → a.text unit depth = b.text unit depth
  | _, _, .blank, _ => rfl
  | _, _, .comment rfl, _ => rfl
  | _, _, .integerAlias, _ => rfl
  | _, _, .typeAlias h, depth => by rw [Item.text_typeAlias, Item.text_typeAlias, Shape.typeText_congr h]
  | _, _, .property h, depth => by rw [Item.text_property, Item.text_property, Property.typeText_congr h]
  | _, _, .openProperties, _ => rfl
  | _, _, .field, _ => rfl
  | _, _, .method, _ => rfl
  | _, _, .listener, _ => rfl
  | _, _, .block h, depth => by rw [Item.text_block, Item.text_block, itemsText_eq_of_alike unit h (depth + 1)]

theorem itemsText_eq_of_alike (unit : Json) : {as bs : List Item} → List.Forall₂ (Item.Alike Eq) as bs → (depth : Nat) →
    itemsText unit depth as = itemsText unit depth bs
  | _, _, .nil, _ => rfl
  | _, _, .cons h hs, depth => by
      rw [itemsText_cons, itemsText_cons, Item.Alike.text_eq unit h depth, itemsText_eq_of_alike unit hs depth]
end

/-! ## References of alike domains -/

mutual
theorem Shape.references_bare : (s : Shape) → s.bare.references = s.references
  | .ref _ _ => rfl
  | .array _ items => by rw [Shape.bare, Shape.references, Shape.references, Shape.references_bare items]
  | .bareArray _ => rfl
  | .object _ properties => by
      rw [Shape.bare, Shape.references, Shape.references, referencesOfAll_bareAll properties]
  | .openObject _ => rfl
  | .primitive _ _ _ => rfl
  | .unknown _ => rfl

theorem referencesOfAll_bareAll : (ps : List Property) → referencesOfAll (bareAll ps) = referencesOfAll ps
  | [] => rfl
  | p :: ps => by
      rw [bareAll, referencesOfAll, referencesOfAll, Property.references_bare p, referencesOfAll_bareAll ps]

theorem Property.references_bare : (p : Property) → p.bare.references = p.references
  | ⟨_, shape, _, _, _⟩ => by rw [Property.bare, Property.references, Property.references, Shape.references_bare shape]
end

theorem Property.shape_congr {p q : Property} (h : p.bare = q.bare) : p.shape.bare = q.shape.bare := by
  cases p
  cases q
  simp only [Property.bare, Property.mk.injEq] at h
  exact h.2.1

section

variable {R : Json → Json → Prop}

theorem PropertiesAlike.map_shape_bare {ps qs : Option (List Property)} (h : PropertiesAlike R ps qs) :
    (ps.getD []).map (·.shape.bare) = (qs.getD []).map (·.shape.bare) := by
  cases h with
  | none => rfl
  | some h => exact map_eq_of_forall₂ h fun _ _ hp => Property.shape_congr hp.bare

theorem Domain.Alike.map_bare {d e : Domain} (h : d.Alike R e) : d.shapes.map (·.bare) = e.shapes.map (·.bare) := by
  simp only [Domain.shapes, List.map_append, List.map_flatMap, List.map_map]
  refine congr (congrArg _ (congr (congrArg _ ?_) ?_)) ?_
  · exact map_eq_of_forall₂ h.types fun _ _ ht => ht.shape.bare
  · exact flatMap_eq_of_forall₂ h.commands fun _ _ hc =>
      congr (congrArg _ hc.parameters.map_shape_bare) hc.returns.map_shape_bare
  · exact flatMap_eq_of_forall₂ h.events fun _ _ he => he.parameters.map_shape_bare

theorem Schema.unresolved_eq_of_alike {ds es : List Domain} (h : List.Forall₂ (Domain.Alike R) ds es) :
    unresolved ds = unresolved es := by
  have hdeclared : declaredTypes ds = declaredTypes es :=
    flatMap_eq_of_forall₂ h fun d e hde => map_eq_of_forall₂ hde.types fun _ _ ht => by rw [hde.name, ht.id]
  have hbare (d : Domain) : d.shapes.flatMap (fun s => s.references.map (qualify d.name)) =
      (d.shapes.map (·.bare)).flatMap fun s => s.references.map (qualify d.name) := by
    simp only [List.flatMap_map, Shape.references_bare]
  have hreferences : qualifiedReferences ds = qualifiedReferences es :=
    flatMap_eq_of_forall₂ h fun d e hde => by rw [hbare, hbare, hde.map_bare, hde.name]
  rw [unresolved, unresolved, hdeclared, hreferences]

end

end ProtocolTypings
