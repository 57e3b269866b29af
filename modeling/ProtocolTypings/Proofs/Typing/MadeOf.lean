import ProtocolTypings.Proofs.Outcome
import ProtocolTypings.Typing.ApiModule
import ProtocolTypings.Typing.MappingModule
import ProtocolTypings.Typing.ProtocolModule

/-!
# What modules are made of

The names in the items of a module are put together of the names in its domains and of a few fixed words. Whatever kind
of name is closed under this is found in all items, if the domains have no others.
-/

namespace ProtocolTypings

/-! ## Names and descriptions of a domain -/

mutual
/-- The names in a shape. Where it was read from does not count. -/
def Shape.strings : Shape → List String
  | .ref _ target => [target]
  | .array _ items => items.strings
  | .object _ properties => stringsOfAll properties
  | .primitive _ kind values => kind :: values.getD []
  | .bareArray _ | .openObject _ | .unknown _ => []

def stringsOfAll : List Property → List String
  | [] => []
  | p :: ps => p.strings ++ stringsOfAll ps

def Property.strings : Property → List String
  | ⟨name, shape, _, _, _⟩ => name :: shape.strings
end

mutual
/-- The names of the properties in a shape, at any depth. -/
def Shape.labels : Shape → List String
  | .array _ items => items.labels
  | .object _ properties => labelsOfAll properties
  | _ => []

def labelsOfAll : List Property → List String
  | [] => []
  | p :: ps => p.labels ++ labelsOfAll ps

def Property.labels : Property → List String
  | ⟨name, shape, _, _, _⟩ => name :: shape.labels
end

/-- A description that may be written: there is none, or it is a text. -/
def IsDescription (v : Json) : Prop :=
  v = .null ∨ ∃ s, v = .str s

def TypeDecl.strings (t : TypeDecl) : List String :=
  t.id :: t.shape.strings

def Command.strings (c : Command) : List String :=
  c.name :: (stringsOfAll (c.parameters.getD []) ++ stringsOfAll (c.returns.getD []))

def Event.strings (ev : Event) : List String :=
  ev.name :: stringsOfAll (ev.parameters.getD [])

/-- The names in a domain: all its texts but the descriptions. -/
def Domain.strings (d : Domain) : List String :=
  d.name :: (d.types.flatMap (·.strings) ++ d.commands.flatMap (·.strings) ++ d.events.flatMap (·.strings))

def Command.labels (c : Command) : List String :=
  c.name :: (labelsOfAll (c.parameters.getD []) ++ labelsOfAll (c.returns.getD []))

def Event.labels (ev : Event) : List String :=
  labelsOfAll (ev.parameters.getD [])

/-- The names that may stand at the start of a line: of the domain, of its commands and of all properties. -/
def Domain.labels (d : Domain) : List String :=
  d.name :: (d.types.flatMap (·.shape.labels) ++ d.commands.flatMap (·.labels) ++ d.events.flatMap (·.labels))

def descriptionsOf (properties : Option (List Property)) : List Json :=
  (properties.getD []).map (·.description)

/-- The descriptions of the type and, of an interface, those of its properties. -/
def TypeDecl.descriptions (t : TypeDecl) : List Json :=
  t.description ::
    match t.shape with
    | .object _ properties => descriptionsOf (some properties)
    | _ => []

def Command.descriptions (c : Command) : List Json :=
  c.description :: (descriptionsOf c.parameters ++ descriptionsOf c.returns)

def Event.descriptions (ev : Event) : List Json :=
  ev.description :: descriptionsOf ev.parameters

/-- The descriptions that are written as comments. -/
def Domain.descriptions (d : Domain) : List Json :=
  d.description ::
    (d.types.flatMap (·.descriptions) ++ d.commands.flatMap (·.descriptions) ++ d.events.flatMap (·.descriptions))

/-! ## Kinds of names -/

/-- What goes into names and types besides the names of a domain. -/
def fixedWords : List String :=
  ["", ".", "'", "(", ")", " | ", "[", "]", "?", "void", "Request", "Response", "Event", "Api", "paramsType",
    "returnType", "Events", "Commands", "ProtocolApi"]

/-- Names of the first kind are closed under what makes names; those of the second stay so where they come first. -/
structure NameKind (P L : String → Prop) : Prop where
  append : ∀ {s t}, P s → P t → P (s ++ t)
  capitalize : ∀ {s}, P s → P (Text.capitalize s)
  fixed : ∀ s ∈ fixedWords, P s
  member : ∀ {domain name}, L domain → L (Name.member domain name)
  entry : L "paramsType" ∧ L "returnType"

/-- The item is made of names of the first kind, and those that may start a line are of the second. -/
inductive Item.MadeOf (P L : String → Prop) : Item → Prop
  | blank : MadeOf P L .blank
  | comment {description : Json} : IsDescription description → MadeOf P L (.comment description)
  | integerAlias : MadeOf P L .integerAlias
  | typeAlias {name : String} {shape : Shape} :
      P name → (∀ s ∈ shape.strings, P s) → (∀ s ∈ shape.labels, L s) → MadeOf P L (.typeAlias name shape)
  | property {p : Property} : (∀ s ∈ p.strings, P s) → (∀ s ∈ p.labels, L s) → MadeOf P L (.property p)
  | openProperties : MadeOf P L .openProperties
  | field {name type : String} : P name → L name → P type → MadeOf P L (.field name type)
  | method {name : String} {payload result : Option String} :
      P name → L name → (∀ t ∈ payload, P t) → (∀ t ∈ result, P t) → MadeOf P L (.method name payload result)
  | listener {event payload : String} : P event → P payload → MadeOf P L (.listener event payload)
  | block {kind : BlockKind} {name : String} {body : List Item} :
      P name → (∀ item ∈ body, item.MadeOf P L) → MadeOf P L (.block kind name body)

/-- The same for a property with what is in its shape. A description is a text, if there is any. -/
structure Property.MadeOf (P L : String → Prop) (p : Property) : Prop where
  strings : ∀ s ∈ p.strings, P s
  labels : ∀ s ∈ p.labels, L s
  description : IsDescription p.description

/-- The same for a domain. -/
structure Domain.MadeOf (P L : String → Prop) (d : Domain) : Prop where
  strings : ∀ s ∈ d.strings, P s
  labels : ∀ s ∈ d.labels, L s
  descriptions : ∀ v ∈ d.descriptions, IsDescription v

theorem stringsOfAll_eq (ps : List Property) : stringsOfAll ps = ps.flatMap (·.strings) := by
  induction ps with
  | nil => rfl
  | cons p ps ih => rw [stringsOfAll, ih, List.flatMap_cons]

theorem labelsOfAll_eq (ps : List Property) : labelsOfAll ps = ps.flatMap (·.labels) := by
  induction ps with
  | nil => rfl
  | cons p ps ih => rw [labelsOfAll, ih, List.flatMap_cons]

variable {P L : String → Prop}

theorem Property.madeOf_of_mem {ps : List Property} (hstrings : ∀ s ∈ stringsOfAll ps, P s)
    (hlabels : ∀ s ∈ labelsOfAll ps, L s) (hdescriptions : ∀ v ∈ descriptionsOf (some ps), IsDescription v) :
    ∀ p ∈ ps, p.MadeOf P L := by
  rw [stringsOfAll_eq, List.forall_mem_flatMap] at hstrings
  rw [labelsOfAll_eq, List.forall_mem_flatMap] at hlabels
  intro p hp
  exact ⟨hstrings p hp, hlabels p hp, hdescriptions _ (List.mem_map.2 ⟨p, hp, rfl⟩)⟩

namespace Domain

variable {d : Domain}

theorem forall_mem_strings : (∀ s ∈ d.strings, P s) ↔
    P d.name ∧ (∀ t ∈ d.types, ∀ s ∈ t.strings, P s) ∧ (∀ c ∈ d.commands, ∀ s ∈ c.strings, P s) ∧
      ∀ ev ∈ d.events, ∀ s ∈ ev.strings, P s := by
  simp only [strings, List.forall_mem_cons, List.forall_mem_append, List.forall_mem_flatMap, and_assoc]

theorem forall_mem_labels : (∀ s ∈ d.labels, L s) ↔
    L d.name ∧ (∀ t ∈ d.types, ∀ s ∈ t.shape.labels, L s) ∧ (∀ c ∈ d.commands, ∀ s ∈ c.labels, L s) ∧
      ∀ ev ∈ d.events, ∀ s ∈ ev.labels, L s := by
  simp only [labels, List.forall_mem_cons, List.forall_mem_append, List.forall_mem_flatMap, and_assoc]

theorem forall_mem_descriptions {Q : Json → Prop} : (∀ v ∈ d.descriptions, Q v) ↔
    Q d.description ∧ (∀ t ∈ d.types, ∀ v ∈ t.descriptions, Q v) ∧ (∀ c ∈ d.commands, ∀ v ∈ c.descriptions, Q v) ∧
      ∀ ev ∈ d.events, ∀ v ∈ ev.descriptions, Q v := by
  simp only [descriptions, List.forall_mem_cons, List.forall_mem_append, List.forall_mem_flatMap, and_assoc]

namespace MadeOf

theorem name (h : d.MadeOf P L) : P d.name ∧ L d.name :=
  ⟨(forall_mem_strings.1 h.strings).1, (forall_mem_labels.1 h.labels).1⟩

theorem description (h : d.MadeOf P L) : IsDescription d.description :=
  (forall_mem_descriptions.1 h.descriptions).1

theorem type (h : d.MadeOf P L) {t : TypeDecl} (ht : t ∈ d.types) :
    P t.id ∧ (∀ s ∈ t.shape.strings, P s) ∧ (∀ s ∈ t.shape.labels, L s) ∧ ∀ v ∈ t.descriptions, IsDescription v := by
  obtain ⟨-, hstrings, -, -⟩ := forall_mem_strings.1 h.strings
  obtain ⟨-, hlabels, -, -⟩ := forall_mem_labels.1 h.labels
  obtain ⟨-, hdescriptions, -, -⟩ := forall_mem_descriptions.1 h.descriptions
  obtain ⟨hid, hshape⟩ := List.forall_mem_cons.1 (hstrings t ht)
  exact ⟨hid, hshape, hlabels t ht, hdescriptions t ht⟩

theorem command (h : d.MadeOf P L) {c : Command} (hc : c ∈ d.commands) :
    P c.name ∧ L c.name ∧ IsDescription c.description ∧ (∀ p ∈ c.parameters.getD [], p.MadeOf P L) ∧
      ∀ p ∈ c.returns.getD [], p.MadeOf P L := by
  obtain ⟨-, -, hstrings, -⟩ := forall_mem_strings.1 h.strings
  obtain ⟨-, -, hlabels, -⟩ := forall_mem_labels.1 h.labels
  obtain ⟨-, -, hdescriptions, -⟩ := forall_mem_descriptions.1 h.descriptions
  have hs := hstrings c hc
  have hl := hlabels c hc
  have hd := hdescriptions c hc
  simp only [Command.strings, Command.labels, Command.descriptions, List.forall_mem_cons, List.forall_mem_append]
    at hs hl hd
  exact ⟨hs.1, hl.1, hd.1, Property.madeOf_of_mem hs.2.1 hl.2.1 hd.2.1, Property.madeOf_of_mem hs.2.2 hl.2.2 hd.2.2⟩

theorem event (h : d.MadeOf P L) {ev : Event} (hev : ev ∈ d.events) :
    P ev.name ∧ IsDescription ev.description ∧ ∀ p ∈ ev.parameters.getD [], p.MadeOf P L := by
  obtain ⟨-, -, -, hstrings⟩ := forall_mem_strings.1 h.strings
  obtain ⟨-, -, -, hlabels⟩ := forall_mem_labels.1 h.labels
  obtain ⟨-, -, -, hdescriptions⟩ := forall_mem_descriptions.1 h.descriptions
  obtain ⟨hname, hs⟩ := List.forall_mem_cons.1 (hstrings ev hev)
  obtain ⟨hdescription, hd⟩ := List.forall_mem_cons.1 (hdescriptions ev hev)
  exact ⟨hname, hdescription, Property.madeOf_of_mem hs (hlabels ev hev) hd⟩

end MadeOf

end Domain

/-! ## Names that are put together -/

section

variable (hkind : NameKind P L) {name domain module : String}
include hkind

namespace NameKind

theorem suffixed (h : P name) {word : String} (hword : word ∈ fixedWords) : P (Text.capitalize name ++ word) :=
  hkind.append (hkind.capitalize h) (hkind.fixed word hword)

theorem request (h : P name) : P (Name.request name) :=
  hkind.suffixed h (by decide)

theorem response (h : P name) : P (Name.response name) :=
  hkind.suffixed h (by decide)

theorem payload (h : P name) : P (Name.payload name) :=
  hkind.suffixed h (by decide)

theorem api (h : P name) : P (Name.api name) :=
  hkind.suffixed h (by decide)

theorem ofMember (hdomain : P domain) (h : P name) : P (Name.member domain name) :=
  hkind.append (hkind.suffixed hdomain (by decide)) h

theorem declaration (hmodule : P module) (hdomain : P domain) (h : P name) :
    P (Name.declaration module domain name) :=
  hkind.append (hkind.append (hkind.append (hkind.append hmodule (hkind.fixed _ (by decide)))
    (hkind.capitalize hdomain)) (hkind.fixed _ (by decide))) h

theorem property (h : P name) : P (Name.property name) := by
  unfold Name.property
  split
  · exact hkind.append (hkind.append (hkind.fixed _ (by decide)) h) (hkind.fixed _ (by decide))
  · exact h

theorem intercalate {separator : String} (hseparator : P separator) {texts : List String} (h : ∀ t ∈ texts, P t) :
    P (separator.intercalate texts) := by
  induction texts with
  | nil => exact hkind.fixed "" (by decide)
  | cons t rest ih =>
      cases rest with
      | nil => simpa using h t List.mem_cons_self
      | cons u rest =>
          rw [String.intercalate_cons_cons]
          exact hkind.append (hkind.append (h t List.mem_cons_self) hseparator)
            (ih fun v hv => h v (List.mem_cons_of_mem _ hv))

theorem unionText {values : List String} (h : ∀ v ∈ values, P v) : P (unionText values) := by
  have hquoted : ∀ t ∈ values.map (fun v => "'" ++ v ++ "'"), P t := by
    intro t ht
    obtain ⟨v, hv, rfl⟩ := List.mem_map.1 ht
    exact hkind.append (hkind.append (hkind.fixed _ (by decide)) (h v hv)) (hkind.fixed _ (by decide))
  have hvalues := hkind.intercalate (hkind.fixed " | " (by decide)) hquoted
  exact hkind.append (hkind.append (hkind.fixed _ (by decide)) hvalues) (hkind.fixed _ (by decide))

theorem bracketed {payload : Option String} (h : ∀ t ∈ payload, P t) : P ("[" ++ payload.getD "" ++ "]") := by
  have hpayload : P (payload.getD "") := by
    cases payload with
    | none => exact hkind.fixed _ (by decide)
    | some t => exact h t rfl
  exact hkind.append (hkind.append (hkind.fixed _ (by decide)) hpayload) (hkind.fixed _ (by decide))

end NameKind

/-! ## Items of the modules -/

omit hkind in
theorem madeOf_interfaceItem {properties : Option (List Property)} (hname : P name)
    (hproperties : ∀ p ∈ properties.getD [], p.MadeOf P L) : (interfaceItem name properties).MadeOf P L := by
  refine .block hname fun item hitem => ?_
  cases properties with
  | none =>
      rw [List.mem_singleton.1 hitem]
      exact .openProperties
  | some ps =>
      obtain ⟨p, hp, hitem⟩ := List.mem_flatMap.1 hitem
      have hmade := hproperties p hp
      simp only [List.mem_cons, List.not_mem_nil, or_false] at hitem
      rcases hitem with rfl | rfl
      · exact .comment hmade.description
      · exact .property hmade.strings hmade.labels

omit hkind in
theorem Domain.MadeOf.typeItems {d : Domain} (h : d.MadeOf P L) {t : TypeDecl} (ht : t ∈ d.types) :
    ∀ item ∈ t.items, item.MadeOf P L := by
  intro item hitem
  obtain ⟨hid, hstrings, hlabels, hdescriptions⟩ := h.type ht
  simp only [TypeDecl.items, List.mem_cons, List.not_mem_nil, or_false] at hitem
  rcases hitem with rfl | rfl | hitem
  · exact .blank
  · exact .comment (hdescriptions _ List.mem_cons_self)
  · obtain ⟨id, shape, description, marks⟩ := t
    cases shape with
    | object place properties =>
        subst hitem
        refine madeOf_interfaceItem hid (Property.madeOf_of_mem hstrings hlabels fun v hv => hdescriptions v ?_)
        exact List.mem_cons_of_mem _ hv
    | openObject place =>
        subst hitem
        exact madeOf_interfaceItem hid nofun
    | _ =>
        subst hitem
        exact .typeAlias hid hstrings hlabels

omit hkind in
theorem madeOf_payload {properties : Option (List Property)} (hname : P name)
    (hproperties : ∀ p ∈ properties.getD [], p.MadeOf P L) :
    ∀ item ∈ properties.elim [] fun ps => [.blank, interfaceItem name (some ps)], item.MadeOf P L := by
  intro item hitem
  cases properties with
  | none => cases hitem
  | some ps =>
      simp only [Option.elim, List.mem_cons, List.not_mem_nil, or_false] at hitem
      rcases hitem with rfl | rfl
      · exact .blank
      · exact madeOf_interfaceItem hname hproperties

theorem Domain.MadeOf.commandItems {d : Domain} (h : d.MadeOf P L) {c : Command} (hc : c ∈ d.commands) :
    ∀ item ∈ c.payloadItems, item.MadeOf P L := by
  intro item hitem
  obtain ⟨hname, -, -, hparameters, hreturns⟩ := h.command hc
  rcases List.mem_append.1 hitem with hitem | hitem
  · exact madeOf_payload (hkind.request hname) hparameters item hitem
  · exact madeOf_payload (hkind.response hname) hreturns item hitem

theorem Domain.MadeOf.eventItems {d : Domain} (h : d.MadeOf P L) {ev : Event} (hev : ev ∈ d.events) :
    ∀ item ∈ ev.payloadItems, item.MadeOf P L := by
  intro item hitem
  obtain ⟨hname, hdescription, hparameters⟩ := h.event hev
  obtain ⟨name, description, parameters, marks⟩ := ev
  cases parameters with
  | none => cases hitem
  | some ps =>
      simp only [Event.payloadItems, Option.elim, List.mem_cons, List.not_mem_nil, or_false] at hitem
      rcases hitem with rfl | rfl | rfl
      · exact .blank
      · exact .comment hdescription
      · exact madeOf_interfaceItem (hkind.payload hname) hparameters

theorem Domain.MadeOf.protocolItems {d : Domain} (h : d.MadeOf P L) :
    ∀ item ∈ d.protocolItems, item.MadeOf P L := by
  intro item hitem
  simp only [Domain.protocolItems, List.mem_cons, List.not_mem_nil, or_false] at hitem
  rcases hitem with rfl | rfl | rfl
  · exact .blank
  · exact .comment h.description
  · refine .block (hkind.capitalize h.name.1) fun item hitem => ?_
    rcases List.mem_append.1 hitem with hitem | hitem
    · rcases List.mem_append.1 hitem with hitem | hitem
      · obtain ⟨t, ht, hitem⟩ := List.mem_flatMap.1 hitem
        exact h.typeItems ht item hitem
      · obtain ⟨c, hc, hitem⟩ := List.mem_flatMap.1 hitem
        exact h.commandItems hkind hc item hitem
    · obtain ⟨ev, hev, hitem⟩ := List.mem_flatMap.1 hitem
      exact h.eventItems hkind hev item hitem

theorem madeOf_protocolModule (hname : P name) {domains : List Domain} (h : ∀ d ∈ domains, d.MadeOf P L) :
    ∀ item ∈ (protocolModule name domains).items, item.MadeOf P L := by
  intro item hitem
  rw [List.mem_singleton.1 hitem]
  refine .block hname fun item hitem => ?_
  rcases List.mem_append.1 hitem with hitem | hitem
  · simp only [List.mem_cons, List.not_mem_nil, or_false] at hitem
    rcases hitem with rfl | rfl
    · exact .blank
    · exact .integerAlias
  · obtain ⟨d, hd, hitem⟩ := List.mem_flatMap.1 hitem
    exact (h d hd).protocolItems hkind item hitem

theorem Domain.MadeOf.apiItems {d : Domain} (h : d.MadeOf P L) (hmodule : P module) :
    ∀ item ∈ d.apiItems module, item.MadeOf P L := by
  intro item hitem
  have hdeclaration {name : String} (hname : P name) : P (Name.declaration module d.name name) :=
    hkind.declaration hmodule h.name.1 hname
  simp only [Domain.apiItems, List.mem_cons, List.not_mem_nil, or_false] at hitem
  rcases hitem with rfl | rfl
  · exact .blank
  refine .block (hkind.api h.name.1) fun item hitem => ?_
  rcases List.mem_append.1 hitem with hitem | hitem
  · obtain ⟨c, hc, hitem⟩ := List.mem_flatMap.1 hitem
    obtain ⟨hname, hlabel, hdescription, -, -⟩ := h.command hc
    simp only [Command.apiItems, List.mem_cons, List.not_mem_nil, or_false] at hitem
    rcases hitem with rfl | rfl | rfl
    · exact .comment hdescription
    · refine .method hname hlabel (fun t ht => ?_) (fun t ht => ?_)
      · obtain ⟨_, -, rfl⟩ := Option.map_eq_some_iff.1 ht
        exact hdeclaration (hkind.request hname)
      · obtain ⟨_, -, rfl⟩ := Option.map_eq_some_iff.1 ht
        exact hdeclaration (hkind.response hname)
    · exact .blank
  · obtain ⟨ev, hev, hitem⟩ := List.mem_flatMap.1 hitem
    obtain ⟨hname, hdescription, -⟩ := h.event hev
    obtain ⟨name, description, parameters, marks⟩ := ev
    cases parameters with
    | none => cases hitem
    | some ps =>
        simp only [Event.apiItems, Event.payloadType, Option.map_some, Option.elim, List.mem_cons, List.not_mem_nil,
          or_false] at hitem
        rcases hitem with rfl | rfl | rfl
        · exact .comment hdescription
        · exact .listener hname (hdeclaration (hkind.payload hname))
        · exact .blank

theorem madeOf_apiModule {protocol : String} (hname : P name) (hprotocol : P protocol) {domains : List Domain}
    (h : ∀ d ∈ domains, d.MadeOf P L) : ∀ item ∈ (apiModule name protocol domains).items, item.MadeOf P L := by
  intro item hitem
  simp only [apiModule, List.mem_cons, List.not_mem_nil, or_false] at hitem
  rcases hitem with rfl | rfl
  · exact .comment (.inr ⟨_, rfl⟩)
  refine .block hname fun item hitem => ?_
  rcases List.mem_append.1 hitem with hitem | hitem
  · simp only [List.mem_cons, List.not_mem_nil, or_false] at hitem
    rcases hitem with rfl | rfl | rfl
    · exact .blank
    · refine .block (hkind.fixed _ (by decide)) fun item hitem => ?_
      obtain ⟨d, hd, hitem⟩ := List.mem_flatMap.1 hitem
      obtain ⟨hdomain, hlabel⟩ := (h d hd).name
      simp only [Domain.apiField, List.mem_cons, List.not_mem_nil, or_false] at hitem
      rcases hitem with rfl | rfl
      · exact .field hdomain hlabel (hkind.api hdomain)
      · exact .blank
    · exact .blank
  · obtain ⟨d, hd, hitem⟩ := List.mem_flatMap.1 hitem
    exact (h d hd).apiItems hkind (hkind.capitalize hprotocol) item hitem

/-! ## Entries of the mapping module -/

theorem Domain.MadeOf.eventEntry {d : Domain} (h : d.MadeOf P L) (hmodule : P module) {ev : Event}
    (hev : ev ∈ d.events) : (ev.entry module d.name).MadeOf P L := by
  obtain ⟨hname, hdescription, -⟩ := h.event hev
  refine ⟨fun s hs => ?_, fun s hs => ?_, hdescription⟩
  · simp only [Event.entry, madeProperty, madeRef, Property.strings, Shape.strings, List.mem_cons, List.not_mem_nil,
      or_false] at hs
    rcases hs with rfl | rfl
    · exact hkind.ofMember h.name.1 hname
    · refine hkind.bracketed fun t ht => ?_
      obtain ⟨_, -, rfl⟩ := Option.map_eq_some_iff.1 ht
      exact hkind.declaration hmodule h.name.1 (hkind.payload hname)
  · simp only [Event.entry, madeProperty, madeRef, Property.labels, Shape.labels, List.mem_cons, List.not_mem_nil,
      or_false] at hs
    subst hs
    exact hkind.member h.name.2

theorem Domain.MadeOf.commandEntry {d : Domain} (h : d.MadeOf P L) (hmodule : P module) {c : Command}
    (hc : c ∈ d.commands) : (c.entry module d.name).MadeOf P L := by
  obtain ⟨hname, -, hdescription, -, -⟩ := h.command hc
  have hrequest : ∀ t ∈ c.requestType module d.name, P t := by
    intro t ht
    obtain ⟨_, -, rfl⟩ := Option.map_eq_some_iff.1 ht
    exact hkind.declaration hmodule h.name.1 (hkind.request hname)
  have hresponse : ∀ t ∈ c.responseType module d.name, P t := by
    intro t ht
    obtain ⟨_, -, rfl⟩ := Option.map_eq_some_iff.1 ht
    exact hkind.declaration hmodule h.name.1 (hkind.response hname)
  refine ⟨fun s hs => ?_, fun s hs => ?_, hdescription⟩
  · simp only [Command.entry, madeProperty, madeRef, Property.strings, Shape.strings, stringsOfAll, List.append_nil,
      List.cons_append, List.nil_append, List.mem_cons, List.not_mem_nil, or_false] at hs
    rcases hs with rfl | rfl | rfl | rfl | rfl
    · exact hkind.ofMember h.name.1 hname
    · exact hkind.fixed _ (by decide)
    · refine hkind.append (hkind.append (hkind.fixed _ (by decide)) ?_) (hkind.fixed _ (by decide))
      cases htype : c.requestType module d.name with
      | none => exact hkind.fixed "" (by decide)
      | some t =>
          refine hkind.append (hrequest t htype) ?_
          split <;> exact hkind.fixed _ (by decide)
    · exact hkind.fixed _ (by decide)
    · cases htype : c.responseType module d.name with
      | none => exact hkind.fixed _ (by decide)
      | some t => exact hresponse t htype
  · simp only [Command.entry, madeProperty, madeRef, Property.labels, Shape.labels, labelsOfAll, List.append_nil,
      List.cons_append, List.nil_append, List.mem_cons, List.not_mem_nil, or_false] at hs
    rcases hs with rfl | rfl | rfl
    · exact hkind.member h.name.2
    · exact hkind.entry.1
    · exact hkind.entry.2

theorem madeOf_mappingModule {protocol : String} (hname : P name) (hprotocol : P protocol) {domains : List Domain}
    (h : ∀ d ∈ domains, d.MadeOf P L) : ∀ item ∈ (mappingModule name protocol domains).items, item.MadeOf P L := by
  intro item hitem
  simp only [mappingModule, List.mem_cons, List.not_mem_nil, or_false] at hitem
  rcases hitem with rfl | rfl
  · exact .comment (.inr ⟨_, rfl⟩)
  refine .block hname fun item hitem => ?_
  simp only [List.mem_cons, List.not_mem_nil, or_false] at hitem
  rcases hitem with rfl | rfl | rfl
  · refine madeOf_interfaceItem (hkind.fixed _ (by decide)) fun p hp => ?_
    obtain ⟨d, hd, hp⟩ := List.mem_flatMap.1 hp
    obtain ⟨ev, hev, rfl⟩ := List.mem_map.1 hp
    exact (h d hd).eventEntry hkind (hkind.capitalize hprotocol) hev
  · exact .blank
  · refine madeOf_interfaceItem (hkind.fixed _ (by decide)) fun p hp => ?_
    obtain ⟨d, hd, hp⟩ := List.mem_flatMap.1 hp
    obtain ⟨c, hc, rfl⟩ := List.mem_map.1 hp
    exact (h d hd).commandEntry hkind (hkind.capitalize hprotocol) hc

end

end ProtocolTypings
