import ProtocolTypings.Proofs.Lists
import ProtocolTypings.Proofs.Schema.Grammar

/-!
# Commands and events of a document

A reading gives one command for each record of a command and one event for each record of an event, in the order of the
records. A list that is absent in a record stays absent, and an element of a list is optional if the value that its
record has for that counts as yes.
-/

namespace ProtocolTypings

namespace Schema

/-- The value of a field, or null where there is none. -/
def valueUnder (key : String) : Json → Json
  | .obj fields => Json.fieldOrNull fields key
  | _ => .null

/-- What the elements of the list under a key have as `optional`, if the record has the key. -/
def optionsUnder (key : String) : Json → Option (List Bool)
  | .obj fields => (fields.lookup key).map fun _ =>
      (itemsUnder key (.obj fields)).map fun element => (valueUnder "optional" element).truthy
  | _ => none

/-- The records in the lists under a key of the domains, each with the record of its domain. -/
def recordsUnder (key : String) (document : Json) : List (Json × Json) :=
  (itemsUnder "domains" document).flatMap fun domain => (itemsUnder key domain).map (domain, ·)

theorem optionsUnder_eq_none {key : String} {record : Json} :
    optionsUnder key record = none ↔ ¬ HasField key record := by
  cases record with
  | obj fields =>
      rw [hasField_obj, optionsUnder]
      cases fields.lookup key <;> simp
  | _ => simp [optionsUnder, HasField]

theorem optionsUnder_eq_some {key : String} {record : Json} {options : List Bool}
    (h : optionsUnder key record = some options) :
    HasField key record ∧
      options = (itemsUnder key record).map fun element => (valueUnder "optional" element).truthy := by
  have hfield : HasField key record := by
    by_contra hnone
    rw [← optionsUnder_eq_none, h] at hnone
    cases hnone
  refine ⟨hfield, ?_⟩
  obtain ⟨fields, rfl, -⟩ := hfield
  rw [optionsUnder] at h
  cases hlookup : fields.lookup key with
  | none =>
      rw [hlookup] at h
      cases h
  | some content =>
      rw [hlookup] at h
      cases h
      rfl

/-- Which of the properties are optional, if there is a list of them. -/
def optionsOf (properties : Option (List Property)) : Option (List Bool) :=
  properties.map fun ps => ps.map (·.optional)

/-! ## What is read of a record -/

structure CommandOf (record : Json) (c : Command) : Prop where
  name : c.name = (valueUnder "name" record).display
  description : c.description = valueUnder "description" record
  parameters : optionsOf c.parameters = optionsUnder "parameters" record
  returns : optionsOf c.returns = optionsUnder "returns" record

structure EventOf (record : Json) (ev : Event) : Prop where
  name : ev.name = (valueUnder "name" record).display
  description : ev.description = valueUnder "description" record
  parameters : optionsOf ev.parameters = optionsUnder "parameters" record

/-- The commands and the events are those of the records, in order. -/
structure DomainOf (record : Json) (d : Domain) : Prop where
  name : d.name = (valueUnder "domain" record).display
  commands : List.Forall₂ CommandOf (itemsUnder "commands" record) d.commands
  events : List.Forall₂ EventOf (itemsUnder "events" record) d.events

section

variable {α : Type} {strict : Bool} {place : Place} {fields : List (String × Json)}

theorem display_of_required {key text : String} (h : (required fields key place).result = .ok text) :
    text = (valueUnder key (.obj fields)).display := by
  unfold required at h
  rw [valueUnder, Json.fieldOrNull]
  cases hlookup : fields.lookup key with
  | none =>
      rw [hlookup] at h
      cases h
  | some value =>
      rw [hlookup] at h
      cases h
      rfl

theorem forall₂_of_readEach {R : Json → α → Prop} {read : Place → Json → Logged α} {values : List Json} {i : Nat}
    {items : List α} (hitems : (readEach read place i values).result = .ok items)
    (h : ∀ place value item, (read place value).result = .ok item → R value item) : List.Forall₂ R values items := by
  induction values generalizing i items with
  | nil =>
      cases hitems
      exact .nil
  | cons value rest ih =>
      obtain ⟨item, hitem, hitems⟩ := Logged.bind_result_eq_ok.1 hitems
      obtain ⟨others, hothers, hitems⟩ := Logged.bind_result_eq_ok.1 hitems
      cases hitems
      exact .cons (h _ _ _ hitem) (ih hothers)

/-- The items of a list that the record may leave out. -/
theorem forall₂_of_listIn {R : Json → α → Prop} {read : Place → Json → Logged α} {key : String} {values : List Json}
    (hvalues : (listIn fields key place).result = .ok values) {place' : Place} {items : List α}
    (hitems : (readEach read place' 0 values).result = .ok items)
    (h : ∀ place value item, (read place value).result = .ok item → R value item) :
    List.Forall₂ R (itemsUnder key (.obj fields)) items := by
  rw [itemsUnder_of_listIn hvalues]
  exact forall₂_of_readEach hitems h

theorem optional_of_readProperty {value : Json} {p : Property} (h : (readProperty strict place value).result = .ok p) :
    (valueUnder "optional" value).truthy = p.optional := by
  cases value with
  | obj fields =>
      rw [readProperty_obj] at h
      obtain ⟨name, -, h⟩ := Logged.bind_result_eq_ok.1 h
      obtain ⟨shape, -, h⟩ := Logged.bind_result_eq_ok.1 h
      cases h
      rfl
  | _ => cases h

theorem options_of_propertyList {key : String} {properties : Option (List Property)}
    (h : (propertyList strict fields key place).result = .ok properties) :
    optionsOf properties = optionsUnder key (.obj fields) := by
  unfold propertyList at h
  rw [optionsUnder]
  cases hlookup : fields.lookup key with
  | none =>
      rw [hlookup] at h
      cases h
      rfl
  | some content =>
      rw [hlookup] at h
      obtain ⟨values, hvalues, h⟩ := Logged.bind_result_eq_ok.1 h
      obtain ⟨ps, hps, h⟩ := Logged.bind_result_eq_ok.1 h
      cases h
      obtain rfl := expectList_eq_ok.1 hvalues
      rw [readProperties_eq_readEach] at hps
      have heach := forall₂_of_readEach hps fun _ _ _ => optional_of_readProperty
      rw [Option.map_some, itemsUnder_obj hlookup, map_eq_of_forall₂ heach fun _ _ h => h]
      rfl

theorem commandOf_readCommand {record : Json} {c : Command} (h : (readCommand strict place record).result = .ok c) :
    CommandOf record c := by
  obtain ⟨fields, hfields, h⟩ := Logged.bind_result_eq_ok.1 h
  obtain ⟨name, hname, h⟩ := Logged.bind_result_eq_ok.1 h
  obtain ⟨parameters, hparameters, h⟩ := Logged.bind_result_eq_ok.1 h
  obtain ⟨returns, hreturns, h⟩ := Logged.bind_result_eq_ok.1 h
  cases h
  obtain rfl := expectFields_eq_ok.1 hfields
  exact ⟨display_of_required hname, rfl, options_of_propertyList hparameters, options_of_propertyList hreturns⟩

theorem eventOf_readEvent {record : Json} {ev : Event} (h : (readEvent strict place record).result = .ok ev) :
    EventOf record ev := by
  obtain ⟨fields, hfields, h⟩ := Logged.bind_result_eq_ok.1 h
  obtain ⟨name, hname, h⟩ := Logged.bind_result_eq_ok.1 h
  obtain ⟨parameters, hparameters, h⟩ := Logged.bind_result_eq_ok.1 h
  cases h
  obtain rfl := expectFields_eq_ok.1 hfields
  exact ⟨display_of_required hname, rfl, options_of_propertyList hparameters⟩

theorem domainOf_readDomain {record : Json} {d : Domain} (h : (readDomain strict place record).result = .ok d) :
    DomainOf record d := by
  obtain ⟨fields, hfields, h⟩ := Logged.bind_result_eq_ok.1 h
  obtain ⟨name, hname, h⟩ := Logged.bind_result_eq_ok.1 h
  obtain ⟨typeRecords, -, h⟩ := Logged.bind_result_eq_ok.1 h
  obtain ⟨types, -, h⟩ := Logged.bind_result_eq_ok.1 h
  obtain ⟨commandRecords, hcommandRecords, h⟩ := Logged.bind_result_eq_ok.1 h
  obtain ⟨commands, hcommands, h⟩ := Logged.bind_result_eq_ok.1 h
  obtain ⟨eventRecords, heventRecords, h⟩ := Logged.bind_result_eq_ok.1 h
  obtain ⟨events, hevents, h⟩ := Logged.bind_result_eq_ok.1 h
  obtain ⟨dependencies, -, h⟩ := Logged.bind_result_eq_ok.1 h
  cases h
  obtain rfl := expectFields_eq_ok.1 hfields
  exact ⟨display_of_required hname, forall₂_of_listIn hcommandRecords hcommands fun _ _ _ => commandOf_readCommand,
    forall₂_of_listIn heventRecords hevents fun _ _ _ => eventOf_readEvent⟩

theorem domainsOf_readDocument {document : Json} {domains : List Domain}
    (h : (readDocument strict place document).result = .ok domains) :
    List.Forall₂ DomainOf (itemsUnder "domains" document) domains := by
  obtain ⟨fields, hfields, h⟩ := Logged.bind_result_eq_ok.1 h
  obtain ⟨records, hrecords, h⟩ := Logged.bind_result_eq_ok.1 h
  obtain ⟨ds, hds, h⟩ := Logged.bind_result_eq_ok.1 h
  cases h
  obtain rfl := expectFields_eq_ok.1 hfields
  rw [itemsUnder_obj (fieldOrNull_eq_arr.1 (expectList_eq_ok.1 hrecords))]
  exact forall₂_of_readEach hds fun _ _ _ => domainOf_readDomain

end

/-! ## All records of one kind -/

/-- What is made of the commands or the events, each with the name of its domain, is made of their records. -/
theorem flatMap_members {α β : Type} {key : String} {members : Domain → List α} {R : Json → α → Prop}
    (hmembers : ∀ record d, DomainOf record d → List.Forall₂ R (itemsUnder key record) (members d))
    {f : String → α → β} {g : Json → Json → β}
    (hfg : ∀ domain record a, R record a → g domain record = f (valueUnder "domain" domain).display a) {document : Json}
    {domains : List Domain} (h : List.Forall₂ DomainOf (itemsUnder "domains" document) domains) :
    domains.flatMap (fun d => (members d).map (f d.name)) = (recordsUnder key document).map fun r => g r.1 r.2 := by
  rw [recordsUnder, List.map_flatMap]
  refine (flatMap_eq_of_forall₂ h fun domain d hd => ?_).symm
  rw [List.map_map, hd.name]
  exact map_eq_of_forall₂ (hmembers domain d hd) (hfg domain)

end Schema

end ProtocolTypings
