import Mathlib.Data.List.Perm.Basic
import ProtocolTypings.Proofs.Typing.Namings
import ProtocolTypings.Typing.ApiModule
import ProtocolTypings.Typing.MappingModule
import ProtocolTypings.Typing.ProtocolModule

/-!
# What the modules name

The protocol module declares a record for each payload. The API module names the payloads in the same order, the
mapping module names those of the events first.
-/

namespace ProtocolTypings

/-! ## Lists of names -/

namespace Naming

@[simp] theorem names_append (mark : Mark) (xs ys : List Naming) :
    names mark (xs ++ ys) = names mark xs ++ names mark ys := by
  simp [names]

@[simp] theorem namesUnder_append (scope : List String) (mark : Mark) (xs ys : List Naming) :
    namesUnder scope mark (xs ++ ys) = namesUnder scope mark xs ++ namesUnder scope mark ys := by
  simp [namesUnder]

@[simp] theorem records_append (xs ys : List Naming) : records (xs ++ ys) = records xs ++ records ys := by
  simp [records]

@[simp] theorem names_nil (mark : Mark) : names mark [] = [] := rfl

@[simp] theorem namesUnder_nil (scope : List String) (mark : Mark) : namesUnder scope mark [] = [] := rfl

@[simp] theorem records_nil : records [] = [] := rfl

theorem names_cons (mark : Mark) (n : Naming) (ns : List Naming) :
    names mark (n :: ns) = if n.mark = mark then n.name :: names mark ns else names mark ns := by
  by_cases h : n.mark = mark <;> simp [names, h]

theorem namesUnder_cons (scope : List String) (mark : Mark) (n : Naming) (ns : List Naming) :
    namesUnder scope mark (n :: ns) =
      if n.scope = scope ∧ n.mark = mark then n.name :: namesUnder scope mark ns else namesUnder scope mark ns := by
  by_cases hs : n.scope = scope <;> by_cases hm : n.mark = mark <;> simp [namesUnder, names, hs, hm]

theorem records_cons (n : Naming) (ns : List Naming) :
    records (n :: ns) = if n.mark = .record then n.qualified :: records ns else records ns := by
  by_cases h : n.mark = .record <;> simp [records, h]

theorem names_flatMap {α : Type} (mark : Mark) (xs : List α) (f : α → List Naming) :
    names mark (xs.flatMap f) = xs.flatMap fun x => names mark (f x) := by
  simp [names, List.filter_flatMap, List.map_flatMap]

theorem namesUnder_flatMap {α : Type} (scope : List String) (mark : Mark) (xs : List α) (f : α → List Naming) :
    namesUnder scope mark (xs.flatMap f) = xs.flatMap fun x => namesUnder scope mark (f x) := by
  simp [namesUnder, names, List.filter_flatMap, List.map_flatMap]

theorem records_flatMap {α : Type} (xs : List α) (f : α → List Naming) :
    records (xs.flatMap f) = xs.flatMap fun x => records (f x) := by
  simp [records, List.filter_flatMap, List.map_flatMap]

@[simp] theorem names_each (scope : List String) (mark kind : Mark) (all : List String) :
    names mark (each scope kind all) = if kind = mark then all else [] := by
  induction all with
  | nil => simp [each]
  | cons name rest ih => by_cases h : kind = mark <;> simp_all [each, names_cons]

@[simp] theorem namesUnder_each (scope path : List String) (mark kind : Mark) (all : List String) :
    namesUnder scope mark (each path kind all) = if path = scope ∧ kind = mark then all else [] := by
  induction all with
  | nil => simp [each]
  | cons name rest ih =>
      by_cases hs : path = scope <;> by_cases hm : kind = mark <;> simp_all [each, namesUnder_cons]

theorem records_each {kind : Mark} (h : kind ≠ .record) (path all : List String) :
    records (each path kind all) = [] := by
  induction all with
  | nil => rfl
  | cons name rest ih =>
      show records (⟨path, kind, name⟩ :: each path kind rest) = []
      rw [records_cons, if_neg h, ih]

/-- Names of several lists stand one after the other. -/
theorem flatMap_each {α : Type} (scope : List String) (mark : Mark) (xs : List α) (f : α → List String) :
    (xs.flatMap fun x => each scope mark (f x)) = each scope mark (xs.flatMap f) := by
  simp [each, List.map_flatMap]

theorem each_append (scope : List String) (mark : Mark) (xs ys : List String) :
    each scope mark (xs ++ ys) = each scope mark xs ++ each scope mark ys := by
  simp [each]

theorem names_eq_nil {mark : Mark} {ns : List Naming} (h : ∀ n ∈ ns, n.mark ≠ mark) : names mark ns = [] := by
  rw [names, List.map_eq_nil_iff, List.filter_eq_nil_iff]
  intro n hn
  simpa using h n hn

theorem namesUnder_eq_nil {scope : List String} {ns : List Naming} (h : ∀ n ∈ ns, n.scope ≠ scope) (mark : Mark) :
    namesUnder scope mark ns = [] := by
  have hscope : ns.filter (·.scope = scope) = [] := by
    rw [List.filter_eq_nil_iff]
    intro n hn
    simpa using h n hn
  rw [namesUnder, hscope]
  rfl

end Naming

open Naming

/-- Nothing is exported from inside the items. -/
theorem names_exported_namingsIn (path : List String) (items : List Item) :
    names .exported (namingsIn path items) = [] :=
  names_eq_nil fun n hn => (within_namingsIn path items n hn).2.2

/-- Nothing inside a block stands outside all blocks. -/
theorem namesUnder_nil_namingsIn (name : String) (path : List String) (mark : Mark) (items : List Item) :
    namesUnder [] mark (namingsIn (name :: path) items) = [] := by
  refine namesUnder_eq_nil (fun n hn hscope => ?_) mark
  have hprefix := (within_namingsIn (name :: path) items n hn).1
  rw [hscope] at hprefix
  exact absurd (List.prefix_nil.1 hprefix) (List.cons_ne_nil _ _)

@[simp] theorem namingsIn_append (path : List String) (xs ys : List Item) :
    namingsIn path (xs ++ ys) = namingsIn path xs ++ namingsIn path ys := by
  simp [namingsIn_eq_flatMap]

theorem namingsIn_flatMap {α : Type} (path : List String) (xs : List α) (f : α → List Item) :
    namingsIn path (xs.flatMap f) = xs.flatMap fun x => namingsIn path (f x) := by
  simp only [namingsIn_eq_flatMap, List.flatMap_assoc]

/-- An interface names itself and what the types of its properties refer to. -/
theorem namings_interfaceItem (path : List String) (name : String) (properties : Option (List Property)) :
    (interfaceItem name properties).namings path =
      ⟨path, .record, name⟩ :: each (path ++ [name]) .reference ((properties.getD []).flatMap (·.references)) := by
  cases properties with
  | none => rfl
  | some ps =>
      rw [interfaceItem, Item.namings, namingsIn_flatMap, Option.getD_some, ← flatMap_each]
      simp [namingsIn, Item.namings, BlockKind.mark]

theorem records_interfaceItem (path : List String) (name : String) (properties : Option (List Property)) :
    records ((interfaceItem name properties).namings path) = [".".intercalate (path ++ [name])] := by
  rw [namings_interfaceItem, records_cons, records_each (by decide)]
  rfl

/-! ## Payloads -/

/-- What the commands of a domain take and answer and what its events carry, as named outside the protocol module. -/
def Domain.payloadTypes (module : String) (d : Domain) : List String :=
  d.commands.flatMap (fun c => (c.requestType module d.name).toList ++ (c.responseType module d.name).toList) ++
    d.events.flatMap fun ev => (ev.payloadType module d.name).toList

/-- The items of the protocol module for the commands and events of a domain. -/
def Domain.payloadItems (d : Domain) : List Item :=
  d.commands.flatMap (·.payloadItems) ++ d.events.flatMap (·.payloadItems)

/-- The records that the protocol module declares for the commands and events of a domain. -/
def Domain.payloadRecords (module : String) (d : Domain) : List String :=
  records (namingsIn [module, Text.capitalize d.name] d.payloadItems)

/-- The records that it declares for the types of the domain. -/
def Domain.typeRecords (module : String) (d : Domain) : List String :=
  records (namingsIn [module, Text.capitalize d.name] (d.types.flatMap (·.items)))

theorem Command.records_payloadItems (module domain : String) (c : Command) :
    records (namingsIn [module, Text.capitalize domain] c.payloadItems) =
      (c.requestType module domain).toList ++ (c.responseType module domain).toList := by
  obtain ⟨name, description, parameters, returns, redirect, marks⟩ := c
  cases parameters <;> cases returns <;>
    simp [Command.payloadItems, Command.requestType, Command.responseType, namingsIn, Item.namings,
      records_interfaceItem, Name.declaration, String.append_assoc]

theorem Event.records_payloadItems (module domain : String) (ev : Event) :
    records (namingsIn [module, Text.capitalize domain] ev.payloadItems) = (ev.payloadType module domain).toList := by
  obtain ⟨name, description, parameters, marks⟩ := ev
  cases parameters <;>
    simp [Event.payloadItems, Event.payloadType, namingsIn, Item.namings,
      records_interfaceItem, Name.declaration, String.append_assoc]

/-- Every payload is declared under the name that it has outside the protocol module. -/
theorem Domain.payloadRecords_eq (module : String) (d : Domain) : d.payloadRecords module = d.payloadTypes module := by
  rw [Domain.payloadRecords, Domain.payloadItems, namingsIn_append, namingsIn_flatMap, namingsIn_flatMap,
    records_append, records_flatMap, records_flatMap]
  simp only [Command.records_payloadItems, Event.records_payloadItems]
  rfl

/-! ## The protocol module -/

theorem namings_protocolModule (name : String) (domains : List Domain) :
    (protocolModule name domains).namings =
      ⟨[], .scope, name⟩ ::
        (domains.flatMap fun d =>
          ⟨[name], .scope, Text.capitalize d.name⟩ ::
            (namingsIn [name, Text.capitalize d.name] (d.types.flatMap (·.items)) ++
              namingsIn [name, Text.capitalize d.name] d.payloadItems)) ++
        [⟨[], .exported, name⟩] := by
  have hdomain (d : Domain) : namingsIn [name] d.protocolItems =
      ⟨[name], .scope, Text.capitalize d.name⟩ ::
        (namingsIn [name, Text.capitalize d.name] (d.types.flatMap (·.items)) ++
          namingsIn [name, Text.capitalize d.name] d.payloadItems) := by
    simp [Domain.protocolItems, Domain.payloadItems, namingsIn, Item.namings, BlockKind.mark, List.append_assoc]
  simp [DeclarationModule.namings, protocolModule, namingsIn, Item.namings, namingsIn_flatMap, hdomain,
    BlockKind.mark, each]

/-! ## The API module -/

theorem Command.namingsIn_apiItems (path : List String) (module domain : String) (c : Command) :
    namingsIn path (c.apiItems module domain) =
      each path .payload ((c.requestType module domain).toList ++ (c.responseType module domain).toList) := by
  simp [Command.apiItems, namingsIn, Item.namings]

theorem Event.namingsIn_apiItems (path : List String) (module domain : String) (ev : Event) :
    namingsIn path (ev.apiItems module domain) = each path .payload (ev.payloadType module domain).toList := by
  unfold Event.apiItems
  cases ev.payloadType module domain <;> rfl

theorem Domain.namingsIn_apiItems (path : List String) (module : String) (d : Domain) :
    namingsIn path (d.apiItems module) =
      ⟨path, .record, Name.api d.name⟩ :: each (path ++ [Name.api d.name]) .payload (d.payloadTypes module) := by
  simp only [Domain.apiItems, namingsIn, Item.namings, BlockKind.mark, namingsIn_append, namingsIn_flatMap,
    Command.namingsIn_apiItems, Event.namingsIn_apiItems, flatMap_each, ← each_append, List.nil_append, List.append_nil]
  rfl

theorem Domain.namingsIn_apiField (path : List String) (d : Domain) :
    namingsIn path d.apiField = each path .field [Name.api d.name] := rfl

theorem namings_apiModule (name protocol : String) (domains : List Domain) :
    (apiModule name protocol domains).namings =
      [⟨[], .imported, Text.capitalize protocol⟩, ⟨[], .scope, name⟩, ⟨[name], .record, "ProtocolApi"⟩] ++
        each [name, "ProtocolApi"] .field (domains.map (Name.api ·.name)) ++
        (domains.flatMap fun d =>
          ⟨[name], .record, Name.api d.name⟩ ::
            each [name, Name.api d.name] .payload (d.payloadTypes (Text.capitalize protocol))) ++
        [⟨[], .exported, name⟩] := by
  have hfields : namingsIn [name, "ProtocolApi"] (domains.flatMap (·.apiField)) =
      each [name, "ProtocolApi"] .field (domains.map (Name.api ·.name)) := by
    simp only [namingsIn_flatMap, Domain.namingsIn_apiField, flatMap_each, List.map_eq_flatMap]
  simp [DeclarationModule.namings, apiModule, namingsIn, Item.namings, BlockKind.mark, hfields, namingsIn_flatMap,
    Domain.namingsIn_apiItems, each]

/-! ## The mapping module -/

theorem namings_mappingModule (name protocol : String) (domains : List Domain) :
    (mappingModule name protocol domains).namings =
      [⟨[], .imported, Text.capitalize protocol⟩, ⟨[], .scope, name⟩, ⟨[name], .record, "Events"⟩] ++
        each [name, "Events"] .reference
          ((domains.flatMap (·.eventEntries (Text.capitalize protocol))).flatMap (·.references)) ++
        [⟨[name], .record, "Commands"⟩] ++
        each [name, "Commands"] .reference
          ((domains.flatMap (·.commandEntries (Text.capitalize protocol))).flatMap (·.references)) ++
        [⟨[], .exported, name⟩] := by
  simp only [DeclarationModule.namings, mappingModule, namingsIn, Item.namings, namings_interfaceItem, BlockKind.mark]
  simp [each]

end ProtocolTypings
