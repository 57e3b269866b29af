import ProtocolTypings.Artifact.Edition
import ProtocolTypings.Proofs.Typing.ModuleNames

/-!
# Agreement of the modules

Three modules are written in three different orders, and each works out for itself which payloads there are. They
name the same ones.
-/

namespace ProtocolTypings

open Naming

/-! ## Payloads in the mapping module -/

/-- The payload type in a value of the mapping module, without the brackets around it and the question mark behind
it. -/
def payloadOf? (value : String) : Option String :=
  let text := value.toList
  let inner := if text.head? = some '[' ∧ text.getLast? = some ']' then text.tail.dropLast else text
  let type := if inner.getLast? = some '?' then inner.dropLast else inner
  if type = [] ∨ type = "void".toList then none else some (String.ofList type)

/-- The names of payloads end in one of three words. -/
def EndsAsPayload (type : String) : Prop :=
  ∃ start last, type.toList = start ++ [last] ∧ (last = 't' ∨ last = 'e')

theorem endsAsPayload_request (module domain name : String) :
    EndsAsPayload (Name.declaration module domain (Name.request name)) :=
  ⟨(module ++ "." ++ Text.capitalize domain ++ "." ++ (Text.capitalize name ++ "Reques")).toList, 't', by
    simp [Name.declaration, Name.request], .inl rfl⟩

theorem endsAsPayload_response (module domain name : String) :
    EndsAsPayload (Name.declaration module domain (Name.response name)) :=
  ⟨(module ++ "." ++ Text.capitalize domain ++ "." ++ (Text.capitalize name ++ "Respons")).toList, 'e', by
    simp [Name.declaration, Name.response], .inr rfl⟩

theorem endsAsPayload_event (module domain name : String) :
    EndsAsPayload (Name.declaration module domain (Name.payload name)) :=
  ⟨(module ++ "." ++ Text.capitalize domain ++ "." ++ (Text.capitalize name ++ "Even")).toList, 't', by
    simp [Name.declaration, Name.payload], .inl rfl⟩

namespace EndsAsPayload

variable {type : String}

theorem ne_void (h : EndsAsPayload type) : type.toList ≠ [] ∧ type.toList ≠ "void".toList := by
  obtain ⟨start, last, htype, hlast⟩ := h
  refine ⟨by simp [htype], fun hvoid => ?_⟩
  have hd : (start ++ [last]).getLast? = some 'd' := by rw [← htype, hvoid]; rfl
  rcases hlast with rfl | rfl <;> simp at hd

theorem payloadOf?_eq (h : EndsAsPayload type) : payloadOf? type = some type := by
  obtain ⟨hempty, hvoid⟩ := h.ne_void
  obtain ⟨start, last, htype, hlast⟩ := h
  have hbracket : type.toList.getLast? ≠ some ']' := by rcases hlast with rfl | rfl <;> simp [htype]
  have hmark : type.toList.getLast? ≠ some '?' := by rcases hlast with rfl | rfl <;> simp [htype]
  simp only [payloadOf?, hbracket, and_false, ↓reduceIte, hmark, hempty, hvoid, or_self, String.ofList_toList]

theorem payloadOf?_bracketed (h : EndsAsPayload type) : payloadOf? ("[" ++ type ++ "]") = some type := by
  obtain ⟨hempty, hvoid⟩ := h.ne_void
  obtain ⟨start, last, htype, hlast⟩ := h
  have hmark : type.toList.getLast? ≠ some '?' := by rcases hlast with rfl | rfl <;> simp [htype]
  have htext : ("[" ++ type ++ "]").toList = '[' :: (type.toList ++ [']']) := by simp
  simp only [payloadOf?, htext, List.head?_cons, List.getLast?_cons, List.getLast?_concat, List.tail_cons,
    List.dropLast_concat, Option.getD_some, and_self, ↓reduceIte, hmark, hempty, hvoid, or_self, String.ofList_toList]

theorem payloadOf?_optional (h : EndsAsPayload type) : payloadOf? ("[" ++ (type ++ "?") ++ "]") = some type := by
  obtain ⟨hempty, hvoid⟩ := h.ne_void
  have htext : ("[" ++ (type ++ "?") ++ "]").toList = '[' :: ((type.toList ++ ['?']) ++ [']']) := by simp
  simp only [payloadOf?, htext, List.head?_cons, List.getLast?_cons, List.getLast?_concat, List.tail_cons,
    List.dropLast_concat, Option.getD_some, and_self, ↓reduceIte, hempty, hvoid, or_self, String.ofList_toList]

end EndsAsPayload

theorem payloadOf?_void : payloadOf? "void" = none := by decide

theorem payloadOf?_nothing : payloadOf? ("[" ++ "" ++ "]") = none := by decide

theorem Event.payloadOf?_carried (module domain : String) (ev : Event) :
    payloadOf? ("[" ++ (ev.payloadType module domain).getD "" ++ "]") = ev.payloadType module domain := by
  obtain ⟨name, description, parameters, marks⟩ := ev
  cases parameters with
  | none => exact payloadOf?_nothing
  | some ps => exact (endsAsPayload_event module domain name).payloadOf?_bracketed

theorem Event.payloads_entry (module domain : String) (ev : Event) :
    (ev.entry module domain).references.filterMap payloadOf? = (ev.payloadType module domain).toList := by
  show [_].filterMap payloadOf? = _
  have hcarried := ev.payloadOf?_carried module domain
  cases h : ev.payloadType module domain with
  | none =>
      rw [h] at hcarried
      rw [List.filterMap_cons_none hcarried]
      rfl
  | some type =>
      rw [h] at hcarried
      rw [List.filterMap_cons_some hcarried]
      rfl

theorem Command.payloadOf?_parametersType (module domain : String) (c : Command) :
    payloadOf? (c.parametersType module domain) = c.requestType module domain := by
  obtain ⟨name, description, parameters, returns, redirect, marks⟩ := c
  cases parameters with
  | none => exact payloadOf?_nothing
  | some ps =>
      have hname := endsAsPayload_request module domain name
      cases h : allOptional ps with
      | false =>
          simp only [Command.parametersType, Command.requestType, Option.map_some, Option.elim, h, Bool.false_eq_true,
            ↓reduceIte, String.append_empty]
          exact hname.payloadOf?_bracketed
      | true =>
          simp only [Command.parametersType, Command.requestType, Option.map_some, Option.elim, h, ↓reduceIte]
          exact hname.payloadOf?_optional

theorem Command.payloadOf?_returnType (module domain : String) (c : Command) :
    payloadOf? ((c.responseType module domain).getD "void") = c.responseType module domain := by
  obtain ⟨name, description, parameters, returns, redirect, marks⟩ := c
  cases returns with
  | none => exact payloadOf?_void
  | some ps => exact (endsAsPayload_response module domain name).payloadOf?_eq

theorem Command.payloads_entry (module domain : String) (c : Command) :
    (c.entry module domain).references.filterMap payloadOf? =
      (c.requestType module domain).toList ++ (c.responseType module domain).toList := by
  show [_, _].filterMap payloadOf? = _
  have hparameters := c.payloadOf?_parametersType module domain
  have hreturns := c.payloadOf?_returnType module domain
  cases hq : c.requestType module domain <;> cases hr : c.responseType module domain <;>
    simp_all

/-- Among the events of all domains and then their commands every payload is found once. -/
theorem payloads_entries_perm (module : String) (domains : List Domain) :
    (((domains.flatMap (·.eventEntries module)).flatMap (·.references) ++
      (domains.flatMap (·.commandEntries module)).flatMap (·.references)).filterMap payloadOf?).Perm
      (domains.flatMap (·.payloadTypes module)) := by
  have hevents (d : Domain) : ((d.eventEntries module).flatMap (·.references)).filterMap payloadOf? =
      d.events.flatMap fun ev => (ev.payloadType module d.name).toList := by
    simp [Domain.eventEntries, List.filterMap_flatMap, List.flatMap_map, Event.payloads_entry]
  have hcommands (d : Domain) : ((d.commandEntries module).flatMap (·.references)).filterMap payloadOf? =
      d.commands.flatMap fun c => (c.requestType module d.name).toList ++ (c.responseType module d.name).toList := by
    simp [Domain.commandEntries, List.filterMap_flatMap, List.flatMap_map, Command.payloads_entry]
  rw [List.filterMap_append, List.flatMap_assoc, List.flatMap_assoc, List.filterMap_flatMap, List.filterMap_flatMap]
  simp only [hevents, hcommands]
  refine (List.flatMap_append_perm _ _ _).trans (List.Perm.flatMap_left _ fun d _ => ?_)
  exact List.perm_append_comm

/-! ## The agreement -/

/-- What the names in three module texts have to do with each other. -/
structure Agreement (module : String) (domains : List Domain) (protocol mapping api : List Naming) : Prop where
  /-- The protocol module exports the namespace that it opens, and the others import it. -/
  exported : names .exported protocol = [module]
  opened : namesUnder [] .scope protocol = [module]
  imported : names .imported mapping = [module] ∧ names .imported api = [module]
  /-- The records of the protocol module, those of each domain after one another. -/
  declared : records protocol = domains.flatMap fun d => d.typeRecords module ++ d.payloadRecords module
  /-- The API module names the payloads in the order in which they are declared. -/
  signatures : names .payload api = domains.flatMap (·.payloadRecords module)
  /-- The mapping module names them in the values of its two records, and nothing besides. -/
  values : ∃ name, names .exported mapping = [name] ∧
    names .reference mapping =
      namesUnder [name, "Events"] .reference mapping ++ namesUnder [name, "Commands"] .reference mapping ∧
    ((names .reference mapping).filterMap payloadOf?).Perm (domains.flatMap (·.payloadRecords module))
  /-- The fields of the first record of the API module name the other records. -/
  fields : ∃ name, names .exported api = [name] ∧
    names .field api = namesUnder [name, "ProtocolApi"] .field api ∧
    records api = (name ++ ".ProtocolApi") :: (names .field api).map (name ++ "." ++ ·)

theorem namings_agree (protocol mapping api : String) (domains : List Domain) :
    Agreement (Text.capitalize protocol) domains (protocolModule (Text.capitalize protocol) domains).namings
      (mappingModule mapping protocol domains).namings (apiModule api protocol domains).namings where
  exported := by
    simp [namings_protocolModule, names_cons, names_flatMap, names_exported_namingsIn]
  opened := by
    simp [namings_protocolModule, namesUnder_cons, namesUnder_flatMap, namesUnder_nil_namingsIn]
  imported := by
    constructor
    · simp [namings_mappingModule, names_cons]
    · simp [namings_apiModule, names_cons, names_flatMap]
  declared := by
    simp [namings_protocolModule, records_cons, records_flatMap, Domain.typeRecords, Domain.payloadRecords]
  signatures := by
    simp [namings_apiModule, names_cons, names_flatMap, Domain.payloadRecords_eq]
  values := by
    refine ⟨mapping, ?_, ?_, ?_⟩
    · simp [namings_mappingModule, names_cons]
    · simp [namings_mappingModule, names_cons, namesUnder_cons]
    · have hperm := payloads_entries_perm (Text.capitalize protocol) domains
      simpa [namings_mappingModule, names_cons, Domain.payloadRecords_eq] using hperm
  fields := by
    refine ⟨api, ?_, ?_, ?_⟩
    · simp [namings_apiModule, names_cons, names_flatMap]
    · simp [namings_apiModule, names_cons, names_flatMap, namesUnder_cons, namesUnder_flatMap]
    · have hqualified (name : String) : (⟨[api], .record, name⟩ : Naming).qualified = api ++ "." ++ name := by
        simp [Naming.qualified, String.append_assoc]
      have hfields : names .field (apiModule api protocol domains).namings = domains.map (Name.api ·.name) := by
        simp [namings_apiModule, names_cons, names_flatMap]
      rw [hfields]
      simp [namings_apiModule, records_cons, records_flatMap, records_each, hqualified, List.map_eq_flatMap,
        List.flatMap_assoc, String.append_assoc]

/-! ## Editions -/

namespace Edition

def markedText (e : Edition) (m : DeclarationModule) : Except Fault Marked :=
  m.marked e.settings.indent e.settings.banner.truthy

def markedProtocol (e : Edition) : Except Fault Marked :=
  e.markedText (protocolModule (Text.capitalize e.protocol) e.domains)

def markedMapping (e : Edition) : Except Fault Marked := do
  e.markedText (mappingModule (← namespaceOf e.settings.mappingModule) e.protocol e.domains)

def markedApi (e : Edition) : Except Fault Marked := do
  e.markedText (apiModule (← namespaceOf e.settings.apiModule) e.protocol e.domains)

theorem markedText_of_moduleText {e : Edition} {m : DeclarationModule} {text : String}
    (h : e.moduleText m = .ok text) : ∃ marked, e.markedText m = .ok marked ∧ marked.plain = text := by
  rw [moduleText, ← DeclarationModule.map_plain_marked] at h
  exact map_eq_ok.1 h

/-- The three modules of an edition name the same payloads. -/
theorem payload_names_agree {e : Edition} {protocol mapping api : String} (hprotocol : e.protocolText = .ok protocol)
    (hmapping : e.mappingText = .ok mapping) (hapi : e.apiText = .ok api) :
    ∃ p m a : Marked, e.markedProtocol = .ok p ∧ e.markedMapping = .ok m ∧ e.markedApi = .ok a ∧
      p.plain = protocol ∧ m.plain = mapping ∧ a.plain = api ∧
      Agreement (Text.capitalize e.protocol) e.domains (p.namings []) (m.namings []) (a.namings []) := by
  obtain ⟨p, hp, hprotocol⟩ := markedText_of_moduleText hprotocol
  obtain ⟨mappingName, hmappingName, hmapping⟩ := bind_eq_ok.1 hmapping
  obtain ⟨m, hm, hmapping⟩ := markedText_of_moduleText hmapping
  obtain ⟨apiName, hapiName, hapi⟩ := bind_eq_ok.1 hapi
  obtain ⟨a, ha, hapi⟩ := markedText_of_moduleText hapi
  refine ⟨p, m, a, hp, ?_, ?_, hprotocol, hmapping, hapi, ?_⟩
  · rw [markedMapping, hmappingName, ok_bind, hm]
  · rw [markedApi, hapiName, ok_bind, ha]
  · rw [DeclarationModule.namings_marked hp, DeclarationModule.namings_marked hm, DeclarationModule.namings_marked ha]
    exact namings_agree e.protocol mappingName apiName e.domains

/-- A protocol with one domain, in which a command takes nothing and an event carries something. -/
def ofPage : Edition where
  domains := [{
    name := "page"
    description := .str "Pages."
    types := []
    commands := [⟨"close", .null, none, some [], .null, ⟨false, false⟩⟩]
    events := [⟨"closed", .str "It is gone.", some [⟨"at", .unknown default, true, .null, ⟨false, false⟩⟩], ⟨false, false⟩⟩]
    dependencies := []
    marks := ⟨false, false⟩ }]
  settings := {}
  protocol := "protocol"

theorem payload_names_agree_ofPage :
    (∃ protocol mapping api : String, ofPage.protocolText = .ok protocol ∧ ofPage.mappingText = .ok mapping ∧
      ofPage.apiText = .ok api ∧
      ∃ p m a : Marked, ofPage.markedProtocol = .ok p ∧ ofPage.markedMapping = .ok m ∧ ofPage.markedApi = .ok a ∧
        p.plain = protocol ∧ m.plain = mapping ∧ a.plain = api ∧
        Agreement "Protocol" ofPage.domains (p.namings []) (m.namings []) (a.namings [])) ∧
      ofPage.domains.flatMap (·.payloadRecords "Protocol") =
        ["Protocol.Page.CloseResponse", "Protocol.Page.ClosedEvent"] := by
  obtain ⟨protocol, hprotocol⟩ := exists_eq_ok (x := ofPage.protocolText) (by decide +kernel)
  obtain ⟨mapping, hmapping⟩ := exists_eq_ok (x := ofPage.mappingText) (by decide +kernel)
  obtain ⟨api, hapi⟩ := exists_eq_ok (x := ofPage.apiText) (by decide +kernel)
  have hname : Text.capitalize ofPage.protocol = "Protocol" := by decide +kernel
  have hagree := payload_names_agree hprotocol hmapping hapi
  rw [hname] at hagree
  exact ⟨⟨protocol, mapping, api, hprotocol, hmapping, hapi, hagree⟩, by decide +kernel⟩

end Edition

end ProtocolTypings
