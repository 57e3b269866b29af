import ProtocolTypings.Proofs.Artifact.Agreement
import ProtocolTypings.Proofs.Artifact.Emission
import ProtocolTypings.Proofs.Schema.Members

/-!
# The mapping module of a document

The mapping module has one entry for each record of an event and one for each record of a command, in the order of the
document. What an entry says can be seen in the record that it is for.
-/

namespace ProtocolTypings

open Schema (HasField CommandOf EventOf itemsUnder optionsOf optionsUnder readDocument recordsUnder valueUnder)

/-! ## Entries -/

/-- What the mapping module says of an event: a list of the type that it carries, or of none. -/
structure EventEntry where
  name : String
  description : Json
  carries : String

/-- What the mapping module says of a command: what it takes, as a list of one type or none, and what it answers. -/
structure CommandEntry where
  name : String
  description : Json
  takes : String
  answers : String

/-- The name for the record of an event or a command in the record of a domain. -/
def memberName (domain record : Json) : String :=
  Name.member (valueUnder "domain" domain).display (valueUnder "name" record).display

/-- A declaration for such a record as named outside the protocol module. The domain and the record give the name. -/
def declarationName (module : String) (name : String → String) (domain record : Json) : String :=
  Name.declaration module (valueUnder "domain" domain).display (name (valueUnder "name" record).display)

namespace EventEntry

def property (e : EventEntry) : Property :=
  madeProperty e.name (madeRef e.carries) e.description

/-- The entry for the record of an event in the record of a domain. -/
def ofRecords (module : String) (domain record : Json) : EventEntry where
  name := memberName domain record
  description := valueUnder "description" record
  carries := "[" ++ (optionsUnder "parameters" record).elim "" (fun _ =>
    declarationName module Name.payload domain record) ++ "]"

def ofDocument (module : String) (document : Json) : List EventEntry :=
  (recordsUnder "events" document).map fun r => ofRecords module r.1 r.2

/-- The comment of the entry and its line. -/
def text (indent : String) (e : EventEntry) : String :=
  madeText (Item.text (.str indent) 2 (.comment e.description)) ++
    (margin indent 2 ++ Name.property e.name ++ ": " ++ e.carries ++ ";\n")

/-- The entry fits the record of an event. -/
structure Fits (record : Json) (e : EventEntry) : Prop where
  nothing : e.carries = "[]" ↔ ¬ HasField "parameters" record

end EventEntry

namespace CommandEntry

def property (e : CommandEntry) : Property :=
  madeProperty e.name
    (.object (.start "") [
      madeProperty "paramsType" (madeRef e.takes) .null,
      madeProperty "returnType" (madeRef e.answers) .null])
    e.description

/-- The entry for the record of a command in the record of a domain. -/
def ofRecords (module : String) (domain record : Json) : CommandEntry where
  name := memberName domain record
  description := valueUnder "description" record
  takes := "[" ++ (optionsUnder "parameters" record).elim "" (fun options =>
    declarationName module Name.request domain record ++ if options.all id then "?" else "") ++ "]"
  answers := (optionsUnder "returns" record).elim "void" fun _ => declarationName module Name.response domain record

def ofDocument (module : String) (document : Json) : List CommandEntry :=
  (recordsUnder "commands" document).map fun r => ofRecords module r.1 r.2

/-- The comment of the entry and its four lines. -/
def text (indent : String) (e : CommandEntry) : String :=
  madeText (Item.text (.str indent) 2 (.comment e.description)) ++
    (margin indent 2 ++ Name.property e.name ++ ": \x7b\n" ++
      (margin indent 3 ++ "paramsType: " ++ e.takes ++ ";\n") ++
      (margin indent 3 ++ "returnType: " ++ e.answers ++ ";\n") ++
      margin indent 2 ++ "\x7d;\n")

/-- The entry fits the record of a command. What the command takes is marked if there is a list of parameters, all of
which have a value for `optional` that counts as yes. -/
structure Fits (record : Json) (e : CommandEntry) : Prop where
  nothing : e.takes = "[]" ↔ ¬ HasField "parameters" record
  marked : "?]".toList <:+ e.takes.toList ↔
    HasField "parameters" record ∧ ∀ p ∈ itemsUnder "parameters" record, (valueUnder "optional" p).truthy = true
  list : "]".toList <:+ e.takes.toList
  void : e.answers = "void" ↔ ¬ HasField "returns" record

end CommandEntry

/-! ## Entries and records -/

theorem EndsAsPayload.bracketed_ne {type : String} (h : EndsAsPayload type) (mark : String) :
    "[" ++ (type ++ mark) ++ "]" ≠ "[]" := by
  intro heq
  have htext : '[' :: (type.toList ++ mark.toList ++ [']']) = ['[', ']'] := by
    simpa using congrArg String.toList heq
  obtain ⟨start, last, htype, -⟩ := h
  have hlength := congrArg List.length htext
  simp only [htype, List.length_cons, List.length_append, List.length_nil] at hlength
  omega

/-- The mark in front of the closing bracket is not part of the name before it, which does not end in one. -/
theorem EndsAsPayload.marked_iff {type mark : String} (h : EndsAsPayload type) (hmark : mark = "" ∨ mark = "?") :
    "?]".toList <:+ ("[" ++ (type ++ mark) ++ "]").toList ↔ mark = "?" := by
  obtain ⟨start, last, htype, hlast⟩ := h
  rcases hmark with rfl | rfl
  · refine ⟨?_, nofun⟩
    rintro ⟨front, hfront⟩
    have htext : (front ++ ['?']) ++ [']'] = ('[' :: start ++ [last]) ++ [']'] := by simpa [htype] using hfront
    have hmarked := congrArg List.getLast? (List.append_cancel_right htext)
    rw [List.getLast?_concat, List.getLast?_concat] at hmarked
    cases hmarked
    simp at hlast
  · exact ⟨fun _ => rfl, fun _ => ⟨'[' :: type.toList, by simp⟩⟩

theorem bracketed_suffix (inner : String) : "]".toList <:+ ("[" ++ inner ++ "]").toList :=
  ⟨'[' :: inner.toList, by simp⟩

section

variable {module : String} {domain record : Json}

theorem EventEntry.fits_ofRecords : (ofRecords module domain record).Fits record where
  nothing := by
    rw [← Schema.optionsUnder_eq_none, ofRecords]
    cases optionsUnder "parameters" record with
    | none => simp
    | some options =>
        have hpayload : EndsAsPayload (declarationName module Name.payload domain record) := endsAsPayload_event ..
        have hne := hpayload.bracketed_ne ""
        rw [String.append_empty] at hne
        exact ⟨fun h => absurd h hne, nofun⟩

theorem CommandEntry.fits_ofRecords : (ofRecords module domain record).Fits record where
  nothing := by
    rw [← Schema.optionsUnder_eq_none, ofRecords]
    cases optionsUnder "parameters" record with
    | none => simp
    | some options =>
        have hrequest : EndsAsPayload (declarationName module Name.request domain record) := endsAsPayload_request ..
        exact ⟨fun h => absurd h (hrequest.bracketed_ne _), nofun⟩
  marked := by
    rw [ofRecords]
    cases hoptions : optionsUnder "parameters" record with
    | none =>
        have hnot : ¬ "?]".toList <:+ ("[" ++ "" ++ "]").toList := by decide
        exact ⟨fun h => absurd h hnot, fun h => absurd h.1 (Schema.optionsUnder_eq_none.1 hoptions)⟩
    | some options =>
        obtain ⟨hfield, rfl⟩ := Schema.optionsUnder_eq_some hoptions
        have hrequest : EndsAsPayload (declarationName module Name.request domain record) := endsAsPayload_request ..
        rw [Option.elim, hrequest.marked_iff (by split <;> simp)]
        simp [hfield]
  list := bracketed_suffix _
  void := by
    rw [← Schema.optionsUnder_eq_none, ofRecords]
    cases optionsUnder "returns" record with
    | none => simp
    | some options =>
        have hresponse : EndsAsPayload (declarationName module Name.response domain record) := endsAsPayload_response ..
        exact ⟨fun h => absurd (congrArg String.toList h) hresponse.ne_void.2, nofun⟩

theorem EventEntry.property_ofRecords {ev : Event} (h : EventOf record ev) :
    (ofRecords module domain record).property = ev.entry module (valueUnder "domain" domain).display := by
  rw [ofRecords, property, ← h.parameters, Event.entry, h.description, memberName, ← h.name, declarationName, ← h.name,
    Event.payloadType]
  cases ev.parameters <;> rfl

theorem CommandEntry.property_ofRecords {c : Command} (h : CommandOf record c) :
    (ofRecords module domain record).property = c.entry module (valueUnder "domain" domain).display := by
  rw [ofRecords, property, ← h.parameters, ← h.returns, Command.entry, h.description, memberName, declarationName,
    declarationName, ← h.name, Command.parametersType, Command.requestType, Command.responseType]
  have hall (ps : List Property) : (ps.map (·.optional)).all id = allOptional ps := by
    rw [List.all_map]
    rfl
  cases c.parameters <;> cases c.returns <;>
    simp only [optionsOf, Option.map_some, Option.map_none, Option.elim, hall] <;> rfl

theorem entries_ofDocument (module : String) {document : Json} {domains : List Domain} {strict : Bool} {place : Place}
    (h : (readDocument strict place document).result = .ok domains) :
    domains.flatMap (·.eventEntries module) = (EventEntry.ofDocument module document).map (·.property) ∧
      domains.flatMap (·.commandEntries module) = (CommandEntry.ofDocument module document).map (·.property) := by
  have hdomains := Schema.domainsOf_readDocument h
  constructor
  · rw [EventEntry.ofDocument, List.map_map]
    exact Schema.flatMap_members (fun _ _ hd => hd.events) (f := fun domain ev => ev.entry module domain)
      (fun _ _ _ hev => EventEntry.property_ofRecords hev) hdomains
  · rw [CommandEntry.ofDocument, List.map_map]
    exact Schema.flatMap_members (fun _ _ hd => hd.commands) (f := fun domain c => c.entry module domain)
      (fun _ _ _ hc => CommandEntry.property_ofRecords hc) hdomains

end

/-! ## Text -/

theorem itemsText_flatMap {α : Type} {unit : Json} {depth : Nat} {items : α → List Item} {text : α → String}
    {xs : List α} (h : ∀ x ∈ xs, itemsText unit depth (items x) = .ok (text x)) :
    itemsText unit depth (xs.flatMap items) = .ok (String.join (xs.map text)) := by
  induction xs with
  | nil => rfl
  | cons x xs ih =>
      rw [List.forall_mem_cons] at h
      rw [List.flatMap_cons, itemsText_append, h.1, ih h.2, List.map_cons, String.join_cons]
      rfl

section

variable {indent : String}

theorem itemsText_member {p : Property} (h : Describes p.description) {depth : Nat} {type : String}
    (htype : p.typeText (.str indent) depth = .ok type) :
    itemsText (.str indent) depth [.comment p.description, .property p] =
      .ok (madeText (Item.text (.str indent) depth (.comment p.description)) ++
        (margin indent depth ++ type ++ ";\n")) := by
  obtain ⟨m, hm, hcomment, hline⟩ := Property.exists_writtenAs indent h depth
  obtain ⟨start, text, hstart, htext, hm⟩ := hm.line
  cases hstart
  rw [htype] at htext
  cases htext
  rw [itemsText_cons, itemsText_cons, itemsText_nil, hcomment, hline, hm]
  simp only [ok_bind, pure_eq_ok, String.append_empty]
  rfl

theorem EventEntry.itemsText_property {e : EventEntry} (h : Describes e.description) :
    itemsText (.str indent) 2 [.comment e.property.description, .property e.property] = .ok (e.text indent) := by
  have htype : e.property.typeText (.str indent) (2 : Nat) =
      .ok (Name.property e.name ++ "" ++ ": " ++ e.carries) := rfl
  rw [itemsText_member h htype, text]
  simp only [String.append_empty, String.append_assoc]
  rfl

theorem CommandEntry.itemsText_property {e : CommandEntry} (h : Describes e.description) :
    itemsText (.str indent) 2 [.comment e.property.description, .property e.property] = .ok (e.text indent) := by
  have hlines : membersText (.str indent) (2 + 1 : Nat)
      [madeProperty "paramsType" (madeRef e.takes) .null, madeProperty "returnType" (madeRef e.answers) .null] =
      .ok (String.join [margin indent 3 ++ "paramsType: " ++ e.takes ++ ";\n",
        margin indent 3 ++ "returnType: " ++ e.answers ++ ";\n"]) := by
    have hmember (name type : String) (hname : Name.property name = name) :
        (madeProperty name (madeRef type) .null).typeText (.str indent) (2 + 1 : Nat) = .ok (name ++ ": " ++ type) := by
      rw [madeProperty, Property.typeText, hname]
      simp only [Bool.false_eq_true, ↓reduceIte, String.append_empty]
      rfl
    have hindentation : indentation (.str indent) (2 + 1 : Nat) = .ok (margin indent 3) := rfl
    simp only [membersText, hmember "paramsType" _ (by decide), hmember "returnType" _ (by decide), hindentation,
      ok_bind, pure_eq_ok, String.join_cons, String.join_nil, String.append_empty, String.append_assoc]
    rfl
  have hobject := Shape.typeText_object hlines (.start "")
  have htype : e.property.typeText (.str indent) (2 : Nat) = .ok (Name.property e.name ++ "" ++ ": " ++
      braced (margin indent 2) [margin indent 3 ++ "paramsType: " ++ e.takes ++ ";\n",
        margin indent 3 ++ "returnType: " ++ e.answers ++ ";\n"]) := by
    rw [property, madeProperty, Property.typeText, hobject]
    rfl
  rw [itemsText_member h htype, text, braced]
  simp only [String.append_empty, String.append_assoc, String.join_cons, String.join_nil]
  rfl

/-- The text of an interface in the scope of a module. -/
def recordText (indent name : String) (lines : List String) : String :=
  margin indent 1 ++ "export interface " ++ name ++ " " ++ braced (margin indent 1) lines ++ "\n"

theorem text_interfaceItem {α : Type} {xs : List α} {property : α → Property} {text : α → String}
    (h : ∀ x ∈ xs, itemsText (.str indent) 2 [.comment (property x).description, .property (property x)] = .ok (text x))
    (name : String) :
    Item.text (.str indent) 1 (interfaceItem name (some (xs.map property))) =
      .ok (recordText indent name (xs.map text)) := by
  apply Item.text_record
  show itemsText (.str indent) 2 ((xs.map property).flatMap _) = _
  rw [List.flatMap_map]
  exact itemsText_flatMap h

/-- The mapping module with these entries. -/
def mappingText (indent name protocol : String) (banner : Bool) (events : List EventEntry)
    (commands : List CommandEntry) : String :=
  headText banner [protocol] ++ "\n" ++ madeText (Item.text (.str indent) 0 (.comment (.str mappingSummary))) ++
    ("export namespace " ++ name ++ " \x7b\n" ++ recordText indent "Events" (events.map (·.text indent)) ++ "\n" ++
      recordText indent "Commands" (commands.map (·.text indent)) ++ "\x7d\n") ++
    exportText name

theorem mappingModule_text {name protocol : String} {domains : List Domain} {events : List EventEntry}
    {commands : List CommandEntry}
    (hevents : domains.flatMap (·.eventEntries (Text.capitalize protocol)) = events.map (·.property))
    (hcommands : domains.flatMap (·.commandEntries (Text.capitalize protocol)) = commands.map (·.property))
    (hdescribed : (∀ e ∈ events, Describes e.description) ∧ ∀ e ∈ commands, Describes e.description) (banner : Bool) :
    (mappingModule name protocol domains).text (.str indent) banner =
      .ok (mappingText indent name protocol banner events commands) := by
  have heventsText : Item.text (.str indent) 1 (interfaceItem "Events" (some (events.map (·.property)))) =
      .ok (recordText indent "Events" (events.map (·.text indent))) :=
    text_interfaceItem (fun e he => EventEntry.itemsText_property (hdescribed.1 e he)) "Events"
  have hcommandsText : Item.text (.str indent) 1 (interfaceItem "Commands" (some (commands.map (·.property)))) =
      .ok (recordText indent "Commands" (commands.map (·.text indent))) :=
    text_interfaceItem (fun e he => CommandEntry.itemsText_property (hdescribed.2 e he)) "Commands"
  obtain ⟨summary, hsummary, -⟩ := exists_commentText indent (.inr ⟨mappingSummary, rfl⟩) 0
  rw [DeclarationModule.text_eq, mappingText, hsummary]
  simp only [mappingModule, hevents, hcommands, itemsText_cons, itemsText_nil, Item.text_block, Item.text_blank,
    heventsText, hcommandsText, hsummary, lineText_margin, ok_bind, pure_eq_ok, map_ok, String.append_empty]
  have hmade : madeText (.ok summary) = summary := rfl
  have hopening : " \x7b\n" = " \x7b" ++ "\n" := rfl
  have hclosing : "\x7d\n" = "\x7d" ++ "\n" := rfl
  simp only [hmade, margin_zero, hopening, hclosing, List.isEmpty_cons, Bool.false_eq_true, ↓reduceIte,
    BlockKind.keyword, String.empty_append, String.append_assoc]

/-- The descriptions of the entries are texts wherever the module is written. -/
theorem describes_of_mappingText {name protocol text : String} {domains : List Domain} {events : List EventEntry}
    {commands : List CommandEntry}
    (hevents : domains.flatMap (·.eventEntries (Text.capitalize protocol)) = events.map (·.property))
    (hcommands : domains.flatMap (·.commandEntries (Text.capitalize protocol)) = commands.map (·.property))
    {banner : Bool} (h : (mappingModule name protocol domains).text (.str indent) banner = .ok text) :
    (∀ e ∈ events, Describes e.description) ∧ ∀ e ∈ commands, Describes e.description := by
  have hneeds := DeclarationModule.needs_text indent (mappingModule name protocol domains) banner
  have hcomments : commentsIn (mappingModule name protocol domains).items =
      .str mappingSummary :: (events.map (·.description) ++ commands.map (·.description)) := by
    simp only [mappingModule, hevents, hcommands, commentsIn, Item.comments, comments_interfaceItem, descriptionsOf,
      Option.getD_some, List.map_map, List.nil_append, List.append_nil, List.singleton_append]
    rfl
  rw [hcomments] at hneeds
  have hall := (hneeds.tail (.inr ⟨_, rfl⟩)).accepts.1 ⟨text, h⟩
  rw [List.forall_mem_append, List.forall_mem_map, List.forall_mem_map] at hall
  exact hall

end

/-! ## The module of a document -/

/-- The mapping module of a document has one entry for each record of an event and of a command, in order, and nothing
else. Each entry fits its record. -/
theorem mapping_of_document {document : Json} {domains : List Domain} {strict : Bool} {place : Place}
    (h : (readDocument strict place document).result = .ok domains) (name protocol : String) :
    let events := EventEntry.ofDocument (Text.capitalize protocol) document
    let commands := CommandEntry.ofDocument (Text.capitalize protocol) document
    List.Forall₂ (fun r e => e.Fits r.2) (recordsUnder "events" document) events ∧
    List.Forall₂ (fun r e => e.Fits r.2) (recordsUnder "commands" document) commands ∧
    (mappingModule name protocol domains).items = [
      .comment (.str mappingSummary),
      .block .scope name [
        interfaceItem "Events" (some (events.map (·.property))),
        .blank,
        interfaceItem "Commands" (some (commands.map (·.property)))]] ∧
    ∀ indent banner text, (mappingModule name protocol domains).text (.str indent) banner = .ok text →
      text = mappingText indent name protocol banner events commands := by
  obtain ⟨hevents, hcommands⟩ := entries_ofDocument (Text.capitalize protocol) h
  refine ⟨?_, ?_, ?_, ?_⟩
  · exact List.forall₂_map_right_iff.2 (List.forall₂_same.2 fun r _ => EventEntry.fits_ofRecords)
  · exact List.forall₂_map_right_iff.2 (List.forall₂_same.2 fun r _ => CommandEntry.fits_ofRecords)
  · rw [mappingModule, hevents, hcommands]
  · intro indent banner text htext
    have hdescribed := describes_of_mappingText hevents hcommands htext
    rw [mappingModule_text hevents hcommands hdescribed] at htext
    exact (Except.ok.inj htext).symm

/-- A domain with commands that take nothing, an empty list, a parameter that a text makes optional, and two of which
one is not optional. -/
def variedDocument : Json :=
  .obj [
    ("domains", .arr [.obj [
      ("domain", .str "page"),
      ("commands", .arr [
        .obj [("name", .str "close")],
        .obj [("name", .str "find"), ("parameters", .arr []), ("returns", .arr [])],
        .obj [("name", .str "open"), ("parameters", .arr [.obj [("name", .str "url"), ("optional", .str "false")]])],
        .obj [("name", .str "move"), ("parameters", .arr [
          .obj [("name", .str "x"), ("optional", .bool true)],
          .obj [("name", .str "y"), ("optional", .int 0)]])]]),
      ("events", .arr [
        .obj [("name", .str "idle"), ("description", .str "Nothing moves.")],
        .obj [("name", .str "loaded"), ("parameters", .arr [])]])]])]

theorem mapping_of_document_varied :
    ∃ domains text, (readDocument false (.document 0) variedDocument).result = .ok domains ∧
      (mappingModule "Mapping" "protocol" domains).text (.str "  ") false = .ok text ∧
      text = mappingText "  " "Mapping" "protocol" false (EventEntry.ofDocument "Protocol" variedDocument)
        (CommandEntry.ofDocument "Protocol" variedDocument) ∧
      (CommandEntry.ofDocument "Protocol" variedDocument).map (fun e => (e.name, e.takes, e.answers)) = [
        ("Page.close", "[]", "void"),
        ("Page.find", "[Protocol.Page.FindRequest?]", "Protocol.Page.FindResponse"),
        ("Page.open", "[Protocol.Page.OpenRequest?]", "void"),
        ("Page.move", "[Protocol.Page.MoveRequest]", "void")] ∧
      (EventEntry.ofDocument "Protocol" variedDocument).map (fun e => (e.name, e.carries)) =
        [("Page.idle", "[]"), ("Page.loaded", "[Protocol.Page.LoadedEvent]")] := by
  obtain ⟨domains, hdomains⟩ :=
    exists_eq_ok (x := (readDocument false (.document 0) variedDocument).result) (by decide +kernel)
  have hprotocol : Text.capitalize "protocol" = "Protocol" := by decide +kernel
  have hmodule := mapping_of_document hdomains "Mapping" "protocol"
  rw [hprotocol] at hmodule
  obtain ⟨-, -, -, htext⟩ := hmodule
  have hmade : ((readDocument false (.document 0) variedDocument).result.toOption.bind fun domains =>
      ((mappingModule "Mapping" "protocol" domains).text (.str "  ") false).toOption).isSome = true := by decide +kernel
  have hsome : (Except.ok domains : Except Fault (List Domain)).toOption = some domains := rfl
  rw [hdomains, hsome, Option.bind_some] at hmade
  obtain ⟨text, hmade⟩ := exists_eq_ok hmade
  exact ⟨domains, text, hdomains, hmade, htext _ _ _ hmade, by decide +kernel, by decide +kernel⟩

end ProtocolTypings
