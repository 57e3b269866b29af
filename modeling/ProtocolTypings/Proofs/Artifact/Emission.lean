import ProtocolTypings.Proofs.Artifact.Metadata
import ProtocolTypings.Proofs.Typing.Interface

/-!
# When modules are written

Under a text as indentation a module is written unless a description that goes into one of its comments is of the wrong
kind. Each module has comments of its own, and the descriptions inside type expressions go into none.
-/

namespace ProtocolTypings

/-! ## Comments -/

mutual
/-- What the comments of an item say, in order. -/
def Item.comments : Item → List Json
  | .comment description => [description]
  | .block _ _ body => commentsIn body
  | .blank | .integerAlias | .typeAlias _ _ | .property _ | .openProperties | .field _ _ | .method _ _ _
  | .listener _ _ => []

def commentsIn : List Item → List Json
  | [] => []
  | item :: rest => item.comments ++ commentsIn rest
end

/-- A text that is made exactly if all of these values are descriptions. Otherwise the fault is that one is no text. -/
structure Needs (descriptions : List Json) (made : Except Fault String) : Prop where
  accepts : (∃ t, made = .ok t) ↔ ∀ v ∈ descriptions, Describes v
  refuses : ∀ fault, made = .error fault → fault = .misuse .descriptionNotText

namespace Needs

variable {vs ws : List Json} {x y : Except Fault String}

theorem ok (t : String) : Needs [] (.ok t) :=
  ⟨⟨nofun, fun _ => ⟨t, rfl⟩⟩, nofun⟩

theorem append (hx : Needs vs x) (hy : Needs ws y) : Needs (vs ++ ws) (do return (← x) ++ (← y)) where
  accepts := by rw [exists_append_eq_ok, hx.accepts, hy.accepts, List.forall_mem_append]
  refuses := by
    intro fault h
    cases x with
    | error cause =>
        cases h
        exact hx.refuses _ rfl
    | ok s =>
        cases y with
        | error cause =>
            cases h
            exact hy.refuses _ rfl
        | ok t => cases h

theorem map (hx : Needs vs x) (f : String → String) : Needs vs (x.map f) := by
  cases x with
  | ok s => exact ⟨⟨fun _ => hx.accepts.1 ⟨s, rfl⟩, fun _ => ⟨f s, rfl⟩⟩, nofun⟩
  | error fault => exact ⟨⟨nofun, fun h => absurd (hx.accepts.2 h) nofun⟩, hx.refuses⟩

/-- A description that is always one may be left out. -/
theorem tail {v : Json} (hx : Needs (v :: vs) x) (hv : Describes v) : Needs vs x where
  accepts := by
    rw [hx.accepts, List.forall_mem_cons]
    exact ⟨fun h => h.2, fun h => ⟨hv, h⟩⟩
  refuses := hx.refuses

end Needs

section

variable {indent : String}

theorem comment_eq_error {v : Json} (h : ¬ Describes v) {s : Sheet} (hunit : s.unit = .str indent) :
    s.comment v = .error (.misuse .descriptionNotText) := by
  have htruthy : v.truthy = true := by
    cases hv : v.truthy with
    | true => rfl
    | false => exact absurd (.inl hv) h
  have hline : ∃ t, s.line "/**" = .ok t := by
    rw [Sheet.line, if_neg (by decide), hunit]
    exact ⟨_, rfl⟩
  obtain ⟨t, hline⟩ := hline
  rw [Sheet.comment, if_pos htruthy, hline]
  cases v with
  | str text => exact absurd (.inr ⟨text, rfl⟩) h
  | _ => rfl

theorem needs_comment (v : Json) (depth : Nat) : Needs [v] (Item.text (.str indent) depth (.comment v)) := by
  by_cases hv : Describes v
  · obtain ⟨comment, hcomment, -⟩ := exists_commentText indent hv depth
    rw [hcomment]
    exact ⟨by simpa using hv, by simp⟩
  · have hfault : Item.text (.str indent) depth (.comment v) = .error (.misuse .descriptionNotText) := by
      rw [Item.text, Sheet.written, Item.write, comment_eq_error hv rfl]
      rfl
    rw [hfault]
    refine ⟨⟨by simp, fun h => absurd (h v List.mem_cons_self) hv⟩, ?_⟩
    rintro fault ⟨⟩
    rfl

theorem needs_lineText (indent : String) (depth : Nat) (text : String) :
    Needs [] (lineText (.str indent) depth text) := by
  rw [lineText_margin]
  exact .ok _

mutual
/-- Nothing but its comments keeps an item from being written. -/
theorem Item.needs_text : (item : Item) → (depth : Nat) → Needs item.comments (item.text (.str indent) depth)
  | .blank, _ => .ok _
  | .comment v, depth => needs_comment v depth
  | .integerAlias, depth => by
      rw [Item.text_integerAlias]
      exact needs_lineText indent depth _
  | .typeAlias _ shape, depth => by
      obtain ⟨text, htext⟩ := shape.exists_typeText indent depth
      rw [Item.text_typeAlias, htext]
      exact needs_lineText indent depth _
  | .property p, depth => by
      obtain ⟨text, htext⟩ := p.exists_typeText indent depth
      rw [Item.text_property, htext]
      exact needs_lineText indent depth _
  | .openProperties, depth => by
      rw [Item.text_openProperties]
      exact needs_lineText indent depth _
  | .field _ _, depth => by
      rw [Item.text_field]
      exact needs_lineText indent depth _
  | .method _ _ _, depth => by
      rw [Item.text_method]
      exact needs_lineText indent depth _
  | .listener _ _, depth => by
      rw [Item.text_listener]
      exact needs_lineText indent depth _
  | .block kind name body, depth => by
      have hbody := (needs_itemsText body (depth + 1)).append (needs_lineText indent depth "\x7d")
      have hblock := (needs_lineText indent depth (kind.keyword ++ name ++ " \x7b")).append hbody
      rw [Item.text_block, Item.comments]
      rw [List.nil_append, List.append_nil] at hblock
      simpa only [bind_assoc, pure_bind] using hblock

theorem needs_itemsText : (items : List Item) → (depth : Nat) →
    Needs (commentsIn items) (itemsText (.str indent) depth items)
  | [], _ => .ok _
  | item :: rest, depth => by
      rw [itemsText_cons]
      exact (Item.needs_text item depth).append (needs_itemsText rest depth)
end

theorem DeclarationModule.needs_text (indent : String) (m : DeclarationModule) (banner : Bool) :
    Needs (commentsIn m.items) (m.text (.str indent) banner) := by
  rw [DeclarationModule.text_eq]
  exact (needs_itemsText m.items 0).map _

end

/-! ## The comments of the modules -/

theorem commentsIn_append (items rest : List Item) :
    commentsIn (items ++ rest) = commentsIn items ++ commentsIn rest := by
  induction items with
  | nil => rfl
  | cons item items ih => rw [List.cons_append, commentsIn, commentsIn, ih, List.append_assoc]

theorem commentsIn_flatMap {α : Type} (xs : List α) (f : α → List Item) :
    commentsIn (xs.flatMap f) = xs.flatMap fun x => commentsIn (f x) := by
  induction xs with
  | nil => rfl
  | cons x xs ih => rw [List.flatMap_cons, List.flatMap_cons, commentsIn_append, ih]

theorem comments_interfaceItem (name : String) (properties : Option (List Property)) :
    (interfaceItem name properties).comments = descriptionsOf properties := by
  cases properties with
  | none => rfl
  | some ps =>
      rw [interfaceItem, Item.comments, commentsIn_flatMap, descriptionsOf, Option.getD_some, List.map_eq_flatMap]
      rfl

/-- What the comments of the protocol module say of a domain: its own description, those of its types, and those of what
the interfaces have as properties. Events have theirs where they carry anything, commands have none. -/
def Domain.protocolDescriptions (d : Domain) : List Json :=
  d.description ::
    (d.types.flatMap (·.descriptions) ++
      d.commands.flatMap (fun c => descriptionsOf c.parameters ++ descriptionsOf c.returns) ++
      (d.events.filter (·.parameters.isSome)).flatMap (·.descriptions))

/-- What the comments of the mapping module say: the descriptions of all events and commands. -/
def mappingDescriptions (domains : List Domain) : List Json :=
  domains.flatMap (fun d => d.events.map (·.description)) ++ domains.flatMap fun d => d.commands.map (·.description)

/-- What the comments of the API module say of a domain: the descriptions of its commands, and of the events that carry
anything. -/
def Domain.apiDescriptions (d : Domain) : List Json :=
  d.commands.map (·.description) ++ (d.events.filter (·.parameters.isSome)).map (·.description)

section

variable {name protocol module domain : String}

theorem TypeDecl.comments_items (t : TypeDecl) : commentsIn t.items = t.descriptions := by
  have hshape : ∀ item, commentsIn [.blank, .comment t.description, item] = t.description :: item.comments := by
    intro item
    simp only [commentsIn, Item.comments, List.nil_append, List.cons_append, List.append_nil]
  rw [TypeDecl.items, TypeDecl.descriptions, hshape]
  cases t.shape with
  | object source properties => rw [comments_interfaceItem]
  | openObject source => rw [comments_interfaceItem]; rfl
  | _ => rfl

theorem Command.comments_payloadItems (c : Command) :
    commentsIn c.payloadItems = descriptionsOf c.parameters ++ descriptionsOf c.returns := by
  have hinterface : ∀ (properties : Option (List Property)) (name : String),
      commentsIn (properties.elim [] fun ps => [.blank, interfaceItem name (some ps)]) = descriptionsOf properties := by
    intro properties name
    cases properties with
    | none => rfl
    | some ps => rw [Option.elim, commentsIn, commentsIn, commentsIn, comments_interfaceItem]; simp [Item.comments]
  rw [Command.payloadItems, commentsIn_append, hinterface, hinterface]

/-- Items of events that are only made if the event carries anything. -/
theorem comments_events {items : Event → List Item} {descriptions : Event → List Json}
    (h : ∀ ev, commentsIn (items ev) = if ev.parameters.isSome then descriptions ev else []) (events : List Event) :
    commentsIn (events.flatMap items) = (events.filter (·.parameters.isSome)).flatMap descriptions := by
  induction events with
  | nil => rfl
  | cons ev events ih =>
      rw [List.flatMap_cons, commentsIn_append, ih, h, List.filter_cons]
      split <;> simp

theorem comments_eventPayloads (events : List Event) :
    commentsIn (events.flatMap (·.payloadItems)) = (events.filter (·.parameters.isSome)).flatMap (·.descriptions) := by
  refine comments_events (fun ev => ?_) events
  cases hparameters : ev.parameters with
  | none => simp [Event.payloadItems, hparameters, commentsIn]
  | some ps =>
      simp [Event.payloadItems, hparameters, commentsIn, Item.comments, comments_interfaceItem, Event.descriptions]

theorem comments_protocolModule (domains : List Domain) :
    commentsIn (protocolModule name domains).items = domains.flatMap (·.protocolDescriptions) := by
  have hdomain : ∀ d : Domain, commentsIn d.protocolItems = d.protocolDescriptions := by
    intro d
    simp only [Domain.protocolItems, commentsIn, Item.comments, commentsIn_append, commentsIn_flatMap _ TypeDecl.items,
      commentsIn_flatMap _ Command.payloadItems, TypeDecl.comments_items, Command.comments_payloadItems,
      comments_eventPayloads, List.nil_append, List.cons_append, List.append_nil]
    rfl
  simp only [protocolModule, commentsIn, Item.comments, commentsIn_append, commentsIn_flatMap, hdomain, List.nil_append,
    List.append_nil]

theorem comments_mappingModule (domains : List Domain) :
    commentsIn (mappingModule name protocol domains).items = .str mappingSummary :: mappingDescriptions domains := by
  simp only [mappingModule, commentsIn, Item.comments, comments_interfaceItem, descriptionsOf, Option.getD_some,
    List.map_flatMap, Domain.eventEntries, Domain.commandEntries, List.map_map, List.nil_append, List.cons_append,
    List.append_nil]
  rfl

theorem comments_apiEvents (events : List Event) :
    commentsIn (events.flatMap (·.apiItems module domain)) =
      (events.filter (·.parameters.isSome)).map (·.description) := by
  rw [List.map_eq_flatMap]
  refine comments_events (fun ev => ?_) events
  cases hparameters : ev.parameters with
  | none => simp [Event.apiItems, Event.payloadType, hparameters, commentsIn]
  | some ps => simp [Event.apiItems, Event.payloadType, hparameters, commentsIn, Item.comments]

theorem comments_apiModule (domains : List Domain) :
    commentsIn (apiModule name protocol domains).items =
      .str apiSummary :: domains.flatMap (·.apiDescriptions) := by
  have hfields : commentsIn (domains.flatMap (·.apiField)) = [] := by
    rw [commentsIn_flatMap]
    exact List.flatMap_eq_nil_iff.2 fun _ _ => rfl
  have hcommands : ∀ (domain : String) (commands : List Command),
      commentsIn (commands.flatMap (·.apiItems (Text.capitalize protocol) domain)) = commands.map (·.description) := by
    intro domain commands
    rw [commentsIn_flatMap, List.map_eq_flatMap]
    rfl
  have hdomain : ∀ d : Domain, commentsIn (d.apiItems (Text.capitalize protocol)) = d.apiDescriptions := by
    intro d
    simp only [Domain.apiItems, commentsIn, Item.comments, commentsIn_append, hcommands, comments_apiEvents,
      List.nil_append, List.append_nil]
    rfl
  simp only [apiModule, commentsIn, Item.comments, hfields, commentsIn_flatMap domains, hdomain, List.nil_append,
    List.cons_append, List.append_nil]

end

/-! ## The modules of an edition -/

namespace Edition

variable {e : Edition} {indent name : String}

theorem needs_protocolText (hindent : e.settings.indent = .str indent) :
    Needs (e.domains.flatMap (·.protocolDescriptions)) e.protocolText := by
  rw [protocolText, moduleText, hindent, ← comments_protocolModule]
  exact DeclarationModule.needs_text _ _ _

theorem exists_namespaceOf_str (name : String) : ∃ module, namespaceOf (.str name) = .ok module := by
  unfold namespaceOf
  split
  · exact ⟨_, rfl⟩
  · exact ⟨_, rfl⟩

theorem needs_mappingText (hindent : e.settings.indent = .str indent) (hname : e.settings.mappingModule = .str name) :
    Needs (mappingDescriptions e.domains) e.mappingText := by
  obtain ⟨module, hmodule⟩ := exists_namespaceOf_str name
  rw [mappingText, hname, hmodule, ok_bind, moduleText, hindent]
  have hneeds := DeclarationModule.needs_text indent (mappingModule module e.protocol e.domains)
    e.settings.banner.truthy
  rw [comments_mappingModule] at hneeds
  exact hneeds.tail (.inr ⟨_, rfl⟩)

theorem needs_apiText (hindent : e.settings.indent = .str indent) (hname : e.settings.apiModule = .str name) :
    Needs (e.domains.flatMap (·.apiDescriptions)) e.apiText := by
  obtain ⟨module, hmodule⟩ := exists_namespaceOf_str name
  rw [apiText, hname, hmodule, ok_bind, moduleText, hindent]
  have hneeds := DeclarationModule.needs_text indent (apiModule module e.protocol e.domains)
    e.settings.banner.truthy
  rw [comments_apiModule] at hneeds
  exact hneeds.tail (.inr ⟨_, rfl⟩)

/-- Each module is written unless one of the descriptions that it has as comments is of the wrong kind, which is the one
fault. Descriptions inside the type expressions of alike editions may differ without a difference in the texts. -/
theorem texts_need_descriptions {mapping api : String} (hindent : e.settings.indent = .str indent)
    (hmapping : e.settings.mappingModule = .str mapping) (hapi : e.settings.apiModule = .str api) :
    Needs (e.domains.flatMap (·.protocolDescriptions)) e.protocolText ∧
    Needs (mappingDescriptions e.domains) e.mappingText ∧
    Needs (e.domains.flatMap (·.apiDescriptions)) e.apiText ∧
    ∀ e' : Edition, e.Alike e' →
      e'.protocolText = e.protocolText ∧ e'.mappingText = e.mappingText ∧ e'.apiText = e.apiText :=
  ⟨needs_protocolText hindent, needs_mappingText hindent hmapping, needs_apiText hindent hapi, fun _ halike =>
    ⟨halike.protocolText.symm, halike.mappingText.symm, halike.apiText.symm⟩⟩

/-- The description of an event that carries nothing is a number, and so may be that of a property inside a list of
objects. -/
def misdescribed (inner : Json) : Edition where
  domains := [{
    name := "Network"
    description := .str "What is sent."
    types := [{
      id := "Header"
      shape := .object default [{
        name := "parts"
        shape := .array default (.object default [⟨"text", .any default, true, inner, default⟩])
        optional := false
        description := .bool false
        marks := default }]
      description := .null
      marks := default }]
    commands := [⟨"enable", .str "Start to listen.", none, none, .null, default⟩]
    events := [⟨"idle", .int 3, none, default⟩]
    dependencies := []
    marks := default }]
  settings := {}
  protocol := "protocol"

theorem texts_need_descriptions_misdescribed :
    (∃ text, (misdescribed (.int 7)).protocolText = .ok text) ∧
      (misdescribed (.int 7)).mappingText = .error (.misuse .descriptionNotText) ∧
      (∃ text, (misdescribed (.int 7)).apiText = .ok text) ∧
      (misdescribed .null).apiText = (misdescribed (.int 7)).apiText := by
  obtain ⟨hprotocol, hmapping, hapi, halike⟩ :=
    texts_need_descriptions (e := misdescribed (.int 7)) rfl rfl rfl
  have hnot : ¬ ∃ text, (misdescribed (.int 7)).mappingText = .ok text := by
    rw [hmapping.accepts]
    intro hall
    have hidle : Describes (.int 3) := hall _ List.mem_cons_self
    simp [Describes, Json.truthy] at hidle
  refine ⟨hprotocol.accepts.2 ?_, ?_, hapi.accepts.2 ?_, (halike _ ⟨rfl, rfl, ?_⟩).2.2⟩
  · simp [misdescribed, Domain.protocolDescriptions, TypeDecl.descriptions, descriptionsOf, Describes, Json.truthy]
  · cases h : (misdescribed (.int 7)).mappingText with
    | ok text => exact absurd ⟨text, h⟩ hnot
    | error fault => rw [hmapping.refuses fault h]
  · simp [misdescribed, Domain.apiDescriptions, Describes, Json.truthy]
  · refine .cons ⟨rfl, rfl, ?_, ?_, ?_⟩ .nil
    · exact .cons ⟨rfl, rfl, rfl, .cons ⟨rfl, rfl⟩ .nil⟩ .nil
    · exact .cons ⟨rfl, rfl, .none, .none⟩ .nil
    · exact .cons ⟨rfl, rfl, .none⟩ .nil

end Edition

end ProtocolTypings
