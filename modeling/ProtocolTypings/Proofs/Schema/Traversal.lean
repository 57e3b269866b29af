import Mathlib.Data.List.Forall2
import ProtocolTypings.Proofs.Schema.Protocol
import ProtocolTypings.Proofs.Schema.Sources

/-!
# One shape for each source

A reading makes one shape of each source, in the order of the sources, and marks it with the place to which the steps of
the source lead. So no shape is lost, none is made twice, and the text of its place tells it from all others.
-/

namespace ProtocolTypings

/-! ## The shapes of a protocol -/

mutual
/-- The shape itself, and then those of which it is made. -/
def Shape.nodes : Shape → List Shape
  | .array place items => .array place items :: items.nodes
  | .object place properties => .object place properties :: nodesOfAll properties
  | other => [other]

def nodesOfAll : List Property → List Shape
  | [] => []
  | p :: ps => p.nodes ++ nodesOfAll ps

def Property.nodes : Property → List Shape
  | ⟨_, shape, _, _, _⟩ => shape.nodes
end

theorem nodesOfAll_eq (ps : List Property) : nodesOfAll ps = ps.flatMap (·.nodes) := by
  induction ps with
  | nil => rfl
  | cons p ps ih => rw [nodesOfAll, ih, List.flatMap_cons]

def Command.nodes (c : Command) : List Shape :=
  nodesOfAll (c.parameters.getD []) ++ nodesOfAll (c.returns.getD [])

def Event.nodes (ev : Event) : List Shape :=
  nodesOfAll (ev.parameters.getD [])

/-- The shapes of the types, of the parameters and results of the commands, and of what the events carry. -/
def Domain.nodes (d : Domain) : List Shape :=
  d.types.flatMap (·.shape.nodes) ++ d.commands.flatMap (·.nodes) ++ d.events.flatMap (·.nodes)

namespace Schema

/-! ## What a source gives -/

/-- The shape is what the record says. Where there is no record, or no type in it, only a lenient reading gives one. -/
inductive ReadAs : Bool → Option (List (String × Json)) → Shape → Prop
  | reference {strict : Bool} {fields : List (String × Json)} {target : Json} {place : Place} :
      fields.lookup "$ref" = some target → ReadAs strict (some fields) (.ref place target.display)
  | untyped {fields : List (String × Json)} {place : Place} :
      fields.lookup "$ref" = none → Json.fieldOrNull fields "type" = .null → ReadAs false (some fields) (.any place)
  | array {strict : Bool} {fields : List (String × Json)} {place : Place} {items : Shape} :
      fields.lookup "$ref" = none → Json.fieldOrNull fields "type" = .str "array" →
      ReadAs strict (some fields) (.array place items)
  | openObject {strict : Bool} {fields : List (String × Json)} {place : Place} :
      fields.lookup "$ref" = none → Json.fieldOrNull fields "type" = .str "object" →
      fields.lookup "properties" = none → ReadAs strict (some fields) (.openObject place)
  | object {strict : Bool} {fields : List (String × Json)} {place : Place} {values : List Json}
      {properties : List Property} :
      fields.lookup "$ref" = none → Json.fieldOrNull fields "type" = .str "object" →
      fields.lookup "properties" = some (.arr values) → ReadAs strict (some fields) (.object place properties)
  | primitive {strict : Bool} {fields : List (String × Json)} {place : Place} {values : Option (List String)} :
      fields.lookup "$ref" = none →
      Json.fieldOrNull fields "type" ∉ [Json.null, .str "array", .str "object"] →
      ReadAs strict (some fields) (.primitive place (Json.fieldOrNull fields "type").display values)
  | element {place : Place} : ReadAs false none (.any place)

/-- The shape comes from the source: its place is where the steps lead, and it is read of the record there. -/
structure Gives (strict : Bool) (place : Place) (s : Source) (node : Shape) : Prop where
  place : node.place = place.below s.steps
  read : ReadAs strict s.record node

/-- What is read has a shape for each source. -/
def Traverses {α : Type} (strict : Bool) (place : Place) (sources : List Source) (nodes : α → List Shape)
    (x : Logged α) : Prop :=
  ∀ a, x.result = .ok a → List.Forall₂ (Gives strict place) sources (nodes a)

section

variable {α : Type} {strict : Bool} {place : Place} {nodes : α → List Shape} {x : Logged α}

theorem Gives.key {name : String} {s : Source} {node : Shape} (h : Gives strict (place.key name) s node) :
    Gives strict place (s.under (.key name)) node :=
  ⟨h.place.trans (Place.key_below name), h.read⟩

theorem Gives.position {i : Nat} {s : Source} {node : Shape} (h : Gives strict (place.position i) s node) :
    Gives strict place (s.under (.position i)) node :=
  ⟨h.place.trans (Place.position_below i), h.read⟩

theorem gives_map_key {name : String} {ss : List Source} {shapes : List Shape}
    (h : List.Forall₂ (Gives strict (place.key name)) ss shapes) :
    List.Forall₂ (Gives strict place) (ss.map (.under (.key name))) shapes :=
  List.forall₂_map_left_iff.2 (h.imp fun _ _ => Gives.key)

namespace Traverses

theorem of_ok {a : α} {sources : List Source} (hx : x.result = .ok a)
    (h : List.Forall₂ (Gives strict place) sources (nodes a)) : Traverses strict place sources nodes x := by
  intro b hb
  rw [hx] at hb
  cases hb
  exact h

theorem of_error {fault : Fault} {sources : List Source} (hx : x.result = .error fault) :
    Traverses strict place sources nodes x := by
  intro a ha
  rw [hx] at ha
  cases ha

theorem bind {β : Type} {sources : List Source} {nodes : β → List Shape} {f : α → Logged β}
    (hf : ∀ a, x.result = .ok a → Traverses strict place sources nodes (f a)) :
    Traverses strict place sources nodes (x >>= f) := by
  intro b hb
  obtain ⟨a, ha, hb⟩ := Logged.bind_result_eq_ok.1 hb
  exact hf a ha b hb

/-- The shapes of what is made of the outcome are those of the outcome. -/
theorem bind_pure {β : Type} {sources : List Source} {nodes' : β → List Shape} (hx : Traverses strict place sources nodes x)
    {f : α → β} (hf : ∀ a, nodes' (f a) = nodes a) : Traverses strict place sources nodes' (x >>= fun a => pure (f a)) := by
  apply bind
  intro a ha
  apply of_ok rfl
  rw [hf]
  exact hx a ha

theorem readEach {read : Place → Json → Logged α} {sources : Json → List Source} {values : List Json}
    (h : ∀ v ∈ values, ∀ place, Traverses strict place (sources v) nodes (read place v)) (place : Place) (i : Nat) :
    Traverses strict place (positioned sources i values) (·.flatMap nodes) (readEach read place i values) := by
  induction values generalizing i with
  | nil => exact of_ok rfl .nil
  | cons v rest ih =>
      rw [List.forall_mem_cons] at h
      intro items hitems
      obtain ⟨item, hitem, hitems⟩ := Logged.bind_result_eq_ok.1 hitems
      obtain ⟨others, hothers, hitems⟩ := Logged.bind_result_eq_ok.1 hitems
      cases hitems
      have hfirst := List.forall₂_map_left_iff.2 ((h.1 _ item hitem).imp fun _ _ => Gives.position)
      exact List.rel_append hfirst (ih h.2 (i + 1) others hothers)

/-- Items under a key, which have been found to be a list. -/
theorem readEach_under {read : Place → Json → Logged α} {sources : Json → List Source} {key : String} {value : Json}
    (h : ∀ v ∈ itemsUnder key value, ∀ place, Traverses strict place (sources v) nodes (read place v)) (place : Place) :
    Traverses strict place (listed sources key value) (·.flatMap nodes)
      (Schema.readEach read (place.key key) 0 (itemsUnder key value)) := by
  intro items hitems
  exact gives_map_key (readEach h (place.key key) 0 items hitems)

end Traverses

/-! ## Shapes -/

variable {fields : List (String × Json)}

theorem listed_of_lookup_eq_none {sources : Json → List Source} {key : String} (h : fields.lookup key = none) :
    listed sources key (.obj fields) = [] := by
  rw [listed, itemsUnder_of_lookup_eq_none h]
  rfl

theorem traverses_readProperty {value : Json}
    (h : Traverses strict place (shapeSources value) Shape.nodes (readShape strict place value)) :
    Traverses strict place (shapeSources value) Property.nodes (readProperty strict place value) := by
  cases value with
  | obj fields =>
      rw [readProperty_obj]
      apply Traverses.bind
      intro name _
      exact h.bind_pure fun _ => rfl
  | _ => exact .of_error rfl

theorem traverses_primitiveOf (href : fields.lookup "$ref" = none)
    (hscalar : Json.fieldOrNull fields "type" ∉ [Json.null, .str "array", .str "object"]) :
    Traverses strict place [⟨[], some fields⟩] Shape.nodes
      (primitiveOf strict place fields (Json.fieldOrNull fields "type")) := by
  have hgives (values : Option (List String)) :
      Gives strict place ⟨[], some fields⟩ (.primitive place (Json.fieldOrNull fields "type").display values) :=
    ⟨Place.below_nil.symm, .primitive href hscalar⟩
  unfold primitiveOf
  split
  · exact .of_error rfl
  · exact .of_error rfl
  split
  · exact .of_error rfl
  · apply Traverses.bind
    intro values _
    exact .of_ok rfl (.cons (hgives values) .nil)

/-- The shape comes from its record, the shapes below it from the records that are read for them. -/
theorem traverses_readShape (place : Place) (value : Json) :
    Traverses strict place (shapeSources value) Shape.nodes (readShape strict place value) := by
  cases value with
  | obj fields =>
      rw [readShape]
      cases href : fields.lookup "$ref" with
      | some target =>
          rw [shapeOf_reference href, shapeSources_reference href]
          exact .of_ok rfl (.cons ⟨Place.below_nil.symm, .reference href⟩ .nil)
      | none =>
          by_cases hnull : Json.fieldOrNull fields "type" = .null
          · rw [shapeOf_untyped href hnull, shapeSources_scalar (by simp [hnull]) (by simp [hnull])]
            cases strict with
            | true => exact .of_error rfl
            | false => exact .of_ok rfl (.cons ⟨Place.below_nil.symm, .untyped href hnull⟩ .nil)
          by_cases harray : Json.fieldOrNull fields "type" = .str "array"
          · have hhead (items : Shape) : Gives strict place ⟨[], some fields⟩ (.array place items) :=
              ⟨Place.below_nil.symm, .array href harray⟩
            rw [shapeOf_array href harray, itemsIn_eq, shapeSources_array href harray]
            cases hitems : fields.lookup "items" with
            | none =>
                cases strict with
                | true => exact .of_error rfl
                | false => exact .of_ok rfl (.cons (hhead _) (.cons ⟨rfl, .element⟩ .nil))
            | some items =>
                intro shape hshape
                obtain ⟨inner, hinner, hshape⟩ := Logged.bind_result_eq_ok.1 hshape
                cases hshape
                exact .cons (hhead inner) (gives_map_key (traverses_readShape (place.key "items") items inner hinner))
          by_cases hobject : Json.fieldOrNull fields "type" = .str "object"
          · rw [shapeOf_object href hobject, propertiesIn_eq, shapeSources_object href hobject]
            cases hvalues : fields.lookup "properties" with
            | none =>
                rw [listed_of_lookup_eq_none hvalues]
                exact .of_ok rfl (.cons ⟨Place.below_nil.symm, .openObject href hobject hvalues⟩ .nil)
            | some content =>
                apply Traverses.bind
                intro values hlist
                obtain rfl := expectList_eq_ok.1 hlist
                have hproperties : Traverses strict place (listed shapeSources "properties" (.obj fields))
                    (·.flatMap Property.nodes) (readEach (readProperty strict) (place.key "properties") 0
                      (itemsUnder "properties" (.obj fields))) :=
                  .readEach_under (fun v hv place => traverses_readProperty (traverses_readShape place v)) place
                rw [itemsUnder_obj hvalues] at hproperties
                intro shape hshape
                obtain ⟨ps, hps, hshape⟩ := Logged.bind_result_eq_ok.1 hshape
                cases hshape
                apply List.Forall₂.cons ⟨Place.below_nil.symm, .object href hobject hvalues⟩
                rw [nodesOfAll_eq]
                exact hproperties ps hps
          · rw [shapeOf_scalar href hnull harray hobject, shapeSources_scalar harray hobject]
            exact traverses_primitiveOf href (by simp [hnull, harray, hobject])
  | _ => exact .of_error rfl
termination_by sizeOf value
decreasing_by
  · exact sizeOf_lt_of_lookup hitems
  · exact sizeOf_lt_of_mem_itemsUnder hv

/-! ## Domains -/

theorem traverses_propertyList (key : String) :
    Traverses strict place (listed shapeSources key (.obj fields)) (fun ps => nodesOfAll (ps.getD []))
      (propertyList strict fields key place) := by
  unfold propertyList
  cases hlookup : fields.lookup key with
  | none =>
      rw [listed_of_lookup_eq_none hlookup]
      exact .of_ok rfl .nil
  | some content =>
      apply Traverses.bind
      intro values hlist
      obtain rfl := expectList_eq_ok.1 hlist
      rw [readProperties_eq_readEach, ← itemsUnder_obj hlookup]
      refine (Traverses.readEach_under (fun v _ place => ?_) place).bind_pure fun ps => nodesOfAll_eq ps
      exact traverses_readProperty (traverses_readShape place v)

theorem traverses_readType (place : Place) (value : Json) :
    Traverses strict place (shapeSources value) (·.shape.nodes) (readType strict place value) := by
  apply Traverses.bind
  intro fields _
  apply Traverses.bind
  intro id _
  exact (traverses_readShape place value).bind_pure fun _ => rfl

theorem traverses_readCommand (place : Place) (value : Json) :
    Traverses strict place (commandSources value) Command.nodes (readCommand strict place value) := by
  intro c hc
  obtain ⟨fields, hfields, hc⟩ := Logged.bind_result_eq_ok.1 hc
  obtain ⟨name, -, hc⟩ := Logged.bind_result_eq_ok.1 hc
  obtain ⟨parameters, hparameters, hc⟩ := Logged.bind_result_eq_ok.1 hc
  obtain ⟨returns, hreturns, hc⟩ := Logged.bind_result_eq_ok.1 hc
  cases hc
  obtain rfl := expectFields_eq_ok.1 hfields
  exact List.rel_append (traverses_propertyList "parameters" parameters hparameters)
    (traverses_propertyList "returns" returns hreturns)

theorem traverses_readEvent (place : Place) (value : Json) :
    Traverses strict place (eventSources value) Event.nodes (readEvent strict place value) := by
  apply Traverses.bind
  intro fields hfields
  obtain rfl := expectFields_eq_ok.1 hfields
  apply Traverses.bind
  intro name _
  exact (traverses_propertyList "parameters").bind_pure fun _ => rfl

/-- The items of a list that the record may leave out. -/
theorem traverses_readEach_listIn {read : Place → Json → Logged α} {sources : Json → List Source} {key : String}
    {values : List Json} (hlist : (listIn fields key place).result = .ok values)
    (h : ∀ place v, Traverses strict place (sources v) nodes (read place v)) :
    Traverses strict place (listed sources key (.obj fields)) (·.flatMap nodes)
      (readEach read (place.key key) 0 values) := by
  rw [← itemsUnder_of_listIn hlist]
  exact .readEach_under (fun v _ place => h place v) place

theorem traverses_readDomain (place : Place) (value : Json) :
    Traverses strict place (domainSources value) Domain.nodes (readDomain strict place value) := by
  intro d hd
  obtain ⟨fields, hfields, hd⟩ := Logged.bind_result_eq_ok.1 hd
  obtain ⟨name, -, hd⟩ := Logged.bind_result_eq_ok.1 hd
  obtain ⟨typeRecords, htypeRecords, hd⟩ := Logged.bind_result_eq_ok.1 hd
  obtain ⟨types, htypes, hd⟩ := Logged.bind_result_eq_ok.1 hd
  obtain ⟨commandRecords, hcommandRecords, hd⟩ := Logged.bind_result_eq_ok.1 hd
  obtain ⟨commands, hcommands, hd⟩ := Logged.bind_result_eq_ok.1 hd
  obtain ⟨eventRecords, heventRecords, hd⟩ := Logged.bind_result_eq_ok.1 hd
  obtain ⟨events, hevents, hd⟩ := Logged.bind_result_eq_ok.1 hd
  obtain ⟨dependencies, -, hd⟩ := Logged.bind_result_eq_ok.1 hd
  cases hd
  obtain rfl := expectFields_eq_ok.1 hfields
  have htypeNodes := traverses_readEach_listIn htypeRecords traverses_readType types htypes
  have hcommandNodes := traverses_readEach_listIn hcommandRecords traverses_readCommand commands hcommands
  have heventNodes := traverses_readEach_listIn heventRecords traverses_readEvent events hevents
  exact List.rel_append (List.rel_append htypeNodes hcommandNodes) heventNodes

theorem traverses_readDocument (place : Place) (document : Json) :
    Traverses strict place (documentSources document) (·.flatMap Domain.nodes) (readDocument strict place document) := by
  intro ds hds
  obtain ⟨fields, hfields, hds⟩ := Logged.bind_result_eq_ok.1 hds
  obtain ⟨records, hrecords, hds⟩ := Logged.bind_result_eq_ok.1 hds
  obtain ⟨domains, hdomains, hds⟩ := Logged.bind_result_eq_ok.1 hds
  cases hds
  obtain rfl := expectFields_eq_ok.1 hfields
  rw [← itemsUnder_obj (fieldOrNull_eq_arr.1 (expectList_eq_ok.1 hrecords))] at hdomains
  exact Traverses.readEach_under (fun v _ place => traverses_readDomain place v) place _ hdomains

/-! ## Records that are looked at -/

def recordsAmong (ss : List Source) : List (List (String × Json)) :=
  ss.filterMap (·.record)

theorem recordsAmong_append (ss ss' : List Source) : recordsAmong (ss ++ ss') = recordsAmong ss ++ recordsAmong ss' :=
  List.filterMap_append

theorem recordsAmong_under (step : Place.Step) (ss : List Source) :
    recordsAmong (ss.map (.under step)) = recordsAmong ss := by
  rw [recordsAmong, List.filterMap_map]
  rfl

theorem recordsAmong_positioned (sources : Json → List Source) (i : Nat) (values : List Json) :
    recordsAmong (positioned sources i values) = values.flatMap fun v => recordsAmong (sources v) := by
  induction values generalizing i with
  | nil => rfl
  | cons v rest ih => rw [positioned, recordsAmong_append, recordsAmong_under, ih, List.flatMap_cons]

theorem recordsAmong_listed (sources : Json → List Source) (key : String) (value : Json) :
    recordsAmong (listed sources key value) = (itemsUnder key value).flatMap fun v => recordsAmong (sources v) := by
  rw [listed, recordsAmong_under, recordsAmong_positioned]

/-- The sources in a shape are the records that are looked at when it is read. -/
theorem mem_recordsAmong_shapeSources {value : Json} {record : List (String × Json)} :
    record ∈ recordsAmong (shapeSources value) ↔ Visits value record := by
  cases value with
  | obj fields =>
      have hhere (ss : List Source) : record ∈ recordsAmong (⟨[], some fields⟩ :: ss) ↔
          record = fields ∨ record ∈ recordsAmong ss := List.mem_cons
      cases href : fields.lookup "$ref" with
      | some target =>
          rw [shapeSources_reference href, visits_reference href, hhere]
          simp [recordsAmong]
      | none =>
          by_cases harray : Json.fieldOrNull fields "type" = .str "array"
          · rw [shapeSources_array href harray, visits_array href harray, hhere, recordsAmong_under]
            cases hitems : fields.lookup "items" with
            | none => simp [recordsAmong]
            | some items =>
                rw [Option.elim_some, mem_recordsAmong_shapeSources]
                simp
          by_cases hobject : Json.fieldOrNull fields "type" = .str "object"
          · rw [shapeSources_object href hobject, visits_object href hobject, hhere, recordsAmong_listed, List.mem_flatMap]
            have hproperties : ∀ v ∈ itemsUnder "properties" (.obj fields),
                (record ∈ recordsAmong (shapeSources v) ↔ Visits v record) :=
              fun v hv => mem_recordsAmong_shapeSources
            constructor
            · rintro (hrecord | ⟨v, hv, hrecord⟩)
              · exact .inl hrecord
              · obtain ⟨values, hvalues, hmem⟩ := mem_itemsUnder.1 hv
                exact .inr ⟨values, hvalues, v, hmem, (hproperties v hv).1 hrecord⟩
            · rintro (hrecord | ⟨values, hvalues, v, hmem, hvisits⟩)
              · exact .inl hrecord
              · have hv := mem_itemsUnder.2 ⟨values, hvalues, hmem⟩
                exact .inr ⟨v, hv, (hproperties v hv).2 hvisits⟩
          · rw [shapeSources_scalar harray hobject, visits_scalar harray hobject, hhere]
            simp [recordsAmong]
  | _ =>
      constructor
      · simp [shapeSources, recordsAmong]
      · intro hvisits
        cases hvisits
termination_by sizeOf value
decreasing_by
  · exact sizeOf_lt_of_lookup hitems
  · exact sizeOf_lt_of_mem_itemsUnder hv

/-- The sources in a document are those in the shapes at the top of its domains. -/
theorem recordsAmong_documentSources (document : Json) :
    recordsAmong (documentSources document) =
      (documentRecords document).flatMap fun v => recordsAmong (shapeSources v) := by
  simp only [documentSources, domainSources, commandSources, eventSources, documentRecords, domainRecords, memberRecords,
    recordsAmong_listed, recordsAmong_append, List.flatMap_append, List.flatMap_assoc]

theorem mem_recordsAmong_protocolSources {documents : List Json} {record : List (String × Json)} :
    record ∈ recordsAmong (protocolSources documents) ↔ ∃ document ∈ documents, VisitsIn document record := by
  simp only [protocolSources, recordsAmong_positioned, recordsAmong_documentSources, List.mem_flatMap,
    mem_recordsAmong_shapeSources, VisitsIn, VisitsAmong]

/-! ## Protocols -/

theorem intercalate_cons (first : String) (rest : List String) :
    "/".intercalate (first :: rest) = first ++ String.join (rest.map ("/" ++ ·)) := by
  induction rest generalizing first with
  | nil => simp
  | cons second rest ih =>
      rw [String.intercalate_cons_cons, ih, List.map_cons, String.join_cons]
      simp only [String.append_assoc]

/-- The document is told apart by its position. -/
theorem Gives.text {i : Nat} {s : Source} {node : Shape} (h : Gives strict (.document i) s node) :
    node.place.text = (s.under (.position i)).text := by
  rw [h.place, Place.text_below, Source.text, Source.under, List.map_cons, intercalate_cons, List.map_map]
  simp [Place.document, Place.start, Place.text, Place.Step.text, String.append_assoc, Function.comp_def]

theorem readDocuments_text {documents : List Json} {i : Nat} {domains : List Domain}
    (h : (readDocuments strict i documents).result = .ok domains) :
    List.Forall₂ (fun s node => node.place.text = s.text ∧ ReadAs strict s.record node)
      (positioned documentSources i documents) (domains.flatMap Domain.nodes) := by
  induction documents generalizing i domains with
  | nil =>
      cases h
      exact .nil
  | cons document rest ih =>
      obtain ⟨first, hfirst, h⟩ := Logged.bind_result_eq_ok.1 h
      obtain ⟨others, hothers, h⟩ := Logged.bind_result_eq_ok.1 h
      cases h
      rw [List.flatMap_append, positioned]
      apply List.rel_append _ (ih hothers)
      rw [List.forall₂_map_left_iff]
      exact (traverses_readDocument (.document i) document first hfirst).imp fun _ _ hgives => ⟨hgives.text, hgives.read⟩

/-- Reading documents, one makes a shape of each source in them, in their order, and nothing else. The sources are found
at different steps in the documents; they are the records that are looked at, and the items that arrays among them leave
out. A shape is marked with the text of its steps, which no other shape has. -/
theorem readProtocol_sources {documents : List Json} {domains : List Domain}
    (h : (readProtocol strict documents).result = .ok domains) :
    List.Forall₂ (fun s node => node.place.text = s.text ∧ ReadAs strict s.record node)
      (protocolSources documents) (domains.flatMap Domain.nodes) ∧
    Located (.arr documents) (protocolSources documents) ∧
    (∀ record, (∃ s ∈ protocolSources documents, s.record = some record) ↔
      ∃ document ∈ documents, VisitsIn document record) ∧
    ((domains.flatMap Domain.nodes).map (·.place.text)).Nodup := by
  have hnodes := readDocuments_text (readProtocol_eq_ok.1 h).1
  have htexts : (domains.flatMap Domain.nodes).map (·.place.text) = (protocolSources documents).map Source.text := by
    rw [← List.forall₂_eq_eq_eq, List.forall₂_map_left_iff, List.forall₂_map_right_iff]
    exact hnodes.flip.imp fun _ _ hnode => hnode.1
  refine ⟨hnodes, located_protocolSources documents, fun record => ?_, ?_⟩
  · rw [← mem_recordsAmong_protocolSources, recordsAmong, List.mem_filterMap]
  · rw [htexts]
    exact nodup_text_protocolSources documents

end

/-- A type that is an array of nothing that is named, and a result with a reference in it. -/
def framesDocument : Json :=
  .obj [("domains", .arr [.obj [("domain", .str "Page"),
    ("types", .arr [.obj [("id", .str "Frames"), ("type", .str "array")]]),
    ("commands", .arr [.obj [("name", .str "close"), ("returns", .arr [.obj [("name", .str "frame"),
      ("type", .str "object"), ("properties", .arr [.obj [("name", .str "id"), ("$ref", .str "FrameId")]])]])]])]])]

/-- The same document twice. -/
theorem readProtocol_sources_twice :
    ∃ domains, (readProtocol false [framesDocument, framesDocument]).result = .ok domains ∧
      List.Forall₂ (fun s node => node.place.text = s.text ∧ ReadAs false s.record node)
        (protocolSources [framesDocument, framesDocument]) (domains.flatMap Domain.nodes) ∧
      (domains.flatMap Domain.nodes).map (·.place.text) =
        ["#0/domains/0/types/0", "#0/domains/0/types/0/items", "#0/domains/0/commands/0/returns/0",
          "#0/domains/0/commands/0/returns/0/properties/0", "#1/domains/0/types/0", "#1/domains/0/types/0/items",
          "#1/domains/0/commands/0/returns/0", "#1/domains/0/commands/0/returns/0/properties/0"] := by
  refine ⟨_, rfl, (readProtocol_sources rfl).1, ?_⟩
  decide +kernel

end Schema

end ProtocolTypings
