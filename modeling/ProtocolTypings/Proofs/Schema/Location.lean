import ProtocolTypings.Proofs.Schema.Records

/-!
# Where a refused document is wrong

A refusal names a place, and says what is wrong there. Whoever follows the steps of that place from the top of the
document comes to a value, and this value is wrong in the way that the refusal says. A document without domains is the
one exception: its refusal names the place at which they would be.
-/

namespace ProtocolTypings

/-! ## Following the steps of a place -/

namespace Json

/-- The value to which one step leads: that under an existing key, or that at a position of the list. -/
def step? : Place.Step → Json → Option Json
  | .key name, .obj fields => fields.lookup name
  | .position i, .arr items => items[i]?
  | _, _ => none

def at? (value : Json) : List Place.Step → Option Json
  | [] => some value
  | step :: steps => (value.step? step).bind (·.at? steps)

end Json

namespace Place

variable {place : Place} {steps : List Step}

def below (place : Place) (steps : List Step) : Place :=
  { place with steps := place.steps ++ steps }

@[simp] theorem below_nil : place.below [] = place := by
  simp [below]

@[simp] theorem key_below (name : String) : (place.key name).below steps = place.below (.key name :: steps) := by
  simp [below, key]

@[simp] theorem position_below (i : Nat) : (place.position i).below steps = place.below (.position i :: steps) := by
  simp [below, position]

theorem foldl_text (s : String) (steps : List Step) :
    steps.foldl (fun s step => s ++ "/" ++ step.text) s =
      s ++ String.join (steps.map fun step => "/" ++ step.text) := by
  induction steps generalizing s with
  | nil => simp
  | cons step steps ih =>
      rw [List.foldl_cons, ih, List.map_cons, String.join_cons]
      simp only [String.append_assoc]

theorem text_below :
    (place.below steps).text = place.text ++ String.join (steps.map fun step => "/" ++ step.text) := by
  simp only [text, below, List.foldl_append, foldl_text]

end Place

namespace Schema

/-! ## Truthful refusals -/

/-- The value is wrong in the way that the message says. Some things are wrong in a strict reading only. -/
inductive BearsOut : Bool → String → Json → Prop
  | notObject {strict : Bool} {value : Json} :
      value.kind ≠ .obj → BearsOut strict ("Expected an object, got " ++ value.kind.name) value
  | notList {strict : Bool} {value : Json} :
      value.kind ≠ .arr → BearsOut strict ("Expected a list, got " ++ value.kind.name) value
  | missingKey {strict : Bool} {fields : List (String × Json)} {key : String} :
      fields.lookup key = none → BearsOut strict ("Missing required key '" ++ key ++ "'") (.obj fields)
  | untyped {fields : List (String × Json)} :
      fields.lookup "$ref" = none → Json.fieldOrNull fields "type" = .null →
      BearsOut true "Shape has neither '$ref' nor 'type'" (.obj fields)
  | bareArray {fields : List (String × Json)} :
      fields.lookup "$ref" = none → fields.lookup "type" = some (.str "array") → fields.lookup "items" = none →
      BearsOut true "Array shape has no 'items'" (.obj fields)
  | unknownKind {fields : List (String × Json)} {kind : Json} :
      fields.lookup "$ref" = none → fields.lookup "type" = some kind → kind ≠ .null →
      kind ∉ ["array", "object", "string", "integer", "number", "boolean", "any"].map Json.str →
      BearsOut true ("Unknown primitive kind '" ++ kind.display ++ "'") (.obj fields)

/-- Reading a part of a document that is at the place, one refuses only what is wrong with that part at the place that
the refusal names. -/
def Truthful {α : Type} (strict : Bool) (place : Place) (value : Json) (x : Logged α) : Prop :=
  ∀ place' cause, x.result = .error (.refusal (.schema place' cause)) →
    ∃ steps wrong, place' = place.below steps ∧ value.at? steps = some wrong ∧ BearsOut strict cause.message wrong

namespace Truthful

variable {α β : Type} {strict : Bool} {place : Place} {value : Json}

theorem pure (a : α) : Truthful strict place value (Pure.pure a : Logged α) :=
  nofun

theorem refuse {cause : SchemaFault} (h : BearsOut strict cause.message value) :
    Truthful strict place value (Schema.refuse place cause : Logged α) := by
  rintro _ _ ⟨⟩
  exact ⟨[], value, Place.below_nil.symm, rfl, h⟩

theorem note (level : Log.Level) (topic : Log.Topic) (message : String) :
    Truthful strict place value (Logged.note level topic message) :=
  nofun

theorem bind {x : Logged α} {f : α → Logged β} (hx : Truthful strict place value x)
    (hf : ∀ a, x.result = .ok a → Truthful strict place value (f a)) : Truthful strict place value (x >>= f) := by
  intro place' cause h
  rcases Logged.bind_result_eq_error.1 h with h | ⟨a, ha, h⟩
  · exact hx place' cause h
  · exact hf a ha place' cause h

theorem bind_pure {x : Logged α} (hx : Truthful strict place value x) (f : α → β) :
    Truthful strict place value (x >>= fun a => Pure.pure (f a)) :=
  hx.bind fun a _ => pure (f a)

/-- What is read of the value to which a step leads is named by that step and the steps after it. -/
theorem key {fields : List (String × Json)} {name : String} {x : Logged α} (hlookup : fields.lookup name = some value)
    (hx : Truthful strict (place.key name) value x) : Truthful strict place (.obj fields) x := by
  intro place' cause h
  obtain ⟨steps, wrong, rfl, hat, hwrong⟩ := hx place' cause h
  refine ⟨.key name :: steps, wrong, Place.key_below name, ?_, hwrong⟩
  simp [Json.at?, Json.step?, hlookup, hat]

theorem position {items : List Json} {i : Nat} {x : Logged α} (hitem : items[i]? = some value)
    (hx : Truthful strict (place.position i) value x) : Truthful strict place (.arr items) x := by
  intro place' cause h
  obtain ⟨steps, wrong, rfl, hat, hwrong⟩ := hx place' cause h
  refine ⟨.position i :: steps, wrong, Place.position_below i, ?_, hwrong⟩
  simp [Json.at?, Json.step?, hitem, hat]

/-- The items after the first ones are read at their own positions in the whole list. -/
theorem readEach_from {read : Place → Json → Logged α} {values : List Json} (earlier : List Json)
    (h : ∀ value ∈ values, ∀ place, Truthful strict place value (read place value)) :
    Truthful strict place (.arr (earlier ++ values)) (readEach read place earlier.length values) := by
  induction values generalizing earlier with
  | nil => exact pure []
  | cons value rest ih =>
      have hhead : Truthful strict place (.arr (earlier ++ value :: rest)) (read (place.position earlier.length) value) :=
        .position (by simp) (h value List.mem_cons_self _)
      refine hhead.bind fun item _ => bind_pure ?_ _
      have htail := ih (earlier ++ [value]) fun other hother => h other (List.mem_cons_of_mem _ hother)
      simpa using htail

theorem readEach {read : Place → Json → Logged α} {values : List Json}
    (h : ∀ value ∈ values, ∀ place, Truthful strict place value (read place value)) :
    Truthful strict place (.arr values) (readEach read place 0 values) :=
  readEach_from [] h

end Truthful

/-! ## Parts of a record -/

section

variable {strict : Bool} {place : Place} {fields : List (String × Json)}

theorem truthful_required (key : String) : Truthful strict place (.obj fields) (required fields key place) := by
  unfold required
  cases hlookup : fields.lookup key with
  | some value => exact .pure _
  | none => exact .refuse (.missingKey hlookup)

theorem truthful_expectFields (value : Json) : Truthful strict place value (expectFields place value) := by
  cases value with
  | obj fields => exact .pure fields
  | _ => exact .refuse (.notObject (by simp [Json.kind]))

theorem truthful_expectList (value : Json) : Truthful strict place value (expectList place value) := by
  cases value with
  | arr items => exact .pure items
  | _ => exact .refuse (.notList (by simp [Json.kind]))

theorem truthful_readEach_under {α : Type} {read : Place → Json → Logged α} {key : String} {values : List Json}
    (hlookup : fields.lookup key = some (.arr values))
    (h : ∀ value ∈ values, ∀ place, Truthful strict place value (read place value)) :
    Truthful strict place (.obj fields) (readEach read (place.key key) 0 values) :=
  .key hlookup (.readEach h)

theorem truthful_listIn (key : String) : Truthful strict place (.obj fields) (listIn fields key place) := by
  unfold listIn
  cases hlookup : fields.lookup key with
  | some value => exact .key hlookup (truthful_expectList value)
  | none => exact .pure []

/-- The items of a list that a record may leave out. -/
theorem truthful_readEach_listIn {α : Type} {read : Place → Json → Logged α} {key : String} {values : List Json}
    (hlist : (listIn fields key place).result = .ok values)
    (h : ∀ value place, Truthful strict place value (read place value)) :
    Truthful strict place (.obj fields) (readEach read (place.key key) 0 values) := by
  unfold listIn at hlist
  cases hlookup : fields.lookup key with
  | some value =>
      rw [hlookup] at hlist
      rw [expectList_eq_ok.1 hlist] at hlookup
      exact truthful_readEach_under hlookup fun item _ place => h item place
  | none =>
      rw [hlookup] at hlist
      cases hlist
      exact .pure []

theorem truthful_valuesIn : Truthful strict place (.obj fields) (valuesIn fields place) := by
  unfold valuesIn Json.fieldOrNull
  cases hlookup : fields.lookup "enum" with
  | none => exact .pure none
  | some value =>
      have hlist : Truthful strict place (.obj fields) (expectList (place.key "enum") value) :=
        .key hlookup (truthful_expectList value)
      cases value with
      | null => exact .pure none
      | _ => exact hlist.bind_pure _

/-! ## Shapes -/

theorem truthful_primitiveOf {kind : Json} (href : fields.lookup "$ref" = none)
    (htype : fields.lookup "type" = some kind) (hnull : kind ≠ .null) (harray : kind ≠ .str "array")
    (hobject : kind ≠ .str "object") : Truthful strict place (.obj fields) (primitiveOf strict place fields kind) := by
  unfold primitiveOf
  split
  · exact nofun
  · exact nofun
  split
  · rename_i hunknown
    rw [Bool.and_eq_true, Bool.not_eq_true', ← Bool.not_eq_true, any_primitiveKinds] at hunknown
    obtain ⟨rfl, hunknown⟩ := hunknown
    refine .refuse (.unknownKind href htype hnull ?_)
    simpa [primitiveKinds, harray, hobject] using hunknown
  · exact truthful_valuesIn.bind_pure _

theorem truthful_readProperty {value : Json} (h : Truthful strict place value (readShape strict place value)) :
    Truthful strict place value (readProperty strict place value) := by
  cases value with
  | obj fields =>
      rw [readProperty_obj]
      exact (truthful_required "name").bind fun name _ => h.bind_pure _
  | _ => exact .refuse (.notObject (by simp [Json.kind]))

/-- The record of a shape is only refused for what it says itself, or for what is below the key through which its parts
are read. -/
theorem truthful_readShape (place : Place) (value : Json) :
    Truthful strict place value (readShape strict place value) := by
  cases value with
  | obj fields =>
      rw [readShape]
      cases href : fields.lookup "$ref" with
      | some target =>
          rw [shapeOf_reference href]
          exact .pure _
      | none =>
          by_cases hnull : Json.fieldOrNull fields "type" = .null
          · rw [shapeOf_untyped href hnull]
            cases strict with
            | true => exact .refuse (.untyped href hnull)
            | false =>
                rw [if_neg Bool.false_ne_true]
                exact (Truthful.note _ _ _).bind_pure _
          obtain ⟨kind, htype⟩ : ∃ kind, fields.lookup "type" = some kind :=
            Option.ne_none_iff_exists'.1 fun hnone => hnull (by rw [Json.fieldOrNull, hnone]; rfl)
          have hkind : Json.fieldOrNull fields "type" = kind := by
            rw [Json.fieldOrNull, htype]
            rfl
          by_cases harray : kind = .str "array"
          · subst harray
            rw [shapeOf_array href hkind, itemsIn_eq]
            cases hitems : fields.lookup "items" with
            | none =>
                cases strict with
                | true => exact .refuse (.bareArray href htype hitems)
                | false => exact .pure _
            | some value => exact .key hitems ((truthful_readShape (place.key "items") value).bind_pure _)
          by_cases hobject : kind = .str "object"
          · subst hobject
            rw [shapeOf_object href hkind, propertiesIn_eq]
            cases hvalues : fields.lookup "properties" with
            | none => exact .pure _
            | some value =>
                refine Truthful.bind (.key hvalues (truthful_expectList value)) fun values hlist => ?_
                obtain rfl := expectList_eq_ok.1 hlist
                have hproperty : ∀ v ∈ values, ∀ place, Truthful strict place v (readProperty strict place v) :=
                  fun v hv place => truthful_readProperty (truthful_readShape place v)
                exact (truthful_readEach_under hvalues hproperty).bind_pure _
          · subst hkind
            rw [shapeOf_scalar href hnull harray hobject]
            exact truthful_primitiveOf href htype hnull harray hobject
  | _ => exact .refuse (.notObject (by simp [Json.kind]))
termination_by sizeOf value
decreasing_by
  · exact sizeOf_lt_of_lookup hitems
  · exact sizeOf_lt_of_lookup_list hvalues hv

end

/-! ## Domains and documents -/

section

variable {strict : Bool} {place : Place}

theorem truthful_propertyList {fields : List (String × Json)} (key : String) :
    Truthful strict place (.obj fields) (propertyList strict fields key place) := by
  unfold propertyList
  cases hlookup : fields.lookup key with
  | none => exact .pure none
  | some value =>
      refine Truthful.bind (.key hlookup (truthful_expectList value)) fun values hlist => ?_
      obtain rfl := expectList_eq_ok.1 hlist
      rw [readProperties_eq_readEach]
      refine (truthful_readEach_under hlookup fun v _ place => ?_).bind_pure _
      exact truthful_readProperty (truthful_readShape place v)

theorem truthful_readType (value : Json) : Truthful strict place value (readType strict place value) := by
  refine (truthful_expectFields value).bind fun fields hfields => ?_
  obtain rfl := expectFields_eq_ok.1 hfields
  exact (truthful_required "id").bind fun id _ => (truthful_readShape place _).bind_pure _

theorem truthful_readCommand (value : Json) : Truthful strict place value (readCommand strict place value) := by
  refine (truthful_expectFields value).bind fun fields hfields => ?_
  obtain rfl := expectFields_eq_ok.1 hfields
  refine (truthful_required "name").bind fun name _ => ?_
  exact (truthful_propertyList "parameters").bind fun parameters _ => (truthful_propertyList "returns").bind_pure _

theorem truthful_readEvent (value : Json) : Truthful strict place value (readEvent strict place value) := by
  refine (truthful_expectFields value).bind fun fields hfields => ?_
  obtain rfl := expectFields_eq_ok.1 hfields
  exact (truthful_required "name").bind fun name _ => (truthful_propertyList "parameters").bind_pure _

theorem truthful_readDomain (value : Json) : Truthful strict place value (readDomain strict place value) := by
  refine (truthful_expectFields value).bind fun fields hfields => ?_
  obtain rfl := expectFields_eq_ok.1 hfields
  refine (truthful_required "domain").bind fun name _ => ?_
  refine (truthful_listIn "types").bind fun types htypes => ?_
  refine (truthful_readEach_listIn htypes fun value _ => truthful_readType value).bind fun _ _ => ?_
  refine (truthful_listIn "commands").bind fun commands hcommands => ?_
  refine (truthful_readEach_listIn hcommands fun value _ => truthful_readCommand value).bind fun _ _ => ?_
  refine (truthful_listIn "events").bind fun events hevents => ?_
  refine (truthful_readEach_listIn hevents fun value _ => truthful_readEvent value).bind fun _ _ => ?_
  exact (truthful_listIn "dependencies").bind_pure _

/-- A document is refused truthfully unless it is an object without domains. -/
theorem truthful_readDocument {document : Json}
    (h : ∀ fields, document = .obj fields → fields.lookup "domains" ≠ none) :
    Truthful strict place document (readDocument strict place document) := by
  refine (truthful_expectFields document).bind fun fields hfields => ?_
  obtain rfl := expectFields_eq_ok.1 hfields
  obtain ⟨value, hlookup⟩ := Option.ne_none_iff_exists'.1 (h fields rfl)
  rw [Json.fieldOrNull, hlookup, Option.getD_some]
  refine Truthful.bind (.key hlookup (truthful_expectList value)) fun records hrecords => ?_
  obtain rfl := expectList_eq_ok.1 hrecords
  refine (truthful_readEach_under hlookup fun v _ _ => truthful_readDomain v).bind fun domains _ => ?_
  exact (Truthful.note _ _ _).bind_pure _

theorem readDocument_without_domains {fields : List (String × Json)} (hlookup : fields.lookup "domains" = none) :
    (readDocument strict place (.obj fields)).result =
      .error (.refusal (.schema (place.key "domains") (.expectedList .null))) := by
  simp [readDocument, expectFields, expectList, Json.fieldOrNull, hlookup, refuse, Json.kind]

/-- A document is refused for what is wrong at the place that the refusal names. The steps of that place lead from the
top of the document through existing keys and positions to a value that bears the message out; if the document is an
object without domains, the last step is missing. -/
theorem readDocument_refused_truthfully (strict : Bool) (place : Place) (document : Json) (place' : Place)
    (cause : SchemaFault)
    (h : (readDocument strict place document).result = .error (.refusal (.schema place' cause))) :
    ∃ steps : List Place.Step,
      place'.text = place.text ++ String.join (steps.map fun step => "/" ++ step.text) ∧
      ((∃ wrong, document.at? steps = some wrong ∧ BearsOut strict cause.message wrong) ∨
        steps = [.key "domains"] ∧ cause.message = "Expected a list, got NoneType" ∧
          ∃ fields, document = .obj fields ∧ fields.lookup "domains" = none) := by
  by_cases hdomains : ∃ fields, document = .obj fields ∧ fields.lookup "domains" = none
  · obtain ⟨fields, rfl, hnone⟩ := hdomains
    rw [readDocument_without_domains hnone] at h
    cases h
    exact ⟨[.key "domains"], Place.text_below, .inr ⟨rfl, rfl, fields, rfl, hnone⟩⟩
  · have hpresent : ∀ fields, document = .obj fields → fields.lookup "domains" ≠ none :=
      fun fields hfields hnone => hdomains ⟨fields, hfields, hnone⟩
    obtain ⟨steps, wrong, rfl, hat, hwrong⟩ := truthful_readDocument hpresent place' cause h
    exact ⟨steps, Place.text_below, .inl ⟨wrong, hat, hwrong⟩⟩

/-- The items of a result are of a kind that nobody knows. -/
def oddResult : Json :=
  .obj [("domains", .arr [.obj [("domain", .str "D"), ("commands", .arr [.obj [("name", .str "c"),
    ("returns", .arr [.obj [("name", .str "r"), ("type", .str "array"),
      ("items", .obj [("type", .str "strin")])]])]])]])]

def oddItems : Place :=
  ⟨"#", [.key "domains", .position 0, .key "commands", .position 0, .key "returns", .position 0, .key "items"]⟩

example : oddItems.text = "#/domains/0/commands/0/returns/0/items" := by decide

theorem oddResult_refused :
    (readDocument true (.start "#") oddResult).result =
        .error (.refusal (.schema oddItems (.unknownKind "strin"))) ∧
      ∃ steps : List Place.Step,
        oddItems.text = (Place.start "#").text ++ String.join (steps.map fun step => "/" ++ step.text) ∧
        ((∃ wrong, oddResult.at? steps = some wrong ∧
            BearsOut true (SchemaFault.unknownKind "strin").message wrong) ∨
          steps = [.key "domains"] ∧ (SchemaFault.unknownKind "strin").message = "Expected a list, got NoneType" ∧
            ∃ fields, oddResult = .obj fields ∧ fields.lookup "domains" = none) :=
  ⟨by rfl, readDocument_refused_truthfully true (.start "#") oddResult oddItems (.unknownKind "strin") (by rfl)⟩

end

end Schema

end ProtocolTypings
