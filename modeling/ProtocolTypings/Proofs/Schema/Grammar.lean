import ProtocolTypings.Proofs.Schema.Records

/-!
# The grammar of schema documents

Which values a lenient reading accepts, said without the reading. Whatever is not of the grammar is refused at a place
in the document, or fails because the type of a record is a list or an object.
-/

namespace ProtocolTypings.Schema

open Logged (Decides)

/-! ## The grammar -/

/-- The value is an object with the field. -/
def HasField (key : String) (value : Json) : Prop :=
  ∃ fields, value = .obj fields ∧ (fields.lookup key).isSome

/-- What stands under the key, if anything does, is a list of such values. -/
def EachUnder (P : Json → Prop) (key : String) (value : Json) : Prop :=
  ∀ fields content, value = .obj fields → fields.lookup key = some content →
    ∃ items, content = .arr items ∧ ∀ item ∈ items, P item

/-- The record of a shape. A field that is absent counts as null, except for the items and the properties. -/
inductive IsShape : Json → Prop
  | reference {fields : List (String × Json)} {target : Json} :
      fields.lookup "$ref" = some target → IsShape (.obj fields)
  | untyped {fields : List (String × Json)} :
      Json.fieldOrNull fields "type" = .null → IsShape (.obj fields)
  | bareArray {fields : List (String × Json)} :
      Json.fieldOrNull fields "type" = .str "array" → fields.lookup "items" = none → IsShape (.obj fields)
  | array {fields : List (String × Json)} {items : Json} :
      Json.fieldOrNull fields "type" = .str "array" → fields.lookup "items" = some items → IsShape items →
      IsShape (.obj fields)
  | openObject {fields : List (String × Json)} :
      Json.fieldOrNull fields "type" = .str "object" → fields.lookup "properties" = none → IsShape (.obj fields)
  | object {fields : List (String × Json)} {properties : List Json} :
      Json.fieldOrNull fields "type" = .str "object" → fields.lookup "properties" = some (.arr properties) →
      (∀ p ∈ properties, HasField "name" p) → (∀ p ∈ properties, IsShape p) → IsShape (.obj fields)
  | primitive {fields : List (String × Json)} :
      Json.fieldOrNull fields "type" ∉ [.null, .str "array", .str "object"] →
      (∀ items, Json.fieldOrNull fields "type" ≠ .arr items) → (∀ inner, Json.fieldOrNull fields "type" ≠ .obj inner) →
      (Json.fieldOrNull fields "enum" = .null ∨ ∃ values, Json.fieldOrNull fields "enum" = .arr values) →
      IsShape (.obj fields)

/-- The record of a property, a parameter or a result. -/
structure IsProperty (value : Json) : Prop where
  name : HasField "name" value
  shape : IsShape value

structure IsType (value : Json) : Prop where
  id : HasField "id" value
  shape : IsShape value

structure IsCommand (value : Json) : Prop where
  name : HasField "name" value
  parameters : EachUnder IsProperty "parameters" value
  returns : EachUnder IsProperty "returns" value

structure IsEvent (value : Json) : Prop where
  name : HasField "name" value
  parameters : EachUnder IsProperty "parameters" value

structure IsDomain (value : Json) : Prop where
  name : HasField "domain" value
  types : EachUnder IsType "types" value
  commands : EachUnder IsCommand "commands" value
  events : EachUnder IsEvent "events" value
  /-- Anything may stand in the list of dependencies. -/
  dependencies : EachUnder (fun _ => True) "dependencies" value

structure IsDocument (value : Json) : Prop where
  domains : HasField "domains" value
  each : EachUnder IsDomain "domains" value

/-! ## Failures -/

/-- The type of the record is a list or an object, and it is looked at. -/
def Misuses (record : List (String × Json)) : Prop :=
  record.lookup "$ref" = none ∧
    ((∃ items, Json.fieldOrNull record "type" = .arr items) ∨ ∃ inner, Json.fieldOrNull record "type" = .obj inner)

/-- The fault is a refusal at a place in the document, or comes from the type of one of certain records. -/
def Rejects (Looks : List (String × Json) → Prop) (fault : Fault) : Prop :=
  (∃ place cause, fault = .refusal (.schema place cause)) ∨
    fault = .misuse .kindNotScalar ∧ ∃ record, Looks record ∧ Misuses record

theorem Rejects.mono {Looks Looks' : List (String × Json) → Prop} (h : ∀ record, Looks record → Looks' record)
    {fault : Fault} (hfault : Rejects Looks fault) : Rejects Looks' fault :=
  hfault.imp_right fun ⟨hmisuse, record, hlooks, hmisuses⟩ => ⟨hmisuse, record, h record hlooks, hmisuses⟩

theorem Rejects.refuse {Looks : List (String × Json) → Prop} (place : Place) (cause : SchemaFault) :
    Rejects Looks (.refusal (.schema place cause)) :=
  .inl ⟨place, cause, rfl⟩

/-! ## Fields -/

section

variable {place : Place} {fields : List (String × Json)} {Looks : List (String × Json) → Prop}

theorem hasField_obj {key : String} : HasField key (.obj fields) ↔ (fields.lookup key).isSome := by
  constructor
  · rintro ⟨inner, heq, h⟩
    cases heq
    exact h
  · exact fun h => ⟨fields, rfl, h⟩

theorem not_hasField {key : String} {value : Json} (h : ∀ fields, value ≠ .obj fields) : ¬ HasField key value := by
  rintro ⟨fields, heq, -⟩
  exact h fields heq

theorem eachUnder_obj {P : Json → Prop} {key : String} :
    EachUnder P key (.obj fields) ↔
      ∀ content, fields.lookup key = some content → ∃ items, content = .arr items ∧ ∀ item ∈ items, P item := by
  constructor
  · exact fun h content => h fields content rfl
  · intro h inner content heq
    cases heq
    exact h content

theorem decides_required (fields : List (String × Json)) (key : String) (place : Place) :
    Decides (HasField key (.obj fields)) (Rejects Looks) (required fields key place) := by
  rw [hasField_obj]
  unfold required
  cases fields.lookup key with
  | some value => exact .ok rfl rfl
  | none => exact .error rfl nofun (.refuse _ _)

theorem decides_expectList (place : Place) (value : Json) :
    Decides (∃ items, value = .arr items) (Rejects Looks) (expectList place value) := by
  cases value with
  | arr items => exact .ok rfl ⟨items, rfl⟩
  | _ => exact .error rfl nofun (.refuse _ _)

theorem decides_valuesIn (fields : List (String × Json)) (place : Place) :
    Decides (Json.fieldOrNull fields "enum" = .null ∨ ∃ values, Json.fieldOrNull fields "enum" = .arr values)
      (Rejects Looks) (valuesIn fields place) := by
  unfold valuesIn
  split
  · rename_i h
    exact .ok rfl (.inl h)
  · rename_i hnull
    refine ((decides_expectList _ _).andThen _).congr ?_
    exact ⟨.inr, fun h => h.resolve_left hnull⟩

end

/-! ## Shapes -/

section

variable {place : Place} {fields : List (String × Json)}

theorem isShape_array (href : fields.lookup "$ref" = none) (htype : Json.fieldOrNull fields "type" = .str "array") :
    IsShape (.obj fields) ↔ ∀ items, fields.lookup "items" = some items → IsShape items := by
  constructor
  · intro h items hitems
    cases h with
    | reference h => rw [href] at h; cases h
    | untyped h => rw [htype] at h; cases h
    | bareArray _ h => rw [hitems] at h; cases h
    | array _ h hshape => rw [hitems] at h; cases h; exact hshape
    | openObject h => rw [htype] at h; simp at h
    | object h => rw [htype] at h; simp at h
    | primitive h => rw [htype] at h; simp at h
  · intro h
    cases hitems : fields.lookup "items" with
    | none => exact .bareArray htype hitems
    | some items => exact .array htype hitems (h items hitems)

theorem isShape_object (href : fields.lookup "$ref" = none) (htype : Json.fieldOrNull fields "type" = .str "object") :
    IsShape (.obj fields) ↔ EachUnder IsProperty "properties" (.obj fields) := by
  rw [eachUnder_obj]
  constructor
  · intro h content hcontent
    cases h with
    | reference h => rw [href] at h; cases h
    | untyped h => rw [htype] at h; cases h
    | bareArray h => rw [htype] at h; simp at h
    | array h => rw [htype] at h; simp at h
    | openObject _ h => rw [hcontent] at h; cases h
    | object _ h hnames hshapes =>
        rw [hcontent] at h
        cases h
        exact ⟨_, rfl, fun p hp => ⟨hnames p hp, hshapes p hp⟩⟩
    | primitive h => rw [htype] at h; simp at h
  · intro h
    cases hcontent : fields.lookup "properties" with
    | none => exact .openObject htype hcontent
    | some content =>
        obtain ⟨properties, rfl, heach⟩ := h content hcontent
        exact .object htype hcontent (fun p hp => (heach p hp).name) (fun p hp => (heach p hp).shape)

theorem isShape_scalar (href : fields.lookup "$ref" = none) (hnull : Json.fieldOrNull fields "type" ≠ .null)
    (harray : Json.fieldOrNull fields "type" ≠ .str "array") (hobject : Json.fieldOrNull fields "type" ≠ .str "object") :
    IsShape (.obj fields) ↔
      ((∀ items, Json.fieldOrNull fields "type" ≠ .arr items) ∧ ∀ inner, Json.fieldOrNull fields "type" ≠ .obj inner) ∧
        (Json.fieldOrNull fields "enum" = .null ∨ ∃ values, Json.fieldOrNull fields "enum" = .arr values) := by
  constructor
  · intro h
    cases h with
    | reference h => rw [href] at h; cases h
    | untyped h => exact absurd h hnull
    | bareArray h => exact absurd h harray
    | array h => exact absurd h harray
    | openObject h => exact absurd h hobject
    | object h => exact absurd h hobject
    | primitive _ hlist hobj henum => exact ⟨⟨hlist, hobj⟩, henum⟩
  · rintro ⟨⟨hlist, hobj⟩, henum⟩
    refine .primitive ?_ hlist hobj henum
    simp only [List.mem_cons, hnull, harray, hobject, List.not_mem_nil, or_self, not_false_eq_true]

theorem not_isShape {value : Json} (h : ∀ fields, value ≠ .obj fields) : ¬ IsShape value := by
  intro hshape
  cases hshape <;> exact h _ rfl

theorem decides_primitiveOf (href : fields.lookup "$ref" = none) :
    Decides
      (((∀ items, Json.fieldOrNull fields "type" ≠ .arr items) ∧
          ∀ inner, Json.fieldOrNull fields "type" ≠ .obj inner) ∧
        (Json.fieldOrNull fields "enum" = .null ∨ ∃ values, Json.fieldOrNull fields "enum" = .arr values))
      (Rejects (Visits (.obj fields))) (primitiveOf false place fields (Json.fieldOrNull fields "type")) := by
  unfold primitiveOf
  split
  · rename_i items htype
    exact .error rfl (fun h => h.1.1 items htype) (.inr ⟨rfl, fields, .here, href, .inl ⟨items, htype⟩⟩)
  · rename_i inner htype
    exact .error rfl (fun h => h.1.2 inner htype) (.inr ⟨rfl, fields, .here, href, .inr ⟨inner, htype⟩⟩)
  · rename_i hlist hobj
    refine ((decides_valuesIn fields place).andThen _).congr ?_
    exact ⟨fun h => ⟨⟨hlist, hobj⟩, h⟩, fun h => h.2⟩

theorem decides_readEach {α : Type} {read : Place → Json → Logged α} {P : Json → Prop} {S : Fault → Prop}
    {values : List Json} (h : ∀ value ∈ values, ∀ place, Decides (P value) S (read place value)) (place : Place)
    (i : Nat) : Decides (∀ value ∈ values, P value) S (readEach read place i values) := by
  induction values generalizing i with
  | nil => exact .ok rfl (by simp)
  | cons value rest ih =>
      rw [List.forall_mem_cons]
      refine (h value List.mem_cons_self _).bind fun item _ => ?_
      exact (ih (fun other hother => h other (List.mem_cons_of_mem _ hother)) (i + 1)).andThen _

/-- A value has to be a list, each item of which is read. -/
theorem decides_readList {α β : Type} {read : Place → Json → Logged α} {P : Json → Prop}
    {Looks : List (String × Json) → Prop} {content : Json} {f : List α → Logged β}
    (h : ∀ values, content = .arr values → ∀ v ∈ values, ∀ place, Decides (P v) (Rejects Looks) (read place v))
    (hf : ∀ items, Decides True (Rejects Looks) (f items)) (place : Place) :
    Decides (∃ values, content = .arr values ∧ ∀ v ∈ values, P v) (Rejects Looks)
      (expectList place content >>= fun values => readEach read place 0 values >>= f) := by
  have hread : Decides ((∃ values, content = .arr values) ∧ ∀ values, content = .arr values → ∀ v ∈ values, P v)
      (Rejects Looks) (expectList place content >>= fun values => readEach read place 0 values >>= f) := by
    refine (decides_expectList place content).bind fun values hlist => ?_
    obtain rfl := expectList_eq_ok.1 hlist
    exact ((decides_readEach (h values rfl) place 0).bind fun items _ => hf items).congr (by simp)
  refine hread.congr ?_
  constructor
  · rintro ⟨⟨values, hvalues⟩, heach⟩
    exact ⟨values, hvalues, heach values hvalues⟩
  · rintro ⟨values, rfl, heach⟩
    refine ⟨⟨values, rfl⟩, fun other heq => ?_⟩
    cases heq
    exact heach

theorem decides_readProperty {value : Json} {Looks : List (String × Json) → Prop}
    (h : Decides (IsShape value) (Rejects Looks) (readShape false place value)) :
    Decides (IsProperty value) (Rejects Looks) (readProperty false place value) := by
  cases value with
  | obj fields =>
      rw [readProperty_obj]
      refine ((decides_required fields "name" place).bind fun name _ => h.andThen _).congr ?_
      exact ⟨fun ⟨hname, hshape⟩ => ⟨hname, hshape⟩, fun ⟨hname, hshape⟩ => ⟨hname, hshape⟩⟩
  | _ => exact .error rfl (fun h => not_hasField (by simp) h.name) (.refuse _ _)

/-- A lenient reading accepts the records of shapes, and looks at nothing else on the way. -/
theorem decides_readShape (place : Place) (value : Json) :
    Decides (IsShape value) (Rejects (Visits value)) (readShape false place value) := by
  cases value with
  | obj fields =>
      rw [readShape]
      cases href : fields.lookup "$ref" with
      | some target => exact .ok (congrArg _ (shapeOf_reference href _ _)) (.reference href)
      | none =>
          by_cases hnull : Json.fieldOrNull fields "type" = .null
          · rw [shapeOf_untyped href hnull]
            exact .ok rfl (.untyped hnull)
          by_cases harray : Json.fieldOrNull fields "type" = .str "array"
          · rw [shapeOf_array href harray, itemsIn_eq]
            refine Decides.congr ?_ (isShape_array href harray).symm
            cases hitems : fields.lookup "items" with
            | none => exact .ok rfl (by simp)
            | some items =>
                have hshape := decides_readShape (place.key "items") items
                refine ((hshape.andThen _).congr (by simp)).mono fun fault => Rejects.mono fun record hvisits => ?_
                exact .items href harray hitems hvisits
          by_cases hobject : Json.fieldOrNull fields "type" = .str "object"
          · rw [shapeOf_object href hobject, propertiesIn_eq]
            refine Decides.congr ?_ ((isShape_object href hobject).trans eachUnder_obj).symm
            cases hcontent : fields.lookup "properties" with
            | none => exact .ok rfl (by simp)
            | some content =>
                refine (decides_readList (P := IsProperty) (fun values hvalues v hv place => ?_)
                  (fun _ => .ok rfl trivial) _).congr (by simp)
                have hproperty := decides_readProperty (decides_readShape place v)
                refine hproperty.mono fun fault => Rejects.mono fun record hvisits => ?_
                exact .property href hobject (hcontent.trans (congrArg some hvalues)) hv hvisits
          · rw [shapeOf_scalar href hnull harray hobject]
            exact (decides_primitiveOf href).congr (isShape_scalar href hnull harray hobject).symm
  | _ => exact .error rfl (not_isShape (by simp)) (.refuse _ _)
termination_by sizeOf value
decreasing_by
  · exact sizeOf_lt_of_lookup hitems
  · exact sizeOf_lt_of_lookup_list (hcontent.trans (congrArg some hvalues)) hv

/-! ## Domains -/

theorem decides_propertyList (fields : List (String × Json)) (key : String) (place : Place) :
    Decides (EachUnder IsProperty key (.obj fields)) (Rejects (VisitsAmong (itemsUnder key (.obj fields))))
      (propertyList false fields key place) := by
  refine Decides.congr ?_ eachUnder_obj.symm
  unfold propertyList
  cases hcontent : fields.lookup key with
  | none => exact .ok rfl (by simp)
  | some content =>
      simp only [readProperties_eq_readEach]
      refine (decides_readList (P := IsProperty) (fun values hvalues v hv place => ?_)
        (fun _ => .ok rfl trivial) _).congr (by simp)
      rw [itemsUnder_obj (hcontent.trans (congrArg some hvalues))]
      have hproperty := decides_readProperty (decides_readShape place v)
      exact hproperty.mono fun fault => Rejects.mono fun record hvisits => ⟨v, hv, hvisits⟩

theorem decides_listIn (key : String) {Looks : List (String × Json) → Prop} :
    Decides (EachUnder (fun _ => True) key (.obj fields)) (Rejects Looks) (listIn fields key place) := by
  refine Decides.congr ?_ eachUnder_obj.symm
  unfold listIn
  cases fields.lookup key with
  | none => exact .ok rfl (by simp)
  | some content => exact (decides_expectList _ content).congr (by simp)

theorem eachUnder_iff {P : Json → Prop} {key : String} {fields : List (String × Json)} :
    EachUnder P key (.obj fields) ↔
      EachUnder (fun _ => True) key (.obj fields) ∧ ∀ item ∈ itemsUnder key (.obj fields), P item := by
  rw [eachUnder_obj, eachUnder_obj]
  cases hcontent : fields.lookup key with
  | none => simp [itemsUnder_of_lookup_eq_none hcontent]
  | some content =>
      constructor
      · intro h
        obtain ⟨items, rfl, heach⟩ := h content rfl
        rw [itemsUnder_obj hcontent]
        exact ⟨fun other heq => ⟨items, by simpa using heq.symm, fun _ _ => trivial⟩, heach⟩
      · rintro ⟨hlist, heach⟩ other heq
        cases heq
        obtain ⟨items, rfl, -⟩ := hlist content rfl
        rw [itemsUnder_obj hcontent] at heach
        exact ⟨items, rfl, heach⟩

theorem decides_readType (place : Place) (value : Json) :
    Decides (IsType value) (Rejects (Visits value)) (readType false place value) := by
  cases value with
  | obj fields =>
      refine ((decides_required fields "id" place).bind fun id _ => (decides_readShape place _).andThen _).congr ?_
      exact ⟨fun ⟨hid, hshape⟩ => ⟨hid, hshape⟩, fun ⟨hid, hshape⟩ => ⟨hid, hshape⟩⟩
  | _ => exact .error rfl (fun h => not_hasField (by simp) h.id) (.refuse _ _)

theorem decides_readCommand (place : Place) (value : Json) :
    Decides (IsCommand value) (Rejects (VisitsAmong (memberRecords value))) (readCommand false place value) := by
  cases value with
  | obj fields =>
      have hparameters := (decides_propertyList fields "parameters" place).mono
        fun fault => Rejects.mono fun record =>
          VisitsAmong.mono (List.subset_append_left _ (itemsUnder "returns" (.obj fields)))
      have hreturns := (decides_propertyList fields "returns" place).mono
        fun fault => Rejects.mono fun record =>
          VisitsAmong.mono (List.subset_append_right (itemsUnder "parameters" (.obj fields)) _)
      refine ((decides_required fields "name" place).bind fun name _ => hparameters.bind fun parameters _ =>
        hreturns.andThen _).congr ?_
      constructor
      · rintro ⟨hname, hparameters, hreturns⟩
        exact ⟨hname, hparameters, hreturns⟩
      · rintro ⟨hname, hparameters, hreturns⟩
        exact ⟨hname, hparameters, hreturns⟩
  | _ => exact .error rfl (fun h => not_hasField (by simp) h.name) (.refuse _ _)

theorem decides_readEvent (place : Place) (value : Json) :
    Decides (IsEvent value) (Rejects (VisitsAmong (itemsUnder "parameters" value))) (readEvent false place value) := by
  cases value with
  | obj fields =>
      refine ((decides_required fields "name" place).bind fun name _ =>
        (decides_propertyList fields "parameters" place).andThen _).congr ?_
      constructor
      · rintro ⟨hname, hparameters⟩
        exact ⟨hname, hparameters⟩
      · rintro ⟨hname, hparameters⟩
        exact ⟨hname, hparameters⟩
  | _ => exact .error rfl (fun h => not_hasField (by simp) h.name) (.refuse _ _)

/-- A list that the record may leave out is read item by item, and then the rest. -/
theorem decides_each {α β : Type} {read : Place → Json → Logged α} {P : Json → Prop} {R : Prop}
    {Looks : List (String × Json) → Prop} {key : String} {f : List α → Logged β} {place' : Place}
    (h : ∀ v ∈ itemsUnder key (.obj fields), ∀ place, Decides (P v) (Rejects Looks) (read place v))
    (hf : ∀ items, Decides R (Rejects Looks) (f items)) :
    Decides (EachUnder P key (.obj fields) ∧ R) (Rejects Looks)
      (listIn fields key place >>= fun values => readEach read place' 0 values >>= f) := by
  rw [eachUnder_iff, and_assoc]
  refine (decides_listIn key).bind fun values hvalues => ?_
  rw [itemsUnder_of_listIn hvalues] at h ⊢
  exact (decides_readEach h place' 0).bind fun items _ => hf items

theorem decides_readDomain (place : Place) (value : Json) :
    Decides (IsDomain value) (Rejects (VisitsAmong (domainRecords value))) (readDomain false place value) := by
  cases value with
  | obj fields =>
      refine ((decides_required fields "domain" place).bind fun name _ =>
        decides_each (P := IsType) ?types fun types =>
        decides_each (P := IsCommand) ?commands fun commands =>
        decides_each (P := IsEvent) ?events fun events =>
        (decides_listIn "dependencies").andThen _).congr ?grammar
      case types =>
        intro v hv place
        refine (decides_readType place v).mono fun fault => Rejects.mono fun record hvisits => ?_
        exact ⟨v, List.mem_append_left _ (List.mem_append_left _ hv), hvisits⟩
      case commands =>
        intro v hv place
        refine (decides_readCommand place v).mono fun fault => Rejects.mono fun record => VisitsAmong.mono ?_
        intro member hmember
        exact List.mem_append_left _ (List.mem_append_right _ (List.mem_flatMap.2 ⟨v, hv, hmember⟩))
      case events =>
        intro v hv place
        refine (decides_readEvent place v).mono fun fault => Rejects.mono fun record => VisitsAmong.mono ?_
        intro member hmember
        exact List.mem_append_right _ (List.mem_flatMap.2 ⟨v, hv, hmember⟩)
      case grammar =>
        constructor
        · rintro ⟨hname, htypes, hcommands, hevents, hdependencies⟩
          exact ⟨hname, htypes, hcommands, hevents, hdependencies⟩
        · rintro ⟨hname, htypes, hcommands, hevents, hdependencies⟩
          exact ⟨hname, htypes, hcommands, hevents, hdependencies⟩
  | _ => exact .error rfl (fun h => not_hasField (by simp) h.name) (.refuse _ _)

theorem decides_readDocument (place : Place) (document : Json) :
    Decides (IsDocument document) (Rejects (VisitsIn document)) (readDocument false place document) := by
  cases document with
  | obj fields =>
      refine Decides.congr (P := ∃ records, Json.fieldOrNull fields "domains" = .arr records ∧ ∀ r ∈ records, IsDomain r)
        ?_ ?_
      · refine decides_readList (fun records hrecords r hr place => ?_) (fun _ => .ok rfl trivial) _
        refine (decides_readDomain place r).mono fun fault => Rejects.mono fun record => VisitsAmong.mono ?_
        intro v hv
        rw [documentRecords, itemsUnder_obj (fieldOrNull_eq_arr.1 hrecords)]
        exact List.mem_flatMap.2 ⟨r, hr, hv⟩
      · constructor
        · rintro ⟨records, hrecords, heach⟩
          have hlookup := fieldOrNull_eq_arr.1 hrecords
          refine ⟨hasField_obj.2 (by simp [hlookup]), eachUnder_obj.2 fun content hcontent => ?_⟩
          rw [hlookup] at hcontent
          cases hcontent
          exact ⟨records, rfl, heach⟩
        · rintro ⟨hdomains, heach⟩
          obtain ⟨content, hcontent⟩ := Option.isSome_iff_exists.1 (hasField_obj.1 hdomains)
          obtain ⟨records, rfl, heach⟩ := eachUnder_obj.1 heach content hcontent
          exact ⟨records, fieldOrNull_eq_arr.2 hcontent, heach⟩
  | _ => exact .error rfl (fun h => not_hasField (by simp) h.domains) (.refuse _ _)

/-- A lenient reading gives domains exactly for the documents of the grammar. Otherwise it refuses something at a place
in the document, or fails because the type of a record that it looks at is a list or an object. -/
theorem readDocument_accepts (place : Place) (document : Json) :
    ((∃ domains, (readDocument false place document).result = .ok domains) ↔ IsDocument document) ∧
      ∀ fault, (readDocument false place document).result = .error fault →
        (∃ at' cause, fault = .refusal (.schema at' cause)) ∨
          fault = .misuse .kindNotScalar ∧ ∃ record, VisitsIn document record ∧ Misuses record := by
  have hread := decides_readDocument place document
  exact ⟨hread.accepts, hread.refuses⟩

end

end ProtocolTypings.Schema
