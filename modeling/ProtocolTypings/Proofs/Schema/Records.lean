import ProtocolTypings.Proofs.Lists
import ProtocolTypings.Proofs.Log.Outcome
import ProtocolTypings.Schema.Reading

/-!
# Records of a document

Which records of a document describe a shape and are looked at when it is read. Below a reference nothing is looked
at, and of a record that describes no array or no object the items or the properties are not. What is read of a record
depends on the first value under each key.
-/

namespace ProtocolTypings.Schema

/-- Reading a value as the record of a shape, one looks at the record: at this very one, or at that of its items or of
one of its properties, and so on. -/
inductive Visits : Json → List (String × Json) → Prop
  | here {fields : List (String × Json)} : Visits (.obj fields) fields
  | items {fields record : List (String × Json)} {value : Json} :
      fields.lookup "$ref" = none → Json.fieldOrNull fields "type" = .str "array" →
      fields.lookup "items" = some value → Visits value record → Visits (.obj fields) record
  | property {fields record : List (String × Json)} {values : List Json} {value : Json} :
      fields.lookup "$ref" = none → Json.fieldOrNull fields "type" = .str "object" →
      fields.lookup "properties" = some (.arr values) → value ∈ values → Visits value record →
      Visits (.obj fields) record

/-- The items of the list under a key; none where no list is. -/
def itemsUnder (key : String) : Json → List Json
  | .obj fields =>
    match fields.lookup key with
    | some (.arr items) => items
    | _ => []
  | _ => []

/-- The parameters and the results of a command. -/
def memberRecords (command : Json) : List Json :=
  itemsUnder "parameters" command ++ itemsUnder "returns" command

/-- The shapes at the top of a domain: its types, the parameters and results of its commands and the parameters of its
events. -/
def domainRecords (domain : Json) : List Json :=
  itemsUnder "types" domain ++ (itemsUnder "commands" domain).flatMap memberRecords ++
    (itemsUnder "events" domain).flatMap (itemsUnder "parameters")

def documentRecords (document : Json) : List Json :=
  (itemsUnder "domains" document).flatMap domainRecords

/-- Reading the values as the records of shapes, one looks at the record. -/
def VisitsAmong (values : List Json) (record : List (String × Json)) : Prop :=
  ∃ value ∈ values, Visits value record

/-- Reading the document, one looks at the record of a shape. -/
def VisitsIn (document : Json) (record : List (String × Json)) : Prop :=
  VisitsAmong (documentRecords document) record

theorem VisitsAmong.mono {values values' : List Json} (h : values ⊆ values') {record : List (String × Json)}
    (hvisits : VisitsAmong values record) : VisitsAmong values' record := by
  obtain ⟨value, hmem, hvisits⟩ := hvisits
  exact ⟨value, h hmem, hvisits⟩

theorem itemsUnder_obj {key : String} {fields : List (String × Json)} {items : List Json}
    (h : fields.lookup key = some (.arr items)) : itemsUnder key (.obj fields) = items := by
  rw [itemsUnder, h]

theorem itemsUnder_of_lookup_eq_none {key : String} {fields : List (String × Json)} (h : fields.lookup key = none) :
    itemsUnder key (.obj fields) = [] := by
  rw [itemsUnder, h]

theorem fieldOrNull_eq_arr {key : String} {fields : List (String × Json)} {items : List Json} :
    Json.fieldOrNull fields key = .arr items ↔ fields.lookup key = some (.arr items) := by
  unfold Json.fieldOrNull
  cases fields.lookup key <;> simp

/-! ## One step -/

section

variable {fields record : List (String × Json)} {value : Json} {values : List Json}

/-- Below a reference nothing is looked at. -/
theorem visits_reference (h : fields.lookup "$ref" = some value) : Visits (.obj fields) record ↔ record = fields := by
  constructor
  · intro hvisits
    cases hvisits with
    | here => rfl
    | items href => rw [h] at href; cases href
    | property href => rw [h] at href; cases href
  · rintro rfl
    exact .here

theorem visits_array (href : fields.lookup "$ref" = none) (htype : Json.fieldOrNull fields "type" = .str "array") :
    Visits (.obj fields) record ↔
      record = fields ∨ ∃ value, fields.lookup "items" = some value ∧ Visits value record := by
  constructor
  · intro hvisits
    cases hvisits with
    | here => exact .inl rfl
    | items _ _ hitems h => exact .inr ⟨_, hitems, h⟩
    | property _ hobject =>
        rw [htype] at hobject
        simp at hobject
  · rintro (rfl | ⟨value, hitems, h⟩)
    · exact .here
    · exact .items href htype hitems h

theorem visits_object (href : fields.lookup "$ref" = none) (htype : Json.fieldOrNull fields "type" = .str "object") :
    Visits (.obj fields) record ↔
      record = fields ∨ ∃ values, fields.lookup "properties" = some (.arr values) ∧ ∃ v ∈ values, Visits v record := by
  constructor
  · intro hvisits
    cases hvisits with
    | here => exact .inl rfl
    | items _ harray =>
        rw [htype] at harray
        simp at harray
    | property _ _ hvalues hmem h => exact .inr ⟨_, hvalues, _, hmem, h⟩
  · rintro (rfl | ⟨values, hvalues, v, hmem, h⟩)
    · exact .here
    · exact .property href htype hvalues hmem h

/-- A record of another kind has nothing below it. -/
theorem visits_scalar (harray : Json.fieldOrNull fields "type" ≠ .str "array")
    (hobject : Json.fieldOrNull fields "type" ≠ .str "object") :
    Visits (.obj fields) record ↔ record = fields := by
  constructor
  · intro hvisits
    cases hvisits with
    | here => rfl
    | items _ h => exact absurd h harray
    | property _ h => exact absurd h hobject
  · rintro rfl
    exact .here

end

/-! ## What is read of a record -/

theorem sizeOf_lt_of_lookup {key : String} {fields : List (String × Json)} {value : Json}
    (h : fields.lookup key = some value) : sizeOf value < sizeOf (Json.obj fields) := by
  obtain ⟨before, after, rfl, -⟩ := List.lookup_eq_some_iff.1 h
  have hmem := List.sizeOf_lt_of_mem (List.mem_append_right before (List.mem_cons_self (a := (key, value)) (l := after)))
  simp only [Prod.mk.sizeOf_spec, Json.obj.sizeOf_spec] at hmem ⊢
  omega

theorem sizeOf_lt_of_lookup_list {key : String} {fields : List (String × Json)} {values : List Json} {value : Json}
    (h : fields.lookup key = some (.arr values)) (hmem : value ∈ values) : sizeOf value < sizeOf (Json.obj fields) := by
  have hlist := sizeOf_lt_of_lookup h
  have hvalue := List.sizeOf_lt_of_mem hmem
  rw [Json.arr.sizeOf_spec] at hlist
  omega

section

variable {strict : Bool} {place : Place} {fields : List (String × Json)}

theorem shapeOf_reference {target : Json} (h : fields.lookup "$ref" = some target) (items properties : Unit → Logged Shape) :
    shapeOf strict place fields items properties = pure (.ref place target.display) := by
  rw [shapeOf, h]

theorem shapeOf_untyped (href : fields.lookup "$ref" = none) (htype : Json.fieldOrNull fields "type" = .null)
    (items properties : Unit → Logged Shape) :
    shapeOf strict place fields items properties =
      if strict then refuse place .untypedShape
      else do
        Logged.note .debug .schemas ("Shape without type at " ++ place.text ++ " degrades to any")
        return .any place := by
  simp only [shapeOf, href, htype]

theorem shapeOf_array (href : fields.lookup "$ref" = none) (htype : Json.fieldOrNull fields "type" = .str "array")
    (items properties : Unit → Logged Shape) : shapeOf strict place fields items properties = items () := by
  simp only [shapeOf, href, htype]

theorem shapeOf_object (href : fields.lookup "$ref" = none) (htype : Json.fieldOrNull fields "type" = .str "object")
    (items properties : Unit → Logged Shape) : shapeOf strict place fields items properties = properties () := by
  simp only [shapeOf, href, htype]

theorem shapeOf_scalar (href : fields.lookup "$ref" = none) (hnull : Json.fieldOrNull fields "type" ≠ .null)
    (harray : Json.fieldOrNull fields "type" ≠ .str "array") (hobject : Json.fieldOrNull fields "type" ≠ .str "object")
    (items properties : Unit → Logged Shape) :
    shapeOf strict place fields items properties =
      primitiveOf strict place fields (Json.fieldOrNull fields "type") := by
  unfold shapeOf
  simp only [href]

theorem itemsIn_eq (fields : List (String × Json)) :
    itemsIn strict place fields =
      match fields.lookup "items" with
      | some value => do return .array place (← readShape strict (place.key "items") value)
      | none => if strict then refuse place .arrayWithoutItems else return .array place (.any (place.key "items")) := by
  induction fields with
  | nil => rw [itemsIn]; rfl
  | cons field rest ih =>
      obtain ⟨key, value⟩ := field
      rw [itemsIn]
      by_cases hkey : key = "items"
      · subst hkey
        rfl
      · rw [if_neg hkey, ih, lookup_cons_of_ne hkey]

theorem readProperties_eq_readEach (place : Place) (i : Nat) (values : List Json) :
    readProperties strict place i values = readEach (readProperty strict) place i values := by
  induction values generalizing i with
  | nil => rw [readProperties, readEach]
  | cons value rest ih => rw [readProperties, readEach, ih]

theorem propertiesIn_eq (fields : List (String × Json)) :
    propertiesIn strict place fields =
      match fields.lookup "properties" with
      | some value => do
        return .object place (← readEach (readProperty strict) (place.key "properties") 0
          (← expectList (place.key "properties") value))
      | none => pure (.openObject place) := by
  induction fields with
  | nil => rw [propertiesIn]; rfl
  | cons field rest ih =>
      obtain ⟨key, value⟩ := field
      unfold propertiesIn
      by_cases hkey : key = "properties"
      · subst hkey
        rw [if_pos rfl, List.lookup_cons, beq_self_eq_true]
        cases value with
        | arr items =>
            simp only [readProperties_eq_readEach]
            rfl
        | _ => rfl
      · rw [if_neg hkey, ih, lookup_cons_of_ne hkey]

theorem readProperty_obj :
    readProperty strict place (.obj fields) = (do
      let name ← required fields "name" place
      let shape ← readShape strict place (.obj fields)
      return {
        name, shape
        optional := Json.flag fields "optional"
        description := Json.fieldOrNull fields "description"
        marks := marksOf fields }) := by
  rw [readProperty, readShape]

theorem any_primitiveKinds (kind : Json) :
    primitiveKinds.any (.str · = kind) = true ↔ kind ∈ primitiveKinds.map Json.str := by
  rw [List.any_eq_true, List.mem_map]
  simp only [decide_eq_true_eq]

theorem expectFields_eq_ok {value : Json} :
    (expectFields place value).result = .ok fields ↔ value = .obj fields := by
  cases value <;> simp [expectFields, refuse]

theorem expectList_eq_ok {value : Json} {items : List Json} :
    (expectList place value).result = .ok items ↔ value = .arr items := by
  cases value <;> simp [expectList, refuse]

theorem itemsUnder_of_listIn {key : String} {items : List Json} (h : (listIn fields key place).result = .ok items) :
    itemsUnder key (.obj fields) = items := by
  unfold listIn at h
  split at h
  · rename_i value hvalue
    rw [expectList_eq_ok.1 h] at hvalue
    exact itemsUnder_obj hvalue
  · rename_i hvalue
    cases h
    exact itemsUnder_of_lookup_eq_none hvalue

end

end ProtocolTypings.Schema
