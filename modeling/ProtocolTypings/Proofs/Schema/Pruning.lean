import ProtocolTypings.Proofs.Schema.Protocol
import ProtocolTypings.Proofs.Schema.Records
import ProtocolTypings.Proofs.Typing.Alike

/-!
# Documents without metadata

A document is pruned by dropping, from every record that is looked at when it is read, the marks and whatever else is
written nowhere, and every field under a key that has no meaning there. A pruned document is read with the same records
in the log, and as domains that differ in their metadata only.
-/

namespace ProtocolTypings.Schema

open Logged (Follows)

/-! ## Pruning -/

/-- The fields that a record keeps. The treatment of a key says what becomes of the value under it, if that is kept. -/
def keepFields (treat : String → Option (Json → Json)) (fields : List (String × Json)) : List (String × Json) :=
  fields.filterMap fun field => (treat field.1).map fun prune => (field.1, prune field.2)

def pruneRecord (treat : String → Option (Json → Json)) : Json → Json
  | .obj fields => .obj (keepFields treat fields)
  | other => other

def pruneItems (prune : Json → Json) : Json → Json
  | .arr items => .arr (items.map prune)
  | other => other

/-- The keys that say which values a shape has. -/
def shapeKeys : List String :=
  ["$ref", "type", "items", "properties", "enum"]

/-- The key under which a shape has other shapes, if it is one of an array or an object. -/
def keyBelow (fields : List (String × Json)) : Option String :=
  match fields.lookup "$ref", Json.fieldOrNull fields "type" with
  | none, .str "array" => some "items"
  | none, .str "object" => some "properties"
  | _, _ => none

def propertyKeys : List String :=
  ["name", "optional", "description"]

mutual
/-- The record of a shape with the fields that say which values it has and those under the given keys. -/
def pruneShape (own : List String) : Json → Json
  | .obj fields => .obj (pruneFields own (keyBelow fields) fields)
  | other => other

def pruneFields (own : List String) (below : Option String) : List (String × Json) → List (String × Json)
  | [] => []
  | (key, value) :: rest =>
    if below = some key then
      (key, if key = "items" then pruneShape [] value else pruneProperties value) :: pruneFields own below rest
    else if (own ++ shapeKeys).contains key then (key, value) :: pruneFields own below rest
    else pruneFields own below rest

def pruneProperties : Json → Json
  | .arr items => .arr (pruneEach items)
  | other => other

def pruneEach : List Json → List Json
  | [] => []
  | value :: rest => pruneShape propertyKeys value :: pruneEach rest
end

def pruneProperty : Json → Json :=
  pruneShape propertyKeys

def pruneType : Json → Json :=
  pruneShape ["id", "description"]

def pruneCommand : Json → Json :=
  pruneRecord fun
    | "name" | "description" => some id
    | "parameters" | "returns" => some (pruneItems pruneProperty)
    | _ => none

def pruneEvent : Json → Json :=
  pruneRecord fun
    | "name" | "description" => some id
    | "parameters" => some (pruneItems pruneProperty)
    | _ => none

def pruneDomain : Json → Json :=
  pruneRecord fun
    | "domain" | "description" => some id
    | "types" => some (pruneItems pruneType)
    | "commands" => some (pruneItems pruneCommand)
    | "events" => some (pruneItems pruneEvent)
    | _ => none

/-- The document without metadata and without what has no meaning in it. -/
def pruneDocument : Json → Json :=
  pruneRecord fun
    | "domains" => some (pruneItems pruneDomain)
    | _ => none

/-! ## What is kept -/

section

variable {fields : List (String × Json)} {key : String}

theorem keepFields_cons (treat : String → Option (Json → Json)) (key : String) (value : Json)
    (rest : List (String × Json)) :
    keepFields treat ((key, value) :: rest) =
      (match treat key with
      | some prune => (key, prune value) :: keepFields treat rest
      | none => keepFields treat rest) := by
  rw [keepFields, List.filterMap_cons]
  cases treat key <;> rfl

theorem lookup_keepFields (treat : String → Option (Json → Json)) (key : String) (fields : List (String × Json)) :
    (keepFields treat fields).lookup key = (treat key).bind fun prune => (fields.lookup key).map prune := by
  induction fields with
  | nil => cases treat key <;> rfl
  | cons field rest ih =>
      obtain ⟨k, value⟩ := field
      rw [keepFields_cons, List.lookup_cons]
      by_cases hkey : key = k
      · subst hkey
        cases htreat : treat key with
        | none =>
            rw [htreat] at ih
            exact ih
        | some prune => simp
      · rw [beq_eq_false_iff_ne.2 hkey, ← ih]
        cases treat k with
        | none => rfl
        | some prune => simp only [List.lookup_cons, beq_eq_false_iff_ne.2 hkey]

theorem pruneProperties_eq (value : Json) : pruneProperties value = pruneItems pruneProperty value := by
  have heach (items : List Json) : pruneEach items = items.map pruneProperty := by
    induction items with
    | nil => rfl
    | cons item rest ih =>
        rw [pruneEach, ih]
        rfl
  cases value with
  | arr items => rw [pruneProperties, pruneItems, heach]
  | _ => rfl

/-- What becomes of the value under a key in the record of a shape. -/
def treatShape (own : List String) (below : Option String) (key : String) : Option (Json → Json) :=
  if below = some key then some (if key = "items" then pruneShape [] else pruneItems pruneProperty)
  else if (own ++ shapeKeys).contains key then some id
  else none

theorem pruneFields_eq (own : List String) (below : Option String) (fields : List (String × Json)) :
    pruneFields own below fields = keepFields (treatShape own below) fields := by
  induction fields with
  | nil => rfl
  | cons field rest ih =>
      obtain ⟨key, value⟩ := field
      rw [pruneFields, ih, keepFields_cons, treatShape]
      split
      · split
        · rfl
        · rw [pruneProperties_eq]
      · split <;> rfl

theorem pruneShape_obj (own : List String) (fields : List (String × Json)) :
    pruneShape own (.obj fields) = .obj (keepFields (treatShape own (keyBelow fields)) fields) := by
  rw [pruneShape, pruneFields_eq]

theorem keyBelow_array (href : fields.lookup "$ref" = none) (htype : Json.fieldOrNull fields "type" = .str "array") :
    keyBelow fields = some "items" := by
  simp [keyBelow, href, htype]

theorem keyBelow_object (href : fields.lookup "$ref" = none) (htype : Json.fieldOrNull fields "type" = .str "object") :
    keyBelow fields = some "properties" := by
  simp [keyBelow, href, htype]

theorem keyBelow_eq_some (h : keyBelow fields = some key) : key = "items" ∨ key = "properties" := by
  unfold keyBelow at h
  split at h
  · exact .inl (Option.some.inj h).symm
  · exact .inr (Option.some.inj h).symm
  · cases h

/-- Fields with nothing below them are kept as they are. -/
theorem lookup_kept {own : List String} (hkey : key ∈ own ++ shapeKeys) (hitems : key ≠ "items")
    (hproperties : key ≠ "properties") :
    (keepFields (treatShape own (keyBelow fields)) fields).lookup key = fields.lookup key := by
  have hbelow : keyBelow fields ≠ some key := fun h => (keyBelow_eq_some h).elim hitems hproperties
  rw [lookup_keepFields, treatShape, if_neg hbelow, if_pos (List.contains_iff_mem.2 hkey)]
  exact Option.map_id'

theorem lookup_items {own : List String} (h : keyBelow fields = some "items") :
    (keepFields (treatShape own (keyBelow fields)) fields).lookup "items" =
      (fields.lookup "items").map (pruneShape []) := by
  rw [lookup_keepFields, treatShape, if_pos h, if_pos rfl]
  rfl

theorem lookup_properties {own : List String} (h : keyBelow fields = some "properties") :
    (keepFields (treatShape own (keyBelow fields)) fields).lookup "properties" =
      (fields.lookup "properties").map (pruneItems pruneProperty) := by
  rw [lookup_keepFields, treatShape, if_pos h, if_neg (by decide)]
  rfl

end

/-! ## Reading what is kept -/

section

variable {strict : Bool} {place : Place} {fields kept : List (String × Json)} {key : String} {α : Type}
  {R : α → α → Prop} {prune : Json → Json}

theorem fieldOrNull_congr (h : kept.lookup key = fields.lookup key) :
    Json.fieldOrNull kept key = Json.fieldOrNull fields key := by
  rw [Json.fieldOrNull, Json.fieldOrNull, h]

theorem required_congr (h : kept.lookup key = fields.lookup key) : required kept key place = required fields key place := by
  rw [required, required, h]

theorem primitiveOf_congr (h : kept.lookup "enum" = fields.lookup "enum") (kind : Json) :
    primitiveOf strict place kept kind = primitiveOf strict place fields kind := by
  simp only [primitiveOf, valuesIn, fieldOrNull_congr h]

theorem follows_expectList (place : Place) (value : Json) :
    Follows (fun items items' => value = .arr items ∧ items' = items.map prune) (expectList place value)
      (expectList place (pruneItems prune value)) := by
  intro items hitems
  obtain rfl := expectList_eq_ok.1 hitems
  exact ⟨items.map prune, rfl, rfl, rfl⟩

theorem follows_listIn (h : kept.lookup key = (fields.lookup key).map (pruneItems prune)) :
    Follows (fun items items' => items' = items.map prune) (listIn fields key place) (listIn kept key place) := by
  unfold listIn
  rw [h]
  cases fields.lookup key with
  | none => exact .pure rfl
  | some value =>
      intro items hitems
      obtain ⟨items', hfollows, -, hmap⟩ := follows_expectList (place.key key) value items hitems
      exact ⟨items', hfollows, hmap⟩

theorem follows_readEach {read : Place → Json → Logged α} {values : List Json}
    (h : ∀ value ∈ values, ∀ place, Follows R (read place value) (read place (prune value))) (place : Place) (i : Nat) :
    Follows (List.Forall₂ R) (readEach read place i values) (readEach read place i (values.map prune)) := by
  induction values generalizing i with
  | nil => exact .pure .nil
  | cons value rest ih =>
      refine (h value List.mem_cons_self _).bind fun a b hab => ?_
      refine (ih (fun other hother => h other (List.mem_cons_of_mem _ hother)) (i + 1)).bind fun as bs habs => ?_
      exact .pure (.cons hab habs)

/-! ## Shapes -/

theorem follows_readProperty {value : Json} {place : Place}
    (h : Follows (Shape.Alike Eq) (readShape strict place value) (readShape strict place (pruneProperty value))) :
    Follows (Property.Alike Eq) (readProperty strict place value) (readProperty strict place (pruneProperty value)) := by
  cases value with
  | obj fields =>
      rw [pruneProperty, pruneShape_obj] at h ⊢
      rw [readProperty_obj, readProperty_obj,
        required_congr (lookup_kept (by decide) (by decide) (by decide))]
      refine Follows.bind_right fun name _ => h.bind fun s t hst => .pure ⟨?_, ?_⟩
      · rw [Property.bare, Property.bare, hst.bare, Json.flag, Json.flag,
          fieldOrNull_congr (lookup_kept (by decide) (by decide) (by decide))]
      · exact (fieldOrNull_congr (lookup_kept (by decide) (by decide) (by decide))).symm
  | _ => exact .of_error rfl

/-- What is dropped from the record of a shape and from those below it does not matter to the shape. -/
theorem follows_readShape (own : List String) (place : Place) (value : Json) :
    Follows (Shape.Alike Eq) (readShape strict place value) (readShape strict place (pruneShape own value)) := by
  cases value with
  | obj fields =>
      rw [pruneShape_obj, readShape, readShape]
      have hreference := @lookup_kept fields "$ref" own (by simp [shapeKeys]) (by decide) (by decide)
      have hkind := fieldOrNull_congr (@lookup_kept fields "type" own (by simp [shapeKeys]) (by decide) (by decide))
      have hvalues := @lookup_kept fields "enum" own (by simp [shapeKeys]) (by decide) (by decide)
      have hitemsKept := @lookup_items fields own
      have hpropertiesKept := @lookup_properties fields own
      generalize hkept : keepFields (treatShape own (keyBelow fields)) fields = kept at *
      cases href : fields.lookup "$ref" with
      | some target =>
          rw [href] at hreference
          rw [shapeOf_reference href, shapeOf_reference hreference]
          exact .refl (Shape.Alike.refl fun _ => rfl) _
      | none =>
          rw [href] at hreference
          by_cases hnull : Json.fieldOrNull fields "type" = .null
          · rw [shapeOf_untyped href hnull, shapeOf_untyped hreference (hkind.trans hnull)]
            exact .refl (Shape.Alike.refl fun _ => rfl) _
          by_cases harray : Json.fieldOrNull fields "type" = .str "array"
          · rw [shapeOf_array href harray, shapeOf_array hreference (hkind.trans harray), itemsIn_eq, itemsIn_eq,
              hitemsKept (keyBelow_array href harray)]
            cases hitems : fields.lookup "items" with
            | none => exact .refl (Shape.Alike.refl fun _ => rfl) _
            | some value =>
                exact (follows_readShape [] (place.key "items") value).bind fun s t hst => .pure (hst.array place)
          by_cases hobject : Json.fieldOrNull fields "type" = .str "object"
          · rw [shapeOf_object href hobject, shapeOf_object hreference (hkind.trans hobject), propertiesIn_eq,
              propertiesIn_eq, hpropertiesKept (keyBelow_object href hobject)]
            cases hlist : fields.lookup "properties" with
            | none => exact .refl (Shape.Alike.refl fun _ => rfl) _
            | some value =>
                refine (follows_expectList _ value).bind fun values values' hvalues => ?_
                obtain ⟨rfl, rfl⟩ := hvalues
                have hproperty : ∀ v ∈ values, ∀ place, Follows (Property.Alike Eq) (readProperty strict place v)
                    (readProperty strict place (pruneProperty v)) :=
                  fun v hv place => follows_readProperty (follows_readShape propertyKeys place v)
                exact (follows_readEach hproperty _ 0).bind fun ps qs hpqs => .pure (Shape.Alike.object hpqs place)
          · rw [shapeOf_scalar href hnull harray hobject, shapeOf_scalar hreference (by rwa [hkind]) (by rwa [hkind])
              (by rwa [hkind]), hkind, primitiveOf_congr hvalues]
            exact .refl (Shape.Alike.refl fun _ => rfl) _
  | _ => exact .of_error rfl
termination_by sizeOf value
decreasing_by
  · exact sizeOf_lt_of_lookup hitems
  · exact sizeOf_lt_of_lookup_list hlist hv

/-! ## Domains -/

theorem follows_propertyList (h : kept.lookup key = (fields.lookup key).map (pruneItems pruneProperty)) :
    Follows (PropertiesAlike Eq) (propertyList strict fields key place) (propertyList strict kept key place) := by
  unfold propertyList
  rw [h]
  cases fields.lookup key with
  | none => exact .pure .none
  | some value =>
      refine (follows_expectList _ value).bind fun values values' hvalues => ?_
      obtain ⟨-, rfl⟩ := hvalues
      rw [readProperties_eq_readEach, readProperties_eq_readEach]
      refine (follows_readEach (fun v _ place => ?_) _ 0).bind fun ps qs hpqs => .pure (.some hpqs)
      exact follows_readProperty (follows_readShape propertyKeys place v)

/-- A list that is dropped is only looked at to see that it is one. -/
theorem follows_listIn_dropped (h : kept.lookup key = none) :
    Follows (fun _ _ => True) (listIn fields key place) (listIn kept key place) := by
  unfold listIn
  rw [h]
  cases fields.lookup key with
  | none => exact .pure trivial
  | some value =>
      intro items hitems
      obtain rfl := expectList_eq_ok.1 hitems
      exact ⟨[], rfl, trivial⟩

section

variable {treat : String → Option (Json → Json)}

theorem follows_expectFields (treat : String → Option (Json → Json)) (place : Place) (value : Json) :
    Follows (fun fields kept => kept = keepFields treat fields) (expectFields place value)
      (expectFields place (pruneRecord treat value)) := by
  intro fields hfields
  obtain rfl := expectFields_eq_ok.1 hfields
  exact ⟨_, rfl, rfl⟩

theorem lookup_of_treat_id (h : treat key = some id) : (keepFields treat fields).lookup key = fields.lookup key := by
  rw [lookup_keepFields, h]
  exact Option.map_id'

theorem lookup_of_treat (h : treat key = some prune) :
    (keepFields treat fields).lookup key = (fields.lookup key).map prune := by
  rw [lookup_keepFields, h]
  rfl

theorem lookup_of_treat_none (h : treat key = none) : (keepFields treat fields).lookup key = none := by
  rw [lookup_keepFields, h]
  rfl

end

theorem follows_readType (place : Place) (value : Json) :
    Follows (TypeDecl.Alike Eq) (readType strict place value) (readType strict place (pruneType value)) := by
  have hshape := @follows_readShape strict ["id", "description"] place value
  cases value with
  | obj fields =>
      rw [pruneType]
      rw [pruneShape_obj] at hshape ⊢
      show Follows _ (do let id ← required fields "id" place; _) (do let id ← required (keepFields _ fields) "id" place; _)
      rw [required_congr (lookup_kept (by decide) (by decide) (by decide))]
      refine Follows.bind_right fun id _ => hshape.bind fun s t hst => .pure ⟨rfl, ?_, hst⟩
      exact (fieldOrNull_congr (lookup_kept (by decide) (by decide) (by decide))).symm
  | _ => exact .of_error rfl

theorem follows_readCommand (place : Place) (value : Json) :
    Follows (Command.Alike Eq) (readCommand strict place value) (readCommand strict place (pruneCommand value)) := by
  refine (follows_expectFields _ place value).bind fun fields kept hkept => ?_
  subst hkept
  rw [required_congr (lookup_of_treat_id rfl)]
  refine Follows.bind_right fun name _ => ?_
  refine (follows_propertyList (lookup_of_treat rfl)).bind fun ps qs hparameters => ?_
  refine (follows_propertyList (lookup_of_treat rfl)).bind fun rs ss hreturns => .pure ⟨rfl, ?_, hparameters, hreturns⟩
  exact (fieldOrNull_congr (lookup_of_treat_id rfl)).symm

theorem follows_readEvent (place : Place) (value : Json) :
    Follows (Event.Alike Eq) (readEvent strict place value) (readEvent strict place (pruneEvent value)) := by
  refine (follows_expectFields _ place value).bind fun fields kept hkept => ?_
  subst hkept
  rw [required_congr (lookup_of_treat_id rfl)]
  refine Follows.bind_right fun name _ => ?_
  refine (follows_propertyList (lookup_of_treat rfl)).bind fun ps qs hparameters => .pure ⟨rfl, ?_, hparameters⟩
  exact (fieldOrNull_congr (lookup_of_treat_id rfl)).symm

theorem follows_readDomain (place : Place) (value : Json) :
    Follows (Domain.Alike Eq) (readDomain strict place value) (readDomain strict place (pruneDomain value)) := by
  refine (follows_expectFields _ place value).bind fun fields kept hkept => ?_
  subst hkept
  rw [required_congr (lookup_of_treat_id rfl)]
  refine Follows.bind_right fun name _ => ?_
  refine (follows_listIn (lookup_of_treat rfl)).bind fun typeRecords _ hrecords => ?_
  subst hrecords
  refine (follows_readEach (fun v _ place => follows_readType place v) _ 0).bind fun ts us htypes => ?_
  refine (follows_listIn (lookup_of_treat rfl)).bind fun commandRecords _ hrecords => ?_
  subst hrecords
  refine (follows_readEach (fun v _ place => follows_readCommand place v) _ 0).bind fun cs ds hcommands => ?_
  refine (follows_listIn (lookup_of_treat rfl)).bind fun eventRecords _ hrecords => ?_
  subst hrecords
  refine (follows_readEach (fun v _ place => follows_readEvent place v) _ 0).bind fun es fs hevents => ?_
  refine (follows_listIn_dropped (lookup_of_treat_none rfl)).bind fun _ _ _ => ?_
  exact .pure ⟨rfl, (fieldOrNull_congr (lookup_of_treat_id rfl)).symm, htypes, hcommands, hevents⟩

/-! ## Documents -/

theorem fieldOrNull_of_treat (key : String) (hprune : prune .null = .null)
    (h : kept.lookup key = (fields.lookup key).map prune) :
    Json.fieldOrNull kept key = prune (Json.fieldOrNull fields key) := by
  rw [Json.fieldOrNull, Json.fieldOrNull, h]
  cases fields.lookup key with
  | none => exact hprune.symm
  | some value => rfl

theorem follows_readDocument (place : Place) (document : Json) :
    Follows (List.Forall₂ (Domain.Alike Eq)) (readDocument strict place document)
      (readDocument strict place (pruneDocument document)) := by
  refine (follows_expectFields _ place document).bind fun fields kept hkept => ?_
  subst hkept
  rw [fieldOrNull_of_treat "domains" rfl (lookup_of_treat rfl)]
  refine (follows_expectList _ _).bind fun records _ hrecords => ?_
  obtain ⟨-, rfl⟩ := hrecords
  refine (follows_readEach (fun v _ place => follows_readDomain place v) _ 0).bind fun ds es h => ?_
  rw [h.length_eq]
  exact Follows.bind_right fun _ _ => .pure h

theorem follows_readDocuments (i : Nat) (documents : List Json) :
    Follows (List.Forall₂ (Domain.Alike Eq)) (readDocuments strict i documents)
      (readDocuments strict i (documents.map pruneDocument)) := by
  induction documents generalizing i with
  | nil => exact .pure .nil
  | cons document rest ih =>
      refine (follows_readDocument (.document i) document).bind fun ds es h => ?_
      exact (ih (i + 1)).bind fun ds' es' h' => .pure (List.rel_append h h')

end

/-! ## Protocols -/

theorem repeatedNames_eq_of_alike {R : Json → Json → Prop} {ds es : List Domain}
    (h : List.Forall₂ (Domain.Alike R) ds es) (seen : List String) : repeatedNames seen ds = repeatedNames seen es := by
  induction h generalizing seen with
  | nil => rfl
  | cons hd _ ih => rw [repeatedNames, repeatedNames, hd.name, ih, ih]

theorem follows_readProtocol (strict : Bool) (documents : List Json) :
    Follows (List.Forall₂ (Domain.Alike Eq)) (readProtocol strict documents)
      (readProtocol strict (documents.map pruneDocument)) := by
  refine (follows_readDocuments 0 documents).bind fun ds es h => ?_
  rw [repeatedNames_eq_of_alike h]
  refine Follows.bind_right fun _ _ => ?_
  rw [checkReferences, checkReferences, unresolved_eq_of_alike h]
  exact Follows.bind_right fun _ _ => .pure h

end ProtocolTypings.Schema
