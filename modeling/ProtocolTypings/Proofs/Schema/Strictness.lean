import ProtocolTypings.Proofs.Schema.Protocol
import ProtocolTypings.Proofs.Schema.Records

/-!
# What a strict reading asks for

A strict reading gives what a lenient one gives, if it gives anything. It refuses the documents in which a record is
degraded, and those that leave a reference unresolved together, and no others.
-/

namespace ProtocolTypings.Schema

open Logged (Tightens)

/-- A record that describes no shape by itself: it has no type, is an array of nothing that is named, or is of a kind
that nobody knows. -/
def Degraded (record : List (String × Json)) : Prop :=
  record.lookup "$ref" = none ∧
    (Json.fieldOrNull record "type" = .null ∨
      Json.fieldOrNull record "type" = .str "array" ∧ record.lookup "items" = none ∨
      Json.fieldOrNull record "type" ∉
        ["array", "object", "string", "integer", "number", "boolean", "any"].map Json.str)

/-- No record that is looked at is degraded. -/
def Intact (value : Json) : Prop :=
  ∀ record, Visits value record → ¬ Degraded record

section

variable {place : Place} {fields : List (String × Json)}

/-! ## Shapes -/

theorem intact_reference {target : Json} (h : fields.lookup "$ref" = some target) : Intact (.obj fields) := by
  intro record hvisits
  rw [(visits_reference h).1 hvisits]
  rintro ⟨hnone, -⟩
  rw [h] at hnone
  cases hnone

theorem not_intact (h : Degraded fields) : ¬ Intact (.obj fields) :=
  fun hintact => hintact fields .here h

theorem intact_array (href : fields.lookup "$ref" = none) (htype : Json.fieldOrNull fields "type" = .str "array") :
    Intact (.obj fields) ↔ ∃ value, fields.lookup "items" = some value ∧ Intact value := by
  constructor
  · intro h
    cases hitems : fields.lookup "items" with
    | none => exact absurd ⟨href, .inr (.inl ⟨htype, hitems⟩)⟩ (h fields .here)
    | some value => exact ⟨value, rfl, fun record hvisits => h record (.items href htype hitems hvisits)⟩
  · rintro ⟨value, hitems, h⟩ record hvisits
    rcases (visits_array href htype).1 hvisits with rfl | ⟨value', hitems', hvisits⟩
    · rintro ⟨-, hnull | ⟨-, hnone⟩ | hkind⟩
      · rw [htype] at hnull
        cases hnull
      · rw [hitems] at hnone
        cases hnone
      · rw [htype] at hkind
        exact hkind (by decide)
    · rw [hitems] at hitems'
      cases hitems'
      exact h record hvisits

theorem intact_object (href : fields.lookup "$ref" = none) (htype : Json.fieldOrNull fields "type" = .str "object") :
    Intact (.obj fields) ↔ ∀ values, fields.lookup "properties" = some (.arr values) → ∀ v ∈ values, Intact v := by
  constructor
  · intro h values hvalues v hv record hvisits
    exact h record (.property href htype hvalues hv hvisits)
  · intro h record hvisits
    rcases (visits_object href htype).1 hvisits with rfl | ⟨values, hvalues, v, hv, hvisits⟩
    · rintro ⟨-, hnull | ⟨harray, -⟩ | hkind⟩
      · rw [htype] at hnull
        cases hnull
      · rw [htype] at harray
        simp at harray
      · rw [htype] at hkind
        exact hkind (by decide)
    · exact h values hvalues v hv record hvisits

theorem intact_scalar (href : fields.lookup "$ref" = none) (hnull : Json.fieldOrNull fields "type" ≠ .null)
    (harray : Json.fieldOrNull fields "type" ≠ .str "array") (hobject : Json.fieldOrNull fields "type" ≠ .str "object") :
    Intact (.obj fields) ↔ Json.fieldOrNull fields "type" ∈ primitiveKinds.map Json.str := by
  have hknown : ¬ Degraded fields ↔ Json.fieldOrNull fields "type" ∈ primitiveKinds.map Json.str := by
    simp only [Degraded, href, hnull, harray, hobject, primitiveKinds, List.map_cons, List.map_nil, List.mem_cons,
      true_and, false_and, false_or, Classical.not_not]
  rw [← hknown]
  constructor
  · exact fun h => h fields .here
  · intro h record hvisits
    rw [(visits_scalar harray hobject).1 hvisits]
    exact h

theorem tightens_primitiveOf (kind : Json) :
    Tightens (kind ∈ primitiveKinds.map Json.str) (primitiveOf true place fields kind)
      (primitiveOf false place fields kind) := by
  rw [← any_primitiveKinds]
  unfold primitiveOf
  split
  · exact .of_error rfl ⟨_, rfl⟩
  · exact .of_error rfl ⟨_, rfl⟩
  · cases hknown : primitiveKinds.any (.str · = kind) with
    | false => exact .of_refused rfl Bool.false_ne_true
    | true => exact (Tightens.refl _).congr ⟨fun _ => rfl, fun _ => trivial⟩

theorem tightens_readEach {α : Type} {read read' : Place → Json → Logged α} {P : Json → Prop} {values : List Json}
    (h : ∀ value ∈ values, ∀ place, Tightens (P value) (read place value) (read' place value)) (place : Place) (i : Nat) :
    Tightens (∀ value ∈ values, P value) (readEach read place i values) (readEach read' place i values) := by
  induction values generalizing i with
  | nil => exact (Tightens.refl _).congr (by simp)
  | cons value rest ih =>
      rw [List.forall_mem_cons]
      refine (h value List.mem_cons_self _).bind fun item _ => ?_
      exact (ih (fun other hother => h other (List.mem_cons_of_mem _ hother)) (i + 1)).bind_left _

theorem tightens_readProperty {value : Json} (h : Tightens (Intact value) (readShape true place value)
    (readShape false place value)) :
    Tightens (Intact value) (readProperty true place value) (readProperty false place value) := by
  cases value with
  | obj fields =>
      rw [readProperty_obj, readProperty_obj]
      exact Tightens.bind_right fun name _ => h.bind_left _
  | _ => exact .of_error rfl ⟨_, rfl⟩

/-- A shape is read strictly as it is leniently, unless a record on the way is degraded. -/
theorem tightens_readShape (place : Place) (value : Json) :
    Tightens (Intact value) (readShape true place value) (readShape false place value) := by
  cases value with
  | obj fields =>
      rw [readShape, readShape]
      cases href : fields.lookup "$ref" with
      | some target =>
          rw [shapeOf_reference href, shapeOf_reference href]
          exact (Tightens.refl _).congr ⟨fun _ => intact_reference href, fun _ => trivial⟩
      | none =>
          by_cases hnull : Json.fieldOrNull fields "type" = .null
          · rw [shapeOf_untyped href hnull, shapeOf_untyped href hnull]
            exact .of_refused rfl (not_intact ⟨href, .inl hnull⟩)
          by_cases harray : Json.fieldOrNull fields "type" = .str "array"
          · rw [shapeOf_array href harray, shapeOf_array href harray, itemsIn_eq, itemsIn_eq]
            refine Tightens.congr ?_ (intact_array href harray).symm
            cases hitems : fields.lookup "items" with
            | none => exact .of_refused rfl (by simp)
            | some value =>
                have hshape := tightens_readShape (place.key "items") value
                exact (hshape.bind_left _).congr (by simp)
          by_cases hobject : Json.fieldOrNull fields "type" = .str "object"
          · rw [shapeOf_object href hobject, shapeOf_object href hobject, propertiesIn_eq, propertiesIn_eq]
            refine Tightens.congr ?_ (intact_object href hobject).symm
            cases hvalues : fields.lookup "properties" with
            | none => exact (Tightens.refl _).congr (by simp)
            | some value =>
                refine Tightens.bind_right fun values hlist => ?_
                obtain rfl := expectList_eq_ok.1 hlist
                have hproperty : ∀ v ∈ values, ∀ place,
                    Tightens (Intact v) (readProperty true place v) (readProperty false place v) :=
                  fun v hv place => tightens_readProperty (tightens_readShape place v)
                exact ((tightens_readEach hproperty _ 0).bind_left _).congr (by simp)
          · rw [shapeOf_scalar href hnull harray hobject, shapeOf_scalar href hnull harray hobject]
            exact (tightens_primitiveOf _).congr (intact_scalar href hnull harray hobject).symm
  | _ => exact .of_error rfl ⟨_, rfl⟩
termination_by sizeOf value
decreasing_by
  · exact sizeOf_lt_of_lookup hitems
  · exact sizeOf_lt_of_lookup_list hvalues hv

/-! ## Domains -/

theorem tightens_readProperties (place : Place) (i : Nat) (values : List Json) :
    Tightens (∀ value ∈ values, Intact value) (readProperties true place i values)
      (readProperties false place i values) := by
  rw [readProperties_eq_readEach, readProperties_eq_readEach]
  exact tightens_readEach (fun value _ place => tightens_readProperty (tightens_readShape place value)) place i

theorem tightens_propertyList (key : String) :
    Tightens (∀ value ∈ itemsUnder key (.obj fields), Intact value) (propertyList true fields key place)
      (propertyList false fields key place) := by
  unfold propertyList
  cases hlookup : fields.lookup key with
  | none => exact (Tightens.refl _).congr (by simp [itemsUnder_of_lookup_eq_none hlookup])
  | some value =>
      refine Tightens.bind_right fun values hlist => ?_
      obtain rfl := expectList_eq_ok.1 hlist
      rw [itemsUnder_obj hlookup]
      exact (tightens_readProperties _ 0 values).bind_left _

theorem tightens_readType (place : Place) (value : Json) :
    Tightens (Intact value) (readType true place value) (readType false place value) :=
  Tightens.bind_right fun _ _ => Tightens.bind_right fun _ _ => (tightens_readShape place value).bind_left _

theorem tightens_readCommand (place : Place) (value : Json) :
    Tightens (∀ v ∈ memberRecords value, Intact v) (readCommand true place value) (readCommand false place value) := by
  refine Tightens.bind_right fun fields hfields => Tightens.bind_right fun name _ => ?_
  obtain rfl := expectFields_eq_ok.1 hfields
  refine ((tightens_propertyList "parameters").bind fun parameters _ =>
    (tightens_propertyList "returns").bind_left _).congr ?_
  simp only [memberRecords, List.mem_append, or_imp, forall_and]

theorem tightens_readEvent (place : Place) (value : Json) :
    Tightens (∀ v ∈ itemsUnder "parameters" value, Intact v) (readEvent true place value)
      (readEvent false place value) := by
  refine Tightens.bind_right fun fields hfields => Tightens.bind_right fun name _ => ?_
  obtain rfl := expectFields_eq_ok.1 hfields
  exact (tightens_propertyList "parameters").bind_left _

theorem tightens_readDomain (place : Place) (value : Json) :
    Tightens (∀ v ∈ domainRecords value, Intact v) (readDomain true place value) (readDomain false place value) := by
  refine Tightens.bind_right fun fields hfields => Tightens.bind_right fun name _ => ?_
  obtain rfl := expectFields_eq_ok.1 hfields
  refine Tightens.congr (P := (∀ t ∈ itemsUnder "types" (.obj fields), Intact t) ∧
    (∀ c ∈ itemsUnder "commands" (.obj fields), ∀ v ∈ memberRecords c, Intact v) ∧
    ∀ e ∈ itemsUnder "events" (.obj fields), ∀ v ∈ itemsUnder "parameters" e, Intact v) ?_ ?_
  · refine Tightens.bind_right fun types htypes => ?_
    rw [itemsUnder_of_listIn htypes]
    refine Tightens.bind (tightens_readEach (fun t _ place => tightens_readType place t) _ 0) fun _ _ => ?_
    refine Tightens.bind_right fun commands hcommands => ?_
    rw [itemsUnder_of_listIn hcommands]
    refine Tightens.bind (tightens_readEach (fun c _ place => tightens_readCommand place c) _ 0) fun _ _ => ?_
    refine Tightens.bind_right fun events hevents => ?_
    rw [itemsUnder_of_listIn hevents]
    exact (tightens_readEach (fun e _ place => tightens_readEvent place e) _ 0).bind_left _
  · simp only [domainRecords, List.forall_mem_append, List.forall_mem_flatMap, and_assoc]

/-- A document is read strictly as it is leniently, unless one of its records is degraded. -/
theorem tightens_readDocument (place : Place) (document : Json) :
    Tightens (∀ v ∈ documentRecords document, Intact v) (readDocument true place document)
      (readDocument false place document) := by
  refine Tightens.bind_right fun fields hfields => Tightens.bind_right fun records hrecords => ?_
  obtain rfl := expectFields_eq_ok.1 hfields
  have hunder := itemsUnder_obj (fieldOrNull_eq_arr.1 (expectList_eq_ok.1 hrecords))
  refine ((tightens_readEach (fun value _ place => tightens_readDomain place value) _ 0).bind_left _).congr ?_
  rw [documentRecords, hunder, List.forall_mem_flatMap]

theorem tightens_readDocuments (i : Nat) (documents : List Json) :
    Tightens (∀ document ∈ documents, ∀ v ∈ documentRecords document, Intact v) (readDocuments true i documents)
      (readDocuments false i documents) := by
  induction documents generalizing i with
  | nil => exact (Tightens.refl _).congr (by simp)
  | cons document rest ih =>
      rw [List.forall_mem_cons]
      exact (tightens_readDocument _ document).bind fun domains _ => (ih (i + 1)).bind_left _

/-! ## Protocols -/

theorem not_degraded_iff {documents : List Json} :
    (∀ document ∈ documents, ∀ v ∈ documentRecords document, Intact v) ↔
      ∀ document ∈ documents, ∀ record, VisitsIn document record → ¬ Degraded record := by
  constructor
  · rintro h document hdocument record ⟨v, hv, hvisits⟩
    exact h document hdocument v hv record hvisits
  · exact fun h document hdocument v hv record hvisits => h document hdocument record ⟨v, hv, hvisits⟩

/-- A strict reading gives the domains that a lenient one gives, if no record that is looked at is degraded and no
reference is left unresolved; otherwise it gives none. -/
theorem readProtocol_strict_iff (documents : List Json) (domains : List Domain) :
    (readProtocol true documents).result = .ok domains ↔
      (readProtocol false documents).result = .ok domains ∧
        (∀ document ∈ documents, ∀ record, VisitsIn document record → ¬ Degraded record) ∧
        unresolved domains = [] := by
  rw [readProtocol_eq_ok, readProtocol_eq_ok, tightens_readDocuments 0 documents domains, not_degraded_iff]
  simp only [true_implies, Bool.false_eq_true, false_implies, and_true, and_assoc]

end

end ProtocolTypings.Schema
