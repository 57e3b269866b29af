import Mathlib.Data.List.Induction
import ProtocolTypings.Proofs.Schema.Protocol
import ProtocolTypings.Proofs.Schema.Unresolved

/-!
# What readings warn of

The parts of a document are read without a warning. When all documents have been read, each repetition of a domain's name
is warned of, and in a lenient reading then the references that lead nowhere.
-/

namespace ProtocolTypings.Schema

open Logged (Quiet)

/-! ## Parts of a document -/

section

variable {strict : Bool} {place : Place} {fields : List (String × Json)} {key : String}

theorem quiet_refuse {α : Type} (place : Place) (cause : SchemaFault) : Quiet (refuse place cause : Logged α) :=
  .fail _

theorem quiet_required : Quiet (required fields key place) := by
  unfold required
  split
  · exact .pure _
  · exact quiet_refuse _ _

theorem quiet_expectList (value : Json) : Quiet (expectList place value) := by
  cases value with
  | arr items => exact .pure items
  | _ => exact quiet_refuse _ _

theorem quiet_expectFields (value : Json) : Quiet (expectFields place value) := by
  cases value with
  | obj fields => exact .pure fields
  | _ => exact quiet_refuse _ _

theorem quiet_listIn : Quiet (listIn fields key place) := by
  unfold listIn
  split
  · exact quiet_expectList _
  · exact .pure _

theorem quiet_valuesIn : Quiet (valuesIn fields place) := by
  unfold valuesIn
  split
  · exact .pure _
  · exact (quiet_expectList _).bind fun _ => .pure _

theorem quiet_primitiveOf (kind : Json) : Quiet (primitiveOf strict place fields kind) := by
  unfold primitiveOf
  split
  · exact .fail _
  · exact .fail _
  · split
    · exact quiet_refuse _ _
    · exact quiet_valuesIn.bind fun _ => .pure _

/-- The shape of a record is read quietly if its items and its properties are. -/
theorem quiet_shapeOf {items properties : Unit → Logged Shape} (hitems : Quiet (items ()))
    (hproperties : Quiet (properties ())) : Quiet (shapeOf strict place fields items properties) := by
  unfold shapeOf
  split
  · exact .pure _
  · split
    · split
      · exact quiet_refuse _ _
      · exact (Quiet.note (by decide) _ _).bind fun _ => .pure _
    · exact hitems
    · exact hproperties
    · exact quiet_primitiveOf _

end

mutual
theorem quiet_readShape (strict : Bool) (place : Place) : (value : Json) → Quiet (readShape strict place value)
  | .obj fields => by
      rw [readShape]
      exact quiet_shapeOf (quiet_itemsIn strict place fields) (quiet_propertiesIn strict place fields)
  | .null | .bool _ | .int _ | .real _ | .str _ | .arr _ => quiet_refuse _ _

theorem quiet_itemsIn (strict : Bool) (place : Place) :
    (fields : List (String × Json)) → Quiet (itemsIn strict place fields)
  | [] => by
      rw [itemsIn]
      split
      · exact quiet_refuse _ _
      · exact .pure _
  | (key, value) :: rest => by
      rw [itemsIn]
      split
      · exact (quiet_readShape strict (place.key "items") value).bind fun _ => .pure _
      · exact quiet_itemsIn strict place rest

theorem quiet_propertiesIn (strict : Bool) (place : Place) :
    (fields : List (String × Json)) → Quiet (propertiesIn strict place fields)
  | [] => .pure _
  | (key, value) :: rest => by
      unfold propertiesIn
      split
      · cases value with
        | arr items => exact (quiet_readProperties strict (place.key "properties") 0 items).bind fun _ => .pure _
        | _ => exact quiet_refuse _ _
      · exact quiet_propertiesIn strict place rest

theorem quiet_readProperties (strict : Bool) (place : Place) (i : Nat) :
    (values : List Json) → Quiet (readProperties strict place i values)
  | [] => .pure _
  | value :: rest => by
      rw [readProperties]
      exact (quiet_readProperty strict (place.position i) value).bind fun _ =>
        (quiet_readProperties strict place (i + 1) rest).bind fun _ => .pure _

theorem quiet_readProperty (strict : Bool) (place : Place) : (value : Json) → Quiet (readProperty strict place value)
  | .obj fields => by
      rw [readProperty]
      exact quiet_required.bind fun _ =>
        (quiet_shapeOf (quiet_itemsIn strict place fields) (quiet_propertiesIn strict place fields)).bind fun _ =>
          .pure _
  | .null | .bool _ | .int _ | .real _ | .str _ | .arr _ => quiet_refuse _ _
end

section

variable (strict : Bool) (place : Place)

theorem quiet_propertyList (fields : List (String × Json)) (key : String) :
    Quiet (propertyList strict fields key place) := by
  unfold propertyList
  split
  · exact (quiet_expectList _).bind fun items => (quiet_readProperties strict _ 0 items).bind fun _ => .pure _
  · exact .pure _

theorem quiet_readEach {α : Type} {read : Place → Json → Logged α} (h : ∀ place value, Quiet (read place value))
    (i : Nat) (values : List Json) : Quiet (readEach read place i values) := by
  induction values generalizing i with
  | nil => exact .pure _
  | cons value rest ih => exact (h _ value).bind fun _ => (ih (i + 1)).bind fun _ => .pure _

theorem quiet_readType (value : Json) : Quiet (readType strict place value) :=
  (quiet_expectFields value).bind fun _ => quiet_required.bind fun _ =>
    (quiet_readShape strict place value).bind fun _ => .pure _

theorem quiet_readCommand (value : Json) : Quiet (readCommand strict place value) :=
  (quiet_expectFields value).bind fun fields => quiet_required.bind fun _ =>
    (quiet_propertyList strict place fields "parameters").bind fun _ =>
      (quiet_propertyList strict place fields "returns").bind fun _ => .pure _

theorem quiet_readEvent (value : Json) : Quiet (readEvent strict place value) :=
  (quiet_expectFields value).bind fun fields => quiet_required.bind fun _ =>
    (quiet_propertyList strict place fields "parameters").bind fun _ => .pure _

theorem quiet_readDomain (value : Json) : Quiet (readDomain strict place value) :=
  (quiet_expectFields value).bind fun _ => quiet_required.bind fun _ =>
    quiet_listIn.bind fun types => (quiet_readEach _ (quiet_readType strict) 0 types).bind fun _ =>
      quiet_listIn.bind fun commands => (quiet_readEach _ (quiet_readCommand strict) 0 commands).bind fun _ =>
        quiet_listIn.bind fun events => (quiet_readEach _ (quiet_readEvent strict) 0 events).bind fun _ =>
          quiet_listIn.bind fun _ => .pure _

theorem quiet_readDocument (document : Json) : Quiet (readDocument strict place document) :=
  (quiet_expectFields document).bind fun _ => (quiet_expectList _).bind fun records =>
    (quiet_readEach _ (quiet_readDomain strict) 0 records).bind fun _ =>
      (Quiet.note (by decide) _ _).bind fun _ => .pure _

theorem quiet_readDocuments (i : Nat) (documents : List Json) : Quiet (readDocuments strict i documents) := by
  induction documents generalizing i with
  | nil => exact .pure _
  | cons document rest ih =>
      exact (quiet_readDocument strict _ document).bind fun _ => (ih (i + 1)).bind fun _ => .pure _

end

/-! ## Documents one after the other -/

/-- The documents, the first of which is at position `i`, are read as these lists of domains. -/
def ReadsTo (strict : Bool) (i : Nat) (documents : List Json) (results : List (List Domain)) : Prop :=
  List.Forall₂ (fun p domains => (readDocument strict (.document p.2) p.1).result = .ok domains) (documents.zipIdx i)
    results

/-- One of the documents, the first of which is at position `i`, cannot be read for this reason. -/
def FailsWith (strict : Bool) (i : Nat) (documents : List Json) (fault : Fault) : Prop :=
  ∃ p ∈ documents.zipIdx i, (readDocument strict (.document p.2) p.1).result = .error fault

theorem readDocuments_of_readsTo {strict : Bool} {i : Nat} {documents : List Json} {results : List (List Domain)}
    (h : ReadsTo strict i documents results) : (readDocuments strict i documents).result = .ok results.flatten := by
  induction documents generalizing i results with
  | nil =>
      cases h
      rfl
  | cons document rest ih =>
      obtain ⟨domains, others, hdomains, hothers, rfl⟩ := List.forall₂_cons_left_iff.1 h
      rw [readDocuments, Logged.result_bind, hdomains, ok_bind, Logged.result_bind, ih hothers]
      rfl

theorem readDocuments_of_failsWith {strict : Bool} {i : Nat} {documents : List Json} {fault : Fault}
    (h : FailsWith strict i documents fault) :
    ∃ cause, FailsWith strict i documents cause ∧ (readDocuments strict i documents).result = .error cause := by
  induction documents generalizing i with
  | nil =>
      obtain ⟨p, hp, -⟩ := h
      cases hp
  | cons document rest ih =>
      cases hfirst : (readDocument strict (.document i) document).result with
      | error cause =>
          refine ⟨cause, ⟨(document, i), List.mem_cons_self, hfirst⟩, ?_⟩
          rw [readDocuments, Logged.result_bind, hfirst, error_bind]
      | ok domains =>
          have hrest : FailsWith strict (i + 1) rest fault := by
            obtain ⟨p, hp, hfault⟩ := h
            rcases List.mem_cons.1 hp with rfl | hp
            · rw [hfirst] at hfault
              cases hfault
            · exact ⟨p, hp, hfault⟩
          obtain ⟨cause, ⟨p, hp, hcause⟩, hresult⟩ := ih hrest
          refine ⟨cause, ⟨p, List.mem_cons_of_mem _ hp, hcause⟩, ?_⟩
          rw [readDocuments, Logged.result_bind, hfirst, ok_bind, Logged.result_bind, hresult, error_bind]

/-! ## Repeated names -/

/-- The domains whose name an earlier one has, with their positions. -/
def repetitions (domains : List Domain) : List (Domain × Nat) :=
  domains.zipIdx.filter fun p => (domains.take p.2).any (·.name = p.1.name)

theorem repeatedNames_concat (seen : List String) (domains : List Domain) (d : Domain) :
    repeatedNames seen (domains ++ [d]) =
      repeatedNames seen domains ++ if d.name ∈ seen ++ domains.map (·.name) then [d.name] else [] := by
  induction domains generalizing seen with
  | nil => by_cases h : d.name ∈ seen <;> simp [repeatedNames, h]
  | cons e rest ih =>
      rw [List.cons_append, repeatedNames, repeatedNames]
      by_cases h : e.name ∈ seen
      · have hmem : d.name ∈ seen ++ (e :: rest).map (·.name) ↔ d.name ∈ seen ++ rest.map (·.name) := by
          simp only [List.mem_append, List.map_cons, List.mem_cons]
          constructor
          · rintro (hd | heq | hd)
            · exact .inl hd
            · exact .inl (heq ▸ h)
            · exact .inr hd
          · exact fun hd => hd.imp_right .inr
        rw [if_pos (List.contains_iff_mem.2 h), if_pos (List.contains_iff_mem.2 h), ih, if_congr hmem rfl rfl,
          List.cons_append]
      · have hmem : d.name ∈ seen ++ (e :: rest).map (·.name) ↔ d.name ∈ (e.name :: seen) ++ rest.map (·.name) := by
          simp only [List.mem_append, List.map_cons, List.mem_cons]
          exact or_left_comm.trans (or_assoc).symm
        have hcontains : ¬ seen.contains e.name = true := fun hseen => h (List.contains_iff_mem.1 hseen)
        rw [if_neg hcontains, if_neg hcontains, ih, if_congr hmem rfl rfl]

theorem repetitions_concat (domains : List Domain) (d : Domain) :
    repetitions (domains ++ [d]) =
      repetitions domains ++ if d.name ∈ domains.map (·.name) then [(d, domains.length)] else [] := by
  have hbefore : ∀ p ∈ domains.zipIdx, (domains ++ [d]).take p.2 = domains.take p.2 := by
    intro p hp
    exact List.take_append_of_le_length (List.snd_lt_of_mem_zipIdx hp).le
  rw [repetitions, List.zipIdx_append, List.filter_append, repetitions]
  congr 1
  · exact List.filter_congr fun p hp => by rw [hbefore p hp]
  · simp [List.filter_cons]

/-- One name for each domain that repeats the name of an earlier one, in order. -/
theorem repeatedNames_eq (domains : List Domain) :
    repeatedNames [] domains = (repetitions domains).map fun p => p.1.name := by
  -- From the end: a domain repeats what stands before it.
  induction domains using List.reverseRecOn with
  | nil => rfl
  | append_singleton domains d ih =>
      rw [repeatedNames_concat, repetitions_concat, ih, List.nil_append, List.map_append]
      split <;> rfl

/-! ## All documents -/

def warning (message : String) : Log.Record :=
  ⟨.warning, .schemas, message⟩

/-- What is warned of for repeated names. -/
def repetitionWarnings (domains : List Domain) : List Log.Record :=
  (repetitions domains).map fun p => warning ("Domain " ++ p.1.name ++ " is declared more than once")

/-- What comes of documents that hold these domains one after the other, in a strict or in a lenient reading. -/
structure Reported (strict : Bool) (domains : List Domain) (x : Logged (List Domain)) : Prop where
  ordered : (unresolved domains).Pairwise fun s t => codes s < codes t
  resolved : unresolved domains = [] → x.result = .ok domains ∧ x.warnings = repetitionWarnings domains
  noted : unresolved domains ≠ [] → strict = false → x.result = .ok domains ∧
    ∃ least ∈ unresolved domains, (∀ q ∈ unresolved domains, q ≠ least → codes least < codes q) ∧
      x.warnings = repetitionWarnings domains ++
        [warning (toString (unresolved domains).length ++ " unresolved references, first: " ++ least)]
  refused : unresolved domains ≠ [] → strict = true → x.warnings = repetitionWarnings domains ∧
    ∃ place cause, x.result = .error (.refusal (.schema place cause)) ∧ place.text = "" ∧
      (Refusal.schema place cause).message = "Unresolved references: " ++ ", ".intercalate (unresolved domains)

theorem warnings_noteAll (messages : List String) :
    (noteAll .warning .schemas messages).warnings = messages.map warning := by
  induction messages with
  | nil => rfl
  | cons message rest ih =>
      rw [noteAll, Logged.warnings_bind_of_ok (Logged.result_note _ _ _), ih]
      rfl

theorem warnings_noteAll_repeatedNames (domains : List Domain) :
    (noteAll .warning .schemas
      ((repeatedNames [] domains).map fun name => "Domain " ++ name ++ " is declared more than once")).warnings =
      repetitionWarnings domains := by
  rw [warnings_noteAll, repeatedNames_eq, repetitionWarnings, List.map_map, List.map_map]
  rfl

/-- When the documents have been read, repeated names are warned of, and then the references are checked. -/
theorem readProtocol_of_readDocuments {strict : Bool} {documents : List Json} {domains : List Domain}
    (h : (readDocuments strict 0 documents).result = .ok domains) :
    (readProtocol strict documents).result = (checkReferences strict domains).result.map (fun _ => domains) ∧
      (readProtocol strict documents).warnings =
        repetitionWarnings domains ++ (checkReferences strict domains).warnings := by
  have hreading : (readDocuments strict 0 documents).warnings = [] := quiet_readDocuments strict 0 documents
  constructor
  · rw [readProtocol, Logged.result_bind, h, ok_bind, Logged.result_bind, result_noteAll, ok_bind, Logged.result_bind]
    cases (checkReferences strict domains).result <;> rfl
  · rw [readProtocol, Logged.warnings_bind_of_ok h, hreading, List.nil_append,
      Logged.warnings_bind_of_ok (result_noteAll _ _ _), warnings_noteAll_repeatedNames]
    cases hcheck : (checkReferences strict domains).result with
    | ok checked =>
        rw [Logged.warnings_bind_of_ok hcheck]
        exact congrArg _ (List.append_nil _)
    | error fault => rw [Logged.warnings_bind_of_error hcheck]

theorem reported_of_readDocuments {strict : Bool} {documents : List Json} {domains : List Domain}
    (h : (readDocuments strict 0 documents).result = .ok domains) :
    Reported strict domains (readProtocol strict documents) := by
  obtain ⟨hresult, hwarnings⟩ := readProtocol_of_readDocuments h
  have hordered : (unresolved domains).Pairwise fun s t => codes s < codes t :=
    (pairwise_unresolved domains).imp codes_lt_of_lt
  unfold checkReferences at hresult hwarnings
  cases hunresolved : unresolved domains with
  | nil =>
      rw [hunresolved] at hresult hwarnings
      refine ⟨hordered, fun _ => ⟨hresult, hwarnings.trans (List.append_nil _)⟩, fun hne => ?_, fun hne => ?_⟩
      · exact absurd hunresolved hne
      · exact absurd hunresolved hne
  | cons least rest =>
      rw [hunresolved] at hresult hwarnings
      have hleast : ∀ q ∈ least :: rest, q ≠ least → codes least < codes q := by
        intro q hq hne
        rcases List.mem_cons.1 hq with rfl | hq
        · exact absurd rfl hne
        · rw [hunresolved] at hordered
          exact (List.pairwise_cons.1 hordered).1 q hq
      refine ⟨hordered, fun hnil => ?_, fun _ hlenient => ?_, fun _ hstrict => ?_⟩
      · rw [hunresolved] at hnil
        cases hnil
      · subst hlenient
        rw [hunresolved]
        exact ⟨hresult, least, List.mem_cons_self, hleast, hwarnings⟩
      · subst hstrict
        rw [hunresolved]
        exact ⟨hwarnings.trans (List.append_nil _), _, _, hresult, rfl, rfl⟩

theorem warnings_of_error {strict : Bool} {documents : List Json} {fault : Fault}
    (h : (readDocuments strict 0 documents).result = .error fault) :
    (readProtocol strict documents).result = .error fault ∧ (readProtocol strict documents).warnings = [] := by
  constructor
  · rw [readProtocol, Logged.result_bind, h, error_bind]
  · rw [readProtocol, Logged.warnings_bind_of_error h]
    exact quiet_readDocuments strict 0 documents

/-- If every document can be read, their domains follow one another in the order of the documents. The warnings are one
for each position at which a name occurs again, in order, and then, in a lenient reading, one with the number of the
unresolved references and the least of them, if there are any. A strict reading is refused in that case, after the same
warnings of repeated names, in a message without a place that lists the unresolved references in increasing order. If a
document cannot be read, the reading fails for the reason of one such document and without a warning. -/
theorem readProtocol_reported (strict : Bool) (documents : List Json) :
    (∀ results, ReadsTo strict 0 documents results →
      Reported strict results.flatten (readProtocol strict documents)) ∧
    ∀ fault, FailsWith strict 0 documents fault →
      (∃ cause, FailsWith strict 0 documents cause ∧ (readProtocol strict documents).result = .error cause) ∧
        (readProtocol strict documents).warnings = [] := by
  refine ⟨fun results h => reported_of_readDocuments (readDocuments_of_readsTo h), fun fault h => ?_⟩
  obtain ⟨cause, hfails, hreading⟩ := readDocuments_of_failsWith h
  obtain ⟨hresult, hwarnings⟩ := warnings_of_error hreading
  exact ⟨⟨cause, hfails, hresult⟩, hwarnings⟩

/-- Two documents that share the names of domains and refer to types that are nowhere. -/
def sharedDocuments : List Json :=
  [.obj [("domains", .arr [
      .obj [("domain", .str "Page"),
        ("types", .arr [.obj [("id", .str "Frame"), ("$ref", .str "Gone")]])],
      .obj [("domain", .str "DOM")]])],
    .obj [("domains", .arr [
      .obj [("domain", .str "Page")],
      .obj [("domain", .str "Page")],
      .obj [("domain", .str "DOM"),
        ("types", .arr [.obj [("id", .str "Node"), ("$ref", .str "CSS.Style")]])]])]]

theorem readProtocol_reported_shared :
    (∃ results, ReadsTo false 0 sharedDocuments results ∧ unresolved results.flatten ≠ [] ∧
      (readProtocol false sharedDocuments).result = .ok results.flatten ∧
      (readProtocol false sharedDocuments).warnings = [
        warning "Domain Page is declared more than once", warning "Domain Page is declared more than once",
        warning "Domain DOM is declared more than once", warning "2 unresolved references, first: CSS.Style"]) ∧
    (∃ results, ReadsTo true 0 sharedDocuments results ∧ unresolved results.flatten ≠ [] ∧
      (readProtocol true sharedDocuments).warnings = [
        warning "Domain Page is declared more than once", warning "Domain Page is declared more than once",
        warning "Domain DOM is declared more than once"] ∧
      ∃ place cause, (readProtocol true sharedDocuments).result = .error (.refusal (.schema place cause)) ∧
        (Refusal.schema place cause).message = "Unresolved references: CSS.Style, Page.Gone") ∧
    ∃ fault, FailsWith false 0 (sharedDocuments ++ [Json.null]) fault ∧
      (readProtocol false (sharedDocuments ++ [Json.null])).warnings = [] := by
  have hreads (strict : Bool) :
      ∃ results, ReadsTo strict 0 sharedDocuments results ∧
        unresolved results.flatten = ["CSS.Style", "Page.Gone"] := by
    have hresults : ∃ results, ReadsTo strict 0 sharedDocuments results := by
      cases strict <;> exact ⟨_, .cons rfl (.cons rfl .nil)⟩
    have hunresolved : ∀ strict, (readDocuments strict 0 sharedDocuments).result.toOption.map unresolved =
        some ["CSS.Style", "Page.Gone"] := by decide +kernel
    obtain ⟨results, hresults⟩ := hresults
    have hmissing := hunresolved strict
    rw [readDocuments_of_readsTo hresults] at hmissing
    exact ⟨results, hresults, Option.some.inj hmissing⟩
  obtain ⟨results, hlenient, hmissing⟩ := hreads false
  obtain ⟨strictResults, hstrict, hstrictMissing⟩ := hreads true
  have hne : unresolved results.flatten ≠ [] := by simp [hmissing]
  have hstrictNe : unresolved strictResults.flatten ≠ [] := by simp [hstrictMissing]
  obtain ⟨fault, hfails⟩ : ∃ fault, FailsWith false 0 (sharedDocuments ++ [Json.null]) fault :=
    ⟨_, (Json.null, 2), by simp [sharedDocuments], rfl⟩
  refine ⟨⟨results, hlenient, hne, ?_, by decide +kernel⟩, ⟨strictResults, hstrict, hstrictNe, by decide +kernel, ?_⟩,
    fault, hfails, ?_⟩
  · exact (((readProtocol_reported false sharedDocuments).1 results hlenient).noted hne rfl).1
  · obtain ⟨-, place, cause, hresult, -, hmessage⟩ :=
      ((readProtocol_reported true sharedDocuments).1 strictResults hstrict).refused hstrictNe rfl
    rw [hstrictMissing] at hmessage
    exact ⟨place, cause, hresult, hmessage.trans (by decide +kernel)⟩
  · exact ((readProtocol_reported false _).2 fault hfails).2

end ProtocolTypings.Schema
