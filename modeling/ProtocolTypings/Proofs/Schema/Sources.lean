import Mathlib.Data.List.Nodup
import ProtocolTypings.Proofs.Schema.Location

/-!
# Where shapes come from

The shapes of a list of documents come from records in it. They are listed here in the order of the documents, with the
steps that lead to each record from the list of all documents. An array that leaves out its items has a shape in their
place that comes from no record. No two of the steps are the same, and neither are two of their texts.
-/

namespace ProtocolTypings.Schema

structure Source where
  steps : List Place.Step
  /-- None for the items that an array leaves out. -/
  record : Option (List (String × Json))

/-- The source as it is found one step further up. -/
def Source.under (step : Place.Step) (s : Source) : Source :=
  { s with steps := step :: s.steps }

/-! ## Listing -/

/-- The sources in the items of a list, the first of which is at position `i`. -/
def positioned (sources : Json → List Source) (i : Nat) : List Json → List Source
  | [] => []
  | value :: rest => (sources value).map (.under (.position i)) ++ positioned sources (i + 1) rest

/-- The sources in the items of the list under a key. -/
def listed (sources : Json → List Source) (key : String) (value : Json) : List Source :=
  (positioned sources 0 (itemsUnder key value)).map (.under (.key key))

mutual
/-- The record of a shape comes before those of its items or its properties. Below a reference there are none. -/
def shapeSources : Json → List Source
  | .obj fields =>
    ⟨[], some fields⟩ ::
      match fields.lookup "$ref", Json.fieldOrNull fields "type" with
      | none, .str "array" => (itemSources fields).map (.under (.key "items"))
      | none, .str "object" => (propertySources fields).map (.under (.key "properties"))
      | _, _ => []
  | _ => []

/-- The sources in the items that are described among the fields. -/
def itemSources : List (String × Json) → List Source
  | [] => [⟨[], none⟩]
  | (key, value) :: rest => if key = "items" then shapeSources value else itemSources rest

/-- The sources in the properties that are listed among the fields. -/
def propertySources : List (String × Json) → List Source
  | [] => []
  | (key, value) :: rest =>
    if key = "properties" then
      match value with
      | .arr values => valueSources 0 values
      | _ => []
    else propertySources rest

def valueSources (i : Nat) : List Json → List Source
  | [] => []
  | value :: rest => (shapeSources value).map (.under (.position i)) ++ valueSources (i + 1) rest
end

def commandSources (command : Json) : List Source :=
  listed shapeSources "parameters" command ++ listed shapeSources "returns" command

def eventSources (event : Json) : List Source :=
  listed shapeSources "parameters" event

def domainSources (domain : Json) : List Source :=
  listed shapeSources "types" domain ++ listed commandSources "commands" domain ++ listed eventSources "events" domain

def documentSources (document : Json) : List Source :=
  listed domainSources "domains" document

/-- The first step from the list of all documents is the position of the document. -/
def protocolSources (documents : List Json) : List Source :=
  positioned documentSources 0 documents

/-! ## The sources in one shape -/

theorem valueSources_eq (i : Nat) (values : List Json) : valueSources i values = positioned shapeSources i values := by
  induction values generalizing i with
  | nil => rfl
  | cons value rest ih => rw [valueSources, positioned, ih]

theorem itemSources_eq (fields : List (String × Json)) :
    itemSources fields = (fields.lookup "items").elim [⟨[], none⟩] shapeSources := by
  induction fields with
  | nil => rw [itemSources]; rfl
  | cons field rest ih =>
      obtain ⟨key, value⟩ := field
      rw [itemSources]
      by_cases hkey : key = "items"
      · subst hkey
        rfl
      · rw [if_neg hkey, ih, lookup_cons_of_ne hkey]

theorem propertySources_eq (fields : List (String × Json)) :
    propertySources fields = positioned shapeSources 0 (itemsUnder "properties" (.obj fields)) := by
  induction fields with
  | nil => rw [propertySources]; rfl
  | cons field rest ih =>
      obtain ⟨key, value⟩ := field
      unfold propertySources
      by_cases hkey : key = "properties"
      · subst hkey
        rw [if_pos rfl, itemsUnder, List.lookup_cons, beq_self_eq_true]
        cases value with
        | arr values => exact valueSources_eq 0 values
        | _ => rfl
      · rw [if_neg hkey, ih, itemsUnder, itemsUnder, lookup_cons_of_ne hkey]

section

variable {fields : List (String × Json)}

theorem shapeSources_array (href : fields.lookup "$ref" = none)
    (htype : Json.fieldOrNull fields "type" = .str "array") :
    shapeSources (.obj fields) =
      ⟨[], some fields⟩ :: ((fields.lookup "items").elim [⟨[], none⟩] shapeSources).map (.under (.key "items")) := by
  simp only [shapeSources, href, htype, itemSources_eq]

theorem shapeSources_object (href : fields.lookup "$ref" = none)
    (htype : Json.fieldOrNull fields "type" = .str "object") :
    shapeSources (.obj fields) = ⟨[], some fields⟩ :: listed shapeSources "properties" (.obj fields) := by
  simp only [shapeSources, href, htype, propertySources_eq, listed]

theorem shapeSources_reference {target : Json} (href : fields.lookup "$ref" = some target) :
    shapeSources (.obj fields) = [⟨[], some fields⟩] := by
  rw [shapeSources, href]

theorem shapeSources_scalar (harray : Json.fieldOrNull fields "type" ≠ .str "array")
    (hobject : Json.fieldOrNull fields "type" ≠ .str "object") : shapeSources (.obj fields) = [⟨[], some fields⟩] := by
  rw [shapeSources]
  split
  · rename_i htype
    exact absurd htype harray
  · rename_i htype
    exact absurd htype hobject
  · rfl

end

/-! ## Where the sources are -/

/-- The record describes an array and leaves out the items. -/
def Itemless (record : List (String × Json)) : Prop :=
  record.lookup "$ref" = none ∧ Json.fieldOrNull record "type" = .str "array" ∧ record.lookup "items" = none

/-- The steps lead to the record. Without one they lead to the items that the record of an array leaves out. -/
inductive Source.StandsIn (value : Json) : Source → Prop
  | record {steps : List Place.Step} {record : List (String × Json)} :
      value.at? steps = some (.obj record) → StandsIn value ⟨steps, some record⟩
  | element {steps : List Place.Step} {record : List (String × Json)} :
      value.at? steps = some (.obj record) → Itemless record → StandsIn value ⟨steps ++ [.key "items"], none⟩

/-- The keys on the way to a shape. -/
def keysAbove : List String :=
  ["domains", "types", "commands", "events", "parameters", "returns", "items", "properties"]

/-- A position, or one of the keys on the way to a shape. -/
def Leads : Place.Step → Prop
  | .key name => name ∈ keysAbove
  | .position _ => True

/-- The sources are found in the value by different steps, and where items are left out there is a source for them. -/
structure Located (value : Json) (ss : List Source) : Prop where
  stands : ∀ s ∈ ss, s.StandsIn value
  elements : ∀ s ∈ ss, ∀ record, s.record = some record → Itemless record → ⟨s.steps ++ [.key "items"], none⟩ ∈ ss
  leads : ∀ s ∈ ss, ∀ step ∈ s.steps, Leads step
  distinct : (ss.map (·.steps)).Nodup

theorem Source.StandsIn.under {value inner : Json} {step : Place.Step} (hstep : value.step? step = some inner)
    {s : Source} (h : s.StandsIn inner) : (s.under step).StandsIn value := by
  have hat (steps : List Place.Step) : value.at? (step :: steps) = inner.at? steps := by
    rw [Json.at?, hstep, Option.bind_some]
  cases h with
  | record hrecord => exact .record ((hat _).trans hrecord)
  | element hrecord hitemless => exact .element ((hat _).trans hrecord) hitemless

section

variable {sources : Json → List Source} {value : Json} {values : List Json} {ss ss' : List Source} {s : Source}

theorem mem_positioned {i : Nat} (h : s ∈ positioned sources i values) :
    ∃ j, i ≤ j ∧ ∃ steps, s.steps = .position j :: steps := by
  induction values generalizing i with
  | nil => cases h
  | cons value rest ih =>
      rcases List.mem_append.1 h with h | h
      · obtain ⟨inner, -, rfl⟩ := List.mem_map.1 h
        exact ⟨i, Nat.le_refl i, inner.steps, rfl⟩
      · obtain ⟨j, hj, hsteps⟩ := ih h
        exact ⟨j, Nat.le_of_succ_le hj, hsteps⟩

theorem mem_listed {key : String} (h : s ∈ listed sources key value) : ∃ steps, s.steps = .key key :: steps := by
  obtain ⟨inner, -, rfl⟩ := List.mem_map.1 h
  exact ⟨inner.steps, rfl⟩

namespace Located

theorem nil : Located value [] :=
  ⟨nofun, nofun, nofun, .nil⟩

theorem under {inner : Json} {step : Place.Step} (hstep : value.step? step = some inner) (hleads : Leads step)
    (h : Located inner ss) : Located value (ss.map (.under step)) where
  stands := by
    rw [List.forall_mem_map]
    exact fun s hs => (h.stands s hs).under hstep
  elements := by
    rw [List.forall_mem_map]
    exact fun s hs record hrecord hitemless => List.mem_map.2 ⟨_, h.elements s hs record hrecord hitemless, rfl⟩
  leads := by
    rw [List.forall_mem_map]
    exact fun s hs => List.forall_mem_cons.2 ⟨hleads, h.leads s hs⟩
  distinct := by
    have hdistinct := h.distinct.map (List.cons_injective (a := step))
    rwa [List.map_map] at hdistinct ⊢

theorem append (h : Located value ss) (h' : Located value ss') (hne : ∀ s ∈ ss, ∀ s' ∈ ss', s.steps ≠ s'.steps) :
    Located value (ss ++ ss') where
  stands := List.forall_mem_append.2 ⟨h.stands, h'.stands⟩
  elements := by
    intro s hs record hrecord hitemless
    rcases List.mem_append.1 hs with hs | hs
    · exact List.mem_append_left _ (h.elements s hs record hrecord hitemless)
    · exact List.mem_append_right _ (h'.elements s hs record hrecord hitemless)
  leads := List.forall_mem_append.2 ⟨h.leads, h'.leads⟩
  distinct := by
    rw [List.map_append, List.nodup_append]
    simp only [List.forall_mem_map]
    exact ⟨h.distinct, h'.distinct, hne⟩

theorem positioned_from (h : ∀ v ∈ values, Located v (sources v)) (earlier : List Json) :
    Located (.arr (earlier ++ values)) (positioned sources earlier.length values) := by
  induction values generalizing earlier with
  | nil => exact nil
  | cons v rest ih =>
      rw [List.forall_mem_cons] at h
      have hrest := ih h.2 (earlier ++ [v])
      have hstep : (Json.arr (earlier ++ v :: rest)).step? (.position earlier.length) = some v := by simp [Json.step?]
      apply (h.1.under hstep trivial).append (by simpa using hrest)
      intro s hs s' hs' heq
      obtain ⟨inner, -, rfl⟩ := List.mem_map.1 hs
      obtain ⟨j, hj, steps, hsteps⟩ := mem_positioned hs'
      rw [hsteps] at heq
      obtain ⟨hposition, -⟩ := List.cons.inj heq
      cases hposition
      exact Nat.lt_irrefl _ hj

theorem listed {key : String} (hkey : key ∈ keysAbove) (h : ∀ v ∈ itemsUnder key value, Located v (sources v)) :
    Located value (listed sources key value) := by
  unfold Schema.listed
  unfold itemsUnder at h ⊢
  split
  · rename_i fields
    split
    · rename_i values hvalues
      simp only [hvalues] at h
      exact (positioned_from h []).under hvalues hkey
    · exact nil
  · exact nil

/-- Lists under different keys. -/
theorem append_listed {key : String} (h : Located value ss) (h' : Located value (Schema.listed sources key value))
    (hne : ∀ s ∈ ss, ∃ other steps, other ≠ key ∧ s.steps = .key other :: steps) :
    Located value (ss ++ Schema.listed sources key value) := by
  apply h.append h'
  intro s hs s' hs' heq
  obtain ⟨other, steps, hother, hsteps⟩ := hne s hs
  obtain ⟨steps', hsteps'⟩ := mem_listed hs'
  rw [hsteps, hsteps'] at heq
  obtain ⟨hstep, -⟩ := List.cons.inj heq
  cases hstep
  exact hother rfl

/-- The record of the shape itself comes before the sources below it. -/
theorem here {fields : List (String × Json)} (h : Located (.obj fields) ss) (hne : ∀ s ∈ ss, s.steps ≠ [])
    (helement : Itemless fields → ⟨[.key "items"], none⟩ ∈ ss) : Located (.obj fields) (⟨[], some fields⟩ :: ss) where
  stands := List.forall_mem_cons.2 ⟨.record rfl, h.stands⟩
  elements := by
    rw [List.forall_mem_cons]
    constructor
    · rintro record ⟨⟩ hitemless
      exact List.mem_cons_of_mem _ (helement hitemless)
    · exact fun s hs record hrecord hitemless => List.mem_cons_of_mem _ (h.elements s hs record hrecord hitemless)
  leads := List.forall_mem_cons.2 ⟨nofun, h.leads⟩
  distinct := by
    rw [List.map_cons, List.nodup_cons]
    refine ⟨fun hmem => ?_, h.distinct⟩
    obtain ⟨s, hs, hsteps⟩ := List.mem_map.1 hmem
    exact hne s hs hsteps

end Located

theorem mem_itemsUnder {key : String} {fields : List (String × Json)} {v : Json} :
    v ∈ itemsUnder key (.obj fields) ↔ ∃ values, fields.lookup key = some (.arr values) ∧ v ∈ values := by
  rw [itemsUnder]
  split
  · rename_i values hvalues
    simp [hvalues]
  · rename_i hnone
    simp only [List.not_mem_nil, false_iff]
    rintro ⟨values, hvalues, -⟩
    exact hnone values hvalues

theorem sizeOf_lt_of_mem_itemsUnder {key : String} {fields : List (String × Json)} {v : Json}
    (h : v ∈ itemsUnder key (.obj fields)) : sizeOf v < sizeOf (Json.obj fields) := by
  obtain ⟨values, hvalues, hv⟩ := mem_itemsUnder.1 h
  exact sizeOf_lt_of_lookup_list hvalues hv

theorem located_element {fields : List (String × Json)} (href : fields.lookup "$ref" = none)
    (htype : Json.fieldOrNull fields "type" = .str "array") (hitems : fields.lookup "items" = none) :
    Located (.obj fields) [⟨[.key "items"], none⟩] where
  stands := by
    have hstands := Source.StandsIn.element (rfl : (Json.obj fields).at? [] = some (.obj fields)) ⟨href, htype, hitems⟩
    simpa using hstands
  elements := by simp
  leads := by simp [Leads, keysAbove]
  distinct := List.nodup_singleton _

theorem located_shapeSources (value : Json) : Located value (shapeSources value) := by
  cases value with
  | obj fields =>
      cases href : fields.lookup "$ref" with
      | some target =>
          rw [shapeSources_reference href]
          exact Located.nil.here nofun fun h => absurd (h.1.symm.trans href) nofun
      | none =>
          by_cases harray : Json.fieldOrNull fields "type" = .str "array"
          · rw [shapeSources_array href harray]
            cases hitems : fields.lookup "items" with
            | none => exact (located_element href harray hitems).here (by simp) fun _ => List.mem_cons_self
            | some items =>
                have hstep : (Json.obj fields).step? (.key "items") = some items := hitems
                have hbelow := (located_shapeSources items).under hstep (by decide : "items" ∈ keysAbove)
                exact hbelow.here (by simp [Source.under]) fun h => absurd (h.2.2.symm.trans hitems) nofun
          by_cases hobject : Json.fieldOrNull fields "type" = .str "object"
          · have hbelow : Located (.obj fields) (listed shapeSources "properties" (.obj fields)) :=
              .listed (by decide) fun v hv => located_shapeSources v
            rw [shapeSources_object href hobject]
            apply hbelow.here _ fun h => absurd h.2.1 harray
            intro s hs
            obtain ⟨steps, hsteps⟩ := mem_listed hs
            simp [hsteps]
          · rw [shapeSources_scalar harray hobject]
            exact Located.nil.here nofun fun h => absurd h.2.1 harray
  | _ => exact .nil
termination_by sizeOf value
decreasing_by
  · exact sizeOf_lt_of_lookup hitems
  · exact sizeOf_lt_of_mem_itemsUnder hv

theorem located_eventSources (event : Json) : Located event (eventSources event) :=
  .listed (by decide) fun v _ => located_shapeSources v

theorem located_commandSources (command : Json) : Located command (commandSources command) := by
  apply Located.append_listed (located_eventSources command)
  · exact .listed (by decide) fun v _ => located_shapeSources v
  · intro s hs
    obtain ⟨steps, hsteps⟩ := mem_listed hs
    exact ⟨_, steps, by decide, hsteps⟩

theorem located_domainSources (domain : Json) : Located domain (domainSources domain) := by
  apply Located.append_listed
  · apply Located.append_listed
    · exact .listed (by decide) fun v _ => located_shapeSources v
    · exact .listed (by decide) fun v _ => located_commandSources v
    · intro s hs
      obtain ⟨steps, hsteps⟩ := mem_listed hs
      exact ⟨_, steps, by decide, hsteps⟩
  · exact .listed (by decide) fun v _ => located_eventSources v
  · intro s hs
    rcases List.mem_append.1 hs with hs | hs
    · obtain ⟨steps, hsteps⟩ := mem_listed hs
      exact ⟨_, steps, by decide, hsteps⟩
    · obtain ⟨steps, hsteps⟩ := mem_listed hs
      exact ⟨_, steps, by decide, hsteps⟩

theorem located_documentSources (document : Json) : Located document (documentSources document) :=
  .listed (by decide) fun v _ => located_domainSources v

theorem located_protocolSources (documents : List Json) :
    Located (.arr documents) (protocolSources documents) :=
  .positioned_from (fun v _ => located_documentSources v) []

end

/-! ## Texts -/

/-- A number sign, the position of the document and what leads on in it, with slashes between. -/
def Source.text (s : Source) : String :=
  "#" ++ "/".intercalate (s.steps.map Place.Step.text)

theorem Leads.noSlash {step : Place.Step} (h : Leads step) : '/' ∉ step.text.toList := by
  cases step with
  | key name =>
      have hkeys : ∀ name ∈ keysAbove, '/' ∉ name.toList := by decide
      exact hkeys name h
  | position i =>
      rw [Place.Step.text, Nat.toString_eq_ofList_toDigits, String.toList_ofList]
      intro hmem
      exact absurd (Nat.isDigit_of_mem_toDigits (by decide) (by decide) hmem) (by decide)

/-- No key is written like a position. -/
theorem toString_ne_of_mem_keysAbove {name : String} (h : name ∈ keysAbove) (i : Nat) : name ≠ toString i := by
  have hkeys : ∀ name ∈ keysAbove, name.toList.all Char.isDigit = false := by decide
  have hdigits : (toString i).toList.all Char.isDigit = true := by
    rw [Nat.toString_eq_ofList_toDigits, String.toList_ofList, List.all_eq_true]
    exact fun c hc => Nat.isDigit_of_mem_toDigits (by decide) (by decide) hc
  rintro rfl
  rw [hkeys _ h] at hdigits
  cases hdigits

theorem toString_inj {i j : Nat} (h : toString i = toString j) : i = j := by
  rw [Nat.toString_eq_ofList_toDigits, Nat.toString_eq_ofList_toDigits, String.ofList_inj] at h
  rw [← Nat.ofDigitChars_ten_toDigits (n := i), h, Nat.ofDigitChars_ten_toDigits]

theorem Leads.text_inj {step step' : Place.Step} (h : Leads step) (h' : Leads step') (heq : step.text = step'.text) :
    step = step' := by
  cases step with
  | key name =>
      cases step' with
      | key name' => exact congrArg Place.Step.key heq
      | position i => exact absurd heq (toString_ne_of_mem_keysAbove h i)
  | position i =>
      cases step' with
      | key name => exact absurd heq.symm (toString_ne_of_mem_keysAbove h' i)
      | position j => exact congrArg Place.Step.position (toString_inj heq)

theorem map_text_inj {steps steps' : List Place.Step} (h : ∀ step ∈ steps, Leads step)
    (h' : ∀ step ∈ steps', Leads step) (heq : steps.map Place.Step.text = steps'.map Place.Step.text) :
    steps = steps' := by
  induction steps generalizing steps' with
  | nil => exact (List.map_eq_nil_iff.1 heq.symm).symm
  | cons step steps ih =>
      cases steps' with
      | nil => cases heq
      | cons step' steps' =>
          rw [List.forall_mem_cons] at h h'
          obtain ⟨hstep, hsteps⟩ := List.cons.inj heq
          rw [h.1.text_inj h'.1 hstep, ih h.2 h'.2 hsteps]

/-- The text of a path without slashes in its steps is cut into the steps again. -/
theorem split_intercalate {steps : List Place.Step} (h : ∀ step ∈ steps, Leads step) (hne : steps ≠ []) :
    ("/".intercalate (steps.map Place.Step.text)).toList.splitOn '/' = (steps.map Place.Step.text).map String.toList := by
  rw [String.toList_intercalate]
  apply List.splitOn_intercalate
  · simp only [List.forall_mem_map]
    exact fun step hstep => (h step hstep).noSlash
  · simpa using hne

/-- Different sources of a protocol have different texts. -/
theorem nodup_text_protocolSources (documents : List Json) : ((protocolSources documents).map Source.text).Nodup := by
  have hlocated := located_protocolSources documents
  have hne : ∀ s ∈ protocolSources documents, s.steps ≠ [] := by
    intro s hs
    obtain ⟨j, -, steps, hsteps⟩ := mem_positioned hs
    simp [hsteps]
  have htext : (protocolSources documents).map Source.text = ((protocolSources documents).map (·.steps)).map
      fun steps => "#" ++ "/".intercalate (steps.map Place.Step.text) := by
    rw [List.map_map]
    rfl
  rw [htext]
  apply hlocated.distinct.map_on
  simp only [List.forall_mem_map]
  intro s hs s' hs' heq
  have hpieces := congrArg (fun t : String => t.toList.splitOn '/') ((String.append_right_inj _).1 heq)
  simp only [split_intercalate (hlocated.leads s hs) (hne s hs), split_intercalate (hlocated.leads s' hs') (hne s' hs')]
    at hpieces
  apply map_text_inj (hlocated.leads s hs) (hlocated.leads s' hs')
  exact List.map_injective_iff.2 (fun _ _ => String.toList_inj.1) hpieces

end ProtocolTypings.Schema
