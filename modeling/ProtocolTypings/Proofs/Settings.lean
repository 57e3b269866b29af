import ProtocolTypings.Proofs.Lists
import ProtocolTypings.Proofs.Outcome
import ProtocolTypings.Settings

/-!
# Settings and the objects that they are taken from

Each setting is the value under its name, wherever that stands in the object, and only the name of a mode can be
refused, unless a key names what all settings have besides their values. What is encoded of any settings is an object
from which the same settings are taken.
-/

namespace ProtocolTypings

namespace Settings

variable {s t : Settings} {fields others : List (String × Json)}

/-! ## Decoding -/

/-- The names of what all settings have besides their values. -/
def partNames : List String :=
  ["to_dict", "__dict__", "__class__", "__weakref__"]

theorem setOutput_of_ne (h : s.output ≠ .missing) (output : OutputSetting) :
    s.setOutput output = { s with output } := by
  unfold setOutput
  split
  · exact absurd ‹_› h
  · rfl

theorem decodeOutput_ne_missing {value : Json} {output : OutputSetting} (h : decodeOutput value = .ok output) :
    output ≠ .missing := by
  cases value with
  | obj fields =>
      obtain ⟨mode, -, h⟩ := bind_eq_ok.1 h
      cases h
      exact nofun
  | _ =>
      cases h
      exact nofun

/-- The output section that is read of the fields, or that of the settings where there is none. -/
def outputIn (s : Settings) (fields : List (String × Json)) : Except Fault OutputSetting :=
  (fields.lookup "output").elim (.ok s.output) decodeOutput

/-- The order of the fields does not matter: each value goes to the setting that its key names. -/
theorem enterAll_eq (hkeys : (fields.map (·.1)).Nodup) (hplain : ∀ field ∈ fields, field.1 ∉ partNames)
    (hthere : s.output ≠ .missing) : s.enterAll fields = (s.outputIn fields).map (s.filled fields) := by
  induction fields generalizing s with
  | nil => rfl
  | cons field rest ih =>
      obtain ⟨key, value⟩ := field
      obtain ⟨hkey, hrest⟩ := List.nodup_cons.1 hkeys
      obtain ⟨hname, hnames⟩ := List.forall_mem_cons.1 hplain
      have hnone : rest.lookup key = none := lookup_eq_none_of_notMem hkey
      rw [enterAll]
      unfold enter
      split
      case h_9 =>
        rw [outputIn, List.lookup_cons, beq_self_eq_true, Option.elim]
        cases houtput : decodeOutput value with
        | error fault => rfl
        | ok output =>
            rw [map_ok, ok_bind, setOutput_of_ne hthere, ih hrest hnames (decodeOutput_ne_missing houtput)]
            simp only [outputIn, hnone, Option.elim, map_ok]
            simp [filled, List.lookup_cons]
      case h_10 | h_11 | h_12 | h_13 => exact absurd (by simp [partNames]) hname
      case h_14 =>
        rw [ok_bind, ih hrest hnames (by exact hthere)]
        refine congr (congrArg Except.map (funext fun output => ?_)) ?_
        · simp (disch := assumption) only [filled, lookup_cons_of_ne]
        · simp (disch := assumption) only [outputIn, lookup_cons_of_ne]
      all_goals
        rw [ok_bind, ih hrest hnames (by exact hthere)]
        refine congr (congrArg Except.map (funext fun output => ?_)) ?_
        · simp [filled, List.lookup_cons, hnone]
        · simp [outputIn, List.lookup_cons]

theorem decode_eq (hkeys : (fields.map (·.1)).Nodup) (hplain : ∀ field ∈ fields, field.1 ∉ partNames) :
    decode (.obj fields) = (outputIn {} fields).map (filled {} fields) :=
  enterAll_eq hkeys hplain nofun

theorem decode_eq_of_perm (hkeys : (fields.map (·.1)).Nodup) (hplain : ∀ field ∈ fields, field.1 ∉ partNames)
    (h : others.Perm fields) : decode (.obj others) = decode (.obj fields) := by
  have hothers : (others.map (·.1)).Nodup := (h.map (·.1)).nodup_iff.2 hkeys
  have hplain' : ∀ field ∈ others, field.1 ∉ partNames := fun field hfield => hplain field (h.mem_iff.1 hfield)
  have hlookup := lookup_eq_of_perm hkeys h
  have hfilled : filled {} others = filled {} fields := by
    funext output
    simp only [filled, hlookup]
  rw [decode_eq hothers hplain', decode_eq hkeys hplain, outputIn, outputIn, hfilled, hlookup]

theorem presentOutput_eq_ok {output : OutputSetting} :
    s.presentOutput = .ok output ↔ s.output ≠ .missing ∧ output = s.output := by
  unfold presentOutput
  split <;> simp_all [eq_comm]

/-! ## Refusals -/

/-- The mode named in the output section is none that there is. -/
def NamesNoMode (fields : List (String × Json)) (mode : String) : Prop :=
  ∃ entries, fields.lookup "output" = some (.obj entries) ∧ entries.lookup "mode" = some (.str mode) ∧
    mode ≠ "force" ∧ mode ≠ "check"

theorem ofName?_eq_none {mode : String} : OutputMode.ofName? mode = none ↔ mode ≠ "force" ∧ mode ≠ "check" := by
  unfold OutputMode.ofName?
  split <;> simp_all

theorem decodeMode_eq_error {value : Json} {fault : Fault} :
    decodeMode value = .error fault ↔
      ∃ mode, value = .str mode ∧ (mode ≠ "force" ∧ mode ≠ "check") ∧
        fault = .refusal (.settings (.unknownMode mode)) := by
  cases value with
  | str mode =>
      simp only [decodeMode, ← ofName?_eq_none, Json.str.injEq, exists_eq_left']
      cases OutputMode.ofName? mode with
      | some known => simp
      | none => simp [eq_comm]
  | _ => simp [decodeMode]

theorem decodeOutput_eq_error {value : Json} {fault : Fault} :
    decodeOutput value = .error fault ↔
      ∃ entries mode, value = .obj entries ∧ entries.lookup "mode" = some (.str mode) ∧
        (mode ≠ "force" ∧ mode ≠ "check") ∧ fault = .refusal (.settings (.unknownMode mode)) := by
  cases value with
  | obj entries =>
      have hmode : decodeOutput (.obj entries) = .error fault ↔
          decodeMode ((entries.lookup "mode").getD (.str "force")) = .error fault := by
        rw [decodeOutput]
        cases decodeMode ((entries.lookup "mode").getD (.str "force")) <;> simp
      rw [hmode, decodeMode_eq_error]
      cases hlookup : entries.lookup "mode" <;> simp [hlookup]
  | _ => simp [decodeOutput]

/-- The one fault of an object that settings are taken from is a mode that is none. -/
theorem decode_eq_error (hkeys : (fields.map (·.1)).Nodup) (hplain : ∀ field ∈ fields, field.1 ∉ partNames)
    {fault : Fault} :
    decode (.obj fields) = .error fault ↔
      ∃ mode, NamesNoMode fields mode ∧ fault = .refusal (.settings (.unknownMode mode)) := by
  have houtput : decode (.obj fields) = .error fault ↔ outputIn {} fields = .error fault := by
    rw [decode_eq hkeys hplain]
    cases outputIn {} fields <;> simp
  rw [houtput, outputIn]
  cases hlookup : fields.lookup "output" with
  | none => simp [NamesNoMode, hlookup]
  | some value =>
      simp only [Option.elim, decodeOutput_eq_error, NamesNoMode, hlookup, Option.some.injEq]
      constructor
      · rintro ⟨entries, mode, rfl, hmode, hnone, rfl⟩
        exact ⟨mode, ⟨entries, rfl, hmode, hnone⟩, rfl⟩
      · rintro ⟨mode, ⟨entries, rfl, hmode, hnone⟩, rfl⟩
        exact ⟨entries, mode, rfl, hmode, hnone, rfl⟩

/-! ## Encoding -/

theorem encodeMode_eq_ok {setting : ModeSetting} {encoded : Json} :
    encodeMode setting = .ok encoded ↔ ∃ mode, setting = .named mode ∧ encoded = .str mode.name := by
  cases setting <;> simp [encodeMode, eq_comm]

theorem decodeMode_name (mode : OutputMode) : decodeMode (.str mode.name) = .ok (.named mode) := by
  cases mode <;> rfl

theorem decodeOutput_of_encodeOutput {setting : OutputSetting} {encoded : Json}
    (h : encodeOutput setting = .ok encoded) : decodeOutput encoded = .ok setting := by
  cases setting with
  | other value => cases h
  | missing => cases h
  | of output =>
      obtain ⟨mode, hmode, h⟩ := bind_eq_ok.1 h
      cases h
      obtain ⟨named, hnamed, rfl⟩ := encodeMode_eq_ok.1 hmode
      obtain ⟨setting, validate, atomic⟩ := output
      cases hnamed
      simp only [decodeOutput, List.lookup_cons, beq_self_eq_true, Option.getD_some, decodeMode_name, ok_bind]
      rfl

/-- What is encoded of settings is an object that has each of them under its name. -/
theorem decode_of_encode {encoded : Json} (h : s.encode = .ok encoded) : decode encoded = .ok s := by
  obtain ⟨_, _, _, _, _, _, _, _, setting, encoder⟩ := s
  cases encoder with
  | some value => cases h
  | none =>
      obtain ⟨output, houtput, h⟩ := bind_eq_ok.1 h
      cases h
      have hdecoded : decodeOutput output = .ok setting := decodeOutput_of_encodeOutput houtput
      simp only [decode, enterAll, enter, hdecoded, ok_bind, map_ok]
      rfl

/-- What is encoded of settings that were taken from an object without repeated keys gives the same settings again. If
no key names a part that all settings have, they are taken unless the output section names a mode that there is not,
whatever the order of the entries. -/
theorem decode_undoes_encode (hkeys : (fields.map (·.1)).Nodup) :
    (∀ s encoded, decode (.obj fields) = .ok s → s.encode = .ok encoded → decode encoded = .ok s) ∧
    ((∀ field ∈ fields, field.1 ∉ partNames) →
      (∀ fault, decode (.obj fields) = .error fault ↔
        ∃ mode, NamesNoMode fields mode ∧ fault = .refusal (.settings (.unknownMode mode))) ∧
      ∀ others, others.Perm fields → decode (.obj others) = decode (.obj fields)) :=
  ⟨fun _ _ _ hencoded => decode_of_encode hencoded, fun hplain =>
    ⟨fun _ => decode_eq_error hkeys hplain, fun _ hperm => decode_eq_of_perm hkeys hplain hperm⟩⟩

/-- An output section in the middle, a value that is no text in the place of one, and a key that is no setting. -/
def looseFields : List (String × Json) :=
  [("indent", .null), ("output", .obj [("atomic_write", .int 0), ("mode", .str "check")]), ("language", .str "en"),
    ("strict", .str "false")]

/-- The settings that are taken from these fields. -/
def looseSettings : Settings :=
  { indent := .null, strict := .str "false", output := .of { mode := .named .check, atomic := .int 0 } }

theorem decode_undoes_encode_looseFields :
    (looseFields.map (·.1)).Nodup ∧ (∀ field ∈ looseFields, field.1 ∉ partNames) ∧
      decode (.obj looseFields) = .ok looseSettings ∧
      (∃ encoded, looseSettings.encode = .ok encoded ∧ decode encoded = .ok looseSettings) ∧
      (∀ fault, decode (.obj looseFields) ≠ .error fault) ∧ decode (.obj looseFields.reverse) = .ok looseSettings := by
  have hkeys : (looseFields.map (·.1)).Nodup := by decide
  have hplain : ∀ field ∈ looseFields, field.1 ∉ partNames := by decide
  have hdecode : decode (.obj looseFields) = .ok looseSettings := rfl
  obtain ⟨hagain, hrest⟩ := decode_undoes_encode hkeys
  obtain ⟨hrefused, hperm⟩ := hrest hplain
  refine ⟨hkeys, hplain, hdecode, ⟨_, rfl, hagain _ _ hdecode rfl⟩, fun fault hfault => ?_, ?_⟩
  · obtain ⟨mode, ⟨entries, hentries, hmode, -, hcheck⟩, -⟩ := (hrefused fault).1 hfault
    cases hentries
    cases hmode
    exact hcheck rfl
  · rw [hperm _ looseFields.reverse_perm, hdecode]

end Settings

end ProtocolTypings
