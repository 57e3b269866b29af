import Mathlib.Data.List.Induction
import ProtocolTypings.CommandLine.Run
import ProtocolTypings.Proofs.File.ReadOnly
import ProtocolTypings.Proofs.Json.Keys
import ProtocolTypings.Proofs.Settings

/-!
# Settings of a request

The settings of a request that asks for a comparison are those of its configuration file, or the default ones, with the
mode of their output section changed. They can be had exactly if the file leaves such a section: where it has one, that
is an object, and where it replaces the table of all settings, the section comes after it.
-/

namespace ProtocolTypings

/-! ## The output section -/

namespace Settings

variable {s t : Settings} {fields : List (String × Json)}

/-- The keys on which it depends whether there is an output section: its own, and that of the table it is kept in. -/
def sectionKeys : List String :=
  ["output", "__dict__"]

/-- The last of the fields on which it depends whether there is an output section, if there are any, is an object in the
place of the section. -/
def KeepsSection (fields : List (String × Json)) : Prop :=
  ∀ field ∈ (fields.filter (·.1 ∈ sectionKeys)).getLast?, ∃ entries, field = ("output", .obj entries)

/-- In an object that leaves the table alone, the section has to be an object if it is there. -/
theorem keepsSection_iff (hkeys : (fields.map (·.1)).Nodup) (hplain : "__dict__" ∉ fields.map (·.1)) :
    KeepsSection fields ↔ ∀ value, fields.lookup "output" = some value → ∃ entries, value = .obj entries := by
  induction fields with
  | nil => simp [KeepsSection]
  | cons field rest ih =>
      obtain ⟨key, value⟩ := field
      obtain ⟨hkey, hrest⟩ := List.nodup_cons.1 hkeys
      rw [List.map_cons, List.mem_cons, not_or] at hplain
      by_cases houtput : key = "output"
      · subst houtput
        have hnone : rest.filter (·.1 ∈ sectionKeys) = [] := by
          refine List.filter_eq_nil_iff.2 fun other hother => ?_
          have hmem : other.1 ∈ rest.map (·.1) := List.mem_map_of_mem hother
          have hne : other.1 ≠ "output" := fun heq => hkey (heq ▸ hmem)
          have hne' : other.1 ≠ "__dict__" := fun heq => hplain.2 (heq ▸ hmem)
          simp [sectionKeys, hne, hne']
        have hlast : (("output", value) :: rest).filter (·.1 ∈ sectionKeys) = [("output", value)] := by
          rw [List.filter_cons_of_pos (by simp [sectionKeys]), hnone]
        simp [KeepsSection, hlast]
      · have hskip : KeepsSection ((key, value) :: rest) ↔ KeepsSection rest := by
          simp [KeepsSection, sectionKeys, houtput, Ne.symm hplain.1]
        rw [hskip, ih hrest hplain.2, lookup_cons_of_ne houtput]

/-- The settings with the mode in which artifacts are compared. -/
def checked (s : Settings) (output : OutputSection) : Settings :=
  { s with output := .of { output with mode := .named .check } }

end Settings

/-! ## The request -/

namespace CommandLine

open ProtocolTypings.Action

variable {root : FileTree} {r : Request} {s : Settings}

/-- The settings that the request names: those of its configuration file, which has to leave an output section; or else
the default ones. -/
def Request.Configures (r : Request) (root : FileTree) (s : Settings) : Prop :=
  match r.config with
  | none => s = {}
  | some p => ∃ fields, HoldsJson root p (.obj fields) ∧ Settings.decode (.obj fields) = .ok s ∧
      Settings.KeepsSection fields

/-- A configuration that leaves the table alone can be used if its settings can be taken and the output section is an
object, or is not there. -/
theorem configures_iff_of_plain {p : Path} {fields : List (String × Json)} (hconfig : r.config = some p)
    (hjson : HoldsJson root p (.obj fields)) (hplain : "__dict__" ∉ fields.map (·.1)) :
    r.Configures root s ↔ Settings.decode (.obj fields) = .ok s ∧
      ∀ value, fields.lookup "output" = some value → ∃ entries, value = .obj entries := by
  have hkeys : (fields.map (·.1)).Nodup := by
    obtain ⟨text, -, htext⟩ := hjson
    exact Json.keysDistinct_read htext fields rfl
  rw [Request.Configures, hconfig, ← Settings.keepsSection_iff hkeys hplain]
  constructor
  · rintro ⟨others, hothers, hused⟩
    cases (readJson_eq_ok.2 hjson).symm.trans (readJson_eq_ok.2 hothers)
    exact hused
  · exact fun hused => ⟨fields, hjson, hused⟩

end CommandLine

end ProtocolTypings
