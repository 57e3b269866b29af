import Mathlib.Data.List.Forall2
import ProtocolTypings.Artifact.Delivery
import ProtocolTypings.Proofs.Artifact.Collecting
import ProtocolTypings.Proofs.File.Writing
import ProtocolTypings.Proofs.Settings

/-!
# What a delivery leaves behind

Artifacts that have been written stay when a later one fails, and no file but theirs is made, changed or taken away.
-/

namespace ProtocolTypings

open FileTree ProtocolTypings.Action

namespace Artifact

variable {folder p : Path} {root mid root' : FileTree} {log : List Log.Record}

/-- The path of the artifact leads to the location. -/
def LiesAt (root : FileTree) (folder : Path) (a : Artifact) (l : List String) : Prop :=
  ∃ p, a.pathIn folder = .ok p ∧ root.locate p = .ok l

/-- The record says that the artifact is being written. -/
def Announces (folder : Path) (a : Artifact) (record : Log.Record) : Prop :=
  ∃ p, a.pathIn folder = .ok p ∧ record = ⟨.info, .artifacts, "Writing to " ++ p.text⟩

/-- The artifacts have been written, the last one where several lie at one location. The folders and all other files
are as they were, but that there may be more folders. -/
structure Delivered (folder : Path) (as : List Artifact) (root root' : FileTree) : Prop where
  folders : ∀ l mode, root.nodeAt l = some (.folder mode) → root'.nodeAt l = some (.folder mode)
  files : ∀ l, (∀ a ∈ as, ¬ LiesAt root' folder a l) →
    ∀ f, root'.nodeAt l = some (.file f) ↔ root.nodeAt l = some (.file f)
  written : ∀ before a after, as = before ++ a :: after → ∃ l, LiesAt root' folder a l ∧
    ((∀ b ∈ after, ¬ LiesAt root' folder b l) → ∃ mode, root'.nodeAt l = some (.file ⟨mode, a.text.toUTF8⟩))

namespace Delivered

theorem of_grows (folder : Path) (h : Grows [] root root') : Delivered folder [] root root' where
  folders := h.folders
  files := fun l _ f => h.files l List.not_mem_nil f
  written := by
    intro before a after heq
    cases before <;> cases heq

/-- Paths lead to the same locations after a delivery. -/
theorem liesAt {as : List Artifact} {a : Artifact} {l : List String} (h : Delivered folder as root root')
    (hl : LiesAt root folder a l) : LiesAt root' folder a l := by
  obtain ⟨p, hp, hlocate⟩ := hl
  exact ⟨p, hp, locate_of_folders h.folders hlocate⟩

theorem cons {a : Artifact} {as : List Artifact} (hp : a.pathIn folder = .ok p)
    (hwritten : Written p a.text.toUTF8 root mid) (h : Delivered folder as mid root') :
    Delivered folder (a :: as) root root' := by
  obtain ⟨l, mode, hlocate, hfile, hgrows⟩ := hwritten
  have hlies := h.liesAt ⟨p, hp, hlocate⟩
  refine ⟨fun l' mode' hl' => h.folders l' mode' (hgrows.folders l' mode' hl'), ?_, ?_⟩
  · intro l' hl' f
    have hne : l' ≠ l := by
      rintro rfl
      exact hl' a List.mem_cons_self hlies
    have hrest := h.files l' (fun b hb => hl' b (List.mem_cons_of_mem _ hb)) f
    exact hrest.trans (hgrows.files l' (fun hmem => hne (List.mem_singleton.1 hmem)) f)
  · intro before b after heq
    cases before with
    | nil =>
        obtain ⟨rfl, rfl⟩ := List.cons.inj heq
        exact ⟨l, hlies, fun hlast => ⟨mode, (h.files l hlast _).2 hfile⟩⟩
    | cons c before =>
        obtain ⟨-, hrest⟩ := List.cons.inj heq
        exact h.written before b after hrest

end Delivered

/-! ## One artifact -/

theorem run_write {output : OutputSetting} {a : Artifact} {result : Except Fault Path} (hp : a.pathIn folder = .ok p)
    (h : run root (a.write output folder) = (root', ⟨log, result⟩)) :
    (∃ record, log = [record] ∧ Announces folder a record) ∧
      ((∃ fault, result = .error fault ∧ Grows [] root root') ∨
        ∃ q, result = .ok q ∧ Written p a.text.toUTF8 root root') := by
  rw [write, hp] at h
  rcases run_bind_cases h with ⟨fault, hpath, -⟩ | ⟨mid, before, q, after, hpath, hannounced, rfl⟩
  · cases hpath
  cases hpath
  rcases run_bind_cases hannounced with ⟨fault, hreport, -⟩ | ⟨mid, before, b, rest, hreport, hbody, rfl⟩
  · cases hreport
  cases hreport
  have hannounces : Announces folder a ⟨.info, .artifacts, "Writing to " ++ p.text⟩ := ⟨p, hp, rfl⟩
  cases output with
  | other | missing =>
      cases hbody
      exact ⟨⟨_, rfl, hannounces⟩, .inl ⟨_, rfl, Grows.refl [] _⟩⟩
  | of output =>
      dsimp only at hbody
      split at hbody
      · have hatomic := writes_writeAtomically (Content.encode_ofString a.text) p (checkIf output.validate.truthy)
        obtain ⟨rfl, hends⟩ := hatomic.andThen (fun _ => p) hbody
        exact ⟨⟨_, rfl, hannounces⟩, hends⟩
      · have hdirect := (writes_writeDirectly (Content.encode_ofString a.text) p).andThen fun _ => p
        obtain ⟨rfl, hends⟩ := (gentle_ofExcept _).writes (fun _ => hdirect) hbody
        exact ⟨⟨_, rfl, hannounces⟩, hends⟩

/-! ## One after the other -/

/-- The artifacts before the one that fails have been written, and nothing has become of those from it on. -/
theorem delivered_of_error {output : OutputSetting} {as : List Artifact} {fault : Fault}
    (hpaths : ∀ a ∈ as, ∃ p, a.pathIn folder = .ok p)
    (h : run root (writeAll output folder as) = (root', ⟨log, .error fault⟩)) :
    ∃ i < as.length, Delivered folder (as.take i) root root' ∧
      List.Forall₂ (Announces folder) (as.take (i + 1)) log := by
  induction as generalizing root log with
  | nil => cases h
  | cons a as ih =>
      obtain ⟨p, hp⟩ := hpaths a List.mem_cons_self
      rcases run_bind_cases h with ⟨cause, hwrite, -⟩ | ⟨mid, before, q, after, hwrite, hrest, rfl⟩
      · obtain ⟨⟨record, rfl, hannounces⟩, ⟨-, -, hgrows⟩ | ⟨q, hok, -⟩⟩ := run_write hp hwrite
        · exact ⟨0, Nat.zero_lt_succ _, Delivered.of_grows folder hgrows, .cons hannounces .nil⟩
        · cases hok
      · obtain ⟨⟨record, rfl, hannounces⟩, ⟨cause, herror, -⟩ | ⟨-, -, hwritten⟩⟩ := run_write hp hwrite
        · cases herror
        · rcases run_bind_cases hrest with ⟨cause, hfailed, heq⟩ | ⟨mid', log', qs, after', -, hdone, -⟩
          · cases heq
            obtain ⟨i, hi, hdelivered, hlog⟩ := ih (fun b hb => hpaths b (List.mem_cons_of_mem _ hb)) hfailed
            exact ⟨i + 1, Nat.succ_lt_succ hi, hdelivered.cons hp hwritten, .cons hannounces hlog⟩
          · cases hdone

end Artifact

namespace Edition

open Artifact

/-- The settings name the files of all three artifacts by texts. -/
structure NamesFiles (e : Edition) : Prop where
  protocol : ∃ name, e.settings.protocolFile = .str name
  mapping : ∃ name, e.settings.mappingFile = .str name
  api : ∃ name, e.settings.apiFile = .str name

theorem NamesFiles.exists_name {e : Edition} (h : e.NamesFiles) : ∀ file ∈ e.files, ∃ name, file = .str name := by
  intro file hfile
  simp only [files, List.mem_cons, List.not_mem_nil, or_false] at hfile
  rcases hfile with rfl | rfl | rfl
  · exact h.protocol
  · exact h.mapping
  · exact h.api

theorem NamesFiles.named {e : Edition} (h : e.NamesFiles) {as : List Artifact} (hfiles : as.map (·.file) = e.files) :
    ∀ a ∈ as, ∃ name, a.file = .str name := by
  intro a ha
  refine h.exists_name a.file ?_
  rw [← hfiles]
  exact List.mem_map.2 ⟨a, ha, rfl⟩

theorem NamesFiles.exists_path {e : Edition} (h : e.NamesFiles) {artifacts : List Artifact}
    (hartifacts : e.artifacts = .ok artifacts) (folder : Path) : ∀ a ∈ artifacts, ∃ p, a.pathIn folder = .ok p := by
  intro a ha
  obtain ⟨name, hname⟩ := h.exists_name a.file (file_mem_files hartifacts ha)
  exact ⟨folder.resolve name, by rw [pathIn, hname]⟩

/-- A failed writing is clean. Without anything in the place of the output section it fails before all else. Otherwise
either the artifacts could not be made, and nothing at all has happened; or one of them could not be written, and those
before it and only those are there. -/
theorem NamesFiles.failed_write_clean {e : Edition} (hnames : e.NamesFiles) {folder : Path} {root root' : FileTree}
    {log : List Log.Record} {fault : Fault} (h : (e.write folder).run root = (root', ⟨log, .error fault⟩)) :
    (e.settings.output = .missing → root' = root ∧ log = []) ∧
    (e.settings.output ≠ .missing →
      (e.artifacts = .error fault ∧ root' = root ∧ log = []) ∨
      ∃ artifacts, e.artifacts = .ok artifacts ∧ ∃ i < artifacts.length,
        Delivered folder (artifacts.take i) root root' ∧
        log.length = i + 1 ∧ List.Forall₂ (Announces folder) (artifacts.take (i + 1)) log) := by
  rcases run_ofExcept_bind_cases h with ⟨rfl, rfl, cause, habsent, -⟩ | ⟨output, hpresent, h⟩
  · refine ⟨fun _ => ⟨rfl, rfl⟩, fun hthere => ?_⟩
    cases habsent.symm.trans (Settings.presentOutput_eq_ok.2 ⟨hthere, rfl⟩)
  · obtain ⟨hthere, rfl⟩ := Settings.presentOutput_eq_ok.1 hpresent
    refine ⟨fun hmissing => absurd hmissing hthere, fun _ => ?_⟩
    rcases run_ofExcept_bind_cases h with ⟨rfl, rfl, cause, hartifacts, heq⟩ | ⟨artifacts, hartifacts, hwrite⟩
    · cases heq
      exact .inl ⟨hartifacts, rfl, rfl⟩
    · obtain ⟨i, hi, hdelivered, hlog⟩ := delivered_of_error (hnames.exists_path hartifacts folder) hwrite
      have hlength := hlog.length_eq
      rw [List.length_take] at hlength
      exact .inr ⟨artifacts, hartifacts, i, hi, hdelivered, by omega, hlog⟩

/-- An edition without domains, written without a check of the texts. -/
def unchecked : Edition where
  domains := []
  settings := { output := .of { validate := .bool false } }
  protocol := "protocol"

/-- A folder stands where the mapping is to be written. -/
def occupied : FileTree :=
  .folder .newFolder [("protocol-mapping.d.ts", .empty)]

theorem failed_write_clean_unchecked :
    unchecked.NamesFiles ∧ ∃ root' log fault,
      (unchecked.write ⟨[], .one⟩).run occupied = (root', ⟨log, .error fault⟩) ∧ log.length = 2 ∧
      ∃ artifacts, unchecked.artifacts = .ok artifacts ∧
        Delivered ⟨[], .one⟩ (artifacts.take 1) occupied root' ∧
        List.Forall₂ (Announces ⟨[], .one⟩) (artifacts.take 2) log := by
  have hnames : unchecked.NamesFiles := ⟨⟨_, rfl⟩, ⟨_, rfl⟩, ⟨_, rfl⟩⟩
  have hfails : (match (unchecked.write ⟨[], .one⟩).run occupied with
      | (_, ⟨log, .error _⟩) => log.length == 2
      | _ => false) = true := by decide +kernel
  generalize hrun : (unchecked.write ⟨[], .one⟩).run occupied = r at hfails ⊢
  obtain ⟨root', log, result⟩ := r
  cases result with
  | ok paths => cases hfails
  | error fault =>
      have hlength : log.length = 2 := eq_of_beq hfails
      refine ⟨hnames, root', log, fault, rfl, hlength, ?_⟩
      rcases (hnames.failed_write_clean hrun).2 nofun with
        ⟨-, -, rfl⟩ | ⟨artifacts, hartifacts, i, -, hdelivered, hi, hlog⟩
      · cases hlength
      · obtain rfl : i = 1 := by omega
        exact ⟨artifacts, hartifacts, hdelivered, hlog⟩

end Edition

end ProtocolTypings
