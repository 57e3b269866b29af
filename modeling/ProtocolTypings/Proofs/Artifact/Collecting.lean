import ProtocolTypings.Artifact.Edition
import ProtocolTypings.Proofs.Outcome

/-!
# Collected artifacts

What is collected takes its file from one of the artifacts given and its text from one of them, maybe another one.
Where texts name the files, no file is named twice.
-/

namespace ProtocolTypings

namespace Artifact

theorem mem_of_mem_put {file : Json} {text : String} {as : List Artifact} {a : Artifact} (h : a ∈ put file text as) :
    (a.file = file ∨ ∃ b ∈ as, a.file = b.file) ∧ (a.text = text ∨ ∃ b ∈ as, a.text = b.text) := by
  induction as with
  | nil =>
      rw [List.mem_singleton.1 h]
      exact ⟨.inl rfl, .inl rfl⟩
  | cons b rest ih =>
      rw [put] at h
      split at h
      · rcases List.mem_cons.1 h with rfl | h
        · exact ⟨.inr ⟨b, List.mem_cons_self, rfl⟩, .inl rfl⟩
        · have hmem := List.mem_cons_of_mem b h
          exact ⟨.inr ⟨a, hmem, rfl⟩, .inr ⟨a, hmem, rfl⟩⟩
      · rcases List.mem_cons.1 h with rfl | h
        · exact ⟨.inr ⟨a, List.mem_cons_self, rfl⟩, .inr ⟨a, List.mem_cons_self, rfl⟩⟩
        · obtain ⟨hfile, htext⟩ := ih h
          refine ⟨hfile.imp_right ?_, htext.imp_right ?_⟩
          · rintro ⟨c, hc, heq⟩
            exact ⟨c, List.mem_cons_of_mem _ hc, heq⟩
          · rintro ⟨c, hc, heq⟩
            exact ⟨c, List.mem_cons_of_mem _ hc, heq⟩

theorem mem_of_collect {done as artifacts : List Artifact} (h : collect done as = .ok artifacts) :
    ∀ a ∈ artifacts, (∃ b ∈ done ++ as, a.file = b.file) ∧ ∃ b ∈ done ++ as, a.text = b.text := by
  induction as generalizing done with
  | nil =>
      cases h
      intro a ha
      have hmem := List.mem_append_left [] ha
      exact ⟨⟨a, hmem, rfl⟩, ⟨a, hmem, rfl⟩⟩
  | cons first rest ih =>
      rw [collect] at h
      split at h
      · cases h
      · cases h
      · intro a ha
        obtain ⟨⟨b, hb, hfile⟩, ⟨c, hc, htext⟩⟩ := ih h a ha
        constructor
        · rcases List.mem_append.1 hb with hb | hb
          · rcases (mem_of_mem_put hb).1 with hfirst | ⟨d, hd, hdone⟩
            · exact ⟨first, by simp, hfile.trans hfirst⟩
            · exact ⟨d, List.mem_append_left _ hd, hfile.trans hdone⟩
          · exact ⟨b, by simp [hb], hfile⟩
        · rcases List.mem_append.1 hc with hc | hc
          · rcases (mem_of_mem_put hc).2 with hfirst | ⟨d, hd, hdone⟩
            · exact ⟨first, by simp, htext.trans hfirst⟩
            · exact ⟨d, List.mem_append_left _ hd, htext.trans hdone⟩
          · exact ⟨c, by simp [hc], htext⟩

/-! ## Different files -/

theorem sameFile_str {file : Json} {name : String} : sameFile file (.str name) = true ↔ file = .str name := by
  cases file <;> simp [sameFile, sameFile.number?]

theorem nodup_put {name text : String} {as : List Artifact} (h : (as.map (·.file)).Nodup) :
    ((put (.str name) text as).map (·.file)).Nodup := by
  induction as with
  | nil => exact List.nodup_cons.2 ⟨List.not_mem_nil, List.nodup_nil⟩
  | cons b rest ih =>
      obtain ⟨hb, hrest⟩ := List.nodup_cons.1 h
      rw [put]
      split
      · exact h
      · rename_i hother
        refine List.nodup_cons.2 ⟨fun hmem => ?_, ih hrest⟩
        obtain ⟨a, ha, heq⟩ := List.mem_map.1 hmem
        rcases (mem_of_mem_put ha).1 with hname | ⟨c, hc, hfile⟩
        · exact hother (sameFile_str.2 (heq.symm.trans hname))
        · exact hb (List.mem_map.2 ⟨c, hc, hfile.symm.trans heq⟩)

theorem nodup_collect {done as artifacts : List Artifact} (htexts : ∀ a ∈ as, ∃ m, a.file = .str m)
    (hdone : (done.map (·.file)).Nodup) (h : collect done as = .ok artifacts) : (artifacts.map (·.file)).Nodup := by
  induction as generalizing done with
  | nil =>
      cases h
      exact hdone
  | cons first rest ih =>
      obtain ⟨⟨m, hm⟩, hrest⟩ := List.forall_mem_cons.1 htexts
      rw [collect, hm] at h
      exact ih hrest (nodup_put hdone) h

/-! ## The last text for a file -/

theorem mem_put {name text : String} {as : List Artifact} (hnodup : (as.map (·.file)).Nodup) {a : Artifact}
    (h : a ∈ put (.str name) text as) : a.file = .str name ∧ a.text = text ∨ a ∈ as ∧ a.file ≠ .str name := by
  induction as with
  | nil =>
      rw [List.mem_singleton.1 h]
      exact .inl ⟨rfl, rfl⟩
  | cons b rest ih =>
      obtain ⟨hb, hrest⟩ := List.nodup_cons.1 hnodup
      rw [put] at h
      split at h
      · rename_i hsame
        rw [sameFile_str] at hsame
        rcases List.mem_cons.1 h with rfl | h
        · exact .inl ⟨hsame, rfl⟩
        · refine .inr ⟨List.mem_cons_of_mem _ h, fun heq => hb ?_⟩
          exact List.mem_map.2 ⟨a, h, heq.trans hsame.symm⟩
      · rename_i hother
        rcases List.mem_cons.1 h with rfl | h
        · exact .inr ⟨List.mem_cons_self, fun heq => hother (sameFile_str.2 heq)⟩
        · exact (ih hrest h).imp_right fun ⟨hmem, hne⟩ => ⟨List.mem_cons_of_mem _ hmem, hne⟩

/-- An artifact has one of the texts that were entered, unless none of these is for its file. -/
theorem text_of_collect {done as artifacts : List Artifact} (htexts : ∀ a ∈ as, ∃ m, a.file = .str m)
    (hdone : (done.map (·.file)).Nodup) (h : collect done as = .ok artifacts) {a : Artifact} (ha : a ∈ artifacts) :
    (∃ b ∈ as, b.file = a.file ∧ b.text = a.text) ∨ a ∈ done ∧ ∀ b ∈ as, b.file ≠ a.file := by
  induction as generalizing done with
  | nil =>
      cases h
      exact .inr ⟨ha, nofun⟩
  | cons first rest ih =>
      obtain ⟨⟨m, hm⟩, hrest⟩ := List.forall_mem_cons.1 htexts
      rw [collect, hm] at h
      rcases ih hrest (nodup_put hdone) h with ⟨b, hb, heq⟩ | ⟨hput, hnone⟩
      · exact .inl ⟨b, List.mem_cons_of_mem _ hb, heq⟩
      · rcases mem_put hdone hput with ⟨hfile, htext⟩ | ⟨hmem, hne⟩
        · exact .inl ⟨first, List.mem_cons_self, hm.trans hfile.symm, htext.symm⟩
        · refine .inr ⟨hmem, List.forall_mem_cons.2 ⟨fun heq => hne ?_, hnone⟩⟩
          rw [← heq, hm]

theorem exists_put (name text : String) (as : List Artifact) :
    (∃ a ∈ put (.str name) text as, a.file = .str name) ∧
      ∀ b ∈ as, ∃ a ∈ put (.str name) text as, a.file = b.file := by
  induction as with
  | nil => exact ⟨⟨_, List.mem_singleton_self _, rfl⟩, nofun⟩
  | cons b rest ih =>
      rw [put]
      split
      · rename_i hsame
        refine ⟨⟨_, List.mem_cons_self, sameFile_str.1 hsame⟩, List.forall_mem_cons.2 ⟨⟨_, List.mem_cons_self, rfl⟩, ?_⟩⟩
        exact fun c hc => ⟨c, List.mem_cons_of_mem _ hc, rfl⟩
      · obtain ⟨⟨a, ha, hname⟩, hkept⟩ := ih
        refine ⟨⟨a, List.mem_cons_of_mem _ ha, hname⟩, List.forall_mem_cons.2 ⟨⟨_, List.mem_cons_self, rfl⟩, ?_⟩⟩
        intro c hc
        obtain ⟨d, hd, hfile⟩ := hkept c hc
        exact ⟨d, List.mem_cons_of_mem _ hd, hfile⟩

/-- There is an artifact for every file. -/
theorem exists_of_collect {done as artifacts : List Artifact} (htexts : ∀ a ∈ as, ∃ m, a.file = .str m)
    (h : collect done as = .ok artifacts) : ∀ b ∈ done ++ as, ∃ a ∈ artifacts, a.file = b.file := by
  induction as generalizing done with
  | nil =>
      cases h
      intro b hb
      exact ⟨b, by simpa using hb, rfl⟩
  | cons first rest ih =>
      obtain ⟨⟨m, hm⟩, hrest⟩ := List.forall_mem_cons.1 htexts
      rw [collect, hm] at h
      obtain ⟨⟨made, hmade, hname⟩, hkept⟩ := exists_put m first.text done
      intro b hb
      -- the entry of `first` keeps an artifact for each file that there was one for
      have hentered : ∃ a ∈ put (.str m) first.text done ++ rest, a.file = b.file := by
        simp only [List.mem_append, List.mem_cons] at hb
        rcases hb with hb | rfl | hb
        · obtain ⟨a, ha, hfile⟩ := hkept b hb
          exact ⟨a, List.mem_append_left _ ha, hfile⟩
        · exact ⟨made, List.mem_append_left _ hmade, hname.trans hm.symm⟩
        · exact ⟨b, List.mem_append_right _ hb, rfl⟩
      obtain ⟨c, hc, hfile⟩ := hentered
      obtain ⟨a, ha, heq⟩ := ih hrest h c hc
      exact ⟨a, ha, heq.trans hfile⟩

theorem put_ne_nil (file : Json) (text : String) (as : List Artifact) : put file text as ≠ [] := by
  cases as with
  | nil => exact List.cons_ne_nil _ _
  | cons b rest =>
      rw [put]
      split <;> exact List.cons_ne_nil _ _

theorem collect_ne_nil {done as artifacts : List Artifact} (h : collect done as = .ok artifacts)
    (hne : done ++ as ≠ []) : artifacts ≠ [] := by
  induction as generalizing done with
  | nil =>
      cases h
      rwa [List.append_nil] at hne
  | cons first rest ih =>
      rw [collect] at h
      split at h
      · cases h
      · cases h
      · exact ih h (by simp [put_ne_nil])

end Artifact

namespace Edition

/-- The values that name the files of the artifacts. -/
def files (e : Edition) : List Json :=
  [e.settings.protocolFile, e.settings.mappingFile, e.settings.apiFile]

theorem exists_collect {e : Edition} {artifacts : List Artifact} (h : e.artifacts = .ok artifacts) :
    ∃ as, as ≠ [] ∧ as.map (·.file) = e.files ∧ Artifact.collect [] as = .ok artifacts := by
  obtain ⟨protocol, -, h⟩ := bind_eq_ok.1 h
  obtain ⟨mapping, -, h⟩ := bind_eq_ok.1 h
  obtain ⟨api, -, h⟩ := bind_eq_ok.1 h
  exact ⟨_, List.cons_ne_nil _ _, rfl, h⟩

theorem file_mem_files {e : Edition} {artifacts : List Artifact} (h : e.artifacts = .ok artifacts) {a : Artifact}
    (ha : a ∈ artifacts) : a.file ∈ e.files := by
  obtain ⟨as, -, hfiles, hcollect⟩ := exists_collect h
  obtain ⟨⟨b, hb, hfile⟩, -⟩ := Artifact.mem_of_collect hcollect a ha
  rw [← hfiles, hfile]
  exact List.mem_map.2 ⟨b, by simpa using hb, rfl⟩

end Edition

end ProtocolTypings
