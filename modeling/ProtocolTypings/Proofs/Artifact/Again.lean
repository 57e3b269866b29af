import ProtocolTypings.Proofs.Artifact.Comparison
import ProtocolTypings.Proofs.Artifact.Delivery
import ProtocolTypings.Proofs.File.Again

/-!
# Delivering again

What has been written is found up to date, and to write it again changes nothing. A file that its owner could not read
before stays so, and cannot be compared.
-/

namespace ProtocolTypings

open FileTree ProtocolTypings.Action

namespace Artifact

variable {folder p : Path} {root mid root' : FileTree} {log : List Log.Record} {output : OutputSection} {a : Artifact}

/-! ## One artifact -/

def announcement (p : Path) : Log.Record :=
  ⟨.info, .artifacts, "Writing to " ++ p.text⟩

def approval (p : Path) : Log.Record :=
  ⟨.debug, .artifacts, "Up to date: " ++ p.text⟩

/-- The text passes the check that is made before it is written. -/
def Passes (output : OutputSection) (a : Artifact) : Prop :=
  checkIf output.validate.truthy (.ofString a.text) = .ok ()

/-- The file is as a writing leaves it. -/
def HoldsAs (output : OutputSection) (root : FileTree) (p : Path) (l : List String) (f : StoredFile) : Prop :=
  if output.atomic.truthy then HoldsMoved root p l f else HoldsDirect root p l f

theorem HoldsAs.toHolds {l : List String} {f : StoredFile} (h : HoldsAs output root p l f) : Holds root p l f := by
  rw [HoldsAs] at h
  split at h
  · exact h.toHolds
  · exact h.toHolds

theorem HoldsAs.keep {l : List String} {f : StoredFile}
    (hfolders : ∀ l mode, root.nodeAt l = some (.folder mode) → root'.nodeAt l = some (.folder mode))
    (hfile : root'.nodeAt l = root.nodeAt l) (h : HoldsAs output root p l f) : HoldsAs output root' p l f := by
  rw [HoldsAs] at h ⊢
  split
  · rename_i hatomic
    rw [if_pos hatomic] at h
    exact h.keep hfolders hfile
  · rename_i hatomic
    rw [if_neg hatomic] at h
    exact h.keep hfolders hfile

/-- The artifact has been written to the path. -/
structure Stands (output : OutputSection) (folder : Path) (root root' : FileTree) (a : Artifact) (p : Path) : Prop where
  path : a.pathIn folder = .ok p
  passes : a.Passes output
  holds : ∃ l mode, HoldsAs output root' p l ⟨mode, a.text.toUTF8⟩ ∧ KeepsReadable root l mode

theorem Stands.keep (h : Stands output folder root mid a p)
    (hfolders : ∀ l mode, mid.nodeAt l = some (.folder mode) → root'.nodeAt l = some (.folder mode))
    (hfile : ∀ l f, mid.locate p = .ok l → mid.nodeAt l = some (.file f) → root'.nodeAt l = some (.file f)) :
    Stands output folder root root' a p := by
  obtain ⟨l, mode, hholds, hreadable⟩ := h.holds
  have hsame := hfile l _ hholds.toHolds.located hholds.toHolds.file
  exact ⟨h.path, h.passes, l, mode, hholds.keep hfolders (hsame.trans hholds.toHolds.file.symm), hreadable⟩

theorem stands_of_write {setting : OutputSetting} {q : Path}
    (h : run root (a.write setting folder) = (root', ⟨log, .ok q⟩)) :
    ∃ output, setting = .of output ∧ log = [announcement q] ∧ Stands output folder root root' a q ∧
      Written q a.text.toUTF8 root root' := by
  obtain ⟨p, hp, hrest⟩ := run_ofExcept_bind_eq_ok h
  obtain ⟨mid, before, ⟨⟩, rest, hreport, hbody, rfl⟩ := run_bind_eq_ok hrest
  cases hreport
  cases setting with
  | other | missing => cases hbody
  | of output =>
      dsimp only at hbody
      split at hbody
      · rename_i hatomic
        obtain ⟨last, before, ⟨⟩, after, hwrite, hpure, rfl⟩ := run_bind_eq_ok hbody
        cases hpure
        obtain ⟨rfl, ⟨fault, herror, -⟩ | ⟨-, -, hwritten⟩⟩ :=
          writes_writeAtomically (Content.encode_ofString a.text) q _ hwrite
        · cases herror
        obtain ⟨hcheck, bytes, l, mode, hencode, hholds, hreadable⟩ := holdsMoved_of_written hwrite
        cases (Content.encode_ofString a.text).symm.trans hencode
        refine ⟨output, rfl, rfl, ⟨hp, hcheck, l, mode, ?_, hreadable⟩, hwritten⟩
        rw [HoldsAs, if_pos hatomic]
        exact hholds
      · rename_i hatomic
        obtain ⟨⟨⟩, hcheck, hbody⟩ := run_ofExcept_bind_eq_ok hbody
        obtain ⟨last, before, ⟨⟩, after, hwrite, hpure, rfl⟩ := run_bind_eq_ok hbody
        cases hpure
        obtain ⟨rfl, ⟨fault, herror, -⟩ | ⟨-, -, hwritten⟩⟩ :=
          writes_writeDirectly (Content.encode_ofString a.text) q hwrite
        · cases herror
        obtain ⟨bytes, l, mode, hencode, hholds, hreadable⟩ := holdsDirect_of_written hwrite
        cases (Content.encode_ofString a.text).symm.trans hencode
        refine ⟨output, rfl, rfl, ⟨hp, hcheck, l, mode, ?_, hreadable⟩, hwritten⟩
        rw [HoldsAs, if_neg hatomic]
        exact hholds

theorem run_write_again {before : FileTree} (h : Stands output folder before root a p)
    (hroom : output.atomic.truthy = true → root.HasRoom p) :
    ∃ root', run root (a.write (.of output) folder) = (root', ⟨[announcement p], .ok p⟩) ∧
      ∀ l, root'.nodeAt l = root.nodeAt l := by
  obtain ⟨l, mode, hholds, -⟩ := h.holds
  have hbytes := Content.encode_ofString a.text
  have hpath : run root (ofExcept (a.pathIn folder)) = (root, ⟨[], .ok p⟩) := by rw [h.path, run_ofExcept]
  have hreport : run root (report .info .artifacts ("Writing to " ++ p.text)) = (root, ⟨[announcement p], .ok ()⟩) :=
    rfl
  have hcheck := h.passes
  rw [Passes] at hcheck
  rw [HoldsAs] at hholds
  split at hholds
  · rename_i hatomic
    obtain ⟨root', hwrite, hsame⟩ := run_writeAtomically_again hbytes hholds hcheck (hroom hatomic)
    refine ⟨root', run_bind_of_run hpath (run_bind_of_run hreport ?_), hsame⟩
    dsimp only
    rw [if_pos hatomic]
    exact run_bind_of_run hwrite rfl
  · rename_i hatomic
    obtain ⟨root', hwrite, hsame⟩ := run_writeDirectly_again hbytes hholds
    refine ⟨root', run_bind_of_run hpath (run_bind_of_run hreport ?_), hsame⟩
    dsimp only
    rw [if_neg hatomic, hcheck]
    exact run_bind_of_run (run_ofExcept (.ok ())) (run_bind_of_run hwrite rfl)

theorem run_isCurrent {l : List String} {mode : Mode} (h : Holds root p l ⟨mode, a.text.toUTF8⟩) :
    run root (isCurrent p a) =
      (root, ⟨[], if mode.readable then .ok true else .error (.file .notPermitted)⟩) := by
  have hthere : run root (isThere p) = (root, ⟨[], .ok true⟩) := by
    rw [isThere, run_ask, perform, find_of_locate h.located (nodeAt_eq_file.1 h.file)]
    rfl
  have hread := read_of_file h.located h.file
  rw [isCurrent, run_bind_of_ok hthere, if_pos rfl]
  split
  · rename_i hreadable
    have hperform : perform root (.read p) = (root, .ok a.text.toUTF8) := by
      rw [perform, hread, if_pos hreadable]
    rw [run_bind_of_ok (run_request_of_ok hperform)]
    show (root, Logged.mk [] (.ok (a.text.toUTF8 == a.text.toUTF8))) = _
    rw [bytes_beq_iff.2 rfl]
  · rename_i hreadable
    have hfails : run root (request (.read p)) = (root, ⟨[], .error (.file .notPermitted)⟩) := by
      rw [request, run_ask, perform, hread, if_neg hreadable]
      rfl
    rw [run_bind_of_error hfails]
    rfl

/-! ## One after the other -/

/-- The paths of the artifacts lead to different locations. -/
def Apart (folder : Path) (a b : Artifact) : Prop :=
  ∀ p q, a.pathIn folder = .ok p → b.pathIn folder = .ok q → p.straighten.components ≠ q.straighten.components

theorem exists_output {setting : OutputSetting} {as : List Artifact} {paths : List Path} (hne : as ≠ [])
    (h : run root (writeAll setting folder as) = (root', ⟨log, .ok paths⟩)) : ∃ output, setting = .of output := by
  cases as with
  | nil => exact absurd rfl hne
  | cons a as =>
      obtain ⟨mid, before, q, after, hwrite, -, -⟩ := run_bind_eq_ok h
      obtain ⟨output, hsetting, -⟩ := stands_of_write hwrite
      exact ⟨output, hsetting⟩

theorem stands_of_writeAll {as : List Artifact} {paths : List Path} (hapart : as.Pairwise (Apart folder))
    (h : run root (writeAll (.of output) folder as) = (root', ⟨log, .ok paths⟩)) :
    log = paths.map announcement ∧ Delivered folder as root root' ∧
      List.Forall₂ (Stands output folder root root') as paths := by
  induction as generalizing root log paths with
  | nil =>
      cases h
      exact ⟨rfl, Delivered.of_grows folder (Grows.refl [] _), .nil⟩
  | cons a as ih =>
      obtain ⟨ha, has⟩ := List.pairwise_cons.1 hapart
      obtain ⟨mid, before, q, after, hwrite, hrest, rfl⟩ := run_bind_eq_ok h
      obtain ⟨_, hsetting, rfl, hstands, hwritten⟩ := stands_of_write hwrite
      cases hsetting
      obtain ⟨last, before, qs, after, hall, hpure, rfl⟩ := run_bind_eq_ok hrest
      cases hpure
      obtain ⟨rfl, hdelivered, hothers⟩ := ih has hall
      refine ⟨by simp, hdelivered.cons hstands.path hwritten, .cons ?_ ?_⟩
      · refine hstands.keep hdelivered.folders fun l f hl hfile => (hdelivered.files l ?_ f).2 hfile
        rintro b hb ⟨p, hp, hlies⟩
        exact ha b hb q p hstands.path hp ((locate_eq_straighten hl).symm.trans (locate_eq_straighten hlies))
      · obtain ⟨l, mode, hl, -, hgrows⟩ := hwritten
        refine ((List.forall₂_and_left _ _).2 ⟨ha, hothers⟩).imp ?_
        rintro b p ⟨hb, hpath, hpasses, l', mode', hholds, hreadable⟩
        refine ⟨hpath, hpasses, l', mode', hholds, hreadable.of_grows hgrows fun hmem => ?_⟩
        obtain rfl := List.mem_singleton.1 hmem
        exact hb q p hstands.path hpath
          ((locate_eq_straighten hl).symm.trans (locate_eq_straighten hholds.toHolds.located))

section Written

variable {before : FileTree} {as : List Artifact} {paths : List Path}

theorem run_writeAll_again (h : List.Forall₂ (Stands output folder before root) as paths)
    (hroom : output.atomic.truthy = true → ∀ p ∈ paths, root.HasRoom p) :
    ∃ root', run root (writeAll (.of output) folder as) = (root', ⟨paths.map announcement, .ok paths⟩) ∧
      ∀ l, root'.nodeAt l = root.nodeAt l := by
  induction as generalizing root paths with
  | nil =>
      cases h
      exact ⟨root, rfl, fun l => rfl⟩
  | cons a as ih =>
      cases h with
      | @cons _ q _ qs hstands hothers =>
          obtain ⟨mid, hwrite, hmid⟩ := run_write_again hstands fun hatomic => hroom hatomic q List.mem_cons_self
          have hfolders : ∀ l mode, root.nodeAt l = some (.folder mode) → mid.nodeAt l = some (.folder mode) :=
            fun l mode hl => (hmid l).trans hl
          have hothers' : List.Forall₂ (Stands output folder before mid) as qs :=
            hothers.imp fun b p hb => hb.keep hfolders fun l f _ hfile => (hmid l).trans hfile
          have hroom' : output.atomic.truthy = true → ∀ p ∈ qs, mid.HasRoom p := by
            intro hatomic p hp
            obtain ⟨l, hl, i, hi, hfree⟩ := hroom hatomic p (List.mem_cons_of_mem q hp)
            exact ⟨l, locate_of_folders hfolders hl, i, hi, (hmid _).trans hfree⟩
          obtain ⟨root', hall, hsame⟩ := ih hothers' hroom'
          refine ⟨root', ?_, fun l => (hsame l).trans (hmid l)⟩
          rw [writeAll, run_bind_of_ok hwrite, run_bind_of_ok hall, run_pure, List.append_nil]
          rfl

theorem Stands.readable (h : Stands output folder before root a p) :
    ∃ mode, Holds root p p.straighten.components ⟨mode, a.text.toUTF8⟩ ∧
      (mode.readable = true ↔ before.AllowsReading p.straighten.components) := by
  obtain ⟨l, mode, hholds, hreadable⟩ := h.holds
  obtain rfl := locate_eq_straighten hholds.toHolds.located
  exact ⟨mode, hholds.toHolds, hreadable⟩

theorem run_outdated_of_readable (h : Stands output folder before root a p)
    (hreadable : before.AllowsReading p.straighten.components) :
    run root (outdated folder (a :: as)) =
      ((run root (outdated folder as)).1,
        ⟨approval p :: (run root (outdated folder as)).2.log, (run root (outdated folder as)).2.result⟩) := by
  obtain ⟨mode, hholds, hmode⟩ := h.readable
  have hpath : run root (ofExcept (a.pathIn folder)) = (root, ⟨[], .ok p⟩) := by rw [h.path, run_ofExcept]
  have hcurrent := run_isCurrent hholds
  rw [if_pos (hmode.2 hreadable)] at hcurrent
  rw [outdated, run_bind_of_ok hpath, run_bind_of_ok hcurrent]
  rfl

theorem run_outdated_of_unreadable (h : Stands output folder before root a p)
    (hunreadable : ¬ before.AllowsReading p.straighten.components) :
    run root (outdated folder (a :: as)) = (root, ⟨[], .error (.file .notPermitted)⟩) := by
  obtain ⟨mode, hholds, hmode⟩ := h.readable
  have hpath : run root (ofExcept (a.pathIn folder)) = (root, ⟨[], .ok p⟩) := by rw [h.path, run_ofExcept]
  have hcurrent := run_isCurrent hholds
  rw [if_neg (mt hmode.1 hunreadable)] at hcurrent
  rw [outdated, run_bind_of_ok hpath, run_bind_of_error hcurrent]
  rfl

theorem run_outdated_clean (h : List.Forall₂ (Stands output folder before root) as paths)
    (hreadable : ∀ p ∈ paths, before.AllowsReading p.straighten.components) :
    run root (outdated folder as) = (root, ⟨paths.map approval, .ok []⟩) := by
  induction h with
  | nil => rfl
  | @cons b q as qs hstands hothers ih =>
      rw [run_outdated_of_readable hstands (hreadable q List.mem_cons_self),
        ih fun p hp => hreadable p (List.mem_cons_of_mem q hp)]
      rfl

theorem run_outdated_refused (h : List.Forall₂ (Stands output folder before root) as paths)
    (hnot : ∃ p ∈ paths, ¬ before.AllowsReading p.straighten.components) :
    ∃ log, run root (outdated folder as) = (root, ⟨log, .error (.file .notPermitted)⟩) := by
  induction h with
  | nil =>
      obtain ⟨p, hp, -⟩ := hnot
      cases hp
  | @cons b q as qs hstands hothers ih =>
      by_cases hallows : before.AllowsReading q.straighten.components
      · rw [run_outdated_of_readable hstands hallows]
        obtain ⟨p, hp, hforbids⟩ := hnot
        rcases List.mem_cons.1 hp with rfl | hp
        · exact absurd hallows hforbids
        · obtain ⟨log, hrest⟩ := ih ⟨p, hp, hforbids⟩
          exact ⟨approval q :: log, by rw [hrest]⟩
      · exact ⟨[], run_outdated_of_unreadable hstands hallows⟩

end Written

end Artifact

namespace Edition

open Artifact

variable {e : Edition} {folder : Path} {root root' : FileTree} {log : List Log.Record}

/-- Different names of files lead to different locations in the folder. -/
def NamesApart (e : Edition) (folder : Path) : Prop :=
  ∀ m n, .str m ∈ e.files → .str n ∈ e.files → m ≠ n →
    (folder.resolve m).straighten ≠ (folder.resolve n).straighten

/-- The edition with the mode in which artifacts are compared. -/
def checking (e : Edition) : Except Fault Edition := do
  return { e with settings := ← e.settings.withMode .check }

theorem NamesFiles.apart (hnames : e.NamesFiles) (hapart : e.NamesApart folder) {artifacts : List Artifact}
    (h : e.artifacts = .ok artifacts) : artifacts.Pairwise (Apart folder) := by
  obtain ⟨as, -, hfiles, hcollect⟩ := exists_collect h
  have hnone : (([] : List Artifact).map (·.file)).Nodup := List.nodup_nil
  have hnodup := nodup_collect (hnames.named hfiles) hnone hcollect
  rw [List.Nodup, List.pairwise_map] at hnodup
  refine hnodup.imp_of_mem fun {a b} ha hb hne p q hp hq heq => ?_
  have hmem := file_mem_files h ha
  have hmem' := file_mem_files h hb
  obtain ⟨m, hm⟩ := hnames.exists_name a.file hmem
  obtain ⟨n, hn⟩ := hnames.exists_name b.file hmem'
  rw [hm] at hmem hne
  rw [hn] at hmem' hne
  rw [pathIn, hm] at hp
  rw [pathIn, hn] at hq
  cases hp
  cases hq
  exact hapart m n hmem hmem' (fun h => hne (congrArg Json.str h)) (congrArg (Path.mk · .one) heq)

theorem exists_checking {output : OutputSection} (h : e.settings.output = .of output) : ∃ e', e.checking = .ok e' := by
  rw [checking, Settings.withMode, Settings.outputSection, h]
  exact ⟨_, rfl⟩

theorem deliver_checking {e' : Edition} (h : e.checking = .ok e') :
    e'.deliver folder = e.outdated folder >>= fun
      | [] => pure []
      | stale => .fail (.refusal (.artifact (.outOfDate (stale.map (·.text))))) := by
  obtain ⟨s, hs, h⟩ := bind_eq_ok.1 h
  cases h
  obtain ⟨output, -, hs⟩ := bind_eq_ok.1 hs
  cases hs
  exact deliver_of_check rfl rfl

theorem run_outdated {artifacts : List Artifact} (h : e.artifacts = .ok artifacts) :
    run root (e.outdated folder) = run root (Artifact.outdated folder artifacts) := by
  rw [outdated, h]
  exact run_bind_of_ok (run_ofExcept _) _

theorem NamesFiles.stands (hnames : e.NamesFiles) (hapart : e.NamesApart folder) {paths : List Path}
    (h : run root (e.write folder) = (root', ⟨log, .ok paths⟩)) :
    ∃ output artifacts, e.settings.output = .of output ∧ e.artifacts = .ok artifacts ∧
      log = paths.map announcement ∧ List.Forall₂ (Stands output folder root root') artifacts paths := by
  obtain ⟨output, hpresent, h⟩ := run_ofExcept_bind_eq_ok h
  obtain ⟨-, rfl⟩ := Settings.presentOutput_eq_ok.1 hpresent
  obtain ⟨artifacts, hartifacts, hwrite⟩ := run_ofExcept_bind_eq_ok h
  obtain ⟨as, hne, -, hcollect⟩ := exists_collect hartifacts
  obtain ⟨output, houtput⟩ := exists_output (collect_ne_nil hcollect hne) hwrite
  rw [houtput] at hwrite
  obtain ⟨hlog, -, hstands⟩ := stands_of_writeAll (hnames.apart hapart hartifacts) hwrite
  exact ⟨output, artifacts, houtput, hartifacts, hlog, hstands⟩

/-- What has been written is up to date, and to write it again changes nothing, if only there is room for temporary files.
The files that were there may have any mode that lets their owner read them. With another one they are written just as
well, but cannot be compared. -/
theorem NamesFiles.write_repeats (hnames : e.NamesFiles) (hapart : e.NamesApart folder) {paths : List Path}
    (h : (e.write folder).run root = (root', ⟨log, .ok paths⟩)) :
    ((∀ output, e.settings.output = .of output → output.atomic.truthy = true → ∀ p ∈ paths, root'.HasRoom p) →
      ∃ root'', (e.write folder).run root' = (root'', ⟨log, .ok paths⟩) ∧ ∀ l, root''.nodeAt l = root'.nodeAt l) ∧
    ∃ e', e.checking = .ok e' ∧
      ((∀ p ∈ paths, root.AllowsReading p.straighten.components) →
        (e.outdated folder).run root' = (root', ⟨paths.map approval, .ok []⟩) ∧
        (e'.deliver folder).run root' = (root', ⟨paths.map approval, .ok []⟩)) ∧
      ((∃ p ∈ paths, ¬ root.AllowsReading p.straighten.components) →
        ∃ log', (e.outdated folder).run root' = (root', ⟨log', .error (.file .notPermitted)⟩) ∧
          (e'.deliver folder).run root' = (root', ⟨log', .error (.file .notPermitted)⟩)) := by
  obtain ⟨output, artifacts, houtput, hartifacts, rfl, hstands⟩ := hnames.stands hapart h
  obtain ⟨e', hchecking⟩ := exists_checking houtput
  refine ⟨fun hroom => ?_, e', hchecking, fun hreadable => ?_, fun hunreadable => ?_⟩
  · obtain ⟨root'', hagain, hsame⟩ := run_writeAll_again hstands (hroom output houtput)
    have hpresent : run root' (ofExcept e.settings.presentOutput) = (root', ⟨[], .ok (.of output)⟩) := by
      rw [Settings.presentOutput, houtput, run_ofExcept]
    have hmake : run root' (ofExcept e.artifacts) = (root', ⟨[], .ok artifacts⟩) := by rw [hartifacts, run_ofExcept]
    exact ⟨root'', run_bind_of_run hpresent (run_bind_of_run hmake hagain), hsame⟩
  · have hclean := (run_outdated hartifacts).trans (run_outdated_clean hstands hreadable)
    refine ⟨hclean, ?_⟩
    rw [deliver_checking hchecking, run_bind_of_ok hclean, run_pure, List.append_nil]
  · obtain ⟨log', hrefused⟩ := run_outdated_refused hstands hunreadable
    rw [← run_outdated hartifacts] at hrefused
    refine ⟨log', hrefused, ?_⟩
    rw [deliver_checking hchecking, run_bind_of_error hrefused]

theorem unchecked_namesApart : unchecked.NamesApart ⟨[], .one⟩ := by
  have hnames : ∀ m ∈ ["protocol.d.ts", "protocol-mapping.d.ts", "protocol-proxy-api.d.ts"],
      ∀ n ∈ ["protocol.d.ts", "protocol-mapping.d.ts", "protocol-proxy-api.d.ts"], m ≠ n →
        (Path.resolve ⟨[], .one⟩ m).straighten ≠ (Path.resolve ⟨[], .one⟩ n).straighten := by decide +kernel
  intro m n hm hn
  refine hnames m ?_ n ?_
  · simpa [files, unchecked] using hm
  · simpa [files, unchecked] using hn

/-- The paths of the artifacts in the root folder. -/
def uncheckedPaths : List Path :=
  [⟨["protocol.d.ts"], .one⟩, ⟨["protocol-mapping.d.ts"], .one⟩, ⟨["protocol-proxy-api.d.ts"], .one⟩]

theorem write_repeats_unchecked : unchecked.NamesFiles ∧ unchecked.NamesApart ⟨[], .one⟩ ∧ ∃ root' log,
    (unchecked.write ⟨[], .one⟩).run .empty = (root', ⟨log, .ok uncheckedPaths⟩) ∧
    (∀ p ∈ uncheckedPaths, root'.HasRoom p) ∧
    (∃ root'', (unchecked.write ⟨[], .one⟩).run root' = (root'', ⟨log, .ok uncheckedPaths⟩) ∧
      ∀ l, root''.nodeAt l = root'.nodeAt l) ∧
    (∀ p ∈ uncheckedPaths, FileTree.empty.AllowsReading p.straighten.components) ∧
    (unchecked.outdated ⟨[], .one⟩).run root' = (root', ⟨uncheckedPaths.map approval, .ok []⟩) := by
  have hnames : unchecked.NamesFiles := ⟨⟨_, rfl⟩, ⟨_, rfl⟩, ⟨_, rfl⟩⟩
  have hwritten : ((unchecked.write ⟨[], .one⟩).run .empty).2.result = .ok uncheckedPaths ∧ ∀ p ∈ uncheckedPaths,
      (((unchecked.write ⟨[], .one⟩).run .empty).1.entryAt [temporaryName p.name 0]).isNone = true := by
    decide +kernel
  have hreadable : ∀ p ∈ uncheckedPaths, FileTree.empty.AllowsReading p.straighten.components := by
    intro p hp f hf
    have hnone : ∀ p ∈ uncheckedPaths, (FileTree.empty.entryAt p.straighten.components).isNone = true := by decide
    have hnone' := Option.isNone_iff_eq_none.1 (hnone p hp)
    rw [nodeAt, hnone'] at hf
    cases hf
  generalize hrun : (unchecked.write ⟨[], .one⟩).run .empty = r at hwritten ⊢
  obtain ⟨root', log, result⟩ := r
  obtain ⟨hresult, hfree⟩ := hwritten
  cases hresult
  have hroom : ∀ p ∈ uncheckedPaths, root'.HasRoom p := by
    intro p hp
    have hparent : ∀ p ∈ uncheckedPaths, p.parent = ⟨[], .one⟩ := by decide
    refine ⟨[], ?_, 0, by decide, nodeAt_eq_none.2 (Option.isNone_iff_eq_none.1 (hfree p hp))⟩
    rw [hparent p hp]
    exact locate_eq_ok.2 ⟨rfl, by decide, rfl⟩
  obtain ⟨hagain, e', -, hclean, -⟩ := hnames.write_repeats unchecked_namesApart hrun
  exact ⟨hnames, unchecked_namesApart, root', log, rfl, hroom, hagain fun _ _ _ => hroom, hreadable,
    (hclean hreadable).1⟩

/-- A file that its owner may write but not read stands where the protocol is to be written. -/
def writeOnly : FileTree :=
  .folder .newFolder [("protocol.d.ts", .file ⟨⟨0o200⟩, .empty⟩)]

theorem written_not_comparable : unchecked.NamesFiles ∧ unchecked.NamesApart ⟨[], .one⟩ ∧ ∃ root' log log',
    (unchecked.write ⟨[], .one⟩).run writeOnly = (root', ⟨log, .ok uncheckedPaths⟩) ∧
    (unchecked.outdated ⟨[], .one⟩).run root' = (root', ⟨log', .error (.file .notPermitted)⟩) := by
  have hnames : unchecked.NamesFiles := ⟨⟨_, rfl⟩, ⟨_, rfl⟩, ⟨_, rfl⟩⟩
  have hresult : ((unchecked.write ⟨[], .one⟩).run writeOnly).2.result = .ok uncheckedPaths := by decide +kernel
  generalize hrun : (unchecked.write ⟨[], .one⟩).run writeOnly = r at hresult ⊢
  obtain ⟨root', log, result⟩ := r
  cases hresult
  obtain ⟨output, artifacts, -, hartifacts, -, hstands⟩ := hnames.stands unchecked_namesApart hrun
  have hunreadable : ¬ writeOnly.AllowsReading ["protocol.d.ts"] := fun hallows =>
    absurd (hallows ⟨⟨0o200⟩, .empty⟩ rfl) (by decide)
  obtain ⟨log', hrefused⟩ := run_outdated_refused hstands ⟨_, List.mem_cons_self, hunreadable⟩
  exact ⟨hnames, unchecked_namesApart, root', log, log', rfl, (run_outdated hartifacts).trans hrefused⟩

end Edition

end ProtocolTypings
