import ProtocolTypings.Proofs.File.Beside
import ProtocolTypings.Proofs.File.Writing

/-!
# Writing again

A file that has been written can be written again in the same way, and then nothing changes. What makes it so is kept
by all that leaves the folders and the file alone.
-/

namespace ProtocolTypings

namespace FileTree

variable {root root' : FileTree} {p : Path} {l : List String} {f : StoredFile}

/-! ## Files that have been written -/

def IsFolder (root : FileTree) (p : Path) : Prop :=
  ∃ l mode, root.locate p = .ok l ∧ root.nodeAt l = some (.folder mode)

/-- The path leads to the file, and the path above it to a folder. -/
structure Holds (root : FileTree) (p : Path) (l : List String) (f : StoredFile) : Prop where
  located : root.locate p = .ok l
  file : root.nodeAt l = some (.file f)
  folder : root.IsFolder p.parent

/-- The file is as a direct writing leaves it. -/
structure HoldsDirect (root : FileTree) (p : Path) (l : List String) (f : StoredFile) : Prop
    extends Holds root p l f where
  writable : f.mode.writable = true
  written : f.mode.written = f.mode

/-- The file is as a writing through a temporary file leaves it. -/
structure HoldsMoved (root : FileTree) (p : Path) (l : List String) (f : StoredFile) : Prop
    extends Holds root p l f where
  replaceable : root.Replaceable p l
  allows : root.Allows p

section Keeping

variable (hfolders : ∀ l mode, root.nodeAt l = some (.folder mode) → root'.nodeAt l = some (.folder mode))

include hfolders

theorem IsFolder.keep (h : root.IsFolder p) : root'.IsFolder p := by
  obtain ⟨l, mode, hl, hfolder⟩ := h
  exact ⟨l, mode, locate_of_folders hfolders hl, hfolders l mode hfolder⟩

theorem mayChange_of_folders (h : root.mayChange l = true) : root'.mayChange l = true := by
  obtain ⟨mode, hfolder, hwritable⟩ := mayChange_iff.1 h
  exact mayChange_iff.2 ⟨mode, hfolders _ mode hfolder, hwritable⟩

theorem Allows.keep (h : root.Allows p) : root'.Allows p := by
  obtain ⟨l, mode, hl, hfolder, hwritable, i, s, hs⟩ := h
  exact ⟨l, mode, locate_of_folders hfolders hl, hfolders l mode hfolder, hwritable, i, s,
    locate_of_folders hfolders hs⟩

theorem Replaceable.keep (h : root.Replaceable p l) (hnoFolder : ∀ mode, root'.nodeAt l ≠ some (.folder mode)) :
    root'.Replaceable p l :=
  ⟨h.name, h.components, mayChange_of_folders hfolders h.mayChange, hnoFolder⟩

variable (hfile : root'.nodeAt l = root.nodeAt l)

include hfile

theorem Holds.keep (h : Holds root p l f) : Holds root' p l f :=
  ⟨locate_of_folders hfolders h.located, hfile.trans h.file, h.folder.keep hfolders⟩

theorem HoldsDirect.keep (h : HoldsDirect root p l f) : HoldsDirect root' p l f :=
  ⟨h.toHolds.keep hfolders hfile, h.writable, h.written⟩

theorem HoldsMoved.keep (h : HoldsMoved root p l f) : HoldsMoved root' p l f where
  toHolds := h.toHolds.keep hfolders hfile
  replaceable := h.replaceable.keep hfolders (by rw [hfile]; exact h.replaceable.noFolder)
  allows := h.allows.keep hfolders

end Keeping

/-- If there is a file at the location, its owner may read it. -/
def AllowsReading (root : FileTree) (l : List String) : Prop :=
  ∀ f, root.nodeAt l = some (.file f) → f.mode.readable = true

/-- A file with the mode may be read if that holds of the file that was there before. -/
def KeepsReadable (root : FileTree) (l : List String) (mode : Mode) : Prop :=
  mode.readable = true ↔ root.AllowsReading l

theorem keepsReadable_of_file {mode : Mode} (hfile : root.nodeAt l = some (.file f))
    (hmode : mode.readable = f.mode.readable) : KeepsReadable root l mode := by
  rw [KeepsReadable, hmode]
  constructor
  · intro h g hg
    rw [hfile] at hg
    cases hg
    exact h
  · intro h
    exact h f hfile

theorem keepsReadable_of_noFile {mode : Mode} (hnone : ∀ f, root.nodeAt l ≠ some (.file f))
    (hmode : mode.readable = true) : KeepsReadable root l mode :=
  ⟨fun _ f hf => absurd hf (hnone f), fun _ => hmode⟩

theorem LeavesMode.keepsReadable {mode : Mode} (h : LeavesMode root l mode) : KeepsReadable root l mode := by
  rcases h with ⟨f, hfile, -, rfl⟩ | ⟨hnone, rfl⟩
  · exact keepsReadable_of_file hfile f.mode.readable_written
  · exact keepsReadable_of_noFile (by simp [hnone]) (by decide)

/-- The mode of what stands somewhere, or that of a new file. -/
def modeOf : Option Node → Mode
  | some (.folder mode) => mode
  | some (.file f) => f.mode
  | none => .newFile

theorem keepsReadable_modeOf (h : ∀ mode, root.nodeAt l ≠ some (.folder mode)) :
    KeepsReadable root l (modeOf (root.nodeAt l)) := by
  rcases hnode : root.nodeAt l with - | (mode | f)
  · exact keepsReadable_of_noFile (by simp [hnode]) (by decide)
  · exact absurd hnode (h mode)
  · exact keepsReadable_of_file hnode rfl

/-- Where files are as they were, it makes no difference when one looks at them. -/
theorem KeepsReadable.of_grows {mode : Mode} {written : List (List String)} (hgrows : Grows written root root')
    (hl : l ∉ written) (h : KeepsReadable root' l mode) : KeepsReadable root l mode :=
  h.trans (forall_congr' fun f => imp_congr_left (hgrows.files l hl f))

end FileTree

namespace Action

open FileTree

variable {root root' : FileTree} {p : Path} {l : List String} {log : List Log.Record}

/-! ## Making folders -/

theorem isFolder_of_unlessFolder {fault : FileFault} (h : run root (unlessFolder p fault) = (root', ⟨log, .ok ()⟩)) :
    root'.IsFolder p := by
  rw [unlessFolder, run_ask] at h
  rcases hfind : root.find p with cause | tree
  · simp only [perform, hfind, map_error] at h
    cases h
  · cases tree with
    | file f =>
        simp only [perform, hfind, map_ok, statusOf] at h
        cases h
    | folder mode entries =>
        simp only [perform, hfind, map_ok, statusOf] at h
        cases h
        obtain ⟨l, hl, hentry⟩ := find_eq_ok hfind
        exact ⟨l, mode, hl, nodeAt_eq_folder.2 ⟨entries, hentry⟩⟩

theorem isFolder_of_made (h : root.makeFolder p = .ok root') : root'.IsFolder p := by
  obtain ⟨l, hl, -, hnodes⟩ := makeFolder_eq_ok h
  exact ⟨l, .newFolder, (grows_makeFolder h).locate hl, by rw [hnodes l, if_pos rfl]⟩

theorem isFolder_of_makeFolder (h : run root (Action.makeFolder p) = (root', ⟨log, .ok ()⟩)) : root'.IsFolder p := by
  rw [Action.makeFolder, run_ask] at h
  rcases hmade : root.makeFolder p with cause | tree
  · simp only [perform, hmade, changed] at h
    exact isFolder_of_unlessFolder h
  · simp only [perform, hmade, changed] at h
    cases h
    exact isFolder_of_made hmade

theorem isFolder_of_makeFoldersTo {cs : List String} (h : run root (makeFoldersTo p cs) = (root', ⟨log, .ok ()⟩)) :
    root'.IsFolder { p with components := cs.reverse } := by
  cases cs with
  | nil => exact isFolder_of_makeFolder h
  | cons c above =>
      rw [makeFoldersTo, run_ask] at h
      rcases hmade : root.makeFolder { p with components := (c :: above).reverse } with cause | tree
      · simp only [perform, hmade, changed] at h
        split at h
        · rename_i heq
          cases heq
        · obtain ⟨mid, before, b, after, -, hmake, -⟩ := run_bind_eq_ok h
          exact isFolder_of_makeFolder hmake
        · exact isFolder_of_unlessFolder h
      · simp only [perform, hmade, changed] at h
        cases h
        exact isFolder_of_made hmade

theorem isFolder_of_makeFolders (h : run root (makeFolders p) = (root', ⟨log, .ok ()⟩)) : root'.IsFolder p := by
  have hfolder := isFolder_of_makeFoldersTo h
  rwa [List.reverse_reverse] at hfolder

theorem run_unlessFolder_of_isFolder (h : root.IsFolder p) (fault : FileFault) :
    run root (unlessFolder p fault) = (root, ⟨[], .ok ()⟩) := by
  obtain ⟨l, mode, hl, hfolder⟩ := h
  obtain ⟨entries, hentry⟩ := nodeAt_eq_folder.1 hfolder
  rw [unlessFolder, run_ask, perform, find_of_locate hl hentry]
  rfl

theorem run_makeFoldersTo_of_isFolder {cs : List String} (h : root.IsFolder { p with components := cs.reverse }) :
    run root (makeFoldersTo p cs) = (root, ⟨[], .ok ()⟩) := by
  obtain ⟨l, mode, hl, hfolder⟩ := h
  have hmade := makeFolder_of_folder hl hfolder
  cases cs with
  | nil =>
      rw [List.reverse_nil] at hmade
      rw [makeFoldersTo, Action.makeFolder, run_ask, perform, hmade]
      exact run_unlessFolder_of_isFolder ⟨l, mode, hl, hfolder⟩ _
  | cons c above =>
      rw [makeFoldersTo, run_ask, perform, hmade]
      exact run_unlessFolder_of_isFolder ⟨l, mode, hl, hfolder⟩ _

/-- Nothing is done where the folder is there. -/
theorem run_makeFolders_of_isFolder (h : root.IsFolder p) : run root (makeFolders p) = (root, ⟨[], .ok ()⟩) := by
  refine run_makeFoldersTo_of_isFolder ?_
  rwa [List.reverse_reverse]

/-! ## Directly -/

section

variable {content : Content} {bytes : ByteArray}

theorem writeDirectly_eq_ok (h : run root (writeDirectly p content) = (root', ⟨log, .ok ()⟩)) :
    ∃ bytes mid l mode, content.encode = .ok bytes ∧ run root (makeFolders p.parent) = (mid, ⟨[], .ok ()⟩) ∧
      mid.locate p = .ok l ∧ LeavesMode mid l mode ∧ WithFile l ⟨mode, bytes⟩ mid root' := by
  obtain ⟨mid, before, ⟨⟩, after, hfolders, hwrite, -⟩ := run_bind_eq_ok h
  obtain ⟨rfl, -⟩ := gentle_makeFolders p.parent hfolders
  obtain ⟨bytes, hencode, hperform⟩ := run_writeContent_eq_ok hwrite
  obtain ⟨l, mode, hl, hmode, hwith⟩ := write_eq_ok (changed_eq_ok hperform)
  exact ⟨bytes, mid, l, mode, hencode, hfolders, hl, hmode, hwith⟩

theorem holdsDirect_of_written (h : run root (writeDirectly p content) = (root', ⟨log, .ok ()⟩)) :
    ∃ bytes l mode, content.encode = .ok bytes ∧ HoldsDirect root' p l ⟨mode, bytes⟩ ∧ KeepsReadable root l mode := by
  obtain ⟨bytes, mid, l, mode, hencode, hfolders, hl, hmode, hwith⟩ := writeDirectly_eq_ok h
  have hgrows := hwith.grows hmode.ne_folder
  have hholds : Holds root' p l ⟨mode, bytes⟩ :=
    ⟨hgrows.locate hl, hwith.self, (isFolder_of_makeFolders hfolders).keep hgrows.folders⟩
  refine ⟨bytes, l, mode, hencode, ?_,
    hmode.keepsReadable.of_grows (gentle_makeFolders p.parent hfolders).2 List.not_mem_nil⟩
  rcases hmode with ⟨f, -, hwritable, rfl⟩ | ⟨-, rfl⟩
  · exact ⟨hholds, f.mode.writable_written.trans hwritable, f.mode.written_written⟩
  · exact ⟨hholds, show Mode.newFile.writable = true by decide, show Mode.newFile.written = .newFile by decide⟩

theorem run_writeDirectly_again {mode : Mode} (hbytes : content.encode = .ok bytes)
    (h : HoldsDirect root p l ⟨mode, bytes⟩) :
    ∃ root', run root (writeDirectly p content) = (root', ⟨[], .ok ()⟩) ∧ ∀ l, root'.nodeAt l = root.nodeAt l := by
  obtain ⟨root', hwrite, hwith⟩ := write_of_writable bytes h.located h.file h.writable
  have hperform : perform root (.write p bytes) = (root', .ok ()) := by rw [perform, hwrite, changed]
  refine ⟨root', ?_, fun l' => ?_⟩
  · rw [writeDirectly, writeContent_of_encode hbytes]
    exact run_bind_of_run (run_makeFolders_of_isFolder h.folder) (run_request_of_ok hperform)
  · rw [hwith l', h.written]
    split
    · rename_i heq
      rw [heq, h.file]
    · rfl

end

/-! ## Through a temporary file -/

theorem run_targetMode_of_locate (hl : root.locate p = .ok l) :
    run root (targetMode p) = (root, ⟨[], .ok (modeOf (root.nodeAt l))⟩) := by
  rw [targetMode, run_ask, perform, find, hl, ok_bind, nodeAt]
  cases root.entryAt l with
  | none => rfl
  | some tree => cases tree <;> rfl

section Replacing

variable {temporary : Path} {s : List String} {f : StoredFile} {content : Content}
  {check : Content → Except Fault Unit} (hs : root.locate temporary = .ok s)
  (hfile : root.nodeAt s = some (.file f))

include hs hfile

theorem replaceBy_eq_ok (h : run root (replaceBy temporary p content check) = (root', ⟨log, .ok ()⟩)) :
    check content = .ok () ∧ ∃ bytes mid last mode, content.encode = .ok bytes ∧
      WithFile s ⟨f.mode.written, bytes⟩ root mid ∧ run mid (targetMode p) = (mid, ⟨[], .ok mode⟩) ∧
      WithFile s ⟨mode, bytes⟩ root last ∧ last.move temporary p = .ok root' := by
  obtain ⟨mid, before, ⟨⟩, after, hwrite, hrest, -⟩ := run_bind_eq_ok h
  obtain ⟨bytes, hencode, hperform⟩ := run_writeContent_eq_ok hwrite
  obtain ⟨s', mode', hs', hmode', hwith⟩ := write_eq_ok (changed_eq_ok hperform)
  obtain rfl : s = s' := Except.ok.inj (hs.symm.trans hs')
  obtain rfl : mode' = f.mode.written := by
    rcases hmode' with ⟨g, hg, -, rfl⟩ | ⟨hnone, -⟩
    · rw [hfile] at hg
      cases hg
      rfl
    · rw [hfile] at hnone
      cases hnone
  obtain ⟨⟨⟩, hcheck, hrest⟩ := run_ofExcept_bind_eq_ok hrest
  obtain ⟨mid', before, mode, rest, hmode, hset, rfl⟩ := run_bind_eq_ok hrest
  obtain ⟨result, htarget⟩ := run_targetMode p mid
  obtain ⟨rfl, rfl⟩ : mid' = mid ∧ before = [] := by
    rw [htarget] at hmode
    cases hmode
    exact ⟨rfl, rfl⟩
  obtain ⟨last, ⟨⟩, hperform, hmove⟩ := run_request_bind_eq_ok hset
  have hs' := (hwith.grows_of_file hfile).locate hs
  have hwith' := setMode_eq_ok hs' hwith.self (changed_eq_ok hperform)
  exact ⟨hcheck, bytes, mid', last, mode, hencode, hwith, hmode, hwith.overwrite hwith',
    changed_eq_ok (run_request_eq_ok hmove).2⟩

/-- The temporary file takes the place of the target and has its mode. -/
theorem run_replaceBy {bytes : ByteArray} (hbytes : content.encode = .ok bytes)
    (hwritable : f.mode.writable = true) (hmay : root.mayChange s = true)
    (hl : root.locate p = .ok l) (hreplaceable : root.Replaceable p l) (hne : l ≠ s) (hcheck : check content = .ok ()) :
    ∃ root', run root (replaceBy temporary p content check) = (root', ⟨[], .ok ()⟩) ∧ ∀ other, root'.nodeAt other =
      if other = l then some (.file ⟨modeOf (root.nodeAt l), bytes⟩)
      else if other = s then none else root.nodeAt other := by
  obtain ⟨mid, hwrite, hwith⟩ := write_of_writable bytes hs hfile hwritable
  have hmid := hwith.grows_of_file hfile
  obtain ⟨last, hset, hwith'⟩ := setMode_of_file (modeOf (root.nodeAt l)) (hmid.locate hs) hwith.self
  have hboth := hwith.overwrite hwith'
  have hlast := hboth.grows_of_file hfile
  obtain ⟨root', hmove⟩ := move_of_replaceable (hlast.locate hs) hboth.self
    (mayChange_of_folders hlast.folders hmay) (hlast.locate hl)
    (hreplaceable.keep hlast.folders (by rw [hboth.of_ne hne]; exact hreplaceable.noFolder))
  have htarget := run_targetMode_of_locate (hmid.locate hl)
  rw [hwith.of_ne hne] at htarget
  refine ⟨root', ?_, fun other => ?_⟩
  · have hwritten : perform root (.write temporary bytes) = (mid, .ok ()) := by rw [perform, hwrite, changed]
    have hchecked : run mid (ofExcept (check content)) = (mid, ⟨[], .ok ()⟩) := by rw [hcheck, run_ofExcept]
    have hmode : perform mid (.setMode temporary (modeOf (root.nodeAt l))) = (last, .ok ()) := by
      rw [perform, hset, changed]
    have hmoved : perform last (.move temporary p) = (root', .ok ()) := by rw [perform, hmove, changed]
    rw [replaceBy, writeContent_of_encode hbytes]
    exact run_bind_of_run (run_request_of_ok hwritten) (run_bind_of_run hchecked (run_bind_of_run htarget
      (run_bind_of_run (run_request_of_ok hmode) (run_request_of_ok hmoved))))
  · obtain ⟨t, ht, -, hnodes⟩ := move_eq_ok (hlast.locate hs) hboth.self hmove
    obtain rfl : l = t := Except.ok.inj ((hlast.locate hl).symm.trans ht)
    rw [hnodes other]
    split
    · rfl
    · split
      · rfl
      · rename_i hother
        exact hboth.of_ne hother

end Replacing

variable {content : Content} {check : Content → Except Fault Unit}

theorem writeAtomically_eq_ok (h : run root (writeAtomically p content check) = (root', ⟨log, .ok ()⟩)) :
    check content = .ok () ∧ ∃ bytes mid l, content.encode = .ok bytes ∧
      run root (makeFolders p.parent) = (mid, ⟨[], .ok ()⟩) ∧ mid.TakesTemporary p ∧
      mid.locate p = .ok l ∧ mid.Replaceable p l ∧ WithFile l ⟨modeOf (mid.nodeAt l), bytes⟩ mid root' := by
  obtain ⟨mid, before, ⟨⟩, after, hfolders, hrest, -⟩ := run_bind_eq_ok h
  obtain ⟨rfl, -⟩ := gentle_makeFolders p.parent hfolders
  obtain ⟨above, aboveMode, habove, hfolder⟩ := isFolder_of_makeFolders hfolders
  obtain ⟨made, temporary, hperform, hreplace⟩ := run_request_bind_eq_ok hrest
  have hmade := makeTemporary_of_perform hperform
  obtain ⟨s, hs, hnone, hmay, hwith⟩ := makeTemporary_eq_ok hmade
  obtain ⟨hcheck, bytes, tree, last, mode, hencode, hwith₁, htarget, hwith₂, hmove⟩ :=
    replaceBy_eq_ok ((hwith.grows_of_none hnone).locate hs) hwith.self (ok_of_onFailure hreplace)
  have htree := hwith.overwrite hwith₁
  have hlast := hwith.overwrite hwith₂
  obtain ⟨l, hl, hreplaceable, hnodes⟩ := move_eq_ok ((hlast.grows_of_none hnone).locate hs) hlast.self hmove
  have hl' := hlast.locate_before hl
  have hreplaceable' := hreplaceable.of_withFile hlast hnone
  -- The mode is asked for when the temporary file is there, but that is not the target.
  have hne := ne_temporary habove hreplaceable' hl' hmade hs
  rw [run_targetMode_of_locate ((htree.grows_of_none hnone).locate hl'), htree.of_ne hne] at htarget
  cases htarget
  refine ⟨hcheck, bytes, mid, l, hencode, hfolders, ⟨made, temporary, hmade⟩, hl', hreplaceable', fun other => ?_⟩
  rw [hnodes other]
  split
  · rfl
  · split
    · rename_i heq
      rw [heq, hnone]
    · rename_i hother
      exact hlast.of_ne hother

theorem holdsMoved_of_written (h : run root (writeAtomically p content check) = (root', ⟨log, .ok ()⟩)) :
    check content = .ok () ∧ ∃ bytes l mode, content.encode = .ok bytes ∧ HoldsMoved root' p l ⟨mode, bytes⟩ ∧
      KeepsReadable root l mode := by
  obtain ⟨hcheck, bytes, mid, l, hencode, hfolders, ⟨made, temporary, hmade⟩, hl, hreplaceable, hwith⟩ :=
    writeAtomically_eq_ok h
  have hgrows := hwith.grows hreplaceable.noFolder
  have hholds : HoldsMoved root' p l ⟨modeOf (mid.nodeAt l), bytes⟩ := {
    located := hgrows.locate hl
    file := hwith.self
    folder := (isFolder_of_makeFolders hfolders).keep hgrows.folders
    replaceable := hreplaceable.keep hgrows.folders (by simp [hwith.self])
    allows := (allows_of_makeTemporary hmade).keep hgrows.folders }
  have hreadable := keepsReadable_modeOf hreplaceable.noFolder
  exact ⟨hcheck, bytes, l, _, hencode, hholds,
    hreadable.of_grows (gentle_makeFolders p.parent hfolders).2 List.not_mem_nil⟩

/-- Beside a target that can be replaced, a temporary file can be written and moved. -/
theorem run_temporary {bytes : ByteArray} (hbytes : content.encode = .ok bytes) (hfolder : root.IsFolder p.parent)
    (htemporary : root.TakesTemporary p) (hl : root.locate p = .ok l) (hreplaceable : root.Replaceable p l)
    (hcheck : check content = .ok ()) :
    ∃ root', run root (request (.makeTemporary p.parent p.name) >>= fun temporary =>
        (replaceBy temporary p content check).onFailure (request (.remove temporary))) = (root', ⟨[], .ok ()⟩) ∧
      WithFile l ⟨modeOf (root.nodeAt l), bytes⟩ root root' := by
  obtain ⟨above, mode, habove, -⟩ := hfolder
  obtain ⟨made, temporary, hmade⟩ := htemporary
  obtain ⟨s, hs, hnone, hmay, hwith⟩ := makeTemporary_eq_ok hmade
  have hbeside := hwith.grows_of_none hnone
  have hne := ne_temporary habove hreplaceable hl hmade hs
  have hsame := hwith.of_ne hne
  obtain ⟨root', hreplace, hnodes⟩ := run_replaceBy (hbeside.locate hs) hwith.self hbytes (by decide)
    (mayChange_of_folders hbeside.folders hmay) (hbeside.locate hl)
    (hreplaceable.keep hbeside.folders (by rw [hsame]; exact hreplaceable.noFolder)) hne hcheck
  have hperform : perform root (.makeTemporary p.parent p.name) = (made, .ok temporary) := by rw [perform, hmade]
  refine ⟨root', ?_, fun other => ?_⟩
  · exact run_bind_of_run (run_request_of_ok hperform) (run_onFailure_of_ok hreplace _)
  · rw [hnodes other, hsame]
    split
    · rfl
    · split
      · rename_i heq
        rw [heq, hnone]
      · rename_i hother
        exact hwith.of_ne hother

theorem run_writeAtomically_again {bytes : ByteArray} {mode : Mode} (hbytes : content.encode = .ok bytes)
    (h : HoldsMoved root p l ⟨mode, bytes⟩) (hcheck : check content = .ok ()) (hroom : root.HasRoom p) :
    ∃ root', run root (writeAtomically p content check) = (root', ⟨[], .ok ()⟩) ∧
      ∀ l, root'.nodeAt l = root.nodeAt l := by
  obtain ⟨root', hrun, hwith⟩ :=
    run_temporary hbytes h.folder (makeTemporary_of_hasRoom h.allows hroom) h.located h.replaceable hcheck
  refine ⟨root', run_bind_of_run (run_makeFolders_of_isFolder h.folder) hrun, fun other => ?_⟩
  rw [hwith other, h.file]
  split
  · rename_i heq
    rw [heq, h.file]
    rfl
  · rfl

end Action

end ProtocolTypings
