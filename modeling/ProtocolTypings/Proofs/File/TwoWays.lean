import ProtocolTypings.Proofs.File.Again

/-!
# Two ways of writing

A text may be checked and written directly, or through a temporary file that takes the place of the target. Direct
writing needs a target that its owner may write, the other way a folder that may be changed and a name to which more can
be added. Where both succeed they leave the same files, and where one fails it has made folders at most, unless a text
that cannot be encoded is written directly: then it leaves an empty file.
-/

namespace ProtocolTypings

/-- Those who run the file get no rights of its owner, nor any of its group that they could get. -/
def Mode.LendsNone (m : Mode) : Prop :=
  m.bits.testBit 11 = false ∧ (m.bits.testBit 3 = true → m.bits.testBit 10 = false)

theorem Mode.LendsNone.written {m : Mode} (h : m.LendsNone) : m.written = m := by
  simp only [Mode.written, drop_of_clear h.1]
  split
  · rename_i hruns
    exact drop_of_clear (h.2 hruns)
  · rfl

namespace FileTree

variable {root mid root' : FileTree} {p : Path} {l : List String}

/-! ## Modes -/

theorem LeavesMode.writable {mode : Mode} (h : LeavesMode root l mode) {f : StoredFile}
    (hf : root.nodeAt l = some (.file f)) : f.mode.writable = true := by
  rcases h with ⟨g, hg, hwritable, -⟩ | ⟨hnone, -⟩
  · rw [hg] at hf
    cases hf
    exact hwritable
  · rw [hnone] at hf
    cases hf

theorem LeavesMode.eq_written {mode : Mode} (h : LeavesMode root l mode) :
    mode = (modeOf (root.nodeAt l)).written := by
  rcases h with ⟨f, hf, -, rfl⟩ | ⟨hnone, rfl⟩
  · rw [hf]
    rfl
  · rw [hnone]
    decide

/-! ## Folders above a path -/

/-- All that differs is that there are new folders, to which the path leads on its way. -/
def AddsFolders (p : Path) (root root' : FileTree) : Prop :=
  ∀ l, root'.nodeAt l = root.nodeAt l ∨
    root.nodeAt l = none ∧ root'.nodeAt l = some (.folder .newFolder) ∧
      ∃ cs, cs <+: p.components ∧ root'.locate { p with components := cs } = .ok l

namespace AddsFolders

theorem of_nodeAt_eq (h : ∀ l, root'.nodeAt l = root.nodeAt l) : AddsFolders p root root' :=
  fun l => .inl (h l)

theorem refl (p : Path) (root : FileTree) : AddsFolders p root root :=
  .of_nodeAt_eq fun _ => rfl

theorem grows (h : AddsFolders p root root') : Grows [] root root' where
  folders := by
    intro l mode hl
    rcases h l with hsame | ⟨hnone, -⟩
    · rw [hsame, hl]
    · rw [hnone] at hl
      cases hl
  files := by
    intro l _ f
    rcases h l with hsame | ⟨hnone, hnew, -⟩
    · rw [hsame]
    · simp [hnone, hnew]

theorem trans (h : AddsFolders p root mid) (h' : AddsFolders p mid root') : AddsFolders p root root' := by
  intro l
  rcases h' l with hsame' | ⟨hnone', hnew'⟩
  · rcases h l with hsame | ⟨hnone, hnew, cs, hcs, hl⟩
    · exact .inl (hsame'.trans hsame)
    · exact .inr ⟨hnone, hsame'.trans hnew, cs, hcs, h'.grows.locate hl⟩
  · rcases h l with hsame | ⟨-, hnew, -⟩
    · exact .inr ⟨hsame.symm.trans hnone', hnew'⟩
    · rw [hnew] at hnone'
      cases hnone'

theorem of_makeFolder {cs : List String} (hcs : cs <+: p.components)
    (h : root.makeFolder { p with components := cs } = .ok root') : AddsFolders p root root' := by
  obtain ⟨here, hhere, hnone, hnodes⟩ := makeFolder_eq_ok h
  intro l
  rw [hnodes l]
  split
  · rename_i heq
    subst heq
    exact .inr ⟨hnone, rfl, cs, hcs, (grows_makeFolder h).locate hhere⟩
  · exact .inl rfl

/-- Where there is a file or nothing now, the same was there before. -/
theorem modeOf_eq (h : AddsFolders p root root') (hl : ∀ mode, root'.nodeAt l ≠ some (.folder mode)) :
    modeOf (root'.nodeAt l) = modeOf (root.nodeAt l) := by
  rcases h l with hsame | ⟨-, hnew, -⟩
  · rw [hsame]
  · exact absurd hnew (hl _)

end AddsFolders

end FileTree

namespace Action

open FileTree

variable {α β : Type} {root root' : FileTree} {p : Path} {log : List Log.Record} {content : Content}
  {check : Content → Except Fault Unit}

/-- However it ends, the action does no more to the tree than make folders above the path. -/
def Builds (p : Path) (a : Action α) : Prop :=
  ∀ root, AddsFolders p root (run root a).1

theorem Builds.bind {a : Action α} {f : α → Action β} (ha : Builds p a) (hf : ∀ b, Builds p (f b)) :
    Builds p (a >>= f) := by
  intro root
  have hfirst := ha root
  rcases hrun : run root (a >>= f) with ⟨root', log, result⟩
  rcases run_bind_cases hrun with ⟨fault, hstop, -⟩ | ⟨mid, before, b, after, hgoes, hrest, -⟩
  · rwa [hstop] at hfirst
  · have hsecond := hf b mid
    rw [hgoes] at hfirst
    rw [hrest] at hsecond
    exact hfirst.trans hsecond

theorem builds_unlessFolder (q : Path) (fault : FileFault) : Builds p (unlessFolder q fault) := by
  intro root
  rw [unlessFolder, run_ask]
  split <;> exact .refl p root

theorem builds_makeFolder {cs : List String} (hcs : cs <+: p.components) :
    Builds p (Action.makeFolder { p with components := cs }) := by
  intro root
  rw [Action.makeFolder, run_ask, perform]
  rcases hmade : root.makeFolder { p with components := cs } with fault | tree
  · exact builds_unlessFolder _ fault root
  · exact .of_makeFolder hcs hmade

theorem builds_makeFoldersTo {cs : List String} (hcs : cs.reverse <+: p.components) : Builds p (makeFoldersTo p cs) := by
  induction cs with
  | nil => exact builds_makeFolder hcs
  | cons c above ih =>
      intro root
      have habove : above.reverse <+: p.components := by
        rw [List.reverse_cons] at hcs
        exact (List.prefix_append above.reverse [c]).trans hcs
      rw [makeFoldersTo, run_ask, perform]
      rcases hmade : root.makeFolder { p with components := (c :: above).reverse } with fault | tree
      · simp only [changed]
        split
        · exact .refl p root
        · exact (ih habove).bind (fun _ => builds_makeFolder hcs) root
        · exact builds_unlessFolder _ _ root
      · exact .of_makeFolder hcs hmade

theorem builds_makeFolders (p : Path) : Builds p (makeFolders p) := by
  apply builds_makeFoldersTo
  simp

/-! ## Success -/

/-- Check a text, and write it directly if the check accepts it. -/
def writeChecked (p : Path) (content : Content) (check : Content → Except Fault Unit) : Action Unit := do
  ofExcept (check content)
  writeDirectly p content

section

variable {mid : FileTree} {l : List String}

theorem writeChecked_eq_ok (h : run root (writeChecked p content check) = (root', ⟨log, .ok ()⟩)) :
    check content = .ok () ∧ ∃ bytes mid l mode, content.encode = .ok bytes ∧
      run root (makeFolders p.parent) = (mid, ⟨[], .ok ()⟩) ∧
      mid.locate p = .ok l ∧ LeavesMode mid l mode ∧ WithFile l ⟨mode, bytes⟩ mid root' := by
  obtain ⟨⟨⟩, hcheck, hrest⟩ := run_ofExcept_bind_eq_ok h
  exact ⟨hcheck, writeDirectly_eq_ok hrest⟩

/-- Whatever is not there can be made, and a file that its owner may write can be written. -/
theorem exists_write (bytes : ByteArray) (hl : root.locate p = .ok l) (hreplaceable : root.Replaceable p l)
    (hwritable : ∀ f, root.nodeAt l = some (.file f) → f.mode.writable = true) :
    ∃ root', root.write p bytes = .ok root' := by
  rcases hnode : root.nodeAt l with - | (mode | f)
  · rw [write, hl, ok_bind, nodeAt_eq_none.1 hnode, make, if_pos hreplaceable.mayChange]
    exact ⟨_, rfl⟩
  · exact absurd hnode (hreplaceable.noFolder mode)
  · obtain ⟨root', hwrite, -⟩ := write_of_writable bytes hl hnode (hwritable f hnode)
    exact ⟨root', hwrite⟩

theorem run_writeChecked_of {bytes : ByteArray} (hcheck : check content = .ok ()) (hbytes : content.encode = .ok bytes)
    (hfolders : run root (makeFolders p.parent) = (mid, ⟨[], .ok ()⟩)) (hl : mid.locate p = .ok l)
    (hreplaceable : mid.Replaceable p l) (hwritable : ∀ f, mid.nodeAt l = some (.file f) → f.mode.writable = true) :
    (run root (writeChecked p content check)).2.result = .ok () := by
  obtain ⟨root', hwrite⟩ := exists_write bytes hl hreplaceable hwritable
  have hperform : perform mid (.write p bytes) = (root', .ok ()) := by rw [perform, hwrite, changed]
  have hchecked : run root (ofExcept (check content)) = (root, ⟨[], .ok ()⟩) := by rw [hcheck, run_ofExcept]
  have hrun : run root (writeChecked p content check) = (root', ⟨[], .ok ()⟩) := by
    rw [writeChecked, writeDirectly, writeContent_of_encode hbytes]
    exact run_bind_of_run hchecked (run_bind_of_run hfolders (run_request_of_ok hperform))
  rw [hrun]

theorem run_writeAtomically_of {bytes : ByteArray} (hcheck : check content = .ok ())
    (hbytes : content.encode = .ok bytes) (hfolders : run root (makeFolders p.parent) = (mid, ⟨[], .ok ()⟩))
    (htemporary : mid.TakesTemporary p)
    (hl : mid.locate p = .ok l) (hreplaceable : mid.Replaceable p l) :
    (run root (writeAtomically p content check)).2.result = .ok () := by
  have hfolder := isFolder_of_makeFolders hfolders
  obtain ⟨root', hreplace, -⟩ := run_temporary hbytes hfolder htemporary hl hreplaceable hcheck
  have hrun : run root (writeAtomically p content check) = (root', ⟨[], .ok ()⟩) := run_bind_of_run hfolders hreplace
  rw [hrun]

end

/-! ## Failure -/

theorem addsFolders_of_makeFolders {x : Logged Unit} (h : run root (makeFolders p) = (root', x)) :
    AddsFolders p root root' := by
  have hbuilds := builds_makeFolders p root
  rwa [h] at hbuilds

/-- A failure has made folders at most, unless the file was open when the content could not be encoded. -/
theorem addsFolders_of_writeChecked {fault : Fault}
    (h : run root (writeChecked p content check) = (root', ⟨log, .error fault⟩)) :
    AddsFolders p.parent root root' ∨
      check content = .ok () ∧ content.encode = .error fault ∧ ∃ mid l mode,
        run root (makeFolders p.parent) = (mid, ⟨[], .ok ()⟩) ∧
        mid.locate p = .ok l ∧ LeavesMode mid l mode ∧ WithFile l ⟨mode, .empty⟩ mid root' := by
  rcases run_ofExcept_bind_cases h with ⟨rfl, -, -⟩ | ⟨⟨⟩, hcheck, hrest⟩
  · exact .inl (.refl _ _)
  · rcases run_bind_cases hrest with ⟨cause, hfolders, -⟩ | ⟨mid, before, ⟨⟩, after, hfolders, hwrite, -⟩
    · exact .inl (addsFolders_of_makeFolders hfolders)
    · obtain ⟨rfl, -⟩ := gentle_makeFolders p.parent hfolders
      obtain ⟨-, ⟨rfl, -⟩ | ⟨written, hperform, ⟨-, hok⟩ | ⟨cause, hencode, rfl, ⟨⟩⟩⟩⟩ := run_writeContent_cases hwrite
      · exact .inl (addsFolders_of_makeFolders hfolders)
      · cases hok
      · obtain ⟨l, mode, hl, hmode, hwith⟩ := write_eq_ok (changed_eq_ok hperform)
        exact .inr ⟨hcheck, hencode, mid, l, mode, hfolders, hl, hmode, hwith⟩

theorem addsFolders_of_writeAtomically {fault : Fault}
    (h : run root (writeAtomically p content check) = (root', ⟨log, .error fault⟩)) :
    AddsFolders p.parent root root' := by
  rcases run_bind_cases h with ⟨cause, hfolders, -⟩ | ⟨mid, before, ⟨⟩, after, hfolders, hrest, -⟩
  · exact addsFolders_of_makeFolders hfolders
  · obtain ⟨-, ⟨-, -, hnodes⟩ | ⟨herror, -⟩⟩ := run_temporary_cases hrest
    · exact (addsFolders_of_makeFolders hfolders).trans (.of_nodeAt_eq hnodes)
    · cases herror

/-! ## One compared with the other -/

section

variable {tree : FileTree}

theorem writable_of_writeChecked (h : run root (writeChecked p content check) = (tree, ⟨log, .ok ()⟩)) (f : StoredFile)
    (hf : root.nodeAt p.straighten.components = some (.file f)) : f.mode.writable = true := by
  obtain ⟨-, bytes, mid, l, mode, -, hfolders, hl, hmode, -⟩ := writeChecked_eq_ok h
  rw [← locate_eq_straighten hl] at hf
  exact hmode.writable (((addsFolders_of_makeFolders hfolders).grows.files l List.not_mem_nil f).2 hf)

theorem run_writeAtomically_of_writeChecked (h : run root (writeChecked p content check) = (tree, ⟨log, .ok ()⟩))
    (htemporary : (run root (makeFolders p.parent)).1.TakesTemporary p) :
    (run root (writeAtomically p content check)).2.result = .ok () := by
  obtain ⟨hcheck, bytes, mid, l, mode, hencode, hfolders, hl, hmode, -⟩ := writeChecked_eq_ok h
  obtain ⟨above, aboveMode, habove, -⟩ := isFolder_of_makeFolders hfolders
  rw [hfolders] at htemporary
  exact run_writeAtomically_of hcheck hencode hfolders htemporary hl
    (replaceable_of_takesTemporary habove htemporary hl hmode.ne_folder)

theorem run_writeChecked_of_writeAtomically (h : run root (writeAtomically p content check) = (tree, ⟨log, .ok ()⟩))
    (hwritable : ∀ f, root.nodeAt p.straighten.components = some (.file f) → f.mode.writable = true) :
    (run root (writeChecked p content check)).2.result = .ok () := by
  obtain ⟨hcheck, bytes, mid, l, hencode, hfolders, -, hl, hreplaceable, -⟩ := writeAtomically_eq_ok h
  rw [← locate_eq_straighten hl] at hwritable
  apply run_writeChecked_of hcheck hencode hfolders hl hreplaceable
  intro f hf
  exact hwritable f (((addsFolders_of_makeFolders hfolders).grows.files l List.not_mem_nil f).1 hf)

theorem takesTemporary_of_writeAtomically (h : run root (writeAtomically p content check) = (tree, ⟨log, .ok ()⟩)) :
    (run root (makeFolders p.parent)).1.TakesTemporary p := by
  obtain ⟨-, bytes, mid, l, -, hfolders, htemporary, -⟩ := writeAtomically_eq_ok h
  rwa [hfolders]

theorem takesTemporary_iff_of_writeChecked (h : run root (writeChecked p content check) = (tree, ⟨log, .ok ()⟩))
    (hroom : (run root (makeFolders p.parent)).1.HasRoom p) :
    (run root (makeFolders p.parent)).1.TakesTemporary p ↔
      (run root (makeFolders p.parent)).1.mayChange p.straighten.components = true ∧
        p.name.utf8ByteSize + 14 ≤ maxName ∧ p.text.utf8ByteSize + 14 ≤ maxPath := by
  obtain ⟨-, bytes, mid, l, mode, -, hfolders, hl, hmode, -⟩ := writeChecked_eq_ok h
  obtain ⟨above, aboveMode, habove, hfolder⟩ := isFolder_of_makeFolders hfolders
  obtain ⟨hname, hcomponents⟩ := ends_in_name habove hfolder hl hmode.ne_folder
  rw [hfolders] at hroom ⊢
  rw [← locate_eq_straighten hl]
  exact takesTemporary_iff habove hl hname hcomponents hroom

/-- What a direct writing leaves at the target. A file loses the bits that lend its owner's rights when it is written. -/
theorem withFile_of_leavesMode {mid : FileTree} {l : List String} {mode : Mode} {bytes : ByteArray}
    (hfolders : run root (makeFolders p.parent) = (mid, ⟨[], .ok ()⟩)) (hl : mid.locate p = .ok l)
    (hmode : LeavesMode mid l mode) (hwith : WithFile l ⟨mode, bytes⟩ mid tree) :
    WithFile p.straighten.components ⟨(modeOf (root.nodeAt p.straighten.components)).written, bytes⟩
      (run root (makeFolders p.parent)).1 tree := by
  have hadds := addsFolders_of_makeFolders hfolders
  rwa [hfolders, ← locate_eq_straighten hl, ← hadds.modeOf_eq hmode.ne_folder, ← hmode.eq_written]

theorem withFile_of_writeChecked (h : run root (writeChecked p content check) = (tree, ⟨log, .ok ()⟩)) :
    ∃ bytes, content.encode = .ok bytes ∧
      WithFile p.straighten.components ⟨(modeOf (root.nodeAt p.straighten.components)).written, bytes⟩
        (run root (makeFolders p.parent)).1 tree := by
  obtain ⟨-, bytes, mid, l, mode, hencode, hfolders, hl, hmode, hwith⟩ := writeChecked_eq_ok h
  exact ⟨bytes, hencode, withFile_of_leavesMode hfolders hl hmode hwith⟩

theorem withFile_of_writeAtomically (h : run root (writeAtomically p content check) = (tree, ⟨log, .ok ()⟩)) :
    ∃ bytes, content.encode = .ok bytes ∧
      WithFile p.straighten.components ⟨modeOf (root.nodeAt p.straighten.components), bytes⟩
        (run root (makeFolders p.parent)).1 tree := by
  obtain ⟨-, bytes, mid, l, hencode, hfolders, -, hl, hreplaceable, hwith⟩ := writeAtomically_eq_ok h
  have hadds := addsFolders_of_makeFolders hfolders
  refine ⟨bytes, hencode, ?_⟩
  rwa [hfolders, ← locate_eq_straighten hl, ← hadds.modeOf_eq hreplaceable.noFolder]

/-- A content that is not encoded empties the target that was opened for it. -/
theorem emptied_of_writeChecked {fault : Fault}
    (h : run root (writeChecked p content check) = (tree, ⟨log, .error fault⟩)) :
    AddsFolders p.parent root tree ∨
      check content = .ok () ∧ content.encode = .error fault ∧
        WithFile p.straighten.components ⟨(modeOf (root.nodeAt p.straighten.components)).written, .empty⟩
          (run root (makeFolders p.parent)).1 tree := by
  rcases addsFolders_of_writeChecked h with hadds | ⟨hcheck, hencode, mid, l, mode, hfolders, hl, hmode, hwith⟩
  · exact .inl hadds
  · exact .inr ⟨hcheck, hencode, withFile_of_leavesMode hfolders hl hmode hwith⟩

end

/-- What two ways of writing do to a tree, where `mid` is the tree with the folders above the path. -/
structure WaysAgree (root mid : FileTree) (p : Path) (content : Content) (check : Content → Except Fault Unit)
    (direct atomic : FileTree × Logged Unit) : Prop where
  success : direct.2.result = .ok () ∧ mid.TakesTemporary p ↔
    atomic.2.result = .ok () ∧ ∀ f, root.nodeAt p.straighten.components = some (.file f) → f.mode.writable = true
  temporary : direct.2.result = .ok () → mid.HasRoom p →
    (mid.TakesTemporary p ↔ mid.mayChange p.straighten.components = true ∧
      p.name.utf8ByteSize + 14 ≤ maxName ∧ p.text.utf8ByteSize + 14 ≤ maxPath)
  folders : AddsFolders p.parent root mid
  /-- A file loses the bits that lend its owner's rights when it is written, but not when another takes its place. -/
  directFile : direct.2.result = .ok () → ∃ bytes, content.encode = .ok bytes ∧
    WithFile p.straighten.components ⟨(modeOf (root.nodeAt p.straighten.components)).written, bytes⟩ mid direct.1
  atomicFile : atomic.2.result = .ok () → ∃ bytes, content.encode = .ok bytes ∧
    WithFile p.straighten.components ⟨modeOf (root.nodeAt p.straighten.components), bytes⟩ mid atomic.1
  same : direct.2.result = .ok () → atomic.2.result = .ok () →
    (modeOf (root.nodeAt p.straighten.components)).LendsNone → ∀ l, direct.1.nodeAt l = atomic.1.nodeAt l
  /-- A content that cannot be encoded leaves the target empty if that could be opened. -/
  directFailure : ∀ fault, direct.2.result = .error fault → AddsFolders p.parent root direct.1 ∨
    check content = .ok () ∧ content.encode = .error fault ∧
      WithFile p.straighten.components ⟨(modeOf (root.nodeAt p.straighten.components)).written, .empty⟩ mid direct.1
  atomicFailure : ∀ fault, atomic.2.result = .error fault → AddsFolders p.parent root atomic.1

/-- Writing through a temporary file succeeds where direct writing does, but for two conditions: the one needs room beside
the target, the other a target that may be written. Then both leave the same tree, if the target lends no rights. Where
one fails, it has made folders at most, but for a content that cannot be encoded: a target that is written directly has
been emptied by then. -/
theorem ways_agree (root : FileTree) (p : Path) (content : Content) (check : Content → Except Fault Unit) :
    WaysAgree root (run root (makeFolders p.parent)).1 p content check (run root (writeChecked p content check))
      (run root (writeAtomically p content check)) := by
  rcases hdirect : run root (writeChecked p content check) with ⟨tree, log, result⟩
  rcases hatomic : run root (writeAtomically p content check) with ⟨tree', log', result'⟩
  constructor
  case success =>
    constructor
    · rintro ⟨rfl, htemporary⟩
      have hsucceeds := run_writeAtomically_of_writeChecked hdirect htemporary
      rw [hatomic] at hsucceeds
      exact ⟨hsucceeds, writable_of_writeChecked hdirect⟩
    · rintro ⟨rfl, hwritable⟩
      have hsucceeds := run_writeChecked_of_writeAtomically hatomic hwritable
      rw [hdirect] at hsucceeds
      exact ⟨hsucceeds, takesTemporary_of_writeAtomically hatomic⟩
  case temporary =>
    rintro rfl hroom
    exact takesTemporary_iff_of_writeChecked hdirect hroom
  case folders => exact addsFolders_of_makeFolders rfl
  case directFile =>
    rintro rfl
    exact withFile_of_writeChecked hdirect
  case atomicFile =>
    rintro rfl
    exact withFile_of_writeAtomically hatomic
  case same =>
    rintro rfl rfl hlends l
    obtain ⟨bytes, hbytes, hwith⟩ := withFile_of_writeChecked hdirect
    obtain ⟨bytes', hbytes', hwith'⟩ := withFile_of_writeAtomically hatomic
    cases hbytes.symm.trans hbytes'
    rw [hwith l, hwith' l, hlends.written]
  case directFailure =>
    rintro fault rfl
    exact emptied_of_writeChecked hdirect
  case atomicFailure =>
    rintro fault rfl
    exact addsFolders_of_writeAtomically hatomic

/-- A file that may not be written, one that lends its owner's rights to those who run it, one with a text, and a folder
that may not be changed with a file that may be written. -/
def guarded : FileTree :=
  .folder .newFolder [("read.d.ts", .file ⟨⟨0o444⟩, .empty⟩), ("run.d.ts", .file ⟨⟨0o4755⟩, .empty⟩),
    ("old.d.ts", .file ⟨⟨0o644⟩, "old".toUTF8⟩), ("closed", .folder ⟨0o555⟩ [("open.d.ts", .file ⟨⟨0o644⟩, .empty⟩)])]

def exported : Content :=
  .ofString "export default A;\n"

/-- The same text with half of a pair at its end. -/
def halved : Content :=
  { exported with halves := [(0, "")] }

def directly (content : Content) (cs : List String) : FileTree × Logged Unit :=
  run guarded (writeChecked ⟨cs, .one⟩ content fun content => Artifact.validate content.text)

def atomically (content : Content) (cs : List String) : FileTree × Logged Unit :=
  run guarded (writeAtomically ⟨cs, .one⟩ content fun content => Artifact.validate content.text)

theorem ways_differ :
    ((directly exported ["read.d.ts"]).2.result = .error (.file .notPermitted) ∧
      (atomically exported ["read.d.ts"]).2.result = .ok ()) ∧
    ((directly exported ["closed", "open.d.ts"]).2.result = .ok () ∧
      (atomically exported ["closed", "open.d.ts"]).2.result = .error (.file .notPermitted)) ∧
    ((directly exported ["run.d.ts"]).2.result = .ok () ∧ (atomically exported ["run.d.ts"]).2.result = .ok () ∧
      modeOf ((directly exported ["run.d.ts"]).1.nodeAt ["run.d.ts"]) = ⟨0o755⟩ ∧
      modeOf ((atomically exported ["run.d.ts"]).1.nodeAt ["run.d.ts"]) = ⟨0o4755⟩) ∧
    (directly halved ["old.d.ts"]).2.result = .error .notEncodable ∧
    (atomically halved ["old.d.ts"]).2.result = .error .notEncodable ∧
    (directly halved ["old.d.ts"]).1.read ⟨["old.d.ts"], .one⟩ = .ok .empty ∧
    (atomically halved ["old.d.ts"]).1.read ⟨["old.d.ts"], .one⟩ = .ok "old".toUTF8 := by
  refine ⟨?_, ?_, ⟨?_, ?_, ?_, ?_⟩, ?_, ?_, ?_, ?_⟩
  all_goals decide +kernel

end Action

end ProtocolTypings
