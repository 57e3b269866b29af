import Mathlib.Data.List.Nodup
import ProtocolTypings.Proofs.File.Growth

/-!
# What requests do

Each request that succeeds changes the tree at one location, or at two for a move. A temporary file takes a name
that nothing has.
-/

namespace ProtocolTypings.FileTree

variable {root root' : FileTree} {p : Path} {l : List String}

theorem mayChange_iff :
    root.mayChange l = true ↔ ∃ mode, root.nodeAt l.dropLast = some (.folder mode) ∧ mode.writable = true := by
  rw [mayChange, nodeAt]
  cases root.entryAt l.dropLast with
  | none => simp
  | some tree => cases tree <;> simp [node]

/-- What may be replaced is not the root. -/
theorem ne_nil_of_mayChange (h : root.mayChange l = true) (hl : ∀ mode, root.nodeAt l ≠ some (.folder mode)) :
    l ≠ [] := by
  rintro rfl
  obtain ⟨mode, hnode, -⟩ := mayChange_iff.1 h
  exact hl mode hnode

theorem make_eq_ok {new : FileTree} (h : root.make l new = .ok root') :
    root.mayChange l = true ∧ root' = root.put l new := by
  rw [make] at h
  split at h
  · rename_i hmay
    cases h
    exact ⟨hmay, rfl⟩
  · cases h

/-! ## Folders and files -/

theorem makeFolder_eq_ok (h : root.makeFolder p = .ok root') :
    ∃ l, root.locate p = .ok l ∧ root.nodeAt l = none ∧
      ∀ other, root'.nodeAt other = if other = l then some (.folder .newFolder) else root.nodeAt other := by
  obtain ⟨l, hl, h⟩ := bind_eq_ok.1 h
  split at h
  · cases h
  · rename_i hentry
    obtain ⟨-, rfl⟩ := make_eq_ok h
    have hnone : root.nodeAt l = none := nodeAt_eq_none.2 (by simpa using hentry)
    exact ⟨l, hl, hnone, nodeAt_put_empty (rooted_locate hl) hnone⟩

theorem grows_makeFolder (h : root.makeFolder p = .ok root') : Grows [] root root' := by
  obtain ⟨l, -, hnone, hnodes⟩ := makeFolder_eq_ok h
  constructor
  · intro other mode hother
    rw [hnodes other, if_neg, hother]
    rintro rfl
    rw [hnone] at hother
    cases hother
  · intro other _ f
    rw [hnodes other]
    split
    · rename_i heq
      rw [heq, hnone]
      exact ⟨nofun, nofun⟩
    · rfl

/-- The mode of a file after it has been written at a location. -/
def LeavesMode (root : FileTree) (l : List String) (mode : Mode) : Prop :=
  (∃ f, root.nodeAt l = some (.file f) ∧ f.mode.writable = true ∧ mode = f.mode.written) ∨
    root.nodeAt l = none ∧ mode = .newFile

theorem LeavesMode.ne_folder {mode : Mode} (h : LeavesMode root l mode) :
    ∀ mode, root.nodeAt l ≠ some (.folder mode) := by
  intro mode' hfolder
  rcases h with ⟨f, hfile, -, -⟩ | ⟨hnone, -⟩
  · rw [hfile] at hfolder
    cases hfolder
  · rw [hnone] at hfolder
    cases hfolder

theorem write_eq_ok {bytes : ByteArray} (h : root.write p bytes = .ok root') :
    ∃ l mode, root.locate p = .ok l ∧ LeavesMode root l mode ∧ WithFile l ⟨mode, bytes⟩ root root' := by
  obtain ⟨l, hl, h⟩ := bind_eq_ok.1 h
  have hrooted := rooted_locate hl
  split at h
  · cases h
  · rename_i f hentry
    split at h
    · rename_i hwritable
      cases h
      have hmode : LeavesMode root l f.mode.written := .inl ⟨f, nodeAt_eq_file.2 hentry, hwritable, rfl⟩
      exact ⟨l, f.mode.written, hl, hmode, nodeAt_put_file hrooted hmode.ne_folder _⟩
    · cases h
  · rename_i hentry
    obtain ⟨-, rfl⟩ := make_eq_ok h
    have hmode : LeavesMode root l .newFile := .inr ⟨nodeAt_eq_none.2 hentry, rfl⟩
    exact ⟨l, .newFile, hl, hmode, nodeAt_put_file hrooted hmode.ne_folder _⟩

theorem setMode_eq_ok {mode : Mode} {f : StoredFile} (hl : root.locate p = .ok l)
    (hfile : root.nodeAt l = some (.file f)) (h : root.setMode p mode = .ok root') :
    WithFile l { f with mode } root root' := by
  obtain ⟨l', hl', h⟩ := bind_eq_ok.1 h
  obtain rfl : l = l' := Except.ok.inj (hl.symm.trans hl')
  rw [nodeAt_eq_file.1 hfile] at h
  cases h
  exact nodeAt_put_file (rooted_locate hl) (by simp [hfile]) _

/-- A file may take the place of what is at the path, which leads to the location. -/
structure Replaceable (root : FileTree) (p : Path) (l : List String) : Prop where
  name : p.name ≠ ".."
  components : p.components ≠ []
  mayChange : root.mayChange l = true
  noFolder : ∀ mode, root.nodeAt l ≠ some (.folder mode)

/-- The file that is moved is afterwards where the target leads to and no more where it was. -/
theorem move_eq_ok {source : Path} {s : List String} {f : StoredFile} (hs : root.locate source = .ok s)
    (hfile : root.nodeAt s = some (.file f)) (h : root.move source p = .ok root') :
    ∃ t, root.locate p = .ok t ∧ root.Replaceable p t ∧ ∀ other, root'.nodeAt other =
      if other = t then some (.file f) else if other = s then none else root.nodeAt other := by
  obtain ⟨s', hs', h⟩ := bind_eq_ok.1 h
  obtain rfl : s = s' := Except.ok.inj (hs.symm.trans hs')
  obtain ⟨t, ht, h⟩ := bind_eq_ok.1 h
  rw [nodeAt_eq_file.1 hfile] at h
  dsimp only at h
  split at h
  · cases h
  · rename_i hbusy
    split at h
    · cases h
    · rename_i hmay
      have hbusy : p.name ≠ ".." ∧ p.components ≠ [] := by simpa using hbusy
      have hmay : root.mayChange s = true ∧ root.mayChange t = true := by simpa using hmay
      have hne : s ≠ [] := ne_nil_of_mayChange hmay.1 (by simp [hfile])
      split at h
      · cases h
      · rename_i hentry
        cases h
        have hfolder : ∀ mode, root.nodeAt t ≠ some (.folder mode) := by
          intro mode hfolder
          obtain ⟨entries, htree⟩ := nodeAt_eq_folder.1 hfolder
          exact hentry mode entries htree
        have herase := nodeAt_erase_file hne hfile
        have hrooted : Rooted (erase s root) t := by
          intro above c rest heq
          obtain ⟨mode, habove⟩ := rooted_locate ht above c rest heq
          refine ⟨mode, ?_⟩
          rw [herase above, if_neg, habove]
          rintro rfl
          rw [hfile] at habove
          cases habove
        refine ⟨t, ht, ⟨hbusy.1, hbusy.2, hmay.2, hfolder⟩, fun other => ?_⟩
        rw [nodeAt_put_file hrooted _ f other, herase other]
        intro mode
        rw [herase t]
        split
        · exact nofun
        · exact hfolder mode

theorem remove_of_file {f : StoredFile} (hl : root.locate p = .ok l) (hfile : root.nodeAt l = some (.file f))
    (hmay : root.mayChange l = true) :
    ∃ root', root.remove p = .ok root' ∧
      ∀ other, root'.nodeAt other = if other = l then none else root.nodeAt other := by
  have hne : l ≠ [] := ne_nil_of_mayChange hmay (by simp [hfile])
  refine ⟨erase l root, ?_, nodeAt_erase_file hne hfile⟩
  rw [remove, hl, ok_bind, nodeAt_eq_file.1 hfile]
  exact if_pos hmay

/-! ## Temporary files -/

theorem temporaryName_injective (label : String) : Function.Injective (temporaryName label) := by
  intro i j h
  have hchars := congrArg String.toList h
  simp only [temporaryName, String.toList_append, String.toList_ofList] at hchars
  have hdigits := List.append_cancel_left (List.append_cancel_right hchars)
  -- leading zeros do not count in the number
  have hnumber := congrArg (Nat.ofDigitChars 10 · 0) hdigits
  simpa [Nat.ofDigitChars_append] using hnumber

theorem temporaryName_ne_pair (label : String) (i : Nat) : temporaryName label i ≠ ".." := by
  intro h
  have hlength := congrArg (·.toList.length) h
  simp [temporaryName] at hlength
  omega

/-- Among one name more than there are entries one is free. -/
theorem lookup_freeName (label : String) (entries : List (String × FileTree)) :
    entries.lookup (freeName label entries) = none := by
  let names := (List.range (entries.length + 1)).map (temporaryName label)
  cases hfind : names.find? fun name => (entries.lookup name).isNone with
  | some name =>
      have hname := List.find?_some hfind
      rw [freeName, hfind]
      simpa using hname
  | none =>
      have htaken : names ⊆ entries.map (·.1) := by
        intro name hname
        have hsome := List.find?_eq_none.1 hfind name hname
        refine Decidable.byContradiction fun hnot => hsome ?_
        rw [Option.isNone_iff_eq_none, List.lookup_eq_none_iff]
        intro e he
        rw [bne_iff_ne]
        rintro rfl
        exact hnot (List.mem_map.2 ⟨e, he, rfl⟩)
      have hnodup : names.Nodup := List.nodup_range.map (temporaryName_injective label)
      have hlength := hnodup.length_le_of_subset htaken
      simp only [names, List.length_map, List.length_range] at hlength
      omega

theorem freeName_eq_temporaryName (label : String) (entries : List (String × FileTree)) :
    ∃ i, freeName label entries = temporaryName label i := by
  rw [freeName]
  cases hfind : List.find? _ _ with
  | none => exact ⟨0, rfl⟩
  | some name =>
      obtain ⟨i, -, rfl⟩ := List.mem_map.1 (List.mem_of_find?_eq_some hfind)
      exact ⟨i, rfl⟩

theorem freeName_ne_pair (label : String) (entries : List (String × FileTree)) : freeName label entries ≠ ".." := by
  obtain ⟨i, hname⟩ := freeName_eq_temporaryName label entries
  rw [hname]
  exact temporaryName_ne_pair label i

/-- A path with one more component leads to the entry of that name. -/
theorem locate_extend {name : String} (hname : name ≠ "..") {folder : Path} {l s : List String}
    (hl : root.locate folder = .ok l) (hs : root.locate (folder.extend [name]) = .ok s) : s = l ++ [name] := by
  have hfollow := (locate_eq_ok.1 hs).2.2
  rw [Path.extend, follow_append, (locate_eq_ok.1 hl).2.2, ok_bind, follow] at hfollow
  split at hfollow
  · cases hfollow
  · cases hfollow
  · split at hfollow
    · cases hfollow
    · split at hfollow
      · cases hfollow
      · cases hfollow
        rfl

/-- A temporary file is made where nothing is, in a folder in which entries may be changed. -/
theorem makeTemporary_eq_ok {folder : Path} {label : String} (h : root.makeTemporary folder label = .ok (root', p)) :
    ∃ l, root.locate p = .ok l ∧ root.nodeAt l = none ∧ root.mayChange l = true ∧
      WithFile l ⟨.temporary, .empty⟩ root root' := by
  obtain ⟨l, hl, h⟩ := bind_eq_ok.1 h
  split at h
  · rename_i mode entries hentry
    obtain ⟨s, hs, h⟩ := bind_eq_ok.1 h
    obtain ⟨tree, hmake, h⟩ := bind_eq_ok.1 h
    cases h
    obtain ⟨hmay, rfl⟩ := make_eq_ok hmake
    obtain rfl := locate_extend (freeName_ne_pair label entries) hl hs
    have hnone : root.nodeAt (l ++ [freeName label entries]) = none := by
      rw [nodeAt_concat hentry, lookup_freeName]
      rfl
    exact ⟨_, hs, hnone, hmay, nodeAt_put_file (rooted_locate hs) (by simp [hnone]) _⟩
  · cases h
  · cases h

end ProtocolTypings.FileTree
