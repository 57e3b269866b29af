import ProtocolTypings.Proofs.File.Components
import ProtocolTypings.Proofs.File.Success

/-!
# Beside a path

A temporary file is made in the folder of its target, with a longer name. Where it can be made, a target that is no
folder can be replaced by it.
-/

namespace ProtocolTypings.FileTree

variable {root root' : FileTree} {p : Path} {l : List String}

/-- A path that has a component ends in its name. -/
theorem extend_name (h : p.components ≠ []) : p.parent.extend [p.name] = p := by
  apply Path.extend_parent
  rw [Path.name, List.getLastD_eq_getLast?]
  cases hlast : p.components.getLast? with
  | none => exact absurd (List.getLast?_eq_none_iff.1 hlast) h
  | some c => rfl

/-- A temporary file can be made beside the path. -/
def TakesTemporary (root : FileTree) (p : Path) : Prop :=
  ∃ root' temporary, root.makeTemporary p.parent p.name = .ok (root', temporary)

theorem exists_folder_dropLast {mode : Mode} (h : Rooted root l) (hl : root.nodeAt l = some (.folder mode)) :
    ∃ mode, root.nodeAt l.dropLast = some (.folder mode) := by
  rcases List.eq_nil_or_concat l with rfl | ⟨above, c, rfl⟩
  · exact ⟨mode, hl⟩
  · rw [List.concat_eq_append] at h ⊢
    rw [List.dropLast_concat]
    exact h above c [] rfl

/-- A new file does not make a path replaceable. -/
theorem Replaceable.of_withFile {s : List String} {f : StoredFile} (hwith : WithFile s f root root')
    (hnone : root.nodeAt s = none) (h : root'.Replaceable p l) : root.Replaceable p l := by
  obtain ⟨mode, hfolder, hwritable⟩ := mayChange_iff.1 h.mayChange
  refine ⟨h.name, h.components, mayChange_iff.2 ⟨mode, ?_, hwritable⟩, fun mode hl => ?_⟩
  · rw [hwith l.dropLast] at hfolder
    split at hfolder
    · cases hfolder
    · exact hfolder
  · exact h.noFolder mode ((hwith.grows_of_none hnone).folders l mode hl)

section

variable {above : List String} (habove : root.locate p.parent = .ok above)

include habove

theorem locate_name (hname : p.name ≠ "..") (hcomponents : p.components ≠ []) (hl : root.locate p = .ok l) :
    l = above ++ [p.name] := by
  rw [← extend_name hcomponents] at hl
  exact locate_extend hname habove hl

theorem locate_of_makeTemporary {temporary : Path} (h : root.makeTemporary p.parent p.name = .ok (root', temporary))
    {s : List String} (hs : root.locate temporary = .ok s) : ∃ i, s = above ++ [temporaryName p.name i] := by
  obtain ⟨above', habove', h⟩ := bind_eq_ok.1 h
  split at h
  · rename_i mode entries hentry
    obtain ⟨_, -, h⟩ := bind_eq_ok.1 h
    obtain ⟨_, -, h⟩ := bind_eq_ok.1 h
    cases h
    obtain ⟨i, hi⟩ := freeName_eq_temporaryName p.name entries
    rw [hi] at hs
    exact ⟨i, locate_extend (temporaryName_ne_pair _ _) habove hs⟩
  · cases h
  · cases h

/-- A temporary file has a longer name than the target. -/
theorem ne_temporary (hreplaceable : root.Replaceable p l) (hl : root.locate p = .ok l) {temporary : Path}
    (h : root.makeTemporary p.parent p.name = .ok (root', temporary)) {s : List String}
    (hs : root.locate temporary = .ok s) : l ≠ s := by
  obtain ⟨i, rfl⟩ := locate_of_makeTemporary habove h hs
  rw [locate_name habove hreplaceable.name hreplaceable.components hl]
  intro heq
  have hnames := congrArg String.utf8ByteSize (List.singleton_inj.1 (List.append_cancel_left heq))
  rw [utf8ByteSize_temporaryName] at hnames
  omega

/-- A pair of points leads to a folder. -/
theorem exists_folder_of_pair {mode : Mode} (hfolder : root.nodeAt above = some (.folder mode)) (hname : p.name = "..")
    (hcomponents : p.components ≠ []) (hl : root.locate p = .ok l) : ∃ mode, root.nodeAt l = some (.folder mode) := by
  have hback : l = above.dropLast := by
    rw [locate_eq_straighten hl, locate_eq_straighten habove, ← extend_name hcomponents, hname]
    simp [Path.straighten, Path.extend, Path.parent, Path.undoPairs_append, Path.undoPairs]
  rw [hback]
  exact exists_folder_dropLast (rooted_locate habove) hfolder

/-- A path that leads to no folder ends in a name. -/
theorem ends_in_name {mode : Mode} (hfolder : root.nodeAt above = some (.folder mode)) (hl : root.locate p = .ok l)
    (hnoFolder : ∀ mode, root.nodeAt l ≠ some (.folder mode)) : p.name ≠ ".." ∧ p.components ≠ [] := by
  have hcomponents : p.components ≠ [] := by
    intro hnil
    have hsame : p.parent = p := by rw [Path.parent, hnil, List.dropLast_nil, ← hnil]
    rw [hsame] at habove
    obtain rfl : above = l := Except.ok.inj (habove.symm.trans hl)
    exact hnoFolder mode hfolder
  refine ⟨fun hpair => ?_, hcomponents⟩
  obtain ⟨mode', hfolder'⟩ := exists_folder_of_pair habove hfolder hpair hcomponents hl
  exact hnoFolder mode' hfolder'

/-- What may be written directly may be replaced, if a file can be made beside it. -/
theorem replaceable_of_takesTemporary (htemporary : root.TakesTemporary p) (hl : root.locate p = .ok l)
    (hnoFolder : ∀ mode, root.nodeAt l ≠ some (.folder mode)) : root.Replaceable p l := by
  obtain ⟨root', temporary, h⟩ := htemporary
  obtain ⟨above', mode, habove', hfolder, hwritable, -⟩ := allows_of_makeTemporary h
  obtain rfl : above = above' := Except.ok.inj (habove.symm.trans habove')
  obtain ⟨hname, hcomponents⟩ := ends_in_name habove hfolder hl hnoFolder
  have hlast := locate_name habove hname hcomponents hl
  refine ⟨hname, hcomponents, ?_, hnoFolder⟩
  rw [mayChange_iff, hlast, List.dropLast_concat]
  exact ⟨mode, hfolder, hwritable⟩

/-- The name of a temporary file is longer by the two points, the digits and the ending. -/
theorem takesTemporary_iff (hl : root.locate p = .ok l) (hname : p.name ≠ "..") (hcomponents : p.components ≠ [])
    (hroom : root.HasRoom p) :
    root.TakesTemporary p ↔
      root.mayChange l = true ∧ p.name.utf8ByteSize + 14 ≤ maxName ∧ p.text.utf8ByteSize + 14 ≤ maxPath := by
  have htext (i : Nat) := utf8ByteSize_text_extend p.parent (temporaryName p.name i) p.name
  rw [extend_name hcomponents] at htext
  have hlast := locate_name habove hname hcomponents hl
  constructor
  · rintro ⟨root', temporary, h⟩
    obtain ⟨above', mode, habove', hfolder, hwritable, i, s, hs⟩ := allows_of_makeTemporary h
    obtain rfl : above = above' := Except.ok.inj (habove.symm.trans habove')
    have hfits := fits_of_locate habove (temporaryName_ne_pair _ _) hs
    have hlonger := utf8ByteSize_temporaryName p.name i
    have htext := htext i
    refine ⟨?_, by omega, by omega⟩
    rw [mayChange_iff, hlast, List.dropLast_concat]
    exact ⟨mode, hfolder, hwritable⟩
  · rintro ⟨hmay, hshort, hshortText⟩
    obtain ⟨mode, hfolder, hwritable⟩ := mayChange_iff.1 hmay
    rw [hlast, List.dropLast_concat] at hfolder
    rw [← extend_name hcomponents] at hl
    have hlonger : (temporaryName p.name 0).utf8ByteSize = p.name.utf8ByteSize + 14 :=
      utf8ByteSize_temporaryName p.name 0
    have htext := htext 0
    have hs : root.locate (p.parent.extend [temporaryName p.name 0]) = .ok (above ++ [temporaryName p.name 0]) :=
      locate_extend_of_fits habove hname hl (temporaryName_ne_pair _ _) (by omega) (by omega) null_mem_temporaryName.1
    exact makeTemporary_of_hasRoom ⟨above, mode, habove, hfolder, hwritable, 0, _, hs⟩ hroom

end

end ProtocolTypings.FileTree
