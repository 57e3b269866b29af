import Mathlib.Data.List.Basic
import ProtocolTypings.File.Change
import ProtocolTypings.Proofs.File.Nodes
import ProtocolTypings.Proofs.Outcome

/-!
# How trees grow

What the requests of a writer do to a tree, as seen at its locations. Folders are kept, so that a path leads to the
same location afterwards.
-/

namespace ProtocolTypings.FileTree

/-! ## Following paths -/

theorem Rooted.nil (root : FileTree) : Rooted root [] := by
  intro above c rest h
  cases above <;> cases h

theorem Rooted.concat {root : FileTree} {l : List String} {mode : Mode} (h : Rooted root l)
    (hl : root.nodeAt l = some (.folder mode)) (c : String) : Rooted root (l ++ [c]) := by
  intro above d rest heq
  rcases List.eq_nil_or_concat rest with rfl | ⟨rest, e, rfl⟩
  · obtain ⟨rfl, -⟩ := List.append_inj' heq rfl
    exact ⟨mode, hl⟩
  · rw [List.concat_eq_append, ← List.cons_append, ← List.append_assoc] at heq
    obtain ⟨rfl, -⟩ := List.append_inj' heq rfl
    exact h above d rest rfl

theorem Rooted.dropLast {root : FileTree} {l : List String} (h : Rooted root l) : Rooted root l.dropLast := by
  rcases List.eq_nil_or_concat l with rfl | ⟨l, c, rfl⟩
  · exact h
  · rw [List.concat_eq_append] at h ⊢
    rw [List.dropLast_concat]
    intro above d rest heq
    exact h above d (rest ++ [c]) (by rw [heq, List.append_assoc, List.cons_append])

theorem follow_append (root : FileTree) (done xs ys : List String) :
    follow root done (xs ++ ys) = follow root done xs >>= fun mid => follow root mid ys := by
  induction xs generalizing done with
  | nil => rfl
  | cons c xs ih =>
      rw [List.cons_append, follow, follow]
      split
      · rfl
      · rfl
      · split
        · rfl
        · split
          · exact ih _
          · split
            · rfl
            · exact ih _

theorem rooted_follow {root : FileTree} {done l cs : List String} (hdone : Rooted root done)
    (h : follow root done cs = .ok l) : Rooted root l := by
  induction cs generalizing done with
  | nil =>
      cases h
      exact hdone
  | cons c cs ih =>
      rw [follow] at h
      split at h
      · cases h
      · cases h
      · rename_i mode entries hentry
        split at h
        · cases h
        · split at h
          · exact ih hdone.dropLast h
          · split at h
            · cases h
            · exact ih (hdone.concat (nodeAt_eq_folder.2 ⟨entries, hentry⟩) c) h

theorem follow_of_folders {root root' : FileTree}
    (hfolders : ∀ l mode, root.nodeAt l = some (.folder mode) → root'.nodeAt l = some (.folder mode))
    {done l cs : List String} (h : follow root done cs = .ok l) : follow root' done cs = .ok l := by
  induction cs generalizing done with
  | nil => exact h
  | cons c cs ih =>
      rw [follow] at h ⊢
      split at h
      · cases h
      · cases h
      · rename_i mode entries hentry
        obtain ⟨entries', hentry'⟩ := nodeAt_eq_folder.1 (hfolders done mode (nodeAt_eq_folder.2 ⟨entries, hentry⟩))
        simp only [hentry']
        split at h
        · cases h
        · rename_i hsearchable
          rw [if_neg hsearchable]
          split at h
          · rename_i hpair
            rw [if_pos hpair]
            exact ih h
          · rename_i hpair
            rw [if_neg hpair]
            split at h
            · cases h
            · rename_i hlength
              rw [if_neg hlength]
              exact ih h

theorem locate_eq_ok {root : FileTree} {p : Path} {l : List String} :
    root.locate p = .ok l ↔
      p.hasNull = false ∧ p.text.utf8ByteSize ≤ maxPath ∧ follow root [] p.components = .ok l := by
  rw [locate]
  constructor
  · intro h
    split at h
    · cases h
    · rename_i hnull
      split at h
      · cases h
      · rename_i hlength
        exact ⟨by simpa using hnull, by omega, h⟩
  · rintro ⟨hnull, hlength, h⟩
    rw [if_neg (by simp [hnull]), if_neg (by omega), h]

theorem follow_eq_undoPairs {root : FileTree} {done l cs : List String} (h : follow root done cs = .ok l) :
    l = Path.undoPairs done cs := by
  induction cs generalizing done with
  | nil =>
      cases h
      rfl
  | cons c cs ih =>
      rw [follow] at h
      rw [Path.undoPairs]
      split at h
      · cases h
      · cases h
      · split at h
        · cases h
        · split at h
          · rename_i hpair
            rw [if_pos hpair]
            exact ih h
          · rename_i hpair
            rw [if_neg hpair]
            split at h
            · cases h
            · exact ih h

/-- Where a path leads can be said without the tree. -/
theorem locate_eq_straighten {root : FileTree} {p : Path} {l : List String} (h : root.locate p = .ok l) :
    l = p.straighten.components :=
  follow_eq_undoPairs (locate_eq_ok.1 h).2.2

theorem rooted_locate {root : FileTree} {p : Path} {l : List String} (h : root.locate p = .ok l) : Rooted root l :=
  rooted_follow (Rooted.nil root) (locate_eq_ok.1 h).2.2

/-- A path keeps its location where the folders are kept. -/
theorem locate_of_folders {root root' : FileTree}
    (hfolders : ∀ l mode, root.nodeAt l = some (.folder mode) → root'.nodeAt l = some (.folder mode))
    {p : Path} {l : List String} (hl : root.locate p = .ok l) : root'.locate p = .ok l := by
  obtain ⟨hnull, hlength, hfollow⟩ := locate_eq_ok.1 hl
  exact locate_eq_ok.2 ⟨hnull, hlength, follow_of_folders hfolders hfollow⟩

/-! ## Growth -/

/-- The second tree has the folders of the first and, but for some locations, the same files. -/
structure Grows (written : List (List String)) (root root' : FileTree) : Prop where
  folders : ∀ l mode, root.nodeAt l = some (.folder mode) → root'.nodeAt l = some (.folder mode)
  files : ∀ l, l ∉ written → ∀ f, root'.nodeAt l = some (.file f) ↔ root.nodeAt l = some (.file f)

namespace Grows

variable {written : List (List String)} {root root' root'' : FileTree}

theorem refl (written : List (List String)) (root : FileTree) : Grows written root root :=
  ⟨fun _ _ h => h, fun _ _ _ => Iff.rfl⟩

theorem trans (h : Grows written root root') (h' : Grows written root' root'') : Grows written root root'' where
  folders := fun l mode hl => h'.folders l mode (h.folders l mode hl)
  files := fun l hl f => (h'.files l hl f).trans (h.files l hl f)

theorem mono {more : List (List String)} (h : Grows written root root') (hsub : written ⊆ more) :
    Grows more root root' where
  folders := h.folders
  files := fun l hl f => h.files l (fun hmem => hl (hsub hmem)) f

theorem of_nodeAt_eq (h : ∀ l, root'.nodeAt l = root.nodeAt l) : Grows [] root root' where
  folders := fun l mode hl => by rw [h l, hl]
  files := fun l _ f => by rw [h l]

theorem locate (h : Grows written root root') {p : Path} {l : List String} (hl : root.locate p = .ok l) :
    root'.locate p = .ok l :=
  locate_of_folders h.folders hl

end Grows

/-- The second tree differs from the first in nothing but that there is a certain file at a location. -/
def WithFile (l : List String) (f : StoredFile) (root root' : FileTree) : Prop :=
  ∀ other, root'.nodeAt other = if other = l then some (.file f) else root.nodeAt other

theorem WithFile.self {l : List String} {f : StoredFile} {root root' : FileTree} (h : WithFile l f root root') :
    root'.nodeAt l = some (.file f) := by
  rw [h l, if_pos rfl]

theorem WithFile.of_ne {l other : List String} {f : StoredFile} {root root' : FileTree} (h : WithFile l f root root')
    (hother : other ≠ l) : root'.nodeAt other = root.nodeAt other := by
  rw [h other, if_neg hother]

theorem WithFile.overwrite {l : List String} {f g : StoredFile} {root mid root' : FileTree}
    (h : WithFile l f root mid) (h' : WithFile l g mid root') : WithFile l g root root' := by
  intro other
  rw [h' other]
  by_cases hother : other = l
  · rw [if_pos hother, if_pos hother]
  · rw [if_neg hother, if_neg hother, h.of_ne hother]

/-- The file leads nowhere, so that paths led to where they lead with it. -/
theorem WithFile.locate_before {l t : List String} {f : StoredFile} {root root' : FileTree} {p : Path}
    (h : WithFile l f root root') (ht : root'.locate p = .ok t) : root.locate p = .ok t := by
  refine locate_of_folders (fun other mode hother => ?_) ht
  rw [h other] at hother
  split at hother
  · cases hother
  · exact hother

/-- The file took the place of no folder. -/
theorem WithFile.grows {l : List String} {f : StoredFile} {root root' : FileTree} (h : WithFile l f root root')
    (hl : ∀ mode, root.nodeAt l ≠ some (.folder mode)) : Grows [l] root root' where
  folders := by
    intro other mode hother
    have hne : other ≠ l := by
      rintro rfl
      exact hl mode hother
    rw [h.of_ne hne, hother]
  files := by
    intro other hother g
    rw [h.of_ne fun heq => hother (List.mem_singleton.2 heq)]

theorem WithFile.grows_of_none {l : List String} {f : StoredFile} {root root' : FileTree} (h : WithFile l f root root')
    (hnone : root.nodeAt l = none) : Grows [l] root root' :=
  h.grows (by simp [hnone])

theorem WithFile.grows_of_file {l : List String} {f g : StoredFile} {root root' : FileTree}
    (h : WithFile l f root root') (hfile : root.nodeAt l = some (.file g)) : Grows [l] root root' :=
  h.grows (by simp [hfile])

end ProtocolTypings.FileTree
