import ProtocolTypings.File.Tree

/-!
# What stands at a location

A tree is seen through what stands at its locations: a folder with its mode or a file. Entering and taking away an
entry change what stands at its location and below it and nothing else, and to follow a path only the folders count.
-/

namespace ProtocolTypings

namespace Entries

variable {α : Type}

theorem lookup_erase_self (key : String) (entries : List (String × α)) : (erase key entries).lookup key = none := by
  rw [List.lookup_eq_none_iff]
  intro e he
  have hne := (List.mem_filter.1 he).2
  rw [bne_iff_ne] at hne ⊢
  exact Ne.symm hne

theorem lookup_erase_of_ne {key other : String} (h : other ≠ key) (entries : List (String × α)) :
    (erase key entries).lookup other = entries.lookup other := by
  induction entries with
  | nil => rfl
  | cons e rest ih =>
      obtain ⟨k, v⟩ := e
      by_cases hk : k = key
      · subst hk
        simp only [erase, List.filter_cons, bne_self_eq_false, Bool.false_eq_true, ↓reduceIte, List.lookup_cons,
          beq_eq_false_iff_ne.2 h]
        exact ih
      · simp only [erase, List.filter_cons, bne_iff_ne, ne_eq, hk, not_false_eq_true, ↓reduceIte, List.lookup_cons]
        split
        · rfl
        · exact ih

end Entries

namespace FileTree

/-- What a tree is by itself. -/
inductive Node where
  | folder (mode : Mode)
  | file (file : StoredFile)

def node : FileTree → Node
  | .folder mode _ => .folder mode
  | .file f => .file f

/-- What stands at a location. -/
def nodeAt (root : FileTree) (l : List String) : Option Node :=
  (root.entryAt l).map node

@[simp] theorem nodeAt_nil (root : FileTree) : root.nodeAt [] = some root.node := by
  cases root <;> rfl

theorem nodeAt_folder_cons (mode : Mode) (entries : List (String × FileTree)) (c : String) (l : List String) :
    (FileTree.folder mode entries).nodeAt (c :: l) = (entries.lookup c).bind (·.nodeAt l) := by
  rw [nodeAt, entryAt]
  cases entries.lookup c <;> rfl

@[simp] theorem nodeAt_file_cons (f : StoredFile) (c : String) (l : List String) :
    (FileTree.file f).nodeAt (c :: l) = none := rfl

theorem nodeAt_eq_folder {root : FileTree} {l : List String} {mode : Mode} :
    root.nodeAt l = some (.folder mode) ↔ ∃ entries, root.entryAt l = some (.folder mode entries) := by
  rw [nodeAt]
  cases root.entryAt l with
  | none => simp
  | some tree => cases tree <;> simp [node]

theorem nodeAt_eq_file {root : FileTree} {l : List String} {f : StoredFile} :
    root.nodeAt l = some (.file f) ↔ root.entryAt l = some (.file f) := by
  rw [nodeAt]
  cases root.entryAt l with
  | none => simp
  | some tree => cases tree <;> simp [node]

theorem nodeAt_eq_none {root : FileTree} {l : List String} : root.nodeAt l = none ↔ root.entryAt l = none := by
  rw [nodeAt, Option.map_eq_none_iff]

theorem entryAt_append (a b : List String) (root : FileTree) :
    root.entryAt (a ++ b) = (root.entryAt a).bind (entryAt b) := by
  induction a generalizing root with
  | nil => cases root <;> rfl
  | cons c a ih =>
      cases root with
      | file f => rfl
      | folder mode entries =>
          rw [List.cons_append, entryAt, entryAt]
          cases entries.lookup c with
          | none => rfl
          | some below => exact ih below

theorem nodeAt_concat {root : FileTree} {l : List String} {mode : Mode} {entries : List (String × FileTree)}
    (h : root.entryAt l = some (.folder mode entries)) (c : String) :
    root.nodeAt (l ++ [c]) = (entries.lookup c).map node := by
  rw [nodeAt, entryAt_append, h, Option.bind_some, entryAt]
  cases entries.lookup c with
  | none => rfl
  | some tree => cases tree <;> rfl

/-- Below what is no folder there is nothing. -/
theorem nodeAt_append_cons {root : FileTree} {l : List String} (h : ∀ mode, root.nodeAt l ≠ some (.folder mode))
    (c : String) (rest : List String) : root.nodeAt (l ++ c :: rest) = none := by
  rw [nodeAt, entryAt_append]
  cases hentry : root.entryAt l with
  | none => rfl
  | some tree =>
      cases tree with
      | file f => rfl
      | folder mode entries => exact absurd (nodeAt_eq_folder.2 ⟨entries, hentry⟩) (h mode)

/-! ## Entering and taking away -/

/-- All folders above the location are there. -/
def Rooted (root : FileTree) (l : List String) : Prop :=
  ∀ above c rest, l = above ++ c :: rest → ∃ mode, root.nodeAt above = some (.folder mode)

theorem Rooted.below {mode : Mode} {entries : List (String × FileTree)} {c : String} {cs : List String}
    (h : Rooted (.folder mode entries) (c :: cs)) : Rooted ((entries.lookup c).getD empty) cs := by
  intro above d rest hcs
  obtain ⟨mode', hnode⟩ := h (c :: above) d rest (by rw [hcs, List.cons_append])
  rw [nodeAt_folder_cons] at hnode
  cases hlookup : entries.lookup c with
  | none =>
      rw [hlookup] at hnode
      cases hnode
  | some below =>
      rw [hlookup] at hnode
      exact ⟨mode', hnode⟩

theorem Rooted.exists_folder {root : FileTree} {c : String} {cs : List String} (h : Rooted root (c :: cs)) :
    ∃ mode entries, root = .folder mode entries := by
  obtain ⟨mode, hnode⟩ := h [] c cs rfl
  cases root with
  | file f => cases hnode
  | folder mode entries => exact ⟨mode, entries, rfl⟩

theorem nodeAt_put_append {root : FileTree} {l : List String} (h : Rooted root l) (new : FileTree)
    (rest : List String) : (root.put l new).nodeAt (l ++ rest) = new.nodeAt rest := by
  induction l generalizing root with
  | nil => cases root <;> rfl
  | cons c cs ih =>
      obtain ⟨mode, entries, rfl⟩ := h.exists_folder
      rw [put, List.cons_append, nodeAt_folder_cons, Entries.lookup_put_self]
      exact ih h.below

theorem nodeAt_put_of_not_below {root : FileTree} {l other : List String} (h : Rooted root l) (new : FileTree)
    (hother : ¬ l <+: other) : (root.put l new).nodeAt other = root.nodeAt other := by
  induction l generalizing root other with
  | nil => exact absurd (List.nil_prefix) hother
  | cons c cs ih =>
      obtain ⟨mode, entries, rfl⟩ := h.exists_folder
      cases other with
      | nil => rfl
      | cons d ds =>
          rw [put, nodeAt_folder_cons, nodeAt_folder_cons]
          by_cases hd : d = c
          · subst hd
            have hds : ¬ cs <+: ds := fun hprefix => hother (List.cons_prefix_cons.2 ⟨rfl, hprefix⟩)
            rw [Entries.lookup_put_self]
            cases hlookup : entries.lookup d with
            | some below =>
                have hbelow := h.below
                rw [hlookup] at hbelow
                exact ih hbelow hds
            | none =>
                -- nothing is missing above the location, so the missing folder could only be the location itself
                cases cs with
                | nil => exact absurd (List.nil_prefix) hds
                | cons e es =>
                    obtain ⟨mode', hnode⟩ := h [d] e es rfl
                    rw [nodeAt_folder_cons, hlookup] at hnode
                    cases hnode
          · rw [Entries.lookup_put_of_ne hd]

/-- Where no folder is, a tree with nothing below its root can be entered without a change elsewhere. -/
theorem nodeAt_put_bare {root tree : FileTree} {l : List String} (h : Rooted root l)
    (hl : ∀ mode, root.nodeAt l ≠ some (.folder mode)) (htree : ∀ c rest, tree.nodeAt (c :: rest) = none)
    (other : List String) :
    (root.put l tree).nodeAt other = if other = l then some tree.node else root.nodeAt other := by
  by_cases hprefix : l <+: other
  · obtain ⟨rest, rfl⟩ := hprefix
    rw [nodeAt_put_append h]
    cases rest with
    | nil => simp
    | cons c rest =>
        rw [nodeAt_append_cons hl, htree]
        simp
  · rw [nodeAt_put_of_not_below h _ hprefix, if_neg]
    rintro rfl
    exact hprefix (List.prefix_refl _)

theorem nodeAt_put_file {root : FileTree} {l : List String} (h : Rooted root l)
    (hl : ∀ mode, root.nodeAt l ≠ some (.folder mode)) (f : StoredFile) (other : List String) :
    (root.put l (.file f)).nodeAt other = if other = l then some (.file f) else root.nodeAt other :=
  nodeAt_put_bare h hl (nodeAt_file_cons f) other

theorem nodeAt_put_empty {root : FileTree} {l : List String} (h : Rooted root l) (hl : root.nodeAt l = none)
    (other : List String) :
    (root.put l .empty).nodeAt other = if other = l then some (.folder .newFolder) else root.nodeAt other :=
  nodeAt_put_bare h (by simp [hl]) (nodeAt_folder_cons _ []) other

theorem nodeAt_erase_append {l : List String} (hl : l ≠ []) (root : FileTree) (rest : List String) :
    (erase l root).nodeAt (l ++ rest) = none := by
  induction l generalizing root with
  | nil => exact absurd rfl hl
  | cons c cs ih =>
      cases root with
      | file f => cases cs <;> rfl
      | folder mode entries =>
          cases cs with
          | nil =>
              rw [erase, List.cons_append, nodeAt_folder_cons, Entries.lookup_erase_self]
              rfl
          | cons d ds =>
              simp only [erase]
              cases hlookup : entries.lookup c with
              | none =>
                  rw [List.cons_append, nodeAt_folder_cons, hlookup]
                  rfl
              | some below =>
                  rw [List.cons_append, nodeAt_folder_cons, Entries.lookup_put_self]
                  exact ih (List.cons_ne_nil d ds) below

theorem nodeAt_erase_of_not_below {l other : List String} (root : FileTree) (hother : ¬ l <+: other) :
    (erase l root).nodeAt other = root.nodeAt other := by
  induction l generalizing root other with
  | nil => cases root <;> rfl
  | cons c cs ih =>
      cases root with
      | file f => cases cs <;> rfl
      | folder mode entries =>
          cases other with
          | nil =>
              cases cs with
              | nil => rfl
              | cons d ds =>
                  simp only [erase]
                  cases entries.lookup c <;> rfl
          | cons e es =>
              by_cases he : e = c
              · subst he
                have hes : ¬ cs <+: es := fun hprefix => hother (List.cons_prefix_cons.2 ⟨rfl, hprefix⟩)
                cases cs with
                | nil => exact absurd (List.nil_prefix) hes
                | cons d ds =>
                    simp only [erase]
                    cases hlookup : entries.lookup e with
                    | none => rfl
                    | some below =>
                        rw [nodeAt_folder_cons, nodeAt_folder_cons, Entries.lookup_put_self, hlookup]
                        exact ih below hes
              · cases cs with
                | nil => rw [erase, nodeAt_folder_cons, nodeAt_folder_cons, Entries.lookup_erase_of_ne he]
                | cons d ds =>
                    simp only [erase]
                    cases entries.lookup c with
                    | none => rfl
                    | some below => rw [nodeAt_folder_cons, nodeAt_folder_cons, Entries.lookup_put_of_ne he]

theorem nodeAt_erase_file {root : FileTree} {l : List String} (hl : l ≠ []) {f : StoredFile}
    (hfile : root.nodeAt l = some (.file f)) (other : List String) :
    (erase l root).nodeAt other = if other = l then none else root.nodeAt other := by
  by_cases hprefix : l <+: other
  · obtain ⟨rest, rfl⟩ := hprefix
    rw [nodeAt_erase_append hl]
    cases rest with
    | nil => simp
    | cons c rest =>
        rw [nodeAt_append_cons (by simp [hfile])]
        simp
  · rw [nodeAt_erase_of_not_below root hprefix, if_neg]
    rintro rfl
    exact hprefix (List.prefix_refl _)

end FileTree

end ProtocolTypings
