import ProtocolTypings.File.Path

/-!
# The last component of a path

A component holds no slash and is neither empty nor a single point, so that it leads on from any folder by itself. Where
a path ends in a proper name, the path is the folder above it and this name, also when pairs of points are undone.
-/

namespace ProtocolTypings.Path

/-! ## Components of a text -/

theorem not_mem_of_mem_cut {separator : Char} {text piece : List Char} (h : piece ∈ cut separator text) :
    separator ∉ piece := by
  induction text generalizing piece with
  | nil => simp_all [cut]
  | cons c text ih =>
      rw [cut] at h
      split at h
      · rcases List.mem_cons.1 h with rfl | h
        · exact List.not_mem_nil
        · exact ih h
      · rename_i hc
        split at h
        · rw [List.mem_singleton.1 h]
          simpa using Ne.symm hc
        · rename_i first rest hcut
          rw [hcut] at ih
          rcases List.mem_cons.1 h with rfl | h
          · have hfirst := ih List.mem_cons_self
            simp [Ne.symm hc, hfirst]
          · exact ih (List.mem_cons_of_mem _ h)

theorem cut_of_not_mem {separator : Char} {text : List Char} (h : separator ∉ text) : cut separator text = [text] := by
  induction text with
  | nil => rfl
  | cons c text ih =>
      rw [List.mem_cons, not_or] at h
      rw [cut, if_neg (Ne.symm h.1), ih h.2]

/-- What a component of a path is made of. -/
structure Component (c : String) : Prop where
  noSlash : '/' ∉ c.toList
  notEmpty : c ≠ ""
  notHere : c ≠ "."

theorem component_of_mem {c s : String} (h : c ∈ componentsOf s) : Component c := by
  obtain ⟨hmem, hkept⟩ := List.mem_filter.1 h
  obtain ⟨piece, hpiece, rfl⟩ := List.mem_map.1 hmem
  rw [Bool.and_eq_true, bne_iff_ne, bne_iff_ne] at hkept
  exact ⟨by rw [String.toList_ofList]; exact not_mem_of_mem_cut hpiece, hkept.1, hkept.2⟩

/-- A component behind a single point is found in the folder itself. -/
theorem Component.resolve_here {c : String} (h : Component c) (base : Path) :
    base.resolve ("./" ++ c) = base.extend [c] := by
  have htext : ("./" ++ c).toList = '.' :: '/' :: c.toList := by
    rw [String.toList_append]
    rfl
  have hcut : cut '/' ('.' :: '/' :: c.toList) = [['.'], c.toList] := by
    simp [cut, cut_of_not_mem h.noSlash]
  have hcomponents : componentsOf ("./" ++ c) = [c] := by
    rw [componentsOf, htext, hcut]
    simp [h.notEmpty, h.notHere]
  rw [resolve, htext, hcomponents]
  rfl

/-! ## The folder above -/

variable {p q : Path} {c : String}

theorem extend_inj : p.extend [c] = q.extend [c] ↔ p = q := by
  obtain ⟨ps, anchor⟩ := p
  obtain ⟨qs, anchor'⟩ := q
  simp [extend]

theorem extend_parent (h : p.components.getLast? = some c) : p.parent.extend [c] = p := by
  obtain ⟨components, anchor⟩ := p
  obtain ⟨above, rfl⟩ := List.getLast?_eq_some_iff.1 h
  simp [parent, extend]

theorem undoPairs_append (done front rest : List String) :
    undoPairs done (front ++ rest) = undoPairs (undoPairs done front) rest := by
  induction front generalizing done with
  | nil => rfl
  | cons c front ih => exact ih _

/-- A name at the end is not undone. -/
theorem straighten_extend (p : Path) (h : c ≠ "..") : (p.extend [c]).straighten = p.straighten.extend [c] := by
  simp [straighten, extend, undoPairs_append, undoPairs, h]

theorem getLast?_resolve {s : String} (h : (componentsOf s).getLast? = some c) (base : Path) :
    (base.resolve s).components.getLast? = some c := by
  unfold resolve
  split
  · exact h
  · simp [extend, h]

end ProtocolTypings.Path
