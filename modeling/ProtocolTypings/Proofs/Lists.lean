import Mathlib.Data.List.Forall2
import Mathlib.Data.List.Nodup

/-!
# Lists

Lists whose elements correspond one by one, and what is found in a list of fields.
-/

namespace ProtocolTypings

/-! ## Elements that correspond -/

section

variable {α β γ : Type} {S : α → β → Prop} {as : List α} {bs : List β}

theorem map_eq_of_forall₂ {f : α → γ} {g : β → γ} (h : List.Forall₂ S as bs) (hS : ∀ a b, S a b → f a = g b) :
    as.map f = bs.map g := by
  induction h with
  | nil => rfl
  | cons hab _ ih => rw [List.map_cons, List.map_cons, hS _ _ hab, ih]

theorem flatMap_eq_of_forall₂ {f : α → List γ} {g : β → List γ} (h : List.Forall₂ S as bs)
    (hS : ∀ a b, S a b → f a = g b) : as.flatMap f = bs.flatMap g := by
  rw [List.flatMap_def, List.flatMap_def, map_eq_of_forall₂ h hS]

end

/-! ## Fields -/

section

variable {α : Type} {entries others : List (String × α)}

theorem lookup_eq_none_of_notMem {key : String} (h : key ∉ entries.map (·.1)) : entries.lookup key = none := by
  refine List.lookup_eq_none_iff.2 fun entry hentry => bne_iff_ne.2 fun heq => h ?_
  exact List.mem_map.2 ⟨entry, hentry, heq.symm⟩

theorem lookup_cons_of_ne {key name : String} (h : key ≠ name) (value : α) :
    ((key, value) :: entries).lookup name = entries.lookup name := by
  rw [List.lookup_cons, beq_eq_false_iff_ne.2 (Ne.symm h)]

/-- Where no key is there twice, an entry is found whatever comes before it. -/
theorem lookup_eq_some_iff_mem (hkeys : (entries.map (·.1)).Nodup) {key : String} {value : α} :
    entries.lookup key = some value ↔ (key, value) ∈ entries := by
  constructor
  · intro h
    obtain ⟨before, after, rfl, -⟩ := List.lookup_eq_some_iff.1 h
    exact List.mem_append_right before List.mem_cons_self
  · intro hmem
    cases hlookup : entries.lookup key with
    | none =>
        have hne := List.lookup_eq_none_iff.1 hlookup _ hmem
        exact absurd rfl (bne_iff_ne.1 hne)
    | some other =>
        obtain ⟨before, after, rfl, -⟩ := List.lookup_eq_some_iff.1 hlookup
        have hother : (key, other) ∈ before ++ (key, other) :: after := List.mem_append_right before List.mem_cons_self
        have heq := List.inj_on_of_nodup_map hkeys hother hmem rfl
        exact congrArg (fun entry => some entry.2) heq

theorem lookup_eq_of_perm (hkeys : (entries.map (·.1)).Nodup) (h : others.Perm entries) (key : String) :
    others.lookup key = entries.lookup key := by
  have hothers : (others.map (·.1)).Nodup := (h.map (·.1)).nodup_iff.2 hkeys
  apply Option.ext
  intro value
  rw [lookup_eq_some_iff_mem hothers, lookup_eq_some_iff_mem hkeys, h.mem_iff]

end

end ProtocolTypings
