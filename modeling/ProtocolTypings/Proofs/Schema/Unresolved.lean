import Mathlib.Data.List.Sort
import Mathlib.Data.String.Basic
import ProtocolTypings.Proofs.Schema.Reference

/-!
# What is unresolved

The list of unresolved references holds what some domain refers to and no domain declares, in the order of code points.
It is determined by its members, so the order of the domains does not matter.
-/

namespace ProtocolTypings

open Schema (qualify declaredTypes qualifiedReferences insertOrdered unresolved)

/-! ## Reachable references -/

mutual
theorem Shape.refers_of_mem {target : String} : (s : Shape) → target ∈ s.references → s.Refers target
  | .ref _ t, h => by
      rw [Shape.references, List.mem_singleton] at h
      subst h
      exact .ref
  | .array _ items, h => .array (Shape.refers_of_mem items h)
  | .object _ ps, h => by
      obtain ⟨p, hp, hrefers⟩ := exists_refers_of_mem ps h
      exact .object hp hrefers
  | .bareArray _, h => by simp [Shape.references] at h
  | .openObject _, h => by simp [Shape.references] at h
  | .primitive _ _ _, h => by simp [Shape.references] at h
  | .unknown _, h => by simp [Shape.references] at h

theorem exists_refers_of_mem {target : String} :
    (ps : List Property) → target ∈ referencesOfAll ps → ∃ p ∈ ps, p.shape.Refers target
  | [], h => by simp [referencesOfAll] at h
  | p :: ps, h => by
      rw [referencesOfAll, List.mem_append] at h
      rcases h with h | h
      · exact ⟨p, List.mem_cons_self, Property.refers_of_mem p h⟩
      · obtain ⟨q, hq, hrefers⟩ := exists_refers_of_mem ps h
        exact ⟨q, List.mem_cons_of_mem p hq, hrefers⟩

theorem Property.refers_of_mem {target : String} : (p : Property) → target ∈ p.references → p.shape.Refers target
  | ⟨_, shape, _, _, _⟩, h => Shape.refers_of_mem shape h
end

/-- Every shape of a domain is that of a type, of a parameter, of a result or of what an event carries. -/
theorem Domain.refers_iff {d : Domain} {target : String} :
    d.Refers target ↔ ∃ s ∈ d.shapes, target ∈ s.references := by
  constructor
  · exact fun h => h.exists_shape
  · rintro ⟨s, hs, htarget⟩
    have hrefers := s.refers_of_mem htarget
    simp only [Domain.shapes, List.mem_append, List.mem_map, List.mem_flatMap] at hs
    rcases hs with (⟨t, ht, rfl⟩ | ⟨c, hc, p, hp, rfl⟩) | ⟨ev, hev, p, hp, rfl⟩
    · exact .type ht hrefers
    · rcases hp with hp | hp
      · cases hps : c.parameters with
        | none => simp [hps] at hp
        | some ps =>
            rw [hps] at hp
            exact .parameter hc hps hp hrefers
      · cases hps : c.returns with
        | none => simp [hps] at hp
        | some ps =>
            rw [hps] at hp
            exact .result hc hps hp hrefers
    · cases hps : ev.parameters with
      | none => simp [hps] at hp
      | some ps =>
          rw [hps] at hp
          exact .carried hev hps hp hrefers

theorem qualify_eq (domain target : String) :
    qualify domain target = if Dotted target then target else domain ++ "." ++ target := by
  by_cases h : Dotted target
  · rw [qualify_of_dotted h, if_pos h]
  · rw [qualify_of_not_dotted h, if_neg h]

theorem mem_qualifiedReferences {domains : List Domain} {q : String} :
    q ∈ qualifiedReferences domains ↔
      ∃ d ∈ domains, ∃ target, d.Refers target ∧ q = if Dotted target then target else d.name ++ "." ++ target := by
  simp only [qualifiedReferences, List.mem_flatMap, List.mem_map, Domain.refers_iff, ← qualify_eq]
  constructor
  · rintro ⟨d, hd, s, hs, target, htarget, rfl⟩
    exact ⟨d, hd, target, ⟨s, hs, htarget⟩, rfl⟩
  · rintro ⟨d, hd, target, ⟨s, hs, htarget⟩, rfl⟩
    exact ⟨d, hd, s, hs, target, htarget, rfl⟩

theorem mem_declaredTypes {domains : List Domain} {q : String} :
    q ∈ declaredTypes domains ↔ ∃ d ∈ domains, ∃ t ∈ d.types, d.name ++ "." ++ t.id = q := by
  simp [declaredTypes]

/-! ## The order of texts -/

/-- The code points of a text. -/
def codes (s : String) : List Nat :=
  s.toList.map Char.toNat

theorem codes_lt_of_lt {s t : String} (h : s < t) : codes s < codes t := by
  apply List.map_lt
  · intro c d hcd
    exact hcd
  · exact String.lt_iff_toList_lt.1 h

/-! ## Ordered lists -/

theorem mem_insertOrdered {s q : String} {ts : List String} : q ∈ insertOrdered s ts ↔ q = s ∨ q ∈ ts := by
  induction ts with
  | nil => simp [insertOrdered]
  | cons t ts ih =>
      rw [insertOrdered]
      split
      · exact List.mem_cons
      · split
        · rename_i heq
          simp [heq]
        · simp [ih, or_left_comm]

theorem pairwise_insertOrdered {s : String} {ts : List String} (h : ts.Pairwise (· < ·)) :
    (insertOrdered s ts).Pairwise (· < ·) := by
  induction ts with
  | nil => simp [insertOrdered]
  | cons t ts ih =>
      obtain ⟨hfirst, hrest⟩ := List.pairwise_cons.1 h
      rw [insertOrdered]
      split
      · rename_i hlt
        apply List.Pairwise.cons _ h
        intro q hq
        rcases List.mem_cons.1 hq with rfl | hq
        · exact hlt
        · exact String.lt_trans hlt (hfirst q hq)
      · rename_i hge
        split
        · exact h
        · rename_i hne
          have hlt : t < s := lt_of_le_of_ne (not_lt.1 hge) (Ne.symm hne)
          apply List.Pairwise.cons _ (ih hrest)
          intro q hq
          rcases mem_insertOrdered.1 hq with rfl | hq
          · exact hlt
          · exact hfirst q hq

theorem mem_foldr_insertOrdered {q : String} {ss : List String} : q ∈ ss.foldr insertOrdered [] ↔ q ∈ ss := by
  induction ss with
  | nil => simp
  | cons s ss ih => rw [List.foldr_cons, mem_insertOrdered, ih, List.mem_cons]

theorem pairwise_foldr_insertOrdered (ss : List String) : (ss.foldr insertOrdered []).Pairwise (· < ·) := by
  induction ss with
  | nil => exact .nil
  | cons s ss ih => exact pairwise_insertOrdered ih

/-! ## Unresolved references -/

theorem mem_unresolved {domains : List Domain} {q : String} :
    q ∈ unresolved domains ↔ q ∈ qualifiedReferences domains ∧ q ∉ declaredTypes domains := by
  rw [unresolved, mem_foldr_insertOrdered, List.mem_filter]
  simp

theorem pairwise_unresolved (domains : List Domain) : (unresolved domains).Pairwise (· < ·) :=
  pairwise_foldr_insertOrdered _

/-- Ordered lists with the same members are the same. -/
theorem unresolved_eq_of_perm {domains domains' : List Domain} (h : domains.Perm domains') :
    unresolved domains' = unresolved domains := by
  apply List.Pairwise.eq_of_mem_iff (pairwise_unresolved domains') (pairwise_unresolved domains)
  intro q
  simp only [mem_unresolved, mem_qualifiedReferences, mem_declaredTypes, h.mem_iff]

/-- The unresolved references stand in the strict order of their code points. They are the qualified targets of the
references that can be reached from a domain of the list, without those that a domain of the list declares; so they do
not depend on the order of the domains. -/
theorem unresolved_exact (domains : List Domain) :
    (unresolved domains).Pairwise (fun s t => codes s < codes t) ∧
    (∀ q, q ∈ unresolved domains ↔
      (∃ d ∈ domains, ∃ target, d.Refers target ∧ q = if Dotted target then target else d.name ++ "." ++ target) ∧
      ¬ ∃ d' ∈ domains, ∃ t ∈ d'.types, d'.name ++ "." ++ t.id = q) ∧
    ∀ domains', domains.Perm domains' → unresolved domains' = unresolved domains := by
  refine ⟨?_, fun q => ?_, fun domains' h => unresolved_eq_of_perm h⟩
  · exact (pairwise_unresolved domains).imp codes_lt_of_lt
  · rw [mem_unresolved, mem_qualifiedReferences, mem_declaredTypes]

/-- A domain with a type, and an event that carries a type of another domain. -/
def nodeDomain : Domain where
  name := "DOM"
  description := .null
  types := [⟨"NodeId", .primitive default "string" none, .null, default⟩]
  commands := []
  events := [⟨"moved", .null, some [⟨"frame", .ref default "Page.FrameId", false, .null, default⟩], default⟩]
  dependencies := []
  marks := default

/-- A domain without types. Its command is given nodes and answers with a frame. -/
def frameDomain : Domain where
  name := "Page"
  description := .null
  types := []
  commands := [⟨"attach", .null,
    some [⟨"nodes", .array default (.object default [⟨"id", .ref default "DOM.NodeId", false, .null, default⟩]), false,
      .null, default⟩],
    some [⟨"frame", .ref default "FrameId", false, .null, default⟩], .null, default⟩]
  events := []
  dependencies := []
  marks := default

theorem unresolved_exact_frames :
    [nodeDomain, frameDomain].Perm [frameDomain, nodeDomain] ∧
      unresolved [frameDomain, nodeDomain] = unresolved [nodeDomain, frameDomain] ∧
      "Page.FrameId" ∈ unresolved [nodeDomain, frameDomain] ∧ "DOM.NodeId" ∉ unresolved [nodeDomain, frameDomain] := by
  obtain ⟨-, hmem, hperm⟩ := unresolved_exact [nodeDomain, frameDomain]
  have hswap : [nodeDomain, frameDomain].Perm [frameDomain, nodeDomain] := .swap _ _ _
  refine ⟨hswap, hperm _ hswap, ?_, ?_⟩
  · have hrefers : frameDomain.Refers "FrameId" := .result List.mem_cons_self rfl List.mem_cons_self .ref
    rw [hmem]
    exact ⟨⟨frameDomain, by simp, "FrameId", hrefers, by decide⟩, by decide⟩
  · rw [hmem]
    rintro ⟨-, hundeclared⟩
    exact hundeclared ⟨nodeDomain, by simp, ⟨"NodeId", .primitive default "string" none, .null, default⟩,
      List.mem_cons_self, rfl⟩

end ProtocolTypings
