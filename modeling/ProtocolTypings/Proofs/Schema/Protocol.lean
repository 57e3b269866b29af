import ProtocolTypings.Proofs.Log.Outcome
import ProtocolTypings.Schema.Protocol

/-!
# What is read of several documents

Repeated names are only noted, so that the outcome depends on the documents and, in a strict reading, on the references
between them.
-/

namespace ProtocolTypings.Schema

@[simp] theorem result_noteAll (level : Log.Level) (topic : Log.Topic) (messages : List String) :
    (noteAll level topic messages).result = .ok () := by
  induction messages with
  | nil => rfl
  | cons message rest ih => rw [noteAll, Logged.result_bind, Logged.result_note, ok_bind, ih]

theorem checkReferences_eq_ok {strict : Bool} {domains : List Domain} :
    (checkReferences strict domains).result = .ok () ↔ (strict = true → unresolved domains = []) := by
  unfold checkReferences
  cases unresolved domains with
  | nil => simp
  | cons first rest => cases strict <;> simp [refuse]

/-- What is read is what the documents say one after the other; in a strict reading no reference is left unresolved. -/
theorem readProtocol_eq_ok {strict : Bool} {documents : List Json} {domains : List Domain} :
    (readProtocol strict documents).result = .ok domains ↔
      (readDocuments strict 0 documents).result = .ok domains ∧ (strict = true → unresolved domains = []) := by
  rw [readProtocol, Logged.bind_result_eq_ok]
  constructor
  · rintro ⟨ds, hds, hrest⟩
    rw [Logged.result_bind, result_noteAll, ok_bind, Logged.bind_result_eq_ok] at hrest
    obtain ⟨checked, hchecked, hresult⟩ := hrest
    cases hresult
    exact ⟨hds, checkReferences_eq_ok.1 hchecked⟩
  · rintro ⟨hds, hresolved⟩
    refine ⟨domains, hds, ?_⟩
    rw [Logged.result_bind, result_noteAll, ok_bind, Logged.bind_result_eq_ok]
    exact ⟨(), checkReferences_eq_ok.2 hresolved, rfl⟩

end ProtocolTypings.Schema
