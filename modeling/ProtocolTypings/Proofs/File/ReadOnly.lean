import Mathlib.Data.List.Forall2
import ProtocolTypings.Artifact.Delivery
import ProtocolTypings.Proofs.File.Run
import ProtocolTypings.Proofs.Log.Outcome

/-!
# Actions that only look

An action that asks for nothing but the status and the contents of entries leaves the tree as it is. How it ends is then
put together from the outcomes of its parts on one and the same tree.
-/

namespace ProtocolTypings

/-- Does the request leave every tree as it is? -/
def FileRequest.Looks : FileRequest → Prop
  | .status _ | .read _ => True
  | _ => False

namespace Action

variable {α β : Type} {root : FileTree}

/-- The action makes no request but those that look, whatever the answers are. -/
def ReadOnly : Action α → Prop
  | .done _ | .fail _ => True
  | .note _ next => next.ReadOnly
  | .ask request next => request.Looks ∧ ∀ answer, (next answer).ReadOnly

/-- How the action ends on a tree. -/
def outcome (root : FileTree) (a : Action α) : Except Fault α :=
  (run root a).2.result

theorem perform_of_looks {r : FileRequest} (h : r.Looks) (root : FileTree) : (perform root r).1 = root := by
  cases r with
  | status p => rfl
  | read p => rfl
  | _ => exact h.elim

namespace ReadOnly

/-- Such an action leaves the tree as it is, however it ends. -/
theorem tree_eq {a : Action α} (h : a.ReadOnly) (root : FileTree) : (run root a).1 = root := by
  induction a with
  | done _ => rfl
  | fail _ => rfl
  | note record next ih => exact ih h
  | ask request next ih =>
      rw [run_ask, perform_of_looks h.1]
      exact ih _ (h.2 _)

theorem run_eq {a : Action α} (h : a.ReadOnly) (root : FileTree) :
    run root a = (root, ⟨(run root a).2.log, a.outcome root⟩) := by
  refine Prod.ext (h.tree_eq root) ?_
  rfl

theorem pure (a : α) : (Pure.pure a : Action α).ReadOnly :=
  trivial

theorem report (level : Log.Level) (topic : Log.Topic) (message : String) :
    (Action.report level topic message).ReadOnly :=
  trivial

theorem ofExcept (x : Except Fault α) : (Action.ofExcept x).ReadOnly := by
  cases x <;> trivial

theorem ofLogged (x : Logged α) : (Action.ofLogged x).ReadOnly := by
  rw [Action.ofLogged]
  induction x.log with
  | nil => exact ofExcept x.result
  | cons record log ih => exact ih

theorem read (p : Path) : (Action.request (.read p)).ReadOnly := by
  refine ⟨trivial, fun answer => ?_⟩
  cases answer <;> trivial

theorem bind {a : Action α} {f : α → Action β} (ha : a.ReadOnly) (hf : ∀ b, (f b).ReadOnly) : (a >>= f).ReadOnly := by
  induction a with
  | done b => exact hf b
  | fail fault => trivial
  | note record next ih => exact ih ha
  | ask request next ih => exact ⟨ha.1, fun answer => ih answer (ha.2 answer)⟩

/-- What follows an action that only looks starts on the same tree. -/
theorem outcome_bind {a : Action α} (h : a.ReadOnly) (f : α → Action β) :
    (a >>= f).outcome root = a.outcome root >>= fun b => (f b).outcome root := by
  have hrun := h.run_eq root
  rw [outcome]
  cases houtcome : a.outcome root with
  | error fault =>
      rw [houtcome] at hrun
      rw [run_bind_of_error hrun]
      rfl
  | ok b =>
      rw [houtcome] at hrun
      rw [run_bind_of_ok hrun]
      rfl

end ReadOnly

/-! ## Outcomes -/

@[simp] theorem outcome_fail (fault : Fault) : (fail fault : Action α).outcome root = .error fault := rfl

@[simp] theorem outcome_ofExcept (x : Except Fault α) : (ofExcept x).outcome root = x := by
  rw [outcome, run_ofExcept]

theorem outcome_read_bind_eq_ok {p : Path} {f : ByteArray → Action β} {b : β} :
    (request (.read p) >>= f).outcome root = .ok b ↔
      ∃ bytes, root.read p = .ok bytes ∧ (f bytes).outcome root = .ok b := by
  have hrequest : (request (.read p)).outcome root = (root.read p).mapError .file := by
    simp only [outcome, request, run_ask, perform]
    cases root.read p <;> rfl
  rw [(ReadOnly.read p).outcome_bind, hrequest]
  cases root.read p <;> simp [Except.mapError]

end Action

/-! ## Documents -/

open ProtocolTypings.Action

/-- The file at a path holds the value as JSON text. -/
def HoldsJson (root : FileTree) (p : Path) (value : Json) : Prop :=
  ∃ text, root.read p = .ok text.toUTF8 ∧ Json.read text = .ok value

theorem fromUTF8?_eq_some {bytes : ByteArray} {s : String} : String.fromUTF8? bytes = some s ↔ bytes = s.toUTF8 := by
  rw [String.fromUTF8?]
  split
  · rename_i hvalid
    rw [Option.some.injEq, ← String.toByteArray_inj]
    rfl
  · rename_i hvalid
    refine ⟨nofun, fun h => absurd ?_ hvalid⟩
    rw [h]
    exact s.isValidUTF8

theorem mapError_eq_ok {ε ε' α : Type} {x : Except ε α} {f : ε → ε'} {a : α} : x.mapError f = .ok a ↔ x = .ok a := by
  cases x <;> simp [Except.mapError]

theorem readJson_eq_ok {root : FileTree} {p : Path} {value : Json} :
    (readJson p).outcome root = .ok value ↔ HoldsJson root p value := by
  rw [readJson, outcome_read_bind_eq_ok]
  constructor
  · rintro ⟨bytes, hread, hdecode⟩
    split at hdecode
    · cases hdecode
    · rename_i text htext
      rw [outcome_ofExcept, mapError_eq_ok] at hdecode
      rw [fromUTF8?_eq_some.1 htext] at hread
      exact ⟨text, hread, hdecode⟩
  · rintro ⟨text, hread, hdecode⟩
    refine ⟨_, hread, ?_⟩
    rw [fromUTF8?_eq_some.2 rfl, outcome_ofExcept, mapError_eq_ok]
    exact hdecode

end ProtocolTypings
