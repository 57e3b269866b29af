import ProtocolTypings.File.Action

/-!
# Runs of actions

What an action does to a tree, what it reports and how it ends is put together from its parts.
-/

namespace ProtocolTypings.Action

variable {α β : Type} {root root' : FileTree} {log : List Log.Record}

theorem run_note (record : Log.Record) (next : Action α) :
    run root (.note record next) =
      ((run root next).1, ⟨record :: (run root next).2.log, (run root next).2.result⟩) := rfl

theorem run_ask (request : FileRequest) (next : Except FileFault request.Answer → Action α) :
    run root (.ask request next) = run (perform root request).1 (next (perform root request).2) := rfl

theorem run_pure (a : α) : run root (pure a) = (root, ⟨[], .ok a⟩) := rfl

/-! ## One after the other -/

theorem bind_assoc {γ : Type} (a : Action α) (f : α → Action β) (g : β → Action γ) :
    (a >>= f) >>= g = a >>= fun b => f b >>= g := by
  induction a with
  | done b => rfl
  | fail fault => rfl
  | note record next ih => exact congrArg (Action.note record) ih
  | ask request next ih => exact congrArg (Action.ask request) (funext ih)

theorem run_bind_of_ok {a : Action α} {b : α} (h : run root a = (root', ⟨log, .ok b⟩)) (f : α → Action β) :
    run root (a >>= f) = ((run root' (f b)).1, ⟨log ++ (run root' (f b)).2.log, (run root' (f b)).2.result⟩) := by
  induction a generalizing root log with
  | done c =>
      cases h
      rfl
  | fail fault => cases h
  | note record next ih =>
      rcases hnext : run root next with ⟨mid, before, result⟩
      rw [run_note, hnext, Prod.mk.injEq, Logged.mk.injEq] at h
      obtain ⟨rfl, rfl, rfl⟩ := h
      show run root (.note record (next >>= f)) = _
      rw [run_note, ih hnext]
      rfl
  | ask request next ih => exact ih _ h

theorem run_bind_of_error {a : Action α} {fault : Fault} (h : run root a = (root', ⟨log, .error fault⟩))
    (f : α → Action β) : run root (a >>= f) = (root', ⟨log, .error fault⟩) := by
  induction a generalizing root log with
  | done c => cases h
  | fail other =>
      cases h
      rfl
  | note record next ih =>
      rcases hnext : run root next with ⟨mid, before, result⟩
      rw [run_note, hnext, Prod.mk.injEq, Logged.mk.injEq] at h
      obtain ⟨rfl, rfl, rfl⟩ := h
      show run root (.note record (next >>= f)) = _
      rw [run_note, ih hnext]
  | ask request next ih => exact ih _ h

theorem run_bind_of_run {a : Action α} {f : α → Action β} {b : α} {mid : FileTree} {before after : List Log.Record}
    {result : Except Fault β} (h : run root a = (mid, ⟨before, .ok b⟩))
    (h' : run mid (f b) = (root', ⟨after, result⟩)) :
    run root (a >>= f) = (root', ⟨before ++ after, result⟩) := by
  rw [run_bind_of_ok h, h']

/-- A chain fails in its first part, or goes on with its second after the first has ended well. -/
theorem run_bind_cases {a : Action α} {f : α → Action β} {result : Except Fault β}
    (h : run root (a >>= f) = (root', ⟨log, result⟩)) :
    (∃ fault, run root a = (root', ⟨log, .error fault⟩) ∧ result = .error fault) ∨
      ∃ mid before b after, run root a = (mid, ⟨before, .ok b⟩) ∧ run mid (f b) = (root', ⟨after, result⟩) ∧
        log = before ++ after := by
  rcases hrun : run root a with ⟨mid, before, outcome⟩
  cases outcome with
  | error fault =>
      rw [run_bind_of_error hrun] at h
      cases h
      exact .inl ⟨fault, rfl, rfl⟩
  | ok b =>
      rw [run_bind_of_ok hrun] at h
      rcases hrest : run mid (f b) with ⟨last, after, outcome⟩
      rw [hrest] at h
      cases h
      exact .inr ⟨mid, before, b, after, rfl, hrest, rfl⟩

theorem run_bind_eq_ok {a : Action α} {f : α → Action β} {c : β} (h : run root (a >>= f) = (root', ⟨log, .ok c⟩)) :
    ∃ mid before b after, run root a = (mid, ⟨before, .ok b⟩) ∧ run mid (f b) = (root', ⟨after, .ok c⟩) ∧
      log = before ++ after := by
  rcases run_bind_cases h with ⟨fault, -, herror⟩ | hruns
  · cases herror
  · exact hruns

/-! ## Requests -/

theorem changed_eq_error {outcome : Except FileFault FileTree} {cause : FileFault}
    (h : changed root outcome = (root', .error cause)) : root' = root := by
  cases outcome with
  | ok tree => cases h
  | error fault =>
      cases h
      rfl

theorem changed_eq_ok {outcome : Except FileFault FileTree} (h : changed root outcome = (root', .ok ())) :
    outcome = .ok root' := by
  cases outcome with
  | ok tree =>
      cases h
      rfl
  | error fault => cases h

theorem perform_error {r : FileRequest} {cause : FileFault} (h : perform root r = (root', .error cause)) :
    root' = root := by
  cases r with
  | makeTemporary folder label =>
      simp only [perform] at h
      split at h
      · cases h
      · cases h
        rfl
  | status p => exact (Prod.mk.inj h).1.symm
  | read p => exact (Prod.mk.inj h).1.symm
  | makeFolder p => exact changed_eq_error h
  | write p bytes => exact changed_eq_error h
  | setMode p mode => exact changed_eq_error h
  | move source target => exact changed_eq_error h
  | remove p => exact changed_eq_error h

theorem run_request_of_ok {r : FileRequest} {answer : r.Answer} (h : perform root r = (root', .ok answer)) :
    run root (request r) = (root', ⟨[], .ok answer⟩) := by
  rw [request, run_ask, h]
  rfl

theorem run_request_cases {r : FileRequest} {result : Except Fault r.Answer}
    (h : run root (request r) = (root', ⟨log, result⟩)) :
    log = [] ∧ ((root' = root ∧ ∃ cause, result = .error (.file cause)) ∨
      ∃ answer, perform root r = (root', .ok answer) ∧ result = .ok answer) := by
  rcases hperform : perform root r with ⟨mid, outcome⟩
  rw [request, run_ask, hperform] at h
  cases outcome with
  | ok answer =>
      cases h
      exact ⟨rfl, .inr ⟨answer, rfl, rfl⟩⟩
  | error cause =>
      obtain rfl := perform_error hperform
      cases h
      exact ⟨rfl, .inl ⟨rfl, cause, rfl⟩⟩

theorem run_request_eq_ok {r : FileRequest} {answer : r.Answer}
    (h : run root (request r) = (root', ⟨log, .ok answer⟩)) : log = [] ∧ perform root r = (root', .ok answer) := by
  obtain ⟨hlog, ⟨-, cause, herror⟩ | ⟨answer', hperform, hok⟩⟩ := run_request_cases h
  · cases herror
  · cases hok
    exact ⟨hlog, hperform⟩

theorem run_request_bind_cases {r : FileRequest} {f : r.Answer → Action β} {result : Except Fault β}
    (h : run root (request r >>= f) = (root', ⟨log, result⟩)) :
    (root' = root ∧ log = [] ∧ ∃ cause, result = .error (.file cause)) ∨
      ∃ mid answer, perform root r = (mid, .ok answer) ∧ run mid (f answer) = (root', ⟨log, result⟩) := by
  rcases run_bind_cases h with ⟨fault, hrun, rfl⟩ | ⟨mid, before, answer, after, hrun, hrest, rfl⟩
  · obtain ⟨rfl, ⟨rfl, cause, herror⟩ | ⟨answer, -, hok⟩⟩ := run_request_cases hrun
    · cases herror
      exact .inl ⟨rfl, rfl, cause, rfl⟩
    · cases hok
  · obtain ⟨rfl, ⟨-, cause, herror⟩ | ⟨answer', hperform, hok⟩⟩ := run_request_cases hrun
    · cases herror
    · cases hok
      exact .inr ⟨mid, answer, hperform, hrest⟩

theorem run_request_bind_eq_ok {r : FileRequest} {f : r.Answer → Action β} {c : β}
    (h : run root (request r >>= f) = (root', ⟨log, .ok c⟩)) :
    ∃ mid answer, perform root r = (mid, .ok answer) ∧ run mid (f answer) = (root', ⟨log, .ok c⟩) := by
  rcases run_request_bind_cases h with ⟨-, -, cause, herror⟩ | hruns
  · cases herror
  · exact hruns

theorem run_ofExcept (x : Except Fault α) : run root (ofExcept x) = (root, ⟨[], x⟩) := by
  cases x <;> rfl

theorem run_ofExcept_bind_cases {x : Except Fault α} {f : α → Action β} {result : Except Fault β}
    (h : run root (ofExcept x >>= f) = (root', ⟨log, result⟩)) :
    (root' = root ∧ log = [] ∧ ∃ fault, x = .error fault ∧ result = .error fault) ∨
      ∃ a, x = .ok a ∧ run root (f a) = (root', ⟨log, result⟩) := by
  cases x with
  | error fault =>
      rw [run_bind_of_error (run_ofExcept _)] at h
      cases h
      exact .inl ⟨rfl, rfl, fault, rfl, rfl⟩
  | ok a => exact .inr ⟨a, rfl, h⟩

theorem run_ofExcept_bind_eq_ok {x : Except Fault α} {f : α → Action β} {c : β}
    (h : run root (ofExcept x >>= f) = (root', ⟨log, .ok c⟩)) :
    ∃ a, x = .ok a ∧ run root (f a) = (root', ⟨log, .ok c⟩) := by
  rcases run_ofExcept_bind_cases h with ⟨-, -, fault, -, herror⟩ | hruns
  · cases herror
  · exact hruns

/-! ## Cleaning up -/

theorem run_onFailure_of_ok {a : Action α} {b : α} (h : run root a = (root', ⟨log, .ok b⟩)) (cleanup : Action Unit) :
    run root (a.onFailure cleanup) = (root', ⟨log, .ok b⟩) := by
  induction a generalizing root log with
  | done c => exact h
  | fail fault => cases h
  | note record next ih =>
      rcases hnext : run root next with ⟨mid, before, result⟩
      rw [run_note, hnext, Prod.mk.injEq, Logged.mk.injEq] at h
      obtain ⟨rfl, rfl, rfl⟩ := h
      show run root (.note record (next.onFailure cleanup)) = _
      rw [run_note, ih hnext]
  | ask request next ih => exact ih _ h

/-- The cleaning up follows the failure and does not hide it. -/
theorem run_onFailure_of_error {a : Action α} {fault : Fault} (h : run root a = (root', ⟨log, .error fault⟩))
    (cleanup : Action Unit) :
    run root (a.onFailure cleanup) =
      ((run root' (cleanup >>= fun _ => fail (α := α) fault)).1,
        ⟨log ++ (run root' (cleanup >>= fun _ => fail (α := α) fault)).2.log,
          (run root' (cleanup >>= fun _ => fail fault)).2.result⟩) := by
  induction a generalizing root log with
  | done c => cases h
  | fail other =>
      cases h
      rfl
  | note record next ih =>
      rcases hnext : run root next with ⟨mid, before, result⟩
      rw [run_note, hnext, Prod.mk.injEq, Logged.mk.injEq] at h
      obtain ⟨rfl, rfl, rfl⟩ := h
      show run root (.note record (next.onFailure cleanup)) = _
      rw [run_note, ih hnext]
      rfl
  | ask request next ih => exact ih _ h

theorem ok_of_onFailure {a : Action α} {cleanup : Action Unit} {b : α}
    (h : run root (a.onFailure cleanup) = (root', ⟨log, .ok b⟩)) : run root a = (root', ⟨log, .ok b⟩) := by
  rcases hrun : run root a with ⟨mid, before, outcome⟩
  cases outcome with
  | ok c =>
      rw [run_onFailure_of_ok hrun] at h
      exact h
  | error fault =>
      rw [run_onFailure_of_error hrun] at h
      rcases hcleanup : run mid (cleanup >>= fun _ => fail (α := α) fault) with ⟨last, after, result⟩
      rw [hcleanup] at h
      cases h
      obtain ⟨_, _, _, _, -, hfail, -⟩ := run_bind_eq_ok hcleanup
      cases hfail

/-! ## Faults -/

/-- Every failure of the action is one of `S`, whatever the answers to its requests. -/
def FailsIn (S : Fault → Prop) : Action α → Prop
  | .done _ => True
  | .fail fault => S fault
  | .note _ next => next.FailsIn S
  | .ask _ next => ∀ answer, (next answer).FailsIn S

namespace FailsIn

variable {S : Fault → Prop}

theorem bind {a : Action α} {f : α → Action β} (ha : a.FailsIn S) (hf : ∀ b, (f b).FailsIn S) :
    (a >>= f).FailsIn S := by
  induction a with
  | done b => exact hf b
  | fail fault => exact ha
  | note record next ih => exact ih ha
  | ask request next ih => exact fun answer => ih answer (ha answer)

theorem onFailure {a : Action α} {cleanup : Action Unit} (ha : a.FailsIn S) (hcleanup : cleanup.FailsIn S) :
    (a.onFailure cleanup).FailsIn S := by
  induction a with
  | done b => trivial
  | fail fault => exact FailsIn.bind hcleanup fun _ => ha
  | note record next ih => exact ih ha
  | ask request next ih => exact fun answer => ih answer (ha answer)

theorem request (hfile : ∀ fault, S (.file fault)) (r : FileRequest) : (Action.request r).FailsIn S := by
  intro answer
  cases answer with
  | ok answer => trivial
  | error fault => exact hfile fault

theorem ofExcept {x : Except Fault α} (h : ∀ fault, x = .error fault → S fault) : (Action.ofExcept x).FailsIn S := by
  cases x with
  | ok a => trivial
  | error fault => exact h fault rfl

theorem run {a : Action α} (ha : a.FailsIn S) {fault : Fault} {root : FileTree}
    (h : (Action.run root a).2.result = .error fault) : S fault := by
  induction a generalizing root with
  | done b => cases h
  | fail other =>
      cases h
      exact ha
  | note record next ih => exact ih ha h
  | ask request next ih => exact ih _ (ha _) h

end FailsIn

end ProtocolTypings.Action
