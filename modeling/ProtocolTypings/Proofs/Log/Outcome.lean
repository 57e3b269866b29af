import ProtocolTypings.Log.Record
import ProtocolTypings.Proofs.Outcome

/-!
# Outcomes with records

The records that are kept on the way do not matter to the outcome. What a reading accepts is put together from what
its parts accept, and so is the way in which it fails.
-/

namespace ProtocolTypings.Logged

variable {α β : Type}

@[simp] theorem result_pure (a : α) : (pure a : Logged α).result = .ok a := rfl

@[simp] theorem result_fail (fault : Fault) : (fail fault : Logged α).result = .error fault := rfl

@[simp] theorem result_note (level : Log.Level) (topic : Log.Topic) (message : String) :
    (note level topic message).result = .ok () := rfl

@[simp] theorem result_bind (x : Logged α) (f : α → Logged β) :
    (x >>= f).result = x.result >>= fun a => (f a).result := by
  obtain ⟨log, result⟩ := x
  cases result <;> rfl

theorem bind_result_eq_ok {x : Logged α} {f : α → Logged β} {b : β} :
    (x >>= f).result = .ok b ↔ ∃ a, x.result = .ok a ∧ (f a).result = .ok b := by
  rw [result_bind, bind_eq_ok]

theorem bind_result_eq_error {x : Logged α} {f : α → Logged β} {fault : Fault} :
    (x >>= f).result = .error fault ↔
      x.result = .error fault ∨ ∃ a, x.result = .ok a ∧ (f a).result = .error fault := by
  rw [result_bind]
  cases x.result <;> simp

/-! ## Readings that follow one another -/

/-- Where the first reading succeeds, the second does with the same records and a related outcome. -/
def Follows (R : α → β → Prop) (x : Logged α) (y : Logged β) : Prop :=
  ∀ a, x.result = .ok a → ∃ b, y = ⟨x.log, .ok b⟩ ∧ R a b

namespace Follows

variable {γ δ : Type} {R : α → β → Prop} {S : γ → δ → Prop} {x : Logged α} {y : Logged β} {f : α → Logged γ}
  {g : β → Logged δ}

theorem refl {T : α → α → Prop} (hT : ∀ a, T a a) (x : Logged α) : Follows T x x := by
  intro a ha
  refine ⟨a, ?_, hT a⟩
  rw [← ha]

theorem of_error {fault : Fault} (h : x.result = .error fault) : Follows R x y := by
  intro a ha
  rw [h] at ha
  cases ha

theorem pure {a : α} {b : β} (h : R a b) : Follows R (Pure.pure a) (Pure.pure b) := by
  rintro _ ⟨⟩
  exact ⟨b, rfl, h⟩

theorem bind (hx : Follows R x y) (hf : ∀ a b, R a b → Follows S (f a) (g b)) : Follows S (x >>= f) (y >>= g) := by
  intro c hc
  obtain ⟨a, ha, hc⟩ := bind_result_eq_ok.1 hc
  obtain ⟨b, rfl, hR⟩ := hx a ha
  obtain ⟨d, hd, hS⟩ := hf a b hR c hc
  obtain ⟨log, result⟩ := x
  cases ha
  exact ⟨d, by simp [Bind.bind, Logged.bind, hd], hS⟩

/-- After the same first part. -/
theorem bind_right {g : α → Logged δ} (hf : ∀ a, x.result = .ok a → Follows S (f a) (g a)) :
    Follows S (x >>= f) (x >>= g) := by
  have hx : Follows (fun a b => a = b ∧ x.result = .ok a) x x := by
    intro a ha
    exact ⟨a, by rw [← ha], rfl, ha⟩
  refine hx.bind fun a b hab => ?_
  obtain ⟨rfl, ha⟩ := hab
  exact hf a ha

end Follows

/-! ## Tighter readings -/

/-- The first outcome is that of the second, and is only reached under a condition. -/
def Tightens (P : Prop) (x y : Logged α) : Prop :=
  ∀ a, x.result = .ok a ↔ y.result = .ok a ∧ P

namespace Tightens

variable {P Q : Prop} {x y : Logged α} {f g : α → Logged β}

theorem refl (x : Logged α) : Tightens True x x := by
  intro a
  rw [and_true]

theorem of_error {fault : Fault} (hx : x.result = .error fault) (hy : ∃ cause, y.result = .error cause) :
    Tightens P x y := by
  obtain ⟨cause, hy⟩ := hy
  intro a
  rw [hx, hy]
  exact ⟨nofun, nofun⟩

/-- What fails only in the tighter reading meets the condition never. -/
theorem of_refused {fault : Fault} (hx : x.result = .error fault) (hP : ¬ P) : Tightens P x y := by
  intro a
  rw [hx]
  exact ⟨nofun, fun h => absurd h.2 hP⟩

theorem congr (h : Tightens P x y) (hPQ : P ↔ Q) : Tightens Q x y := by
  intro a
  rw [h a, hPQ]

theorem bind (hx : Tightens P x y) (hf : ∀ a, y.result = .ok a → Tightens Q (f a) (g a)) :
    Tightens (P ∧ Q) (x >>= f) (y >>= g) := by
  intro b
  rw [bind_result_eq_ok, bind_result_eq_ok]
  constructor
  · rintro ⟨a, ha, hb⟩
    obtain ⟨ha, hP⟩ := (hx a).1 ha
    obtain ⟨hb, hQ⟩ := (hf a ha b).1 hb
    exact ⟨⟨a, ha, hb⟩, hP, hQ⟩
  · rintro ⟨⟨a, ha, hb⟩, hP, hQ⟩
    exact ⟨a, (hx a).2 ⟨ha, hP⟩, (hf a ha b).2 ⟨hb, hQ⟩⟩

theorem bind_right (hf : ∀ a, x.result = .ok a → Tightens Q (f a) (g a)) : Tightens Q (x >>= f) (x >>= g) :=
  ((refl x).bind hf).congr (iff_of_eq (true_and Q))

theorem bind_left (hx : Tightens P x y) (f : α → Logged β) : Tightens P (x >>= f) (y >>= f) :=
  (hx.bind fun a _ => refl (f a)).congr (iff_of_eq (and_true P))

end Tightens

/-! ## Decisions -/

/-- The reading succeeds exactly under a condition, and otherwise fails in one of certain ways. -/
structure Decides (P : Prop) (S : Fault → Prop) (x : Logged α) : Prop where
  accepts : (∃ a, x.result = .ok a) ↔ P
  refuses : ∀ fault, x.result = .error fault → S fault

namespace Decides

variable {P Q : Prop} {S T : Fault → Prop} {x : Logged α} {f : α → Logged β}

theorem ok {a : α} (hx : x.result = .ok a) (hP : P) : Decides P S x where
  accepts := ⟨fun _ => hP, fun _ => ⟨a, hx⟩⟩
  refuses := by
    intro fault h
    rw [hx] at h
    cases h

theorem error {fault : Fault} (hx : x.result = .error fault) (hP : ¬ P) (hS : S fault) : Decides P S x where
  accepts := by
    refine ⟨?_, fun h => absurd h hP⟩
    rintro ⟨a, ha⟩
    rw [hx] at ha
    cases ha
  refuses := by
    intro cause h
    rw [hx] at h
    cases h
    exact hS

theorem congr (h : Decides P S x) (hPQ : P ↔ Q) : Decides Q S x :=
  ⟨h.accepts.trans hPQ, h.refuses⟩

theorem mono (h : Decides P S x) (hST : ∀ fault, S fault → T fault) : Decides P T x :=
  ⟨h.accepts, fun fault hfault => hST fault (h.refuses fault hfault)⟩

theorem bind (hx : Decides P S x) (hf : ∀ a, x.result = .ok a → Decides Q S (f a)) :
    Decides (P ∧ Q) S (x >>= f) where
  accepts := by
    simp only [bind_result_eq_ok]
    constructor
    · rintro ⟨b, a, ha, hb⟩
      exact ⟨hx.accepts.1 ⟨a, ha⟩, (hf a ha).accepts.1 ⟨b, hb⟩⟩
    · rintro ⟨hP, hQ⟩
      obtain ⟨a, ha⟩ := hx.accepts.2 hP
      obtain ⟨b, hb⟩ := (hf a ha).accepts.2 hQ
      exact ⟨b, a, ha, hb⟩
  refuses := by
    intro fault h
    rcases bind_result_eq_error.1 h with hfault | ⟨a, ha, hfault⟩
    · exact hx.refuses fault hfault
    · exact (hf a ha).refuses fault hfault

theorem andThen (hx : Decides P S x) (f : α → β) : Decides P S (x >>= fun a => pure (f a)) :=
  (hx.bind fun a _ => ok (result_pure (f a)) trivial).congr (iff_of_eq (and_true P))

end Decides

/-! ## Warnings -/

/-- The records that are warnings. -/
def warnings (x : Logged α) : List Log.Record :=
  x.log.filter fun record => record.level = .warning

theorem warnings_bind_of_ok {x : Logged α} {a : α} (h : x.result = .ok a) (f : α → Logged β) :
    (x >>= f).warnings = x.warnings ++ (f a).warnings := by
  obtain ⟨log, result⟩ := x
  cases h
  exact List.filter_append ..

theorem warnings_bind_of_error {x : Logged α} {fault : Fault} (h : x.result = .error fault) (f : α → Logged β) :
    (x >>= f).warnings = x.warnings := by
  obtain ⟨log, result⟩ := x
  cases h
  rfl

/-- There is no warning, however it ends. -/
def Quiet (x : Logged α) : Prop :=
  x.warnings = []

namespace Quiet

theorem pure (a : α) : Quiet (Pure.pure a) := rfl

theorem fail (fault : Fault) : Quiet (fail fault : Logged α) := rfl

theorem note {level : Log.Level} (h : level ≠ .warning) (topic : Log.Topic) (message : String) :
    Quiet (note level topic message) :=
  List.filter_eq_nil_iff.2 (by simpa [Logged.note] using h)

theorem bind {x : Logged α} {f : α → Logged β} (hx : Quiet x) (hf : ∀ a, Quiet (f a)) : Quiet (x >>= f) := by
  cases hresult : x.result with
  | error fault => exact (warnings_bind_of_error hresult f).trans hx
  | ok a => rw [Quiet, warnings_bind_of_ok hresult, hx, hf a, List.append_nil]

end Quiet

end ProtocolTypings.Logged
