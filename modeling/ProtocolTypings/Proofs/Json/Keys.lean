import Mathlib.Data.List.Nodup
import ProtocolTypings.Json.Reader

/-!
# Keys of the objects that are read

A repeated key takes the place of the earlier one, so that an object that is read has each of its keys once.
-/

namespace ProtocolTypings

namespace Entries

variable {α : Type}

theorem mem_keys_put {key k : String} {value : α} {entries : List (String × α)} :
    k ∈ (put key value entries).map (·.1) ↔ k = key ∨ k ∈ entries.map (·.1) := by
  induction entries with
  | nil => simp [put]
  | cons e rest ih =>
      obtain ⟨j, v⟩ := e
      rw [put]
      split
      · rename_i hj
        subst hj
        simp
      · simp only [List.map_cons, List.mem_cons, ih]
        exact or_left_comm

/-- To enter a value repeats no key. -/
theorem nodup_keys_put {entries : List (String × α)} (h : (entries.map (·.1)).Nodup) (key : String) (value : α) :
    ((put key value entries).map (·.1)).Nodup := by
  induction entries with
  | nil => simp [put]
  | cons e rest ih =>
      obtain ⟨j, v⟩ := e
      obtain ⟨hj, hrest⟩ := List.nodup_cons.1 h
      rw [put]
      split
      · rename_i hkey
        subst hkey
        exact h
      · rename_i hkey
        refine List.nodup_cons.2 ⟨fun hmem => ?_, ih hrest⟩
        exact (mem_keys_put.1 hmem).elim hkey hj

end Entries

namespace Json

/-- No key is repeated, if the value is an object. -/
def KeysDistinct (value : Json) : Prop :=
  ∀ fields, value = .obj fields → (fields.map (·.1)).Nodup

namespace Reader

/-! ## Tokens -/

/-- A value of one token is no object. -/
def IsAtom (value : Json) : Prop :=
  ∀ fields, value ≠ .obj fields

theorem isAtom_number {negative : Bool} {cs rest : List Char} {value : Json}
    (h : number negative cs = .ok (value, rest)) : IsAtom value := by
  rintro fields rfl
  unfold number at h
  dsimp only at h
  repeat' split at h
  all_goals cases h

theorem isAtom_of_map {x : Except ReadFault (Json × List Char)} {rest : List Char} {value : Json}
    (hx : ∀ v r, x = .ok (v, r) → IsAtom v)
    (h : (x.map fun (v, r) => (Token.scalar v, r)) = .ok (.scalar value, rest)) : IsAtom value := by
  cases x with
  | error fault => cases h
  | ok found =>
      obtain ⟨v, r⟩ := found
      cases h
      exact hx _ _ rfl

theorem isAtom_token {cs rest : List Char} {value : Json} (h : token cs = .ok (.scalar value, rest)) :
    IsAtom value := by
  unfold token at h
  split at h
  case h_7 =>
    split at h
    · split at h <;> cases h
    · cases h
  case h_8 =>
    split at h
    · cases h
      exact nofun
    · exact isAtom_of_map (fun _ _ => isAtom_number) h
  case h_9 =>
    dsimp only at h
    split at h
    · rename_i found hfound
      obtain ⟨⟨word, v⟩, hword, hv⟩ := List.exists_of_findSome?_eq_some hfound
      obtain ⟨r, -, rfl⟩ := Option.map_eq_some_iff.1 hv
      cases h
      rintro fields rfl
      simp at hword
    · exact isAtom_of_map (fun _ _ => isAtom_number) h
  all_goals cases h

/-! ## The machine -/

def Frame.KeysDistinct : Frame → Prop
  | .list _ => True
  | .object done | .member done _ => (done.map (·.1)).Nodup

def State.KeysDistinct : State → Prop
  | .going stack _ => ∀ frame ∈ stack, frame.KeysDistinct
  | .done value => value.KeysDistinct

theorem keysDistinct_complete {value : Json} {stack : List Frame} {state : State} (hvalue : value.KeysDistinct)
    (hstack : ∀ frame ∈ stack, frame.KeysDistinct) (h : complete value stack = some state) : state.KeysDistinct := by
  unfold complete at h
  split at h
  · cases h
    exact hvalue
  · cases h
    obtain ⟨-, hstack⟩ := List.forall_mem_cons.1 hstack
    exact List.forall_mem_cons.2 ⟨trivial, hstack⟩
  · cases h
    obtain ⟨hdone, hstack⟩ := List.forall_mem_cons.1 hstack
    exact List.forall_mem_cons.2 ⟨Entries.nodup_keys_put hdone _ _, hstack⟩
  · cases h

theorem keysDistinct_of_isAtom {value : Json} (h : IsAtom value) : value.KeysDistinct :=
  fun fields hfields => absurd hfields (h fields)

theorem keysDistinct_advance {stack : List Frame} {expect : Expect} {t : Token} {state : State}
    (ht : ∀ value, t = .scalar value → IsAtom value) (hstack : ∀ frame ∈ stack, frame.KeysDistinct)
    (h : advance stack expect t = some state) : state.KeysDistinct := by
  unfold advance at h
  split at h
  case h_1 | h_2 => exact keysDistinct_complete (keysDistinct_of_isAtom (ht _ rfl)) hstack h
  case h_3 | h_4 =>
    refine keysDistinct_complete ?_ hstack h
    exact keysDistinct_of_isAtom fun _ htext => nomatch htext
  case h_5 | h_6 =>
    cases h
    exact List.forall_mem_cons.2 ⟨trivial, hstack⟩
  case h_7 | h_8 =>
    cases h
    exact List.forall_mem_cons.2 ⟨List.nodup_nil, hstack⟩
  case h_9 | h_10 =>
    split at h
    · cases h
      obtain ⟨hdone, hbelow⟩ := List.forall_mem_cons.1 hstack
      exact List.forall_mem_cons.2 ⟨hdone, hbelow⟩
    · cases h
  case h_11 =>
    cases h
    exact hstack
  case h_12 =>
    split at h
    · cases h
      exact hstack
    · cases h
      exact hstack
    · cases h
  case h_13 | h_14 =>
    split at h
    · refine keysDistinct_complete ?_ (List.forall_mem_cons.1 hstack).2 h
      exact keysDistinct_of_isAtom fun _ hlist => nomatch hlist
    · cases h
  case h_15 | h_16 =>
    split at h
    · obtain ⟨hdone, hbelow⟩ := List.forall_mem_cons.1 hstack
      refine keysDistinct_complete (fun fields hfields => ?_) hbelow h
      cases hfields
      exact hdone
    · cases h
  case h_17 => cases h

theorem keysDistinct_run {fuel : Nat} {state : State} {cs : List Char} {value : Json} (hstate : state.KeysDistinct)
    (h : run fuel state cs = .ok value) : value.KeysDistinct := by
  induction fuel generalizing state cs with
  | zero => cases h
  | succ fuel ih =>
      cases state with
      | done v =>
          rw [run] at h
          split at h
          · cases h
            exact hstate
          · cases h
      | going stack expect =>
          rw [run] at h
          cases htoken : token (cs.dropWhile isSpace) with
          | error fault =>
              rw [htoken] at h
              cases h
          | ok found =>
              obtain ⟨t, rest⟩ := found
              rw [htoken] at h
              dsimp only [Except.mapError, bind, Except.bind] at h
              split at h
              · rename_i next hnext
                refine ih (keysDistinct_advance (fun value hvalue => ?_) hstate hnext) h
                subst hvalue
                exact isAtom_token htoken
              · cases h

end Reader

theorem keysDistinct_read {s : String} {value : Json} (h : read s = .ok value) : value.KeysDistinct := by
  have hstart : Reader.start.KeysDistinct := fun _ hframe => nomatch hframe
  exact Reader.keysDistinct_run hstart h

end Json

end ProtocolTypings
