/-!
# Entries

Lists of keys with values, in the order in which the keys were entered. The value of a key is that of its first
entry.
-/

namespace ProtocolTypings.Entries

variable {α : Type}

/-- Enter a value. A key that is there already keeps its place and takes the new value. -/
def put (key : String) (value : α) : List (String × α) → List (String × α)
  | [] => [(key, value)]
  | (k, v) :: rest => if k = key then (key, value) :: rest else (k, v) :: put key value rest

def erase (key : String) (entries : List (String × α)) : List (String × α) :=
  entries.filter (·.1 != key)

@[simp] theorem lookup_put_self (key : String) (value : α) (entries : List (String × α)) :
    (put key value entries).lookup key = some value := by
  induction entries with
  | nil => simp [put]
  | cons e rest ih =>
    obtain ⟨k, v⟩ := e
    by_cases h : k = key
    · simp [put, h]
    · simp [put, h, List.lookup_cons, beq_eq_false_iff_ne.2 (Ne.symm h), ih]

theorem lookup_put_of_ne {key other : String} (h : other ≠ key) (value : α) (entries : List (String × α)) :
    (put key value entries).lookup other = entries.lookup other := by
  induction entries with
  | nil => simp [put, List.lookup_cons, beq_eq_false_iff_ne.2 h]
  | cons e rest ih =>
    obtain ⟨k, v⟩ := e
    by_cases hk : k = key
    · simp [put, hk, List.lookup_cons, beq_eq_false_iff_ne.2 h]
    · simp [put, hk, List.lookup_cons, ih]

end ProtocolTypings.Entries
