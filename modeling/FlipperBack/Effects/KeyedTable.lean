import Mathlib.Data.List.Basic

/-!
# Tables of values that carry their key

A store that writes a value under the key found in the value itself can never
hold it under another key. `KeyedTable key` is a partial map with that fact as a
field, so `put` needs no key and every lookup tells the key of what it returns.
-/

namespace Effects

/-- A partial map from keys to values, every value stored under its own key. -/
structure KeyedTable {κ ν : Type} (key : ν → κ) where
  get? : κ → Option ν
  keyed : ∀ {k v}, get? k = some v → key v = k

namespace KeyedTable

variable {κ ν : Type} {key : ν → κ}

instance : CoeFun (KeyedTable key) (fun _ => κ → Option ν) := ⟨KeyedTable.get?⟩

/-- The table with nothing in it. -/
def empty : KeyedTable key where
  get? _ := none
  keyed h := by cases h

variable [DecidableEq κ]

/-- Write a value under its key. -/
def put (t : KeyedTable key) (v : ν) : KeyedTable key where
  get? k := if k = key v then some v else t k
  keyed {k v'} h := by
    split at h
    · next hk => rw [← Option.some.inj h, hk]
    · exact t.keyed h

/-- Remove the value under a key. -/
def erase (t : KeyedTable key) (k : κ) : KeyedTable key where
  get? k' := if k' = k then none else t k'
  keyed {k' v} h := by
    split at h
    · cases h
    · exact t.keyed h

/-- Remove the values under the keys that `p` refuses. -/
def keep (t : KeyedTable key) (p : κ → Bool) : KeyedTable key where
  get? k := if p k then t k else none
  keyed {k v} h := by
    split at h
    · exact t.keyed h
    · cases h

@[simp] theorem get_put_self (t : KeyedTable key) (v : ν) : t.put v (key v) = some v :=
  if_pos rfl

theorem get_put_of_ne (t : KeyedTable key) {v : ν} {k : κ} (hk : k ≠ key v) :
    t.put v k = t k :=
  if_neg hk

@[simp] theorem get_erase_self (t : KeyedTable key) (k : κ) : t.erase k k = none :=
  if_pos rfl

theorem get_erase_of_ne (t : KeyedTable key) {k k' : κ} (hk : k' ≠ k) :
    t.erase k k' = t k' :=
  if_neg hk

omit [DecidableEq κ] in
theorem get_of_get_keep {t : KeyedTable key} {p : κ → Bool} {k : κ} {v : ν}
    (h : t.keep p k = some v) : t k = some v := by
  change (if p k then t k else none) = some v at h
  split at h
  · exact h
  · cases h

end KeyedTable

end Effects
