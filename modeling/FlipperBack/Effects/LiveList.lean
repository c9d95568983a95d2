import Mathlib.Data.List.Basic

/-!
# Walking over a list that changes

A loop that goes over a list by position looks, at each turn, at the list as it
is then. Items added at the end do not disturb it. Taking away an item that it
has passed moves every later item down, so the loop misses the one that it was
about to reach (`passed_erase`).
-/

namespace Effects

namespace LiveList

variable {α : Type} [DecidableEq α] {l : List α} {k : ℕ} {x d : α}

/-- The position `k` is past `x`. -/
def Passed (l : List α) (k : ℕ) (x : α) : Prop := l.idxOf x < k

instance (l : List α) (k : ℕ) (x : α) : Decidable (Passed l k x) :=
  inferInstanceAs (Decidable (_ < _))

theorem not_passed_zero (l : List α) (x : α) : ¬ Passed l 0 x := Nat.not_lt_zero _

theorem idxOf_eq_iff (hl : l.Nodup) (hx : x ∈ l) : l.idxOf x = k ↔ l[k]? = some x := by
  constructor
  · rintro rfl
    rw [List.getElem?_eq_some_iff]
    exact ⟨List.idxOf_lt_length_of_mem hx, List.getElem_idxOf _⟩
  · intro h
    obtain ⟨hk, rfl⟩ := List.getElem?_eq_some_iff.mp h
    exact hl.idxOf_getElem k hk

theorem passed_append (hx : x ∈ l) (ys : List α) : Passed (l ++ ys) k x ↔ Passed l k x := by
  rw [Passed, Passed, List.idxOf_append_of_mem hx]

/-- One more turn passes the item at the position. -/
theorem passed_succ (hl : l.Nodup) (hx : x ∈ l) :
    Passed l (k + 1) x ↔ Passed l k x ∨ l[k]? = some x := by
  rw [← idxOf_eq_iff hl hx, Passed, Passed, Nat.lt_succ_iff, Nat.le_iff_lt_or_eq]

theorem not_passed_of_getElem? (hl : l.Nodup) (h : l[k]? = some x) : ¬ Passed l k x := by
  rw [Passed, (idxOf_eq_iff hl (List.mem_of_getElem? h)).mpr h]
  exact Nat.lt_irrefl k

theorem passed_of_getElem?_eq_none (hx : x ∈ l) (h : l[k]? = none) : Passed l k x :=
  Nat.lt_of_lt_of_le (List.idxOf_lt_length_of_mem hx) (List.getElem?_eq_none_iff.mp h)

theorem idxOf_erase (hne : x ≠ d) :
    (l.erase d).idxOf x = if l.idxOf d < l.idxOf x then l.idxOf x - 1 else l.idxOf x := by
  induction l with
  | nil => simp
  | cons a l ih =>
      by_cases had : a = d
      · subst had
        rw [List.erase_cons_head, List.idxOf_cons_self, List.idxOf_cons_ne _ hne.symm,
          if_pos (Nat.succ_pos _), Nat.succ_sub_one]
      · rw [List.erase_cons_tail (by simpa using had), List.idxOf_cons_ne _ had]
        by_cases hax : a = x
        · subst hax
          rw [List.idxOf_cons_self, List.idxOf_cons_self, if_neg (Nat.not_lt_zero _)]
        · rw [List.idxOf_cons_ne _ hax, List.idxOf_cons_ne _ hax, ih]
          split
          · next hlt => rw [if_pos (Nat.succ_lt_succ hlt)]; omega
          · next hlt => rw [if_neg fun h => hlt (Nat.lt_of_succ_lt_succ h)]

/-- Taking an item away passes, beside those passed, the item at the position,
where the one taken away was before it. -/
theorem passed_erase (hl : l.Nodup) (hx : x ∈ l) (hne : x ≠ d) :
    Passed (l.erase d) k x ↔ Passed l k x ∨ (Passed l k d ∧ l[k]? = some x) := by
  rw [← idxOf_eq_iff hl hx, Passed, Passed, Passed, idxOf_erase hne]
  split <;> omega

end LiveList

end Effects
