import Mathlib.Data.List.Basic
import Mathlib.Data.List.Nodup

/-!
# The first rows of an order

`top le n rows` are the rows of a query with an `ORDER BY` and a `LIMIT`. For a
total order they are the first `n` in that order: they are ordered
(`pairwise_top`), every row left out comes after them (`le_of_not_mem_top`), and a
lower limit gives a prefix (`top_prefix`).
-/

namespace Query

variable {α : Type}

/-- `ORDER BY ... LIMIT n`. -/
def top (le : α → α → Bool) (n : ℕ) (rows : List α) : List α :=
  (rows.mergeSort le).take n

variable {le : α → α → Bool} {n : ℕ} {rows : List α}

theorem mem_of_mem_top {x : α} (h : x ∈ top le n rows) : x ∈ rows :=
  List.mem_mergeSort.mp (List.mem_of_mem_take h)

theorem length_top : (top le n rows).length = min n rows.length := by
  rw [top, List.length_take, List.length_mergeSort]

theorem mem_top_of_length_le {x : α} (h : x ∈ rows) (hn : rows.length ≤ n) : x ∈ top le n rows := by
  rw [top, List.take_of_length_le (by rwa [List.length_mergeSort])]
  exact List.mem_mergeSort.mpr h

/-- Rows with distinct keys are listed once each. -/
theorem nodup_top {β : Type} {key : α → β} (h : (rows.map key).Nodup) :
    ((top le n rows).map key).Nodup := by
  have hsorted : ((rows.mergeSort le).map key).Nodup :=
    (((rows.mergeSort_perm le).map key).nodup_iff).mpr h
  exact hsorted.sublist ((List.take_sublist n _).map key)

theorem top_prefix {m : ℕ} (h : m ≤ n) : top le m rows <+: top le n rows :=
  List.take_prefix_take_left h

variable (htrans : ∀ a b c, le a b → le b c → le a c) (htotal : ∀ a b, le a b || le b a)

include htrans htotal

theorem pairwise_top : (top le n rows).Pairwise fun a b => le a b :=
  (List.pairwise_mergeSort htrans htotal rows).sublist (List.take_sublist n _)

/-- A row that the limit leaves out comes after those that it keeps. -/
theorem le_of_not_mem_top {x y : α} (hx : x ∈ rows) (hout : x ∉ top le n rows)
    (hy : y ∈ top le n rows) : le y x := by
  have hsorted := List.pairwise_mergeSort htrans htotal rows
  rw [← List.take_append_drop n (rows.mergeSort le), List.pairwise_append] at hsorted
  refine hsorted.2.2 y hy x ?_
  have hmem : x ∈ (rows.mergeSort le).take n ++ (rows.mergeSort le).drop n := by
    rw [List.take_append_drop]
    exact List.mem_mergeSort.mpr hx
  exact (List.mem_append.mp hmem).resolve_left hout

end Query
