import Mathlib.Data.List.Dedup
import Mathlib.Order.MinMax

/-!
# Maxima of groups

`groupMax rows` is the aggregate of a query that groups its rows by a key and
takes the maximum of each group: one row for each key (`mem_groupMax`). A maximum
depends on which values there are only, whatever their order and number
(`max?_congr`).
-/

namespace Query

variable {κ α : Type} [DecidableEq κ]

/-- The values of a key. -/
def group (rows : List (κ × α)) (k : κ) : List α :=
  (rows.filter fun r => r.1 = k).map Prod.snd

theorem mem_group {rows : List (κ × α)} {k : κ} {x : α} : x ∈ group rows k ↔ (k, x) ∈ rows := by
  rw [group, List.mem_map]
  constructor
  · rintro ⟨⟨k', x⟩, hr, rfl⟩
    obtain rfl : k' = k := of_decide_eq_true (List.mem_filter.mp hr).2
    exact List.mem_of_mem_filter hr
  · exact fun hr => ⟨(k, x), List.mem_filter.mpr ⟨hr, by simp⟩, rfl⟩

variable [LinearOrder α]

theorem max?_congr {xs ys : List α} (h : ∀ x, x ∈ xs ↔ x ∈ ys) : xs.max? = ys.max? := by
  cases hx : xs.max? with
  | none =>
      obtain rfl := List.max?_eq_none_iff.mp hx
      have hys : ys = [] := List.eq_nil_iff_forall_not_mem.mpr fun y hy => by
        simpa using (h y).mpr hy
      rw [hys]
      rfl
  | some m =>
      obtain ⟨hm, hle⟩ := List.max?_eq_some_iff.mp hx
      exact (List.max?_eq_some_iff.mpr ⟨(h m).mp hm, fun y hy => hle y ((h y).mpr hy)⟩).symm

/-- Each key once, with the maximum of its values. -/
def groupMax (rows : List (κ × α)) : List (κ × α) :=
  (rows.map Prod.fst).dedup.filterMap fun k => (group rows k).max?.map (Prod.mk k)

theorem mem_groupMax {rows : List (κ × α)} {k : κ} {m : α} :
    (k, m) ∈ groupMax rows ↔ (group rows k).max? = some m := by
  rw [groupMax, List.mem_filterMap]
  constructor
  · rintro ⟨k', -, hk⟩
    obtain ⟨m', hm, heq⟩ := Option.map_eq_some_iff.mp hk
    obtain ⟨rfl, rfl⟩ := Prod.mk.inj heq
    exact hm
  · intro hm
    have hmem : (k, m) ∈ rows := mem_group.mp (List.max?_mem hm)
    exact ⟨k, List.mem_dedup.mpr (List.mem_map.mpr ⟨_, hmem, rfl⟩), by rw [hm]; rfl⟩

/-- The keys of the groups are those of the rows. -/
theorem map_fst_groupMax (rows : List (κ × α)) :
    (groupMax rows).map Prod.fst = (rows.map Prod.fst).dedup := by
  have hkey : ∀ k ∈ (rows.map Prod.fst).dedup,
      ((group rows k).max?.map (Prod.mk k)).map Prod.fst = some k := by
    intro k hk
    obtain ⟨⟨k, x⟩, hr, rfl⟩ := List.mem_map.mp (List.mem_dedup.mp hk)
    obtain ⟨m, hm⟩ := Option.isSome_iff_exists.mp (List.isSome_max?_of_mem (mem_group.mpr hr))
    rw [hm]
    rfl
  rw [groupMax, List.map_filterMap, List.filterMap_congr hkey, List.filterMap_some]

end Query
