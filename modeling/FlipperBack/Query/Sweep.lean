import Mathlib.Data.List.Nodup

/-!
# Sweeps

A table is listed by asking for its statuses one after the other, while its rows
change in between. `Swept` is what holds after some of the statuses: where no row
goes back to a status that comes earlier, a row of the table that the sweep started
from is listed, or is under a status still to be asked for (`Swept.covered`), and no
row is listed twice under one status.
-/

namespace Query

variable {ρ κ : Type}

/-- How the rows of a table change: `later` relates a row to what it is later, and
`becomes` a status to those that follow it. -/
structure Changes (ρ κ : Type) where
  key : ρ → ℕ
  status : ρ → κ
  later : ρ → ρ → Prop
  becomes : κ → κ → Prop
  later_refl : ∀ x, later x x
  later_trans : ∀ x y z, later x y → later y z → later x z
  becomes_of_later : ∀ x y, later x y → becomes (status x) (status y)

/-- A sweep that started from the rows `base` has listed `listed` of a table whose rows
are `now`, and has still to ask for the statuses `remaining`. -/
structure Swept (C : Changes ρ κ) (base now : List ρ) (remaining : List κ) (listed : List ρ) :
    Prop where
  covers : ∀ x ∈ base, (∃ y ∈ listed, C.later x y) ∨
    ∃ y ∈ now, C.later x y ∧ C.status y ∈ remaining
  stays : ∀ y ∈ listed, ∃ z ∈ now, C.later y z
  nodup : (listed.map fun y => (C.key y, C.status y)).Nodup
  asked : ∀ y ∈ listed, C.status y ∉ remaining
  forward : remaining.Pairwise fun a b => a ≠ b ∧ ¬ C.becomes b a
  closed : ∀ a b, C.becomes a b → a ∈ remaining → b ∈ remaining

namespace Swept

variable {C : Changes ρ κ} {base now now' rows listed : List ρ} {remaining : List κ} {s : κ}

/-- A sweep of all the statuses starts. -/
theorem start (hbase : ∀ x ∈ base, ∃ y ∈ now, C.later x y) (hall : ∀ a, a ∈ remaining)
    (hforward : remaining.Pairwise fun a b => a ≠ b ∧ ¬ C.becomes b a) :
    Swept C base now remaining [] where
  covers x hx := by
    obtain ⟨y, hy, hlater⟩ := hbase x hx
    exact Or.inr ⟨y, hy, hlater, hall _⟩
  stays y hy := by cases hy
  nodup := List.nodup_nil
  asked y hy := by cases hy
  forward := hforward
  closed _ b _ _ := hall b

/-- The rows change. -/
theorem move (h : Swept C base now remaining listed) (hnow : ∀ y ∈ now, ∃ z ∈ now', C.later y z) :
    Swept C base now' remaining listed := by
  refine { h with covers := fun x hx => ?_, stays := fun y hy => ?_ }
  · rcases h.covers x hx with hlisted | ⟨y, hy, hlater, hstatus⟩
    · exact Or.inl hlisted
    · obtain ⟨z, hz, hlater'⟩ := hnow y hy
      exact Or.inr ⟨z, hz, C.later_trans x y z hlater hlater',
        h.closed _ _ (C.becomes_of_later y z hlater') hstatus⟩
  · obtain ⟨z, hz, hlater⟩ := h.stays y hy
    obtain ⟨z', hz', hlater'⟩ := hnow z hz
    exact ⟨z', hz', C.later_trans y z z' hlater hlater'⟩

/-- The rows of the next status are listed. -/
theorem ask (h : Swept C base now (s :: remaining) listed)
    (hrows : ∀ y, y ∈ rows ↔ y ∈ now ∧ C.status y = s) (hkeys : (rows.map C.key).Nodup) :
    Swept C base now remaining (listed ++ rows) where
  covers x hx := by
    rcases h.covers x hx with ⟨y, hy, hlater⟩ | ⟨y, hy, hlater, hstatus⟩
    · exact Or.inl ⟨y, List.mem_append_left _ hy, hlater⟩
    · rcases List.mem_cons.mp hstatus with hs | hstatus
      · exact Or.inl ⟨y, List.mem_append_right _ ((hrows y).mpr ⟨hy, hs⟩), hlater⟩
      · exact Or.inr ⟨y, hy, hlater, hstatus⟩
  stays y hy := by
    rcases List.mem_append.mp hy with hy | hy
    · exact h.stays y hy
    · exact ⟨y, ((hrows y).mp hy).1, C.later_refl y⟩
  nodup := by
    rw [List.map_append, List.nodup_append]
    refine ⟨h.nodup, ?_, ?_⟩
    · exact List.Nodup.of_map Prod.fst (by rw [List.map_map]; exact hkeys)
    · rintro a ha b hb rfl
      obtain ⟨y, hy, rfl⟩ := List.mem_map.mp ha
      obtain ⟨z, hz, heq⟩ := List.mem_map.mp hb
      refine h.asked y hy ?_
      rw [← (Prod.mk.inj heq).2, ((hrows z).mp hz).2]
      exact List.mem_cons_self
  asked y hy := by
    rcases List.mem_append.mp hy with hy | hy
    · exact fun hmem => h.asked y hy (List.mem_cons_of_mem s hmem)
    · rw [((hrows y).mp hy).2]
      intro hmem
      exact ((List.pairwise_cons.mp h.forward).1 s hmem).1 rfl
  forward := (List.pairwise_cons.mp h.forward).2
  closed a b hbecomes ha := by
    rcases List.mem_cons.mp (h.closed a b hbecomes (List.mem_cons_of_mem s ha)) with rfl | hb
    · exact absurd hbecomes ((List.pairwise_cons.mp h.forward).1 a ha).2
    · exact hb

/-- A sweep that has asked for every status has listed what it started from. -/
theorem covered (h : Swept C base now [] listed) : ∀ x ∈ base, ∃ y ∈ listed, C.later x y := by
  intro x hx
  rcases h.covers x hx with hlisted | ⟨y, -, -, hstatus⟩
  · exact hlisted
  · cases hstatus

end Swept

end Query
