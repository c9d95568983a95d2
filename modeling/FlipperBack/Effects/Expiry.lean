import Mathlib.Data.List.Chain

/-!
# Lists that expire

A list kept under a key that is dropped once `ttl` has passed since its last
expiry was set, where only a push sets it. `Expiring` is the list with its
deadline. What has been pushed since the last clear, with the times of the
pushes, says what is left of it: everything, exactly where less than `ttl` has
passed between any two pushes and since the last one (`Retains.eq_iff`).
-/

namespace Effects

/-- A list, and the time from which on it is dropped. -/
structure Expiring (α : Type) where
  content : List α := []
  deadline : ℕ := 0

namespace Expiring

variable {α : Type}

/-- Push at time `now`. -/
def push (ttl now : ℕ) (x : α) (e : Expiring α) : Expiring α :=
  { content := e.content ++ [x], deadline := now + ttl }

/-- What is left at time `now`. -/
def expire (now : ℕ) (e : Expiring α) : Expiring α :=
  if e.deadline ≤ now then { e with content := [] } else e

theorem deadline_expire (now : ℕ) (e : Expiring α) : (e.expire now).deadline = e.deadline := by
  unfold expire
  split <;> rfl

end Expiring

variable {α : Type} {ttl now : ℕ}

/-- Less than `ttl` has passed between any two pushes and since the last one. -/
def Punctual (ttl now : ℕ) (pushes : List (ℕ × α)) : Prop :=
  pushes.IsChain (fun p q => q.1 < p.1 + ttl) ∧ ∀ p ∈ pushes.getLast?, now < p.1 + ttl

instance (pushes : List (ℕ × α)) : Decidable (Punctual ttl now pushes) :=
  inferInstanceAs (Decidable (_ ∧ _))

theorem punctual_nil : Punctual ttl now ([] : List (ℕ × α)) := by
  simp [Punctual]

theorem Punctual.of_le {pushes : List (ℕ × α)} {now' : ℕ} (hle : now ≤ now')
    (h : Punctual ttl now' pushes) : Punctual ttl now pushes :=
  ⟨h.1, fun p hp => hle.trans_lt (h.2 p hp)⟩

/-- A push does not change whether the pushes are punctual. -/
theorem punctual_concat (httl : 0 < ttl) (pushes : List (ℕ × α)) (x : α) :
    Punctual ttl now (pushes ++ [(now, x)]) ↔ Punctual ttl now pushes := by
  unfold Punctual
  rw [List.isChain_append, List.getLast?_concat]
  constructor
  · rintro ⟨⟨hchain, -, hlast⟩, -⟩
    exact ⟨hchain, fun p hp => hlast p hp (now, x) rfl⟩
  · rintro ⟨hchain, hlast⟩
    refine ⟨⟨hchain, List.IsChain.singleton _, fun p hp q hq => ?_⟩, fun p hp => ?_⟩
    · obtain rfl := Option.some.inj hq
      exact hlast p hp
    · obtain rfl := Option.some.inj hp
      exact Nat.lt_add_of_pos_right httl

/-- What an expiring list retains of the pushes made to it: those after the ones
it has lost, and it has lost some exactly where they were not punctual. -/
structure Retains (ttl now : ℕ) (pushes : List (ℕ × α)) (e : Expiring α) : Prop where
  split : ∃ lost rest, pushes = lost ++ rest ∧ e.content = rest.map Prod.snd ∧
    (lost = [] ↔ Punctual ttl now pushes)
  deadline : ∀ p ∈ pushes.getLast?, e.deadline = p.1 + ttl

namespace Retains

variable {pushes : List (ℕ × α)} {e : Expiring α}

/-- Nothing is lost exactly where the pushes were punctual. -/
theorem eq_iff (h : Retains ttl now pushes e) :
    e.content = pushes.map Prod.snd ↔ Punctual ttl now pushes := by
  obtain ⟨lost, rest, rfl, hcontent, hlost⟩ := h.split
  rw [hcontent, ← hlost, List.map_append]
  constructor
  · intro heq
    have hlength := congrArg List.length heq
    simp only [List.length_append, List.length_map] at hlength
    exact List.eq_nil_of_length_eq_zero (by omega)
  · rintro rfl
    rfl

theorem nil : Retains ttl now ([] : List (ℕ × α)) { e with content := [] } where
  split := ⟨[], [], rfl, rfl, iff_of_true rfl punctual_nil⟩
  deadline := by simp

theorem push (httl : 0 < ttl) (h : Retains ttl now pushes e) (x : α) :
    Retains ttl now (pushes ++ [(now, x)]) (e.push ttl now x) where
  split := by
    obtain ⟨lost, rest, rfl, hcontent, hlost⟩ := h.split
    refine ⟨lost, rest ++ [(now, x)], by rw [List.append_assoc], ?_, ?_⟩
    · rw [Expiring.push, hcontent, List.map_append]
      rfl
    · rw [punctual_concat httl, hlost]
  deadline := by
    intro p hp
    rw [List.getLast?_concat] at hp
    obtain rfl := Option.some.inj hp
    rfl

/-- As time passes, the list is dropped at its deadline. -/
theorem expire {now' : ℕ} (h : Retains ttl now pushes e) (hle : now ≤ now') :
    Retains ttl now' pushes (e.expire now') := by
  obtain ⟨lost, rest, hpushes, hcontent, hlost⟩ := h.split
  unfold Expiring.expire
  split
  · next hdead =>
      refine ⟨⟨pushes, [], (List.append_nil _).symm, rfl, ?_⟩, h.deadline⟩
      constructor
      · rintro rfl
        exact punctual_nil
      · intro hpunctual
        -- A last push would have set a deadline that has not come.
        by_contra hne
        obtain ⟨p, hp⟩ := Option.ne_none_iff_exists'.mp
          (fun hnone => hne (List.getLast?_eq_none_iff.mp hnone))
        have hlt := hpunctual.2 p hp
        have hdeadline := h.deadline p hp
        omega
  · next halive =>
      refine ⟨⟨lost, rest, hpushes, hcontent, ?_⟩, h.deadline⟩
      rw [hlost]
      constructor
      · intro hpunctual
        refine ⟨hpunctual.1, fun p hp => ?_⟩
        have hdeadline := h.deadline p hp
        omega
      · exact Punctual.of_le hle

end Retains

end Effects
