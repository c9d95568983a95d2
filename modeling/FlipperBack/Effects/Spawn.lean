import FlipperBack.Effects.Pool

/-!
# Programs that start others

A call may start programs, which join the pool beside those that are there
(`spawnStep`). The calls that a schedule makes are its `history`, each with the
program that makes it and the state it is made in.
-/

namespace Effects

namespace Pool

variable {ε Op : Type} {Res : Op → Type} {κ σ φ : Type}

/-- The program `i` makes its next call, if it has one, and the programs that the
call starts join the pool. -/
def spawnStep (h : κ → Handler ε Res σ) (starts : Op → σ → List (κ × Prog ε Res Unit))
    (pool : Pool ε Res κ σ) (i : ℕ) : Pool ε Res κ σ :=
  match pool.next i with
  | some op =>
      { step h pool i with threads := (step h pool i).threads ++ starts op pool.state }
  | none => pool

variable {h : κ → Handler ε Res σ} {starts : Op → σ → List (κ × Prog ε Res Unit)}
  {pool : Pool ε Res κ σ} {i j : ℕ}

theorem spawnStep_of_thread {c : κ} {op : Op} {k : Except ε (Res op) → Prog ε Res Unit}
    (ht : pool.threads[i]? = some (c, .call op k)) :
    spawnStep h starts pool i =
      { state := (h c op pool.state).2,
        threads := pool.threads.set i (c, k (h c op pool.state).1) ++ starts op pool.state } := by
  rw [spawnStep, next, ht, step_of_thread ht]
  rfl

theorem spawnStep_of_next (h : κ → Handler ε Res σ)
    (starts : Op → σ → List (κ × Prog ε Res Unit)) (hnext : pool.next i = none) :
    spawnStep h starts pool i = pool := by
  rw [spawnStep, hnext]

/-- A program with a next call. -/
theorem next_eq_some {op : Op} (hnext : pool.next i = some op) :
    ∃ c k, pool.threads[i]? = some (c, .call op k) := by
  unfold next at hnext
  cases ht : pool.threads[i]? with
  | none =>
      rw [ht] at hnext
      cases hnext
  | some t =>
      obtain ⟨c, p⟩ := t
      rw [ht, Option.bind_some] at hnext
      cases p with
      | ret a => cases hnext
      | raise e => cases hnext
      | call op' k =>
          obtain rfl := Option.some.inj hnext
          exact ⟨c, k, rfl⟩

/-- The programs after a step: that of the call, those that were there, and those
that the call starts. -/
theorem spawnStep_thread {c : κ} {op : Op} {k : Except ε (Res op) → Prog ε Res Unit}
    {t : κ × Prog ε Res Unit} (ht : pool.threads[i]? = some (c, .call op k))
    (hj : (spawnStep h starts pool i).threads[j]? = some t) :
    (j = i ∧ t = (c, k (h c op pool.state).1)) ∨ (j ≠ i ∧ pool.threads[j]? = some t) ∨
      (j ≠ i ∧ pool.threads[j]? = none ∧ t ∈ starts op pool.state) := by
  rw [spawnStep_of_thread ht] at hj
  dsimp only at hj
  rw [List.getElem?_append, List.length_set] at hj
  by_cases hij : j = i
  · subst hij
    rw [if_pos (List.getElem?_eq_some_iff.mp ht).1, set_self ht] at hj
    exact Or.inl ⟨rfl, (Option.some.inj hj).symm⟩
  · refine Or.inr ?_
    split at hj
    · rw [set_of_ne _ hij] at hj
      exact Or.inl ⟨hij, hj⟩
    · next hlen =>
        refine Or.inr ⟨hij, List.getElem?_eq_none (Nat.not_lt.mp hlen), ?_⟩
        exact List.mem_of_getElem? hj

/-- A program that is there stays. -/
theorem spawnStep_thread_eq_none (hj : (spawnStep h starts pool i).threads[j]? = none) :
    pool.threads[j]? = none := by
  cases hnext : pool.next i with
  | none => rwa [spawnStep_of_next h starts hnext] at hj
  | some op =>
      obtain ⟨c, k, ht⟩ := next_eq_some hnext
      rw [spawnStep_of_thread ht] at hj
      refine List.getElem?_eq_none ?_
      have hlen := List.getElem?_eq_none_iff.mp hj
      rw [List.length_append, List.length_set] at hlen
      exact Nat.le_trans (Nat.le_add_right _ _) hlen

/-- A program has no next call, or one that it is allowed in its phase. The
programs that the call starts begin in the phase of those that are not there. -/
theorem spawnStep_follows {P : Protocol ε Res φ} {F : φ → Prop} {q₀ : φ} {phase : ℕ → φ}
    (hfollow : pool.Follow P F phase) (hidle : ∀ j, pool.threads[j]? = none → phase j = q₀)
    (hanswers : ∀ c op s, P.answers op (h c op s).1)
    (hstarts : ∀ op s, ∀ t ∈ starts op s, t.2.Follows P F F q₀) (i : ℕ) :
    pool.next i = none ∨ ∃ c op k q, pool.threads[i]? = some (c, .call op k) ∧
      P.allowed (phase i) op ∧ P.next (phase i) op (h c op pool.state).1 q ∧
      (spawnStep h starts pool i).Follow P F (Function.update phase i q) := by
  cases hnext : pool.next i with
  | none => exact Or.inl rfl
  | some op =>
      obtain ⟨c, k, ht⟩ := next_eq_some hnext
      obtain ⟨hallowed, hanswered⟩ := hfollow i c _ ht
      obtain ⟨q, hq, hk⟩ := hanswered _ (hanswers c op pool.state)
      refine Or.inr ⟨c, op, k, q, ht, hallowed, hq, fun j c' p hj => ?_⟩
      rcases spawnStep_thread ht hj with ⟨rfl, heq⟩ | ⟨hij, hj⟩ | ⟨hij, hnone, hmem⟩
      · obtain ⟨-, rfl⟩ := Prod.mk.inj heq
        rw [Function.update_self]
        exact hk
      · rw [Function.update_of_ne hij]
        exact hfollow j c' p hj
      · rw [Function.update_of_ne hij, hidle j hnone]
        exact hstarts op pool.state _ hmem

/-! ## The calls of a schedule -/

/-- A call made by a program, under its label, and the state it is made in. -/
structure Made (κ Op σ : Type) where
  index : ℕ
  label : κ
  op : Op
  before : σ

/-- The call that the program `i` makes next. -/
def made (pool : Pool ε Res κ σ) (i : ℕ) : List (Made κ Op σ) :=
  match pool.threads[i]? with
  | some (c, .call op _) => [{ index := i, label := c, op, before := pool.state }]
  | _ => []

/-- The calls made along a schedule. -/
def history (step : Pool ε Res κ σ → ℕ → Pool ε Res κ σ) :
    Pool ε Res κ σ → List ℕ → List (Made κ Op σ)
  | _, [] => []
  | pool, i :: schedule => made pool i ++ history step (step pool i) schedule

theorem made_of_thread {c : κ} {op : Op} {k : Except ε (Res op) → Prog ε Res Unit}
    (ht : pool.threads[i]? = some (c, .call op k)) :
    made pool i = [{ index := i, label := c, op, before := pool.state }] := by
  rw [made, ht]

theorem made_of_next (hnext : pool.next i = none) : made pool i = [] := by
  unfold made
  unfold next at hnext
  split
  · next c op k ht =>
      rw [ht] at hnext
      cases hnext
  · rfl

/-- Lists that agree on what they have of each program are the same but for the
order. -/
theorem perm_of_filter_fst {α : Type} [DecidableEq α] {l l' : List (ℕ × α)}
    (heq : ∀ i, (l.filter fun a => a.1 = i) = l'.filter fun a => a.1 = i) : l.Perm l' := by
  refine List.perm_iff_count.mpr fun a => ?_
  have hcount (l : List (ℕ × α)) : (l.filter fun b => b.1 = a.1).count a = l.count a :=
    List.count_filter (by simp)
  rw [← hcount l, heq a.1, hcount]

end Pool

end Effects
