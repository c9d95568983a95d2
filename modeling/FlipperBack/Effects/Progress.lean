import FlipperBack.Effects.Waiting

/-!
# Programs that go on

A program goes on where it has a call to make that need not wait. Programs that
wait for others of a higher rank only, which have not ended, do not block each
other: as long as one has not ended, one of them goes on (`exists_goesOn`). And they
do not go on forever: each has the calls of a tree without infinite branch
(`exists_not_goesOn`).
-/

namespace Effects

namespace Pool

variable {ε Op : Type} {Res : Op → Type} {κ σ : Type} {waits : κ → Op → σ → Bool}
  {h : κ → Handler ε Res σ} {pool : Pool ε Res κ σ} {i : ℕ}

/-- The program `i` has a call to make that need not wait. -/
def GoesOn (waits : κ → Op → σ → Bool) (pool : Pool ε Res κ σ) (i : ℕ) : Prop :=
  ∃ c op k, pool.threads[i]? = some (c, .call op k) ∧ waits c op pool.state = false

/-- Where every program that waits does so for one of a higher rank that has not
ended, one of them goes on. -/
theorem exists_goesOn {rank : ℕ → ℕ} {bound : ℕ} (hbound : ∀ i, rank i ≤ bound)
    (hwaits : ∀ i c op k, pool.threads[i]? = some (c, .call op k) →
      waits c op pool.state = true → ∃ j, rank i < rank j ∧ pool.next j ≠ none)
    (hi : pool.next i ≠ none) : ∃ j, pool.GoesOn waits j := by
  induction hn : bound - rank i using Nat.strongRecOn generalizing i with
  | ind n ih =>
      obtain ⟨op, hop⟩ := Option.ne_none_iff_exists'.mp hi
      obtain ⟨⟨c, p⟩, hthread, hhead⟩ := Option.bind_eq_some_iff.mp hop
      cases p with
      | ret a => cases hhead
      | raise e => cases hhead
      | call op' k =>
          cases hwait : waits c op' pool.state with
          | false => exact ⟨i, c, op', k, hthread, hwait⟩
          | true =>
              obtain ⟨j, hrank, hj⟩ := hwaits i c op' k hthread hwait
              have := hbound j
              exact ih (bound - rank j) (by omega) hj rfl

/-! ## No run goes on forever -/

/-- One of the programs has been answered its next call. -/
def Advances (threads threads' : List (κ × Prog ε Res Unit)) : Prop :=
  ∃ i c op k r, threads[i]? = some (c, .call op k) ∧ threads' = threads.set i (c, k r)

theorem advances_cons {t : κ × Prog ε Res Unit} {threads threads' : List (κ × Prog ε Res Unit)}
    (hadvances : Advances (t :: threads) threads') :
    (∃ c op k r, t = (c, .call op k) ∧ threads' = (c, k r) :: threads) ∨
      ∃ threads'', Advances threads threads'' ∧ threads' = t :: threads'' := by
  obtain ⟨i, c, op, k, r, hthread, rfl⟩ := hadvances
  cases i with
  | zero => exact Or.inl ⟨c, op, k, r, Option.some.inj hthread, rfl⟩
  | succ i => exact Or.inr ⟨_, ⟨i, c, op, k, r, hthread, rfl⟩, rfl⟩

/-- The order in which programs advance is well founded: by induction on the list,
then on the tree of its first program. -/
theorem acc_advances (threads : List (κ × Prog ε Res Unit)) :
    Acc (fun threads' threads => Advances threads threads') threads := by
  induction threads with
  | nil =>
      refine ⟨_, fun threads' hadvances => ?_⟩
      obtain ⟨i, c, op, k, r, hthread, -⟩ := hadvances
      cases hthread
  | cons t threads ih =>
      obtain ⟨c, p⟩ := t
      induction p generalizing threads with
      | ret a =>
          induction ih with
          | intro threads _ ih =>
              refine ⟨_, fun threads' hadvances => ?_⟩
              rcases advances_cons hadvances with ⟨_, _, _, _, heq, -⟩ | ⟨threads'', hnext, rfl⟩
              · cases heq
              · exact ih threads'' hnext
      | raise e =>
          induction ih with
          | intro threads _ ih =>
              refine ⟨_, fun threads' hadvances => ?_⟩
              rcases advances_cons hadvances with ⟨_, _, _, _, heq, -⟩ | ⟨threads'', hnext, rfl⟩
              · cases heq
              · exact ih threads'' hnext
      | call op k ihk =>
          induction ih with
          | intro threads hacc ih =>
              refine ⟨_, fun threads' hadvances => ?_⟩
              rcases advances_cons hadvances with ⟨_, _, _, r, heq, rfl⟩ | ⟨threads'', hnext, rfl⟩
              · cases heq
                exact ihk r threads ⟨_, hacc⟩
              · exact ih threads'' hnext

/-- No infinite sequence of lists of programs advances at each step. -/
theorem exists_not_advances (threads : ℕ → List (κ × Prog ε Res Unit)) :
    ∃ n, ¬ Advances (threads n) (threads (n + 1)) := by
  have hacc := acc_advances (threads 0)
  generalize hfirst : threads 0 = first at hacc
  induction hacc generalizing threads with
  | intro first _ ih =>
      by_cases hadvances : Advances (threads 0) (threads 1)
      · obtain ⟨n, hn⟩ := ih (threads 1) (hfirst ▸ hadvances) (fun n => threads (n + 1)) rfl
        exact ⟨n + 1, hn⟩
      · exact ⟨0, hadvances⟩

/-- A program that goes on advances. -/
theorem advances_of_goesOn (hi : pool.GoesOn waits i) :
    Advances pool.threads (tryStep waits h pool i).threads := by
  obtain ⟨c, op, k, hthread, hwait⟩ := hi
  refine ⟨i, c, op, k, (h c op pool.state).1, hthread, ?_⟩
  unfold tryStep
  rw [hthread]
  dsimp only
  rw [if_neg (by simp [hwait]), step_of_thread hthread]

/-- The pool after the first `n` steps that are chosen. -/
def chosen (waits : κ → Op → σ → Bool) (h : κ → Handler ε Res σ) (pool : Pool ε Res κ σ)
    (choice : ℕ → ℕ) : ℕ → Pool ε Res κ σ
  | 0 => pool
  | n + 1 => tryStep waits h (chosen waits h pool choice n) (choice n)

/-- Whatever the choices, at one of them the program that is chosen does not go
on. -/
theorem exists_not_goesOn (pool : Pool ε Res κ σ) (choice : ℕ → ℕ) :
    ∃ n, ¬ (chosen waits h pool choice n).GoesOn waits (choice n) := by
  obtain ⟨n, hn⟩ := exists_not_advances fun n => (chosen waits h pool choice n).threads
  exact ⟨n, fun hgoes => hn (advances_of_goesOn hgoes)⟩

end Pool

end Effects
