import FlipperBack.Effects.Pool

/-!
# Calls that wait

A call can have to wait for what other programs do: a program that would make
one makes no step until it no longer has to. `Pool.tryStep` is a step of the
pool that does nothing where the next call of its program waits, so that every
schedule is a run, and a program that waits can be tried again.

`Pool.Keeps` is an invariant of the state and of the phases of the programs: where
each call of a program in its phase preserves it, every schedule does
(`run_keeps`). Where no call waits, a program that makes `n` calls at most has
ended after `n` steps of its own (`run_within`).
-/

namespace Effects

namespace Pool

variable {ε Op : Type} {Res : Op → Type} {κ σ φ : Type}

/-- The program `i` makes its next call, if it has one that need not wait. -/
def tryStep (waits : κ → Op → σ → Bool) (h : κ → Handler ε Res σ) (pool : Pool ε Res κ σ)
    (i : ℕ) : Pool ε Res κ σ :=
  match pool.threads[i]? with
  | some (c, .call op _) => if waits c op pool.state then pool else step h pool i
  | _ => pool

variable {waits : κ → Op → σ → Bool} {h : κ → Handler ε Res σ} {pool : Pool ε Res κ σ} {i j : ℕ}

/-- A step makes one call that need not wait, or does nothing. -/
theorem tryStep_cases (waits : κ → Op → σ → Bool) (h : κ → Handler ε Res σ)
    (pool : Pool ε Res κ σ) (i : ℕ) :
    tryStep waits h pool i = pool ∨ ∃ c op k, pool.threads[i]? = some (c, .call op k) ∧
      waits c op pool.state = false ∧
      tryStep waits h pool i =
        { state := (h c op pool.state).2,
          threads := pool.threads.set i (c, k (h c op pool.state).1) } := by
  unfold tryStep
  split
  · next c op k hthread =>
      split
      · exact Or.inl rfl
      · next hwaits =>
          exact Or.inr ⟨c, op, k, hthread, by simpa using hwaits, step_of_thread hthread⟩
  · exact Or.inl rfl

/-- A program that makes no step is left alone. -/
theorem thread_tryStep_of_ne (hij : j ≠ i) :
    (tryStep waits h pool i).threads[j]? = pool.threads[j]? := by
  rcases tryStep_cases waits h pool i with heq | ⟨c, op, k, -, -, heq⟩
  · rw [heq]
  · rw [heq]
    exact set_of_ne _ hij

variable {P : Protocol ε Res φ} {F : φ → Prop}

/-! ## Invariants of the state and the phases -/

/-- The `n` programs of the pool keep to the protocol under their labels, from
phases that satisfy `I` with the state. -/
def Keeps (P : Protocol ε Res φ) (F : φ → Prop) (label : ℕ → κ) (n : ℕ)
    (I : σ → (ℕ → φ) → Prop) (pool : Pool ε Res κ σ) : Prop :=
  pool.threads.length = n ∧ (∀ i t, pool.threads[i]? = some t → t.1 = label i) ∧
    ∃ phase, pool.Follow P F phase ∧ I pool.state phase

variable {label : ℕ → κ} {n : ℕ} {I : σ → (ℕ → φ) → Prop} {C : ℕ → Op → σ → Prop}

/-- What a call that a program is allowed in its phase preserves, where it need not
wait and meets `C`, a step that meets `C` preserves. -/
theorem tryStep_keeps (hanswers : ∀ c op s, P.answers op (h c op s).1)
    (hcall : ∀ i op q phase s, i < n → I s phase → P.allowed (phase i) op →
      waits (label i) op s = false → C i op s → P.next (phase i) op (h (label i) op s).1 q →
      I (h (label i) op s).2 (Function.update phase i q))
    (hkeeps : pool.Keeps P F label n I) (hC : ∀ op, pool.next i = some op → C i op pool.state) :
    (tryStep waits h pool i).Keeps P F label n I := by
  obtain ⟨hlength, hlabel, phase, hfollow, hI⟩ := hkeeps
  rcases tryStep_cases waits h pool i with heq | ⟨c, op, k, hthread, hwaits, heq⟩
  · rw [heq]
    exact ⟨hlength, hlabel, phase, hfollow, hI⟩
  · obtain rfl : c = label i := hlabel i _ hthread
    obtain ⟨hi, -⟩ := List.getElem?_eq_some_iff.mp hthread
    have hnext : pool.next i = some op := by simp [next, hthread]
    obtain ⟨hallowed, q, hq, hfollow'⟩ := hfollow.call hthread (hanswers (label i) op pool.state)
    rw [heq]
    refine ⟨by rw [List.length_set, hlength], fun j t hj => ?_, Function.update phase i q, hfollow',
      hcall i op q phase pool.state (hlength ▸ hi) hI hallowed hwaits (hC op hnext) hq⟩
    by_cases hij : j = i
    · subst hij
      rw [set_self hthread] at hj
      rw [← Option.some.inj hj]
    · rw [set_of_ne _ hij] at hj
      exact hlabel j t hj

/-- What the steps of a schedule that meet `C` preserve holds where it leads. -/
theorem run_keeps (hanswers : ∀ c op s, P.answers op (h c op s).1)
    (hcall : ∀ i op q phase s, i < n → I s phase → P.allowed (phase i) op →
      waits (label i) op s = false → C i op s → P.next (phase i) op (h (label i) op s).1 q →
      I (h (label i) op s).2 (Function.update phase i q))
    (hkeeps : pool.Keeps P F label n I) {schedule : List ℕ}
    (hC : Runs.Along (tryStep waits h) (fun pool i => ∀ op, pool.next i = some op → C i op pool.state)
      pool schedule) :
    (schedule.foldl (tryStep waits h) pool).Keeps P F label n I :=
  Runs.invariant (fun _ _ hkeeps hC => tryStep_keeps hanswers hcall hkeeps hC) hkeeps hC

/-- Programs that have made no step are in the phases they started in. -/
theorem run_keeps_fresh {start : ℕ → φ} {schedule : List ℕ}
    (hanswers : ∀ c op s, P.answers op (h c op s).1)
    (hcall : ∀ i op q phase s, i < n → i ∈ schedule → I s phase → P.allowed (phase i) op →
      waits (label i) op s = false → P.next (phase i) op (h (label i) op s).1 q →
      I (h (label i) op s).2 (Function.update phase i q))
    (hkeeps : pool.Keeps P F label n fun s phase => I s phase ∧ phase = start) :
    (schedule.foldl (tryStep waits h) pool).Keeps P F label n fun s phase =>
      I s phase ∧ ∀ j, j ∉ schedule → phase j = start j := by
  refine run_keeps (C := fun i _ _ => i ∈ schedule) hanswers
    (fun i op q phase s hi hI hallowed hwaits hmem hq => ?_) ?_
    (Runs.Along.mono (fun _ i hi op _ => hi) (Runs.along_of_mem (fun i hi => hi) _))
  · refine ⟨hcall i op q phase s hi hmem hI.1 hallowed hwaits hq, fun j hj => ?_⟩
    have hji : j ≠ i := by
      rintro rfl
      exact hj hmem
    rw [Function.update_of_ne hji]
    exact hI.2 j hj
  · obtain ⟨hlength, hlabel, phase, hfollow, hI, rfl⟩ := hkeeps
    exact ⟨hlength, hlabel, phase, hfollow, hI, fun _ _ => rfl⟩

end Pool

/-! ## Programs that end -/

/-- The program makes `n` calls at most. -/
def Prog.Within {ε Op : Type} {Res : Op → Type} {α : Type} : Prog ε Res α → ℕ → Prop
  | .ret _, _ => True
  | .raise _, _ => True
  | .call _ _, 0 => False
  | .call _ k, n + 1 => ∀ r, (k r).Within n

namespace Pool

variable {ε Op : Type} {Res : Op → Type} {κ σ : Type} {waits : κ → Op → σ → Bool}
  {h : κ → Handler ε Res σ}

/-- The next call of the program `i`, if any, need not wait. -/
def Ready (waits : κ → Op → σ → Bool) (pool : Pool ε Res κ σ) (i : ℕ) : Prop :=
  ∀ c op k, pool.threads[i]? = some (c, .call op k) → waits c op pool.state = false

/-- A step that need not wait is one of the calls that its program has left. -/
theorem within_tryStep {pool : Pool ε Res κ σ} {i j n : ℕ} (hready : pool.Ready waits i)
    (hn : ∀ t, pool.threads[j]? = some t → t.2.Within n) :
    ∀ t, (tryStep waits h pool i).threads[j]? = some t → t.2.Within (n - if j = i then 1 else 0) := by
  intro t ht
  by_cases hji : j = i
  · subst hji
    rw [if_pos rfl]
    unfold tryStep at ht
    split at ht
    · next c op k hthread =>
        rw [if_neg (by simp [hready c op k hthread]), step_of_thread hthread] at ht
        simp only [set_self hthread, Option.some.injEq] at ht
        subst ht
        have hcall := hn _ hthread
        cases n with
        | zero => exact hcall.elim
        | succ n => exact hcall _
    · next hended =>
        obtain ⟨c, p⟩ := t
        cases p with
        | ret a => trivial
        | raise e => trivial
        | call op k => exact absurd ht (hended c op k)
  · rw [thread_tryStep_of_ne hji] at ht
    rw [if_neg hji]
    exact hn t ht

/-- A program has as many calls left, at most, as it has not had steps for. -/
theorem run_within {pool : Pool ε Res κ σ} {j n : ℕ} {schedule : List ℕ}
    (hready : Runs.Along (tryStep waits h) (Ready waits) pool schedule)
    (hn : ∀ t, pool.threads[j]? = some t → t.2.Within n) :
    ∀ t, (schedule.foldl (tryStep waits h) pool).threads[j]? = some t →
      t.2.Within (n - schedule.count j) := by
  induction schedule generalizing pool n with
  | nil => exact hn
  | cons i schedule ih =>
      have hrest := ih hready.2 (within_tryStep hready.1 hn)
      have hcount : n - (i :: schedule).count j =
          (n - if j = i then 1 else 0) - schedule.count j := by
        rw [List.count_cons]
        by_cases hji : j = i
        · rw [if_pos (by simp [hji]), if_pos hji]
          omega
        · rw [if_neg (by simpa using Ne.symm hji), if_neg hji]
          omega
      rw [hcount]
      exact hrest

end Pool

end Effects
