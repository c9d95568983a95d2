import FlipperBack.Effects.Spawn

/-!
# Programs that do not share state

The label of a program tells the domain it belongs to. Where the programs of a
domain read and write only what `view` shows of the state for that domain
(`Apart`), the programs of the other domains can be left out of a schedule: what
it leaves of the domain is what its own part of the schedule leaves
(`Apart.run`), in which the programs of the domain keep their order.
-/

namespace Effects

/-! ## Lists filtered around one index -/

section Filter

variable {α : Type} {p : α → Bool}

theorem getElem?_filter_take {l : List α} {i : ℕ} {a : α} (h : l[i]? = some a) (ha : p a) :
    (l.filter p)[((l.take i).filter p).length]? = some a := by
  induction l generalizing i with
  | nil => cases h
  | cons b l ih =>
      cases i with
      | zero =>
          obtain rfl := Option.some.inj h
          simp [ha]
      | succ i =>
          by_cases hb : p b <;> simpa [hb] using ih h

theorem filter_set_of_mem {l : List α} {i : ℕ} {a a' : α} (h : l[i]? = some a) (ha : p a)
    (ha' : p a') : (l.set i a').filter p = (l.filter p).set ((l.take i).filter p).length a' := by
  induction l generalizing i with
  | nil => cases h
  | cons b l ih =>
      cases i with
      | zero =>
          obtain rfl := Option.some.inj h
          simp [ha, ha']
      | succ i =>
          by_cases hb : p b <;> simpa [hb] using ih h

theorem filter_set_of_not_mem {l : List α} {i : ℕ} {a a' : α} (h : l[i]? = some a)
    (ha : p a = false) (ha' : p a' = false) : (l.set i a').filter p = l.filter p := by
  induction l generalizing i with
  | nil => rfl
  | cons b l ih =>
      cases i with
      | zero =>
          obtain rfl := Option.some.inj h
          simp [ha, ha']
      | succ i =>
          by_cases hb : p b <;> simpa [hb] using ih h

end Filter

namespace Pool

variable {ε Op : Type} {Res : Op → Type} {κ σ δ τ : Type} [DecidableEq δ]

/-! ## The part of a domain -/

/-- The programs of the domain `d`, on the same state. -/
def only (dom : κ → δ) (d : δ) (pool : Pool ε Res κ σ) : Pool ε Res κ σ :=
  { pool with threads := pool.threads.filter fun t => dom t.1 = d }

/-- The place of the program `i` among those of the domain `d`. -/
def rank (dom : κ → δ) (d : δ) (pool : Pool ε Res κ σ) (i : ℕ) : ℕ :=
  ((pool.threads.take i).filter fun t => dom t.1 = d).length

/-- The steps of a schedule that programs of the domain `d` take, each under the
place of its program among them. -/
def project (dom : κ → δ) (d : δ) (step : Pool ε Res κ σ → ℕ → Pool ε Res κ σ) :
    Pool ε Res κ σ → List ℕ → List ℕ
  | _, [] => []
  | pool, i :: schedule =>
      (if pool.threads[i]?.map (fun t => dom t.1) = some d then [rank dom d pool i] else []) ++
        project dom d step (step pool i) schedule

/-- The calls `C` of a domain, answered as `A` says, read and write what `view`
shows for it, and start programs of it. -/
structure Apart (h : κ → Handler ε Res σ) (starts : Op → σ → List (κ × Prog ε Res Unit))
    (dom : κ → δ) (A : (op : Op) → Except ε (Res op) → Prop) (C : δ → Op → Prop)
    (view : δ → σ → τ) : Prop where
  answers : ∀ c op s, A op (h c op s).1
  answer : ∀ c op s s', C (dom c) op → view (dom c) s = view (dom c) s' →
    (h c op s).1 = (h c op s').1
  effect : ∀ c op s s', C (dom c) op → view (dom c) s = view (dom c) s' →
    view (dom c) (h c op s).2 = view (dom c) (h c op s').2
  frame : ∀ c op s d, C (dom c) op → d ≠ dom c → view d (h c op s).2 = view d s
  starts_same : ∀ d op s s', C d op → view d s = view d s' → starts op s = starts op s'
  starts_own : ∀ d op s, C d op → ∀ t ∈ starts op s, dom t.1 = d ∧ t.2.AllGiven A (C d)

/-- Every program keeps to the calls of its domain. -/
def Keep (dom : κ → δ) (A : (op : Op) → Except ε (Res op) → Prop) (C : δ → Op → Prop)
    (pool : Pool ε Res κ σ) : Prop :=
  ∀ t ∈ pool.threads, t.2.AllGiven A (C (dom t.1))

/-- Two pools that are alike for the domain `d`: the second one has the programs
of the domain that the first one has, and shows it the same state. -/
def Alike (dom : κ → δ) (view : δ → σ → τ) (d : δ) (pool alone : Pool ε Res κ σ) : Prop :=
  view d alone.state = view d pool.state ∧
    alone.threads = pool.threads.filter fun t => dom t.1 = d

namespace Apart

variable {h : κ → Handler ε Res σ} {starts : Op → σ → List (κ × Prog ε Res Unit)} {dom : κ → δ}
  {A : (op : Op) → Except ε (Res op) → Prop} {C : δ → Op → Prop} {view : δ → σ → τ}
  {pool alone : Pool ε Res κ σ} {d : δ} {i : ℕ}

omit [DecidableEq δ] in
theorem keep_step (hapart : Apart h starts dom A C view) (hkeep : pool.Keep dom A C) (i : ℕ) :
    (spawnStep h starts pool i).Keep dom A C := by
  cases hnext : pool.next i with
  | none => rwa [spawnStep_of_next h starts hnext]
  | some op =>
      obtain ⟨c, k, ht⟩ := next_eq_some hnext
      have hall := hkeep _ (List.mem_of_getElem? ht)
      rw [spawnStep_of_thread ht]
      intro t hmem
      rcases List.mem_append.mp hmem with hmem | hmem
      · rcases List.mem_or_eq_of_mem_set hmem with hmem | rfl
        · exact hkeep t hmem
        · exact hall.2 _ (hapart.answers c op _)
      · obtain ⟨hdom, hstarted⟩ := hapart.starts_own _ op _ hall.1 t hmem
        rwa [hdom]

/-- A step of a program of another domain is not seen. -/
theorem step_other (hapart : Apart h starts dom A C view) (hkeep : pool.Keep dom A C)
    (halike : Alike dom view d pool alone)
    (hother : pool.threads[i]?.map (fun t => dom t.1) ≠ some d) :
    Alike dom view d (spawnStep h starts pool i) alone := by
  cases hnext : pool.next i with
  | none => rwa [spawnStep_of_next h starts hnext]
  | some op =>
      obtain ⟨c, k, ht⟩ := next_eq_some hnext
      obtain ⟨hop, -⟩ := hkeep _ (List.mem_of_getElem? ht)
      have hne : d ≠ dom c := by
        rintro rfl
        exact hother (by rw [ht]; rfl)
      have hstarted : (starts op pool.state).filter (fun t => dom t.1 = d) = [] := by
        refine List.filter_eq_nil_iff.mpr fun t hmem => ?_
        rw [(hapart.starts_own _ op _ hop t hmem).1]
        simpa using hne.symm
      rw [spawnStep_of_thread ht]
      refine ⟨halike.1.trans (hapart.frame c op _ d hop hne).symm, ?_⟩
      rw [List.filter_append, hstarted, List.append_nil,
        filter_set_of_not_mem ht (by simpa using hne.symm) (by simpa using hne.symm)]
      exact halike.2

/-- A step of a program of the domain is the step of the program at its place. -/
theorem step_own (hapart : Apart h starts dom A C view) (hkeep : pool.Keep dom A C)
    (halike : Alike dom view d pool alone)
    (hown : pool.threads[i]?.map (fun t => dom t.1) = some d) :
    Alike dom view d (spawnStep h starts pool i)
      (spawnStep h starts alone (rank dom d pool i)) := by
  obtain ⟨⟨c, p⟩, ht, rfl⟩ := Option.map_eq_some_iff.mp hown
  have hplace : alone.threads[rank dom (dom c) pool i]? = some (c, p) := by
    rw [halike.2]
    exact getElem?_filter_take ht (by simp)
  cases p with
  | ret a =>
      rw [spawnStep_of_next h starts (by rw [next, ht]; rfl),
        spawnStep_of_next h starts (by rw [next, hplace]; rfl)]
      exact halike
  | raise e =>
      rw [spawnStep_of_next h starts (by rw [next, ht]; rfl),
        spawnStep_of_next h starts (by rw [next, hplace]; rfl)]
      exact halike
  | call op k =>
      obtain ⟨hop, -⟩ := hkeep _ (List.mem_of_getElem? ht)
      have hview := halike.1
      rw [spawnStep_of_thread ht, spawnStep_of_thread hplace,
        hapart.answer c op _ _ hop hview, hapart.starts_same _ op _ _ hop hview]
      refine ⟨hapart.effect c op _ _ hop hview, ?_⟩
      have hstarted : (starts op pool.state).filter (fun t => dom t.1 = dom c) =
          starts op pool.state := by
        refine List.filter_eq_self.mpr fun t hmem => ?_
        rw [(hapart.starts_own _ op _ hop t hmem).1]
        simp
      rw [List.filter_append, hstarted, filter_set_of_mem ht (by simp) (by simp), halike.2]
      rfl

/-- What a schedule leaves of a domain is what its own part of the schedule
leaves. -/
theorem run (hapart : Apart h starts dom A C view) (hkeep : pool.Keep dom A C)
    (halike : Alike dom view d pool alone) (schedule : List ℕ) :
    Alike dom view d (schedule.foldl (spawnStep h starts) pool)
      ((project dom d (spawnStep h starts) pool schedule).foldl (spawnStep h starts) alone) := by
  induction schedule generalizing pool alone with
  | nil => exact halike
  | cons i schedule ih =>
      rw [project, List.foldl_cons, List.foldl_append]
      have hkeep' := hapart.keep_step hkeep i
      split
      · next hown => exact ih hkeep' (hapart.step_own hkeep halike hown)
      · next hother => exact ih hkeep' (hapart.step_other hkeep halike hother)

end Apart

end Pool

end Effects
