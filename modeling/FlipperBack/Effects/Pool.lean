import FlipperBack.Effects.Prog
import FlipperBack.Effects.Runs

/-!
# Programs interleaved call by call

A pool is a state and the programs that run on it. A step of the pool lets one
of them make one call, without interruption; a schedule is the list of the
programs that step. Each program has a label, what its calls are made under.

A protocol gives each program a phase, which calls are made in which phase and
which phases their answers lead to. `Prog.Follows` says that a program keeps to
it; along a schedule the phases of the programs change one at a time
(`Pool.step_follows`).
-/

namespace Effects

/-- A state and the programs that run on it, each with its label. -/
structure Pool (ε : Type) {Op : Type} (Res : Op → Type) (κ σ : Type) where
  state : σ
  threads : List (κ × Prog ε Res Unit)

namespace Prog

variable {ε Op : Type} {Res : Op → Type} {α β : Type}

/-- The next call of a program. -/
def head : Prog ε Res α → Option Op
  | ret _ => none
  | raise _ => none
  | call op _ => some op

@[simp] theorem head_ret (a : α) : (ret a : Prog ε Res α).head = none := rfl

@[simp] theorem head_raise (e : ε) : (raise e : Prog ε Res α).head = none := rfl

@[simp] theorem head_call (op : Op) (k : Except ε (Res op) → Prog ε Res α) :
    (call op k).head = some op := rfl

/-- The calls of a program where each is answered by `oracle`. -/
def trace (oracle : (op : Op) → Except ε (Res op)) : Prog ε Res α → List Op
  | ret _ => []
  | raise _ => []
  | call op k => op :: trace oracle (k (oracle op))

end Prog

namespace Pool

variable {ε Op : Type} {Res : Op → Type} {κ σ : Type}

/-- The program `i` makes its next call, if it has one. -/
def step (h : κ → Handler ε Res σ) (pool : Pool ε Res κ σ) (i : ℕ) : Pool ε Res κ σ :=
  match pool.threads[i]? with
  | some (c, .call op k) =>
      { state := (h c op pool.state).2,
        threads := pool.threads.set i (c, k (h c op pool.state).1) }
  | _ => pool

/-- The next call of the program `i`. -/
def next (pool : Pool ε Res κ σ) (i : ℕ) : Option Op :=
  pool.threads[i]?.bind fun t => t.2.head

/-- The programs beside the program `i`. -/
def others (pool : Pool ε Res κ σ) (i : ℕ) : List (κ × Prog ε Res Unit) :=
  pool.threads.eraseIdx i

variable {h : κ → Handler ε Res σ} {pool : Pool ε Res κ σ} {i j : ℕ}

/-- A step makes one call of one program, or does nothing. -/
theorem step_cases (h : κ → Handler ε Res σ) (pool : Pool ε Res κ σ) (i : ℕ) :
    step h pool i = pool ∨ ∃ c op k, pool.threads[i]? = some (c, .call op k) ∧
      step h pool i =
        { state := (h c op pool.state).2,
          threads := pool.threads.set i (c, k (h c op pool.state).1) } := by
  unfold step
  split
  · next c op k hthread => exact Or.inr ⟨c, op, k, hthread, rfl⟩
  · exact Or.inl rfl

theorem mem_others {t : κ × Prog ε Res Unit} :
    t ∈ pool.others i ↔ ∃ j, j ≠ i ∧ pool.threads[j]? = some t :=
  List.mem_eraseIdx_iff_getElem?

theorem set_self {threads : List (κ × Prog ε Res Unit)} {t t' : κ × Prog ε Res Unit}
    (h : threads[i]? = some t) : (threads.set i t')[i]? = some t' := by
  obtain ⟨hi, -⟩ := List.getElem?_eq_some_iff.mp h
  exact List.getElem?_set_self hi

theorem set_of_ne {threads : List (κ × Prog ε Res Unit)} (t : κ × Prog ε Res Unit) (hij : j ≠ i) :
    (threads.set i t)[j]? = threads[j]? :=
  List.getElem?_set_ne fun heq => hij heq.symm

theorem step_of_thread {c : κ} {op : Op} {k : Except ε (Res op) → Prog ε Res Unit}
    (ht : pool.threads[i]? = some (c, .call op k)) :
    step h pool i = { state := (h c op pool.state).2,
                      threads := pool.threads.set i (c, k (h c op pool.state).1) } := by
  unfold step
  rw [ht]

/-- A program that makes no step is left alone. -/
theorem thread_step_of_ne (hij : j ≠ i) : (step h pool i).threads[j]? = pool.threads[j]? := by
  rcases step_cases h pool i with heq | ⟨c, op, k, -, heq⟩
  · rw [heq]
  · rw [heq]
    exact set_of_ne _ hij

/-- A step leaves every program under its label. -/
theorem labels_step (h : κ → Handler ε Res σ) (pool : Pool ε Res κ σ) (i j : ℕ) :
    (step h pool i).threads[j]?.map Prod.fst = pool.threads[j]?.map Prod.fst := by
  rcases step_cases h pool i with heq | ⟨c, op, k, hthread, heq⟩
  · rw [heq]
  · rw [heq]
    by_cases hij : j = i
    · rw [hij, set_self hthread, hthread]
      rfl
    · rw [set_of_ne _ hij]

/-- A program makes all its calls where it alone goes on. -/
theorem exists_end (h : κ → Handler ε Res σ) (pool : Pool ε Res κ σ) (i : ℕ) :
    ∃ n, ((List.replicate n i).foldl (step h) pool).next i = none := by
  cases ht : pool.threads[i]? with
  | none => exact ⟨0, by simp [next, ht]⟩
  | some t =>
      obtain ⟨c, p⟩ := t
      induction p generalizing pool with
      | ret a => exact ⟨0, by simp [next, ht]⟩
      | raise e => exact ⟨0, by simp [next, ht]⟩
      | call op k ih =>
          have hthread : (step h pool i).threads[i]? = some (c, k (h c op pool.state).1) := by
            rw [step_of_thread ht]
            exact set_self ht
          obtain ⟨n, hn⟩ := ih _ _ hthread
          exact ⟨n + 1, hn⟩

/-- A program that has ended makes no call any more. -/
theorem next_foldl_of_none {schedule : List ℕ} (hi : pool.next i = none) :
    (schedule.foldl (step h) pool).next i = none := by
  induction schedule generalizing pool with
  | nil => exact hi
  | cons j schedule ih =>
      refine ih ?_
      rcases step_cases h pool j with heq | ⟨c, op, k, hthread, -⟩
      · rw [heq]
        exact hi
      · have hij : i ≠ j := by
          rintro rfl
          simp [next, hthread] at hi
        rw [next, thread_step_of_ne hij]
        exact hi

/-- Programs of the pool make all their calls where they go on one after the
other. -/
theorem exists_ends (h : κ → Handler ε Res σ) (pool : Pool ε Res κ σ) (is : List ℕ) :
    ∃ schedule : List ℕ, (∀ i ∈ schedule, i ∈ is) ∧
      ∀ i ∈ is, (schedule.foldl (step h) pool).next i = none := by
  induction is generalizing pool with
  | nil => exact ⟨[], by simp, by simp⟩
  | cons j is ih =>
      obtain ⟨n, hn⟩ := exists_end h pool j
      obtain ⟨schedule, hmem, hends⟩ := ih ((List.replicate n j).foldl (step h) pool)
      refine ⟨List.replicate n j ++ schedule, fun i hi => ?_, fun i hi => ?_⟩
      · rcases List.mem_append.mp hi with hi | hi
        · rw [List.eq_of_mem_replicate hi]
          exact List.mem_cons_self
        · exact List.mem_cons_of_mem j (hmem i hi)
      · rw [List.foldl_append]
        rcases List.mem_cons.mp hi with rfl | hi
        · exact next_foldl_of_none hn
        · exact hends i hi

/-- No program is added or taken away. -/
theorem thread_step_eq_none (h : κ → Handler ε Res σ) (pool : Pool ε Res κ σ) (i j : ℕ) :
    (step h pool i).threads[j]? = none ↔ pool.threads[j]? = none := by
  rw [← Option.map_eq_none_iff, labels_step, Option.map_eq_none_iff]

end Pool

/-! ## Protocols -/

/-- What calls are made in each phase of a program, what they can be answered,
and the phases an answer leads to. -/
structure Protocol (ε : Type) {Op : Type} (Res : Op → Type) (φ : Type) where
  allowed : φ → Op → Prop
  answers : (op : Op) → Except ε (Res op) → Prop
  next : φ → (op : Op) → Except ε (Res op) → φ → Prop

/-- The call is made in the phase `q` and can leave a program in it. -/
def Protocol.Leaves {ε Op : Type} {Res : Op → Type} {φ : Type} (P : Protocol ε Res φ) (q : φ)
    (op : Op) : Prop :=
  P.allowed q op ∧ ∀ r, P.answers op r → P.next q op r q

/-- The protocol of one phase of the calls that satisfy `C`, answered as `A`
says. -/
def Protocol.steady {ε Op : Type} {Res : Op → Type} (A : (op : Op) → Except ε (Res op) → Prop)
    (C : Op → Prop) : Protocol ε Res Unit where
  allowed _ op := C op
  answers := A
  next _ _ _ _ := True

/-- What the protocol says of the calls that satisfy `C`. -/
def Protocol.assuming {ε Op : Type} {Res : Op → Type} {φ : Type} (P : Protocol ε Res φ)
    (C : Op → Prop) : Protocol ε Res φ where
  allowed q op := C op → P.allowed q op
  answers := P.answers
  next q op r q' := C op → P.next q op r q'

namespace Prog

variable {ε Op : Type} {Res : Op → Type} {φ α β : Type} {P : Protocol ε Res φ}

/-- A program keeps to the protocol from the phase `q` on, returns in a phase of
`F` and raises in a phase of `E`. -/
def Follows (P : Protocol ε Res φ) (F E : φ → Prop) : φ → Prog ε Res α → Prop
  | q, ret _ => F q
  | q, raise _ => E q
  | q, call op k => P.allowed q op ∧
      ∀ r, P.answers op r → ∃ q', P.next q op r q' ∧ Follows P F E q' (k r)

theorem Follows.bind {F G E : φ → Prop} {p : Prog ε Res α} {f : α → Prog ε Res β} {q : φ}
    (hp : Follows P G E q p) (hf : ∀ q a, G q → Follows P F E q (f a)) :
    Follows P F E q (p >>= f) := by
  induction p generalizing q with
  | ret a => exact hf q a hp
  | raise e => exact hp
  | call op k ih =>
      refine ⟨hp.1, fun r hr => ?_⟩
      obtain ⟨q', hnext, hk⟩ := hp.2 r hr
      exact ⟨q', hnext, ih r hk⟩

theorem Follows.perform_bind {F E : φ → Prop} {op : Op} {f : Res op → Prog ε Res β} {q : φ}
    (hallowed : P.allowed q op)
    (hok : ∀ a, P.answers op (.ok a) → ∃ q', P.next q op (.ok a) q' ∧ Follows P F E q' (f a))
    (herror : ∀ e, P.answers op (.error e) → ∃ q', P.next q op (.error e) q' ∧ E q') :
    Follows P F E q (perform op >>= f) := by
  refine ⟨hallowed, fun r hr => ?_⟩
  cases r with
  | ok a => exact hok a hr
  | error e => exact herror e hr

theorem Follows.tryCatch {F E G : φ → Prop} {p : Prog ε Res α} {f : ε → Prog ε Res α} {q : φ}
    (hp : Follows P F G q p) (hf : ∀ q e, G q → Follows P F E q (f e)) :
    Follows P F E q (tryCatch p f) := by
  induction p generalizing q with
  | ret a => exact hp
  | raise e => exact hf q e hp
  | call op k ih =>
      refine ⟨hp.1, fun r hr => ?_⟩
      obtain ⟨q', hnext, hk⟩ := hp.2 r hr
      exact ⟨q', hnext, ih r hk⟩

theorem Follows.mono {F F' E E' : φ → Prop} (hF : ∀ q, F q → F' q) (hE : ∀ q, E q → E' q)
    {p : Prog ε Res α} {q : φ} (hp : Follows P F E q p) : Follows P F' E' q p := by
  induction p generalizing q with
  | ret a => exact hF q hp
  | raise e => exact hE q hp
  | call op k ih =>
      refine ⟨hp.1, fun r hr => ?_⟩
      obtain ⟨q', hnext, hk⟩ := hp.2 r hr
      exact ⟨q', hnext, ih r hk⟩

/-- What is done with the outcome of a program starts in the phases it ends in. -/
theorem Follows.attempt_bind {F E G H : φ → Prop} {p : Prog ε Res α}
    {f : Except ε α → Prog ε Res β} {q : φ} (hp : Follows P G H q p)
    (hok : ∀ q a, G q → Follows P F E q (f (.ok a)))
    (herror : ∀ q e, H q → Follows P F E q (f (.error e))) :
    Follows P F E q (p.attempt >>= f) := by
  induction p generalizing q with
  | ret a => exact hok q a hp
  | raise e => exact herror q e hp
  | call op k ih =>
      refine ⟨hp.1, fun r hr => ?_⟩
      obtain ⟨q', hnext, hk⟩ := hp.2 r hr
      exact ⟨q', hnext, ih r hk⟩

/-- A program whose calls are those of another signature keeps to a protocol of
that signature where it keeps to what this says of its calls. -/
theorem Follows.embed {Op' : Type} {Res' : Op' → Type} {Q : Protocol ε Res' φ} {f : Op → Op'}
    {g : (op : Op) → Except ε (Res' (f op)) → Except ε (Res op)}
    (hallowed : ∀ q op, P.allowed q op → Q.allowed q (f op))
    (hanswers : ∀ op r, Q.answers (f op) r → P.answers op (g op r))
    (hnext : ∀ q op r q', P.next q op (g op r) q' → Q.next q (f op) r q')
    {F E : φ → Prop} {p : Prog ε Res α} {q : φ} (hp : Follows P F E q p) :
    Follows Q F E q (p.embed f g) := by
  induction p generalizing q with
  | ret a => exact hp
  | raise e => exact hp
  | call op k ih =>
      refine ⟨hallowed q op hp.1, fun r hr => ?_⟩
      obtain ⟨q', hq', hk⟩ := hp.2 _ (hanswers op r hr)
      exact ⟨q', hnext q op r q' hq', ih _ hk⟩

/-! ### Back in the phase it started in -/

/-- A program that keeps to the protocol from the phase `q` on and ends in it. -/
abbrev Rests (P : Protocol ε Res φ) (q : φ) (p : Prog ε Res α) : Prop :=
  p.Follows P (· = q) (· = q) q

theorem Rests.bind {q : φ} {p : Prog ε Res α} {f : α → Prog ε Res β} (hp : Rests P q p)
    (hf : ∀ a, Rests P q (f a)) : Rests P q (p >>= f) := by
  refine Follows.bind hp fun q' a hq' => ?_
  rw [hq']
  exact hf a

theorem Rests.pure {q : φ} (a : α) : Rests P q (pure a : Prog ε Res α) := rfl

theorem Rests.ofExcept {q : φ} (x : Except ε α) : Rests P q (ofExcept x : Prog ε Res α) := by
  cases x <;> rfl

theorem Rests.perform {q : φ} {op : Op} (h : P.Leaves q op) :
    Rests P q (perform op : Prog ε Res (Res op)) :=
  ⟨h.1, fun r hr => ⟨q, h.2 r hr, Rests.ofExcept r⟩⟩

theorem Rests.attempt {q : φ} {p : Prog ε Res α} (hp : Rests P q p) : Rests P q p.attempt :=
  Follows.tryCatch (Rests.bind hp fun _ => rfl) fun _ _ hq => hq

theorem Rests.follows {F E : φ → Prop} {q : φ} {p : Prog ε Res α} (hp : Rests P q p) (hF : F q)
    (hE : E q) : Follows P F E q p :=
  Follows.mono (fun _ hq' => hq' ▸ hF) (fun _ hq' => hq' ▸ hE) hp

theorem Follows.allGiven {A : (op : Op) → Except ε (Res op) → Prop} {C : Op → Prop}
    {F E : Unit → Prop} {p : Prog ε Res α} (hp : Follows (.steady A C) F E () p) :
    AllGiven A C p := by
  induction p with
  | ret a => trivial
  | raise e => trivial
  | call op k ih =>
      refine ⟨hp.1, fun r hr => ?_⟩
      obtain ⟨_, -, hk⟩ := hp.2 r hr
      exact ih r hk

/-- A program whose calls all satisfy `C` keeps to the protocol where it does so
assuming that they do. -/
theorem Follows.of_assuming {A : (op : Op) → Except ε (Res op) → Prop} {C : Op → Prop}
    {F E : φ → Prop} {p : Prog ε Res α} {q : φ} (hp : Follows (P.assuming C) F E q p)
    (hA : ∀ op r, P.answers op r → A op r) (hC : AllGiven A C p) : Follows P F E q p := by
  induction p generalizing q with
  | ret a => exact hp
  | raise e => exact hp
  | call op k ih =>
      refine ⟨hp.1 hC.1, fun r hr => ?_⟩
      obtain ⟨q', hnext, hk⟩ := hp.2 r hr
      exact ⟨q', hnext hC.1, ih r hk (hC.2 r (hA op r hr))⟩

theorem Follows.assuming {F E : φ → Prop} {p : Prog ε Res α} {q : φ} (hp : Follows P F E q p)
    (C : Op → Prop) : Follows (P.assuming C) F E q p := by
  induction p generalizing q with
  | ret a => exact hp
  | raise e => exact hp
  | call op k ih =>
      refine ⟨fun _ => hp.1, fun r hr => ?_⟩
      obtain ⟨q', hnext, hk⟩ := hp.2 r hr
      exact ⟨q', fun _ => hnext, ih r hk⟩

/-- A program whose calls all leave it in the phase `q` stays in it. -/
theorem Rests.of_all {q : φ} {C : Op → Prop} (hC : ∀ op, C op → P.Leaves q op)
    {p : Prog ε Res α} (hp : p.All C) : Rests P q p := by
  induction p with
  | ret a => rfl
  | raise e => rfl
  | call op k ih =>
      exact ⟨(hC op hp.1).1, fun r hr => ⟨q, (hC op hp.1).2 r hr, ih r (hp.2 r)⟩⟩

end Prog

namespace Pool

variable {ε Op : Type} {Res : Op → Type} {κ σ φ : Type} {P : Protocol ε Res φ}
  {F : φ → Prop} {h : κ → Handler ε Res σ} {pool : Pool ε Res κ σ}

/-- Every program of the pool keeps to the protocol from its phase on. -/
def Follow (P : Protocol ε Res φ) (F : φ → Prop) (pool : Pool ε Res κ σ) (phase : ℕ → φ) : Prop :=
  ∀ i c (p : Prog ε Res Unit), pool.threads[i]? = some (c, p) → p.Follows P F F (phase i)

/-- Where a program makes its next call, its phase changes to one that the answer
leads to. -/
theorem Follow.call {phase : ℕ → φ} (hfollow : pool.Follow P F phase) {i : ℕ} {c : κ} {op : Op}
    {k : Except ε (Res op) → Prog ε Res Unit} (hthread : pool.threads[i]? = some (c, .call op k))
    {r : Except ε (Res op)} (hr : P.answers op r) {s : σ} :
    P.allowed (phase i) op ∧ ∃ q, P.next (phase i) op r q ∧
      Follow P F { state := s, threads := pool.threads.set i (c, k r) }
        (Function.update phase i q) := by
  obtain ⟨hallowed, hnext⟩ := hfollow i c _ hthread
  obtain ⟨q, hq, hk⟩ := hnext r hr
  refine ⟨hallowed, q, hq, fun j c' p hj => ?_⟩
  by_cases hij : j = i
  · subst hij
    rw [set_self hthread] at hj
    obtain ⟨-, rfl⟩ := Prod.mk.inj (Option.some.inj hj)
    rw [Function.update_self]
    exact hk
  · rw [set_of_ne _ hij] at hj
    rw [Function.update_of_ne hij]
    exact hfollow j c' p hj

/-- A step of the pool does nothing, or a call that its program is allowed in its
phase, which leaves the program in a phase that the answer leads to. -/
theorem step_follows {phase : ℕ → φ} (hfollow : pool.Follow P F phase)
    (hanswers : ∀ c op s, P.answers op (h c op s).1) (i : ℕ) :
    step h pool i = pool ∨ ∃ c op k q, pool.threads[i]? = some (c, .call op k) ∧
      P.allowed (phase i) op ∧ P.next (phase i) op (h c op pool.state).1 q ∧
      (step h pool i).state = (h c op pool.state).2 ∧
      (step h pool i).Follow P F (Function.update phase i q) := by
  rcases step_cases h pool i with heq | ⟨c, op, k, hthread, heq⟩
  · exact Or.inl heq
  · obtain ⟨hallowed, q, hq, hfollow'⟩ := hfollow.call hthread (hanswers c op pool.state)
    exact Or.inr ⟨c, op, k, q, hthread, hallowed, hq, by rw [heq], by rw [heq]; exact hfollow'⟩

end Pool

end Effects
