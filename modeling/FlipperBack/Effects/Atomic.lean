import FlipperBack.Effects.Pool

/-!
# Calls made of commands

A call may be made by a program of its own, of several commands (`Prog.expand`).
It is atomic, whatever runs between its commands, where one of these has the effect
of the call and the others change nothing that the state stands for (`Atomic`).
Where all calls are atomic, every schedule of the commands does what a schedule of
the calls does (`Pool.Expands.foldl`).
-/

namespace Effects

namespace Prog

variable {ε Op : Type} {Res : Op → Type} {Op' : Type} {Res' : Op' → Type} {σ σ' α β : Type}

/-- The program with each of its calls made by a program of its own. -/
def expand (impl : (op : Op) → Prog ε Res' (Res op)) : Prog ε Res α → Prog ε Res' α
  | ret a => ret a
  | raise e => raise e
  | call op k => (impl op).attempt >>= fun r => expand impl (k r)

/-- How a program has ended, if it has. -/
def outcome : Prog ε Res α → Option (Except ε α)
  | ret a => some (.ok a)
  | raise e => some (.error e)
  | call _ _ => none

section Atomic

variable (g : Handler ε Res' σ') (h : Handler ε Res σ) (R : σ' → σ → Prop)

/-- The commands of a program change nothing that the state stands for, and it ends in
`r`. -/
def Settled (r : Except ε α) : Prog ε Res' α → Prop
  | ret a => r = .ok a
  | raise e => r = .error e
  | call c k => ∀ s t, R s t → R (g c s).2 t ∧ Settled r (k (g c s).1)

/-- One of the commands of a program has the effect of the call `op` and leads to its
answer; the others change nothing that the state stands for. -/
def Atomic (op : Op) : Prog ε Res' (Res op) → Prop
  | ret _ => False
  | raise _ => False
  | call c k => ∀ s t, R s t →
      (R (g c s).2 t ∧ Atomic op (k (g c s).1)) ∨
        (R (g c s).2 (h op t).2 ∧ Settled g R (h op t).1 (k (g c s).1))

variable (impl : (op : Op) → Prog ε Res' (Res op))

/-- A program of commands is what is left of a program of calls: its call has not had its
effect, or it is done but for commands that change nothing. -/
inductive Expands : Prog ε Res' α → Prog ε Res α → Prop
  | before {op : Op} {p : Prog ε Res' (Res op)} {k : Except ε (Res op) → Prog ε Res α}
      (hp : Atomic g h R op p) : Expands (p.attempt >>= fun r => expand impl (k r)) (call op k)
  | after {β : Type} {p : Prog ε Res' β} {r : Except ε β} {k : Except ε β → Prog ε Res α}
      (hp : Settled g R r p) : Expands (p.attempt >>= fun r => expand impl (k r)) (k r)

end Atomic

namespace Expands

variable {g : Handler ε Res' σ'} {h : Handler ε Res σ} {R : σ' → σ → Prop}
  {impl : (op : Op) → Prog ε Res' (Res op)} {q : Prog ε Res α}

/-- A program that has made no command of its next call. -/
theorem refl (q : Prog ε Res α) : Expands g h R impl (expand impl q) q :=
  after (p := ret ()) (r := .ok ()) (k := fun _ => q) rfl

section Step

variable {c : Op'} {k' : Except ε (Res' c) → Prog ε Res' α} {s : σ'} {t : σ}

/-- A command of the next call changes nothing that the state stands for, or it has the
effect of the call. -/
theorem step_call (hst : R s t) {op : Op} {p : Prog ε Res' (Res op)}
    {k : Except ε (Res op) → Prog ε Res α} (hp : Atomic g h R op p)
    (hcall : (p.attempt >>= fun r => expand impl (k r)) = call c k') :
    (R (g c s).2 t ∧ Expands g h R impl (k' (g c s).1) (call op k)) ∨
      R (g c s).2 (h op t).2 ∧ Expands g h R impl (k' (g c s).1) (k (h op t).1) := by
  cases p with
  | ret a => exact hp.elim
  | raise e => exact hp.elim
  | call c₀ k₀ =>
      obtain ⟨rfl, hk⟩ := call.inj hcall
      obtain rfl := eq_of_heq hk
      exact (hp s t hst).imp (fun ⟨hR, hrest⟩ => ⟨hR, before hrest⟩)
        fun ⟨hR, hrest⟩ => ⟨hR, after hrest⟩

variable {P : Op → Prop} (hatomic : ∀ op, P op → Atomic g h R op (impl op))

include hatomic

theorem step_expand (hst : R s t) (hq : q.All P) (hcall : expand impl q = call c k') :
    (R (g c s).2 t ∧ Expands g h R impl (k' (g c s).1) q) ∨
      ∃ op k, q = call op k ∧ R (g c s).2 (h op t).2 ∧
        Expands g h R impl (k' (g c s).1) (k (h op t).1) := by
  cases q with
  | ret a => cases hcall
  | raise e => cases hcall
  | call op k =>
      exact (step_call hst (hatomic op hq.1) hcall).imp id fun hrest => ⟨op, k, rfl, hrest⟩

/-- A command changes nothing that the state stands for, or it has the effect of the next
call. -/
theorem step (hst : R s t) (hq : q.All P) (hpq : Expands g h R impl (call c k') q) :
    (R (g c s).2 t ∧ Expands g h R impl (k' (g c s).1) q) ∨
      ∃ op k, q = call op k ∧ R (g c s).2 (h op t).2 ∧
        Expands g h R impl (k' (g c s).1) (k (h op t).1) := by
  generalize hlow : (call c k' : Prog ε Res' α) = low at hpq
  cases hpq with
  | before hp => exact (step_call hst hp hlow.symm).imp id fun hrest => ⟨_, _, rfl, hrest⟩
  | @after β p r k hp =>
      cases p with
      | ret a =>
          obtain rfl : r = .ok a := hp
          exact step_expand hatomic hst hq hlow.symm
      | raise e =>
          obtain rfl : r = .error e := hp
          exact step_expand hatomic hst hq hlow.symm
      | call c₀ k₀ =>
          obtain ⟨rfl, hk⟩ := call.inj hlow
          obtain rfl := eq_of_heq hk
          obtain ⟨hR, hrest⟩ := hp s t hst
          exact Or.inl ⟨hR, after hrest⟩

/-- A program of commands that has ended has ended as the program of calls has. -/
theorem outcome {p : Prog ε Res' α} {x : Except ε α} (hq : q.All P)
    (hpq : Expands g h R impl p q) (hx : p.outcome = some x) : q.outcome = some x := by
  have hbefore {op : Op} {p : Prog ε Res' (Res op)} {k : Except ε (Res op) → Prog ε Res α}
      (hp : Atomic g h R op p) :
      (p.attempt >>= fun r => expand impl (k r)).outcome = (none : Option (Except ε α)) := by
    cases p with
    | ret a => exact hp.elim
    | raise e => exact hp.elim
    | call c k' => rfl
  have hexpand {q : Prog ε Res α} (hq : q.All P) (hx : (expand impl q).outcome = some x) :
      q.outcome = some x := by
    cases q with
    | ret a => exact hx
    | raise e => exact hx
    | call op k =>
        rw [expand, hbefore (hatomic op hq.1)] at hx
        cases hx
  cases hpq with
  | before hp =>
      rw [hbefore hp] at hx
      cases hx
  | @after β p r k hp =>
      cases p with
      | ret a =>
          obtain rfl : r = .ok a := hp
          exact hexpand hq hx
      | raise e =>
          obtain rfl : r = .error e := hp
          exact hexpand hq hx
      | call c k' => cases hx

end Step

end Expands

end Prog

/-! ## Schedules -/

namespace Pool

variable {ε Op : Type} {Res : Op → Type} {Op' : Type} {Res' : Op' → Type} {σ σ' κ : Type}

/-- How the program `i` has ended, if it has. -/
def outcome (pool : Pool ε Res κ σ) (i : ℕ) : Option (Except ε Unit) :=
  pool.threads[i]?.bind fun t => t.2.outcome

section Expands

variable (g : κ → Handler ε Res' σ') (h : κ → Handler ε Res σ) (R : σ' → σ → Prop)
  (impl : (op : Op) → Prog ε Res' (Res op)) (P : Op → Prop)

/-- A program of commands and the program of calls that it makes, under one label. -/
structure ThreadExpands (x : κ × Prog ε Res' Unit) (y : κ × Prog ε Res Unit) : Prop where
  label : x.1 = y.1
  all : y.2.All P
  expands : Prog.Expands (g y.1) (h y.1) R impl x.2 y.2

/-- The programs of the pool of commands make the calls of the other pool. -/
structure Expands (low : Pool ε Res' κ σ') (high : Pool ε Res κ σ) : Prop where
  state : R low.state high.state
  threads : ∀ (i : ℕ) (x : κ × Prog ε Res' Unit), low.threads[i]? = some x →
    ∃ y, high.threads[i]? = some y ∧ ThreadExpands g h R impl P x y

end Expands

namespace Expands

variable {g : κ → Handler ε Res' σ'} {h : κ → Handler ε Res σ} {R : σ' → σ → Prop}
  {impl : (op : Op) → Prog ε Res' (Res op)} {P : Op → Prop} {low : Pool ε Res' κ σ'}
  {high : Pool ε Res κ σ}

/-- Programs that have made no command yet. -/
theorem start {s : σ'} {t : σ} (hst : R s t) {threads : List (κ × Prog ε Res Unit)}
    (hall : ∀ x ∈ threads, x.2.All P) :
    Expands g h R impl P
      { state := s, threads := threads.map fun x => (x.1, x.2.expand impl) }
      { state := t, threads } := by
  refine ⟨hst, fun i x hx => ?_⟩
  rw [List.getElem?_map, Option.map_eq_some_iff] at hx
  obtain ⟨y, hy, rfl⟩ := hx
  exact ⟨y, hy, rfl, hall y (List.mem_of_getElem? hy), .refl y.2⟩

/-- The program `i` and the state go on. -/
theorem set (hpool : Expands g h R impl P low high) {s : σ'} {t : σ} (hst : R s t) {i : ℕ}
    {x₀ x : κ × Prog ε Res' Unit} (hx₀ : low.threads[i]? = some x₀) {y : κ × Prog ε Res Unit}
    {threads : List (κ × Prog ε Res Unit)} (hi : threads[i]? = some y)
    (hothers : ∀ j, j ≠ i → threads[j]? = high.threads[j]?)
    (hxy : ThreadExpands g h R impl P x y) :
    Expands g h R impl P { state := s, threads := low.threads.set i x }
      { state := t, threads } := by
  refine ⟨hst, fun j z hz => ?_⟩
  by_cases hij : j = i
  · subst hij
    obtain rfl := Option.some.inj ((set_self hx₀).symm.trans hz)
    exact ⟨y, hi, hxy⟩
  · rw [set_of_ne _ hij] at hz
    obtain ⟨y', hy', hrest⟩ := hpool.threads j z hz
    exact ⟨y', (hothers j hij).trans hy', hrest⟩

variable (hatomic : ∀ c op, P op → Prog.Atomic (g c) (h c) R op (impl op))

include hatomic

/-- A command of the program `i` does what its call does, or nothing. -/
theorem step (hpool : Expands g h R impl P low high) (i : ℕ) :
    Expands g h R impl P (Pool.step g low i) high ∨
      Expands g h R impl P (Pool.step g low i) (Pool.step h high i) := by
  rcases step_cases g low i with heq | ⟨c, op, k, hlow, heq⟩
  · rw [heq]
    exact Or.inl hpool
  · obtain ⟨⟨c', q⟩, hhigh, rfl, hall, hpq⟩ := hpool.threads i _ hlow
    rw [heq]
    rcases hpq.step (hatomic c) hpool.state hall with ⟨hst, hrest⟩ | ⟨op', k', rfl, hst, hrest⟩
    · exact Or.inl (hpool.set hst hlow hhigh (fun _ _ => rfl) ⟨rfl, hall, hrest⟩)
    · rw [step_of_thread hhigh]
      exact Or.inr (hpool.set hst hlow (set_self hhigh) (fun j hij => set_of_ne _ hij)
        ⟨rfl, hall.2 _, hrest⟩)

/-- What the commands do along a schedule, the calls do along a part of it. -/
theorem foldl (hpool : Expands g h R impl P low high) (schedule : List ℕ) :
    ∃ calls : List ℕ, calls.Sublist schedule ∧
      Expands g h R impl P (schedule.foldl (Pool.step g) low) (calls.foldl (Pool.step h) high) := by
  induction schedule generalizing low high with
  | nil => exact ⟨[], .slnil, hpool⟩
  | cons i schedule ih =>
      rcases step hatomic hpool i with hstep | hstep
      · obtain ⟨calls, hsub, hrest⟩ := ih hstep
        exact ⟨calls, hsub.cons i, hrest⟩
      · obtain ⟨calls, hsub, hrest⟩ := ih hstep
        exact ⟨i :: calls, hsub.cons_cons i, hrest⟩

/-- A program that has made all its commands has ended as the program of the calls. -/
theorem outcome (hpool : Expands g h R impl P low high) {i : ℕ} {r : Except ε Unit}
    (hr : low.outcome i = some r) : high.outcome i = some r := by
  obtain ⟨x, hx, hr⟩ := Option.bind_eq_some_iff.mp hr
  obtain ⟨⟨c, q⟩, hhigh, -, hall, hpq⟩ := hpool.threads i x hx
  rw [Pool.outcome, hhigh]
  exact hpq.outcome (hatomic c) hall hr

end Expands

end Pool

end Effects
