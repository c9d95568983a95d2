import Mathlib.Data.List.Basic

/-!
# Programs over fallible calls

A coroutine of an asynchronous program is a tree: it returns, it raises, or it
awaits a call and goes on with what the call answered. `Prog ε Res α` is that
tree, with the calls `Op` and their result types `Res` left open, so the same
text of a coroutine can be run to completion (`run`), interleaved with others
call by call, or run against a handler that makes some of the calls fail
(`faulty`). Exceptions are values of `ε`; a failing call answers
`Except.error`, and `tryCatch` is the only construct that looks at one.
-/

namespace Effects

/-- A program that awaits calls `Op`, each answering in `Res op` or failing
with an exception of `ε`, and that ends in a value of `α` or an exception. -/
inductive Prog (ε : Type) {Op : Type} (Res : Op → Type) (α : Type) : Type
  | ret (a : α)
  | raise (e : ε)
  | call (op : Op) (k : Except ε (Res op) → Prog ε Res α)

/-- What each call answers and does to the state. -/
abbrev Handler (ε : Type) {Op : Type} (Res : Op → Type) (σ : Type) : Type :=
  (op : Op) → σ → Except ε (Res op) × σ

namespace Prog

variable {ε Op : Type} {Res : Op → Type} {σ τ α β : Type}

/-- Run `p`, then `f` on its value; an exception of `p` skips `f`. -/
def bind : Prog ε Res α → (α → Prog ε Res β) → Prog ε Res β
  | ret a, f => f a
  | raise e, _ => raise e
  | call op k, f => call op fun r => bind (k r) f

/-- Run `p`, and `f` on the exception it ends in, if any. -/
def tryCatch : Prog ε Res α → (ε → Prog ε Res α) → Prog ε Res α
  | ret a, _ => ret a
  | raise e, f => f e
  | call op k, f => call op fun r => tryCatch (k r) f

instance : Monad (Prog ε Res) where
  pure := ret
  bind := bind

instance : MonadExceptOf ε (Prog ε Res) where
  throw := raise
  tryCatch := tryCatch

/-- A pure computation that may raise. -/
def ofExcept : Except ε α → Prog ε Res α
  | .ok a => ret a
  | .error e => raise e

/-- Await one call. -/
def perform (op : Op) : Prog ε Res (Res op) :=
  call op ofExcept

/-- Run `p` and hand its outcome on, an exception included. -/
def attempt (p : Prog ε Res α) : Prog ε Res (Except ε α) :=
  tryCatch (bind p fun a => ret (.ok a)) fun e => ret (.error e)

/-- The program with its calls made as calls `f op` of another signature. -/
def embed {Op' : Type} {Res' : Op' → Type} (f : Op → Op')
    (g : (op : Op) → Except ε (Res' (f op)) → Except ε (Res op)) :
    Prog ε Res α → Prog ε Res' α
  | ret a => ret a
  | raise e => raise e
  | call op k => call (f op) fun r => embed f g (k (g op r))

theorem bind_def (p : Prog ε Res α) (f : α → Prog ε Res β) : p >>= f = bind p f := rfl

@[simp] theorem call_bind (op : Op) (k : Except ε (Res op) → Prog ε Res α)
    (f : α → Prog ε Res β) :
    call op k >>= f = call op fun r => k r >>= f := rfl

/-! ## Running to completion -/

/-- Run a program with nothing in between its calls. -/
def run (h : Handler ε Res σ) : Prog ε Res α → σ → Except ε α × σ
  | ret a, s => (.ok a, s)
  | raise e, s => (.error e, s)
  | call op k, s => run h (k (h op s).1) (h op s).2

@[simp] theorem run_pure (h : Handler ε Res σ) (a : α) (s : σ) :
    run h (pure a : Prog ε Res α) s = (.ok a, s) := rfl

theorem run_call (h : Handler ε Res σ) (op : Op)
    (k : Except ε (Res op) → Prog ε Res α) (s : σ) :
    run h (call op k) s = run h (k (h op s).1) (h op s).2 := rfl

@[simp] theorem run_ofExcept (h : Handler ε Res σ) (x : Except ε α) (s : σ) :
    run h (ofExcept x : Prog ε Res α) s = (x, s) := by
  cases x <;> rfl

@[simp] theorem run_perform (h : Handler ε Res σ) (op : Op) (s : σ) :
    run h (perform op) s = h op s := by
  rw [perform, run_call, run_ofExcept]

/-- A run of `p >>= f` is a run of `p`, then a run of `f` where `p` left off. -/
theorem run_bind (h : Handler ε Res σ) (p : Prog ε Res α) (f : α → Prog ε Res β) (s : σ) :
    run h (p >>= f) s =
      match run h p s with
      | (.ok a, s') => run h (f a) s'
      | (.error e, s') => (.error e, s') := by
  induction p generalizing s with
  | ret a => rfl
  | raise e => rfl
  | call op k ih => exact ih (h op s).1 (h op s).2

/-- A run of `p >>= f` that returns goes through a value of `p`. -/
theorem run_bind_ok {h : Handler ε Res σ} {p : Prog ε Res α} {f : α → Prog ε Res β} {s s'' : σ}
    {b : β} (hrun : run h (p >>= f) s = (.ok b, s'')) :
    ∃ a s', run h p s = (.ok a, s') ∧ run h (f a) s' = (.ok b, s'') := by
  rw [run_bind] at hrun
  split at hrun
  · next a s' hp => exact ⟨a, s', hp, hrun⟩
  · cases hrun

theorem run_tryCatch (h : Handler ε Res σ) (p : Prog ε Res α) (f : ε → Prog ε Res α) (s : σ) :
    run h (tryCatch p f) s =
      match run h p s with
      | (.ok a, s') => (.ok a, s')
      | (.error e, s') => run h (f e) s' := by
  induction p generalizing s with
  | ret a => rfl
  | raise e => rfl
  | call op k ih => exact ih (h op s).1 (h op s).2

/-- A program followed by a return leaves what it leaves alone. -/
theorem run_bind_pure_snd (h : Handler ε Res σ) (p : Prog ε Res α) (b : α → β) (s : σ) :
    (run h (p >>= fun a => pure (b a)) s).2 = (run h p s).2 := by
  rw [run_bind]
  rcases run h p s with ⟨_ | _, s'⟩ <;> rfl

/-- Catching an exception without a call leaves what the program leaves. -/
theorem run_tryCatch_snd {h : Handler ε Res σ} {p : Prog ε Res α} {f : ε → Prog ε Res α}
    (hf : ∀ e s, (run h (f e) s).2 = s) (s : σ) : (run h (tryCatch p f) s).2 = (run h p s).2 := by
  rw [run_tryCatch]
  rcases run h p s with ⟨e | a, s'⟩
  · exact hf e s'
  · rfl

theorem run_attempt (h : Handler ε Res σ) (p : Prog ε Res α) (s : σ) :
    run h (attempt p) s = (.ok (run h p s).1, (run h p s).2) := by
  have hbind := run_bind h p (fun a => (ret (.ok a) : Prog ε Res (Except ε α))) s
  rw [bind_def] at hbind
  rw [attempt, run_tryCatch, hbind]
  rcases run h p s with ⟨_ | _, s'⟩ <;> rfl

/-! ## Which calls a program makes -/

/-- Every call the program can make, whatever the calls before it answered,
satisfies `P`. -/
def All (P : Op → Prop) : Prog ε Res α → Prop
  | ret _ => True
  | raise _ => True
  | call op k => P op ∧ ∀ r, All P (k r)

@[simp] theorem all_pure (P : Op → Prop) (a : α) : All P (pure a : Prog ε Res α) := trivial

@[simp] theorem all_call (P : Op → Prop) (op : Op) (k : Except ε (Res op) → Prog ε Res α) :
    All P (call op k) ↔ P op ∧ ∀ r, All P (k r) := Iff.rfl

@[simp] theorem all_ofExcept (P : Op → Prop) (x : Except ε α) :
    All P (ofExcept x : Prog ε Res α) := by
  cases x <;> trivial

@[simp] theorem all_perform (P : Op → Prop) (op : Op) :
    All P (perform op : Prog ε Res (Res op)) ↔ P op := by
  simp [perform]

theorem All.bind {P : Op → Prop} {p : Prog ε Res α} {f : α → Prog ε Res β}
    (hp : All P p) (hf : ∀ a, All P (f a)) : All P (p >>= f) := by
  induction p with
  | ret a => exact hf a
  | raise e => trivial
  | call op k ih => exact ⟨hp.1, fun r => ih r (hp.2 r)⟩

theorem All.tryCatch {P : Op → Prop} {p : Prog ε Res α} {f : ε → Prog ε Res α}
    (hp : All P p) (hf : ∀ e, All P (f e)) : All P (tryCatch p f) := by
  induction p with
  | ret a => trivial
  | raise e => exact hf e
  | call op k ih => exact ⟨hp.1, fun r => ih r (hp.2 r)⟩

theorem All.attempt {P : Op → Prop} {p : Prog ε Res α} (hp : All P p) : All P p.attempt :=
  All.tryCatch (All.bind hp fun _ => trivial) fun _ => trivial

/-- A program whose calls are those of another signature. -/
theorem All.embed {Op' : Type} {Res' : Op' → Type} {P : Op → Prop} {Q : Op' → Prop} {f : Op → Op'}
    {g : (op : Op) → Except ε (Res' (f op)) → Except ε (Res op)} (hPQ : ∀ op, P op → Q (f op))
    {p : Prog ε Res α} (hp : All P p) : All Q (p.embed f g) := by
  induction p with
  | ret a => trivial
  | raise e => trivial
  | call op k ih => exact ⟨hPQ op hp.1, fun r => ih _ (hp.2 _)⟩

theorem All.mono {P Q : Op → Prop} (hPQ : ∀ op, P op → Q op) {p : Prog ε Res α}
    (hp : All P p) : All Q p := by
  induction p with
  | ret a => trivial
  | raise e => trivial
  | call op k ih => exact ⟨hPQ op hp.1, fun r => ih r (hp.2 r)⟩

theorem all_true (p : Prog ε Res α) : All (fun _ => True) p := by
  induction p with
  | ret a => trivial
  | raise e => trivial
  | call op k ih => exact ⟨trivial, ih⟩

/-- What every call of a program preserves, its runs preserve. -/
theorem run_invariant {h : Handler ε Res σ} {P : Op → Prop} {I : σ → Prop}
    (hstep : ∀ op s, P op → I s → I (h op s).2) {p : Prog ε Res α} (hp : All P p)
    {s : σ} (hs : I s) : I (run h p s).2 := by
  induction p generalizing s with
  | ret a => exact hs
  | raise e => exact hs
  | call op k ih => exact ih _ (hp.2 _) (hstep op s hp.1 hs)

/-- What no call of a program changes, its runs do not change. -/
theorem run_frame {γ : Type} {h : Handler ε Res σ} {P : Op → Prop} (obs : σ → γ)
    (hstep : ∀ op s, P op → obs (h op s).2 = obs s) {p : Prog ε Res α} (hp : All P p)
    (s : σ) : obs (run h p s).2 = obs s :=
  run_invariant (I := fun s' => obs s' = obs s)
    (fun op s' hop hs' => (hstep op s' hop).trans hs') hp rfl

/-- Two handlers that answer alike from related states, and leave related
states, run every program alike. -/
theorem run_sim {h : Handler ε Res σ} {g : Handler ε Res τ} {R : σ → τ → Prop}
    (hstep : ∀ op s t, R s t → (h op s).1 = (g op t).1 ∧ R (h op s).2 (g op t).2)
    (p : Prog ε Res α) {s : σ} {t : τ} (hst : R s t) :
    (run h p s).1 = (run g p t).1 ∧ R (run h p s).2 (run g p t).2 := by
  induction p generalizing s t with
  | ret a => exact ⟨rfl, hst⟩
  | raise e => exact ⟨rfl, hst⟩
  | call op k ih =>
      obtain ⟨hres, hrel⟩ := hstep op s t hst
      rw [run_call, run_call, hres]
      exact ih _ hrel

/-- Run a program up to its first call in `stop`: how it ended, or what is left
of it with that call first. -/
def runUntil (stop : Op → Bool) (h : Handler ε Res σ) :
    Prog ε Res α → σ → (Except ε α ⊕ Prog ε Res α) × σ
  | ret a, s => (.inl (.ok a), s)
  | raise e, s => (.inl (.error e), s)
  | call op k, s =>
      if stop op then (.inr (call op k), s) else runUntil stop h (k (h op s).1) (h op s).2

theorem runUntil_sim {h : Handler ε Res σ} {g : Handler ε Res τ} {R : σ → τ → Prop}
    (hstep : ∀ op s t, R s t → (h op s).1 = (g op t).1 ∧ R (h op s).2 (g op t).2)
    (stop : Op → Bool) (p : Prog ε Res α) {s : σ} {t : τ} (hst : R s t) :
    (runUntil stop h p s).1 = (runUntil stop g p t).1 ∧
      R (runUntil stop h p s).2 (runUntil stop g p t).2 := by
  induction p generalizing s t with
  | ret a => exact ⟨rfl, hst⟩
  | raise e => exact ⟨rfl, hst⟩
  | call op k ih =>
      rw [runUntil, runUntil]
      split
      · exact ⟨rfl, hst⟩
      · obtain ⟨hres, hrel⟩ := hstep op s t hst
        rw [hres]
        exact ih _ hrel

/-- A program without a call in `stop` runs to its end. -/
theorem runUntil_of_all {stop : Op → Bool} (h : Handler ε Res σ) {p : Prog ε Res α}
    (hp : All (fun op => stop op = false) p) (s : σ) :
    runUntil stop h p s = (.inl (run h p s).1, (run h p s).2) := by
  induction p generalizing s with
  | ret a => rfl
  | raise e => rfl
  | call op k ih =>
      rw [runUntil, if_neg (by simp [hp.1]), run_call]
      exact ih _ (hp.2 _) _

/-! ## The calls of a run -/

/-- The calls of a run up to the first in `stop`, each with the state it
leaves. -/
def logUntil (stop : Op → Bool) (h : Handler ε Res σ) : Prog ε Res α → σ → List (Op × σ)
  | ret _, _ => []
  | raise _, _ => []
  | call op k, s =>
      if stop op then []
      else (op, (h op s).2) :: logUntil stop h (k (h op s).1) (h op s).2

/-- The calls of a run. -/
abbrev log (h : Handler ε Res σ) (p : Prog ε Res α) (s : σ) : List (Op × σ) :=
  logUntil (fun _ => false) h p s

theorem log_call (h : Handler ε Res σ) (op : Op) (k : Except ε (Res op) → Prog ε Res α) (s : σ) :
    log h (call op k) s = (op, (h op s).2) :: log h (k (h op s).1) (h op s).2 := rfl

/-- The calls of `p >>= f` are those of `p`, then those of `f` on its value. -/
theorem log_bind (h : Handler ε Res σ) (p : Prog ε Res α) (f : α → Prog ε Res β) (s : σ) :
    log h (p >>= f) s = log h p s ++
      match run h p s with
      | (.ok a, s') => log h (f a) s'
      | (.error _, _) => [] := by
  induction p generalizing s with
  | ret a => rfl
  | raise e => rfl
  | call op k ih =>
      rw [call_bind, log_call, log_call, run_call, ih, List.cons_append]

theorem log_perform_bind (h : Handler ε Res σ) (op : Op) (f : Res op → Prog ε Res β) (s : σ) :
    log h (perform op >>= f) s = (op, (h op s).2) ::
      match (h op s).1 with
      | .ok a => log h (f a) (h op s).2
      | .error _ => [] := by
  rw [perform, call_bind, log_call]
  cases (h op s).1 <;> rfl

theorem log_of_ok {h : Handler ε Res σ} {op : Op} {s : σ} {a : Res op}
    (hop : (h op s).1 = .ok a) (f : Res op → Prog ε Res β) :
    log h (perform op >>= f) s = (op, (h op s).2) :: log h (f a) (h op s).2 := by
  rw [log_perform_bind, hop]

theorem log_of_error {h : Handler ε Res σ} {op : Op} {s : σ} {e : ε}
    (hop : (h op s).1 = .error e) (f : Res op → Prog ε Res β) :
    log h (perform op >>= f) s = [(op, (h op s).2)] := by
  rw [log_perform_bind, hop]

/-- Handing the outcome on makes no call. -/
theorem log_attempt (h : Handler ε Res σ) (p : Prog ε Res α) (s : σ) :
    log h (attempt p) s = log h p s := by
  unfold attempt
  induction p generalizing s with
  | ret a => rfl
  | raise e => rfl
  | call op k ih => exact congrArg ((op, (h op s).2) :: ·) (ih (h op s).1 (h op s).2)

/-- A program without a call in `stop` makes all its calls. -/
theorem logUntil_of_all {stop : Op → Bool} (h : Handler ε Res σ) {p : Prog ε Res α}
    (hp : All (fun op => stop op = false) p) (s : σ) : logUntil stop h p s = log h p s := by
  induction p generalizing s with
  | ret a => rfl
  | raise e => rfl
  | call op k ih =>
      rw [logUntil, if_neg (by simp [hp.1]), log_call]
      exact congrArg ((op, (h op s).2) :: ·) (ih _ (hp.2 _) _)

/-- Every call of a program of such calls is one. -/
theorem All.of_mem_log {P : Op → Prop} {stop : Op → Bool} {h : Handler ε Res σ}
    {p : Prog ε Res α} (hp : All P p) {s : σ} {c : Op × σ} (hc : c ∈ logUntil stop h p s) :
    P c.1 := by
  induction p generalizing s with
  | ret a => cases hc
  | raise e => cases hc
  | call op k ih =>
      rw [logUntil] at hc
      split at hc
      · cases hc
      · rcases List.mem_cons.mp hc with rfl | hc
        · exact hp.1
        · exact ih _ (hp.2 _) hc

/-! ## What a program does with the answers it gets -/

/-- Every call the program can make, where those before it answered as `A`
says, satisfies `P`. -/
def AllGiven (A : (op : Op) → Except ε (Res op) → Prop) (P : Op → Prop) : Prog ε Res α → Prop
  | ret _ => True
  | raise _ => True
  | call op k => P op ∧ ∀ r, A op r → AllGiven A P (k r)

section AllGiven

variable {A : (op : Op) → Except ε (Res op) → Prop} {P : Op → Prop}

theorem All.given {p : Prog ε Res α} (hp : All P p) : AllGiven A P p := by
  induction p with
  | ret a => trivial
  | raise e => trivial
  | call op k ih => exact ⟨hp.1, fun r _ => ih r (hp.2 r)⟩

theorem AllGiven.bind {p : Prog ε Res α} {f : α → Prog ε Res β} (hp : AllGiven A P p)
    (hf : ∀ a, AllGiven A P (f a)) : AllGiven A P (p >>= f) := by
  induction p with
  | ret a => exact hf a
  | raise e => trivial
  | call op k ih => exact ⟨hp.1, fun r hr => ih r (hp.2 r hr)⟩

theorem AllGiven.tryCatch {p : Prog ε Res α} {f : ε → Prog ε Res α} (hp : AllGiven A P p)
    (hf : ∀ e, AllGiven A P (f e)) : AllGiven A P (tryCatch p f) := by
  induction p with
  | ret a => trivial
  | raise e => exact hf e
  | call op k ih => exact ⟨hp.1, fun r hr => ih r (hp.2 r hr)⟩

/-- One call, then a program that goes on from what it answers. -/
theorem AllGiven.perform_bind {op : Op} {f : Res op → Prog ε Res β} (hop : P op)
    (hf : ∀ a, A op (.ok a) → AllGiven A P (f a)) : AllGiven A P (perform op >>= f) := by
  refine ⟨hop, fun r hr => ?_⟩
  cases r with
  | ok a => exact hf a hr
  | error e => trivial

/-- What the calls of a program preserve, where the answers are those it is
given, its runs preserve, and each call is made as it says from a state where it
holds. -/
theorem runUntil_invariant (stop : Op → Bool) {h : Handler ε Res σ} {I : σ → Prop}
    (hanswers : ∀ op s, I s → A op (h op s).1) (hstep : ∀ op s, P op → I s → I (h op s).2)
    {p : Prog ε Res α} (hp : AllGiven A P p) {s : σ} (hs : I s) :
    I (runUntil stop h p s).2 ∧
      ∀ c ∈ logUntil stop h p s, P c.1 ∧ ∃ s', I s' ∧ c.2 = (h c.1 s').2 := by
  induction p generalizing s with
  | ret a => exact ⟨hs, by simp [logUntil]⟩
  | raise e => exact ⟨hs, by simp [logUntil]⟩
  | call op k ih =>
      rw [runUntil, logUntil]
      split
      · exact ⟨hs, by simp⟩
      · obtain ⟨hrun, hlog⟩ := ih _ (hp.2 _ (hanswers op s hs)) (hstep op s hp.1 hs)
        exact ⟨hrun, List.forall_mem_cons.mpr ⟨⟨hp.1, s, hs, rfl⟩, hlog⟩⟩

end AllGiven

/-- Every exception the program raises satisfies `P`, where those of its calls
do. -/
def Raises (P : ε → Prop) : Prog ε Res α → Prop
  | ret _ => True
  | raise e => P e
  | call _ k => (∀ a, Raises P (k (.ok a))) ∧ ∀ e, P e → Raises P (k (.error e))

section Raises

variable {P : ε → Prop}

theorem Raises.bind {p : Prog ε Res α} {f : α → Prog ε Res β} (hp : Raises P p)
    (hf : ∀ a, Raises P (f a)) : Raises P (p >>= f) := by
  induction p with
  | ret a => exact hf a
  | raise e => exact hp
  | call op k ih => exact ⟨fun a => ih _ (hp.1 a), fun e he => ih _ (hp.2 e he)⟩

theorem raises_perform (op : Op) : Raises P (perform op : Prog ε Res (Res op)) :=
  ⟨fun _ => trivial, fun _ he => he⟩

theorem Raises.run {h : Handler ε Res σ} (hcall : ∀ op s e, (h op s).1 = .error e → P e)
    {p : Prog ε Res α} (hp : Raises P p) {s : σ} {e : ε} (herror : (run h p s).1 = .error e) :
    P e := by
  induction p generalizing s with
  | ret a => cases herror
  | raise e' => exact Except.error.inj herror ▸ hp
  | call op k ih =>
      rw [run_call] at herror
      cases hr : (h op s).1 with
      | ok a =>
          rw [hr] at herror
          exact ih _ (hp.1 a) herror
      | error e' =>
          rw [hr] at herror
          exact ih _ (hp.2 e' (hcall op s e' hr)) herror

end Raises

/-- What calls as those of a run preserve, the run preserves. -/
theorem run_of_log {P : Op → Prop} {h : Handler ε Res σ} {I : σ → Prop}
    (hstep : ∀ op s, P op → I s → I (h op s).2) {p : Prog ε Res α} {s : σ}
    (hlog : ∀ c ∈ log h p s, P c.1) (hs : I s) :
    I (run h p s).2 ∧ ∀ c ∈ log h p s, ∃ s', I s' ∧ c.2 = (h c.1 s').2 := by
  induction p generalizing s with
  | ret a => exact ⟨hs, by simp [logUntil]⟩
  | raise e => exact ⟨hs, by simp [logUntil]⟩
  | call op k ih =>
      rw [log_call] at hlog ⊢
      obtain ⟨hop, hrest⟩ := List.forall_mem_cons.mp hlog
      obtain ⟨hrun, hlog⟩ := ih _ hrest (hstep op s hop hs)
      exact ⟨hrun, List.forall_mem_cons.mpr ⟨⟨s, hs, rfl⟩, hlog⟩⟩

/-- A run to the end is a run up to no call. -/
theorem runUntil_never (h : Handler ε Res σ) (p : Prog ε Res α) (s : σ) :
    (runUntil (fun _ => false) h p s).2 = (run h p s).2 := by
  rw [runUntil_of_all h (All.mono (fun _ _ => rfl) (all_true p)) s]

/-! ## Calls that fail -/

/-- `h` with failures injected: the plan says, call after call, whether the
call goes through (`none`) or raises `e` (`some applied`, where `applied` says
whether it took effect before it raised). Past the plan every call goes
through. -/
def faulty (h : Handler ε Res σ) (e : ε) : Handler ε Res (List (Option Bool) × σ)
  | op, ([], s) => ((h op s).1, [], (h op s).2)
  | op, (none :: plan, s) => ((h op s).1, plan, (h op s).2)
  | _, (some false :: plan, s) => (.error e, plan, s)
  | op, (some true :: plan, s) => (.error e, plan, (h op s).2)

/-- The three outcomes of a call under failures: it goes through, it raises
with its effect done, or it raises with no effect. -/
theorem faulty_cases (h : Handler ε Res σ) (e : ε) (op : Op)
    (s : List (Option Bool) × σ) :
    (∃ plan, faulty h e op s = ((h op s.2).1, plan, (h op s.2).2)) ∨
      (∃ plan, faulty h e op s = (.error e, plan, (h op s.2).2)) ∨
      ∃ plan, faulty h e op s = (.error e, plan, s.2) := by
  obtain ⟨_ | ⟨_ | _ | _, plan⟩, s⟩ := s
  · exact Or.inl ⟨[], rfl⟩
  · exact Or.inl ⟨plan, rfl⟩
  · exact Or.inr (Or.inr ⟨plan, rfl⟩)
  · exact Or.inr (Or.inl ⟨plan, rfl⟩)

/-- A call that answers under failures went through. -/
theorem faulty_ok {h : Handler ε Res σ} {e : ε} {op : Op} {s s' : List (Option Bool) × σ}
    {r : Res op} (hop : faulty h e op s = (.ok r, s')) : h op s.2 = (.ok r, s'.2) := by
  rcases faulty_cases h e op s with ⟨plan, heq⟩ | ⟨plan, heq⟩ | ⟨plan, heq⟩
  · rw [heq] at hop
    obtain ⟨hr, rfl⟩ := Prod.mk.inj hop
    rw [← hr]
  · rw [heq] at hop
    cases hop
  · rw [heq] at hop
    cases hop

/-- A call under failures leaves what it leaves without them, or nothing. -/
theorem faulty_snd (h : Handler ε Res σ) (e : ε) (op : Op) (s : List (Option Bool) × σ) :
    (faulty h e op s).2.2 = (h op s.2).2 ∨ (faulty h e op s).2.2 = s.2 := by
  rcases faulty_cases h e op s with ⟨plan, heq⟩ | ⟨plan, heq⟩ | ⟨plan, heq⟩ <;> simp [heq]

/-- Under failures, the first call of a program goes through and the program
goes on, or the program raises there, with what the call did or without it. -/
theorem run_faulty_cases {h : Handler ε Res σ} {e : ε} {op : Op} {f : Res op → Prog ε Res α}
    {plan plan' : List (Option Bool)} {s s' : σ} {r : Except ε α}
    (hrun : run (faulty h e) (perform op >>= f) (plan, s) = (r, plan', s')) :
    (∃ a plan₁, (h op s).1 = .ok a ∧
        run (faulty h e) (f a) (plan₁, (h op s).2) = (r, plan', s')) ∨
      ((∃ e', r = .error e') ∧ (s' = (h op s).2 ∨ s' = s)) := by
  rw [run_bind, run_perform] at hrun
  rcases faulty_cases h e op (plan, s) with ⟨plan₁, heq⟩ | ⟨plan₁, heq⟩ | ⟨plan₁, heq⟩
  · rw [heq] at hrun
    cases hr : (h op s).1 with
    | ok a =>
        rw [hr] at hrun
        exact Or.inl ⟨a, plan₁, rfl, hrun⟩
    | error e' =>
        rw [hr] at hrun
        obtain ⟨hr', hs'⟩ := Prod.mk.inj hrun
        exact Or.inr ⟨⟨e', hr'.symm⟩, Or.inl (Prod.mk.inj hs').2.symm⟩
  · rw [heq] at hrun
    obtain ⟨hr', hs'⟩ := Prod.mk.inj hrun
    exact Or.inr ⟨⟨e, hr'.symm⟩, Or.inl (Prod.mk.inj hs').2.symm⟩
  · rw [heq] at hrun
    obtain ⟨hr', hs'⟩ := Prod.mk.inj hrun
    exact Or.inr ⟨⟨e, hr'.symm⟩, Or.inr (Prod.mk.inj hs').2.symm⟩

/-- A plan without failures changes nothing. -/
theorem run_faulty_of_healthy (h : Handler ε Res σ) (e : ε) (p : Prog ε Res α)
    (plan : List (Option Bool)) (hplan : ∀ x ∈ plan, x = none) (s : σ) :
    (run (faulty h e) p (plan, s)).1 = (run h p s).1 ∧
      (run (faulty h e) p (plan, s)).2.2 = (run h p s).2 := by
  induction p generalizing plan s with
  | ret a => exact ⟨rfl, rfl⟩
  | raise e => exact ⟨rfl, rfl⟩
  | call op k ih =>
      cases plan with
      | nil => exact ih _ [] (by simp) _
      | cons x plan =>
          obtain rfl : x = none := hplan x (by simp)
          exact ih _ plan (fun y hy => hplan y (by simp [hy])) _

/-! ## Calls that fail with no effect -/

/-- `h` with failures injected in the calls of `may`: the plan says, call after
call, which of them raise `e`, with no effect. Past the plan every call goes
through. -/
def failing (may : Op → Bool) (h : Handler ε Res σ) (e : ε) : Handler ε Res (List Bool × σ)
  | op, (plan, s) =>
      if may op && plan.headD false then (.error e, plan.tail, s)
      else ((h op s).1, if may op then plan.tail else plan, (h op s).2)

/-- A call under failures goes through, or raises with no effect. -/
theorem failing_cases (may : Op → Bool) (h : Handler ε Res σ) (e : ε) (op : Op) (plan : List Bool)
    (s : σ) : ∃ plan', failing may h e op (plan, s) = ((h op s).1, plan', (h op s).2) ∨
      may op ∧ failing may h e op (plan, s) = (.error e, plan', s) := by
  by_cases hfails : (may op && plan.headD false) = true
  · exact ⟨plan.tail, Or.inr ⟨(Bool.and_eq_true_iff.mp hfails).1, if_pos hfails⟩⟩
  · exact ⟨_, Or.inl (if_neg hfails)⟩

/-! ## Sequences of calls -/

/-- The answers of a sequence of calls. -/
def answers (h : Handler ε Res σ) : List Op → σ → List ((op : Op) × Except ε (Res op))
  | [], _ => []
  | op :: ops, s => ⟨op, (h op s).1⟩ :: answers h ops (h op s).2

/-- Two handlers that answer alike from related states, and leave related
states, answer every sequence of calls alike. -/
theorem answers_sim {h : Handler ε Res σ} {g : Handler ε Res τ} {R : σ → τ → Prop}
    (hstep : ∀ op s t, R s t → (h op s).1 = (g op t).1 ∧ R (h op s).2 (g op t).2)
    (ops : List Op) {s : σ} {t : τ} (hst : R s t) : answers h ops s = answers g ops t := by
  induction ops generalizing s t with
  | nil => rfl
  | cons op ops ih =>
      obtain ⟨hres, hrel⟩ := hstep op s t hst
      rw [answers, answers, hres, ih hrel]

end Prog

end Effects
