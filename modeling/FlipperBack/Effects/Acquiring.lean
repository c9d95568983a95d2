import FlipperBack.Effects.Waiting

/-!
# Calls that acquire a resource

Calls need a resource, a connection say, that a program does not have all the time.
`Prog.acquiring` is the program that has it whenever it makes such a call: where it
does not have it already, it acquires the resource for this call alone and releases
it after. What a protocol says of the program it says of this one
(`Follows.acquiring`), so an invariant that does not speak of the resource holds of it
too (`acquiring_call`).
-/

namespace Effects

/-- A call, or what is done to have the resource it needs. -/
inductive Acquiring (Op : Type)
  | call (op : Op)
  | acquire
  | release

@[reducible] def Acquiring.Res {Op : Type} (Res : Op → Type) : Acquiring Op → Type
  | .call op => Res op
  | .acquire => Unit
  | .release => Unit

variable {ε Op : Type} {Res : Op → Type} {α κ σ φ : Type}

/-- The program where each call that needs the resource has it. Whether the program has
it already is told by the calls it has made, one after the other. -/
def Prog.acquiring (needs : Op → Bool) (holds : Bool → Op → Bool) :
    Bool → Prog ε Res α → Prog ε (Acquiring.Res Res) α
  | _, .ret a => .ret a
  | _, .raise e => .raise e
  | held, .call op k =>
      if needs op && !held then
        .call .acquire fun
          | .error e => acquiring needs holds held (k (.error e))
          | .ok _ => .call (.call op) fun r => .call .release fun
              | .error e => acquiring needs holds held (k (.error e))
              | .ok _ => acquiring needs holds held (k r)
      else .call (.call op) fun r => acquiring needs holds (holds held op) (k r)

/-- What each call answers and does, where a resource is always given. -/
def acquiringHandler (h : κ → Handler ε Res σ) (acquired released : κ → σ → σ) :
    κ → Handler ε (Acquiring.Res Res) σ
  | c, .call op, s => h c op s
  | c, .acquire, s => (.ok (), acquired c s)
  | c, .release, s => (.ok (), released c s)

/-- What a protocol says of the calls, of programs that acquire and release the
resource in any phase. -/
def Protocol.acquiring (P : Protocol ε Res φ) : Protocol ε (Acquiring.Res Res) φ where
  allowed q
    | .call op => P.allowed q op
    | _ => True
  answers
    | .call op, r => P.answers op r
    | .acquire, r => r = .ok ()
    | .release, r => r = .ok ()
  next q
    | .call op, r, q' => P.next q op r q'
    | _, _, q' => q' = q

section Follows

variable {P : Protocol ε Res φ} {F E : φ → Prop} {needs : Op → Bool} {holds : Bool → Op → Bool}

theorem Prog.Follows.acquiring {p : Prog ε Res α} {q : φ} (hp : p.Follows P F E q) (held : Bool) :
    (p.acquiring needs holds held).Follows P.acquiring F E q := by
  induction p generalizing q held with
  | ret a => exact hp
  | raise e => exact hp
  | call op k ih =>
      rw [Prog.acquiring]
      split
      · refine ⟨trivial, ?_⟩
        rintro _ rfl
        refine ⟨q, rfl, hp.1, fun r hr => ?_⟩
        obtain ⟨q', hnext, hk⟩ := hp.2 r hr
        refine ⟨q', hnext, trivial, ?_⟩
        rintro _ rfl
        exact ⟨q', rfl, ih r hk held⟩
      · refine ⟨hp.1, fun r hr => ?_⟩
        obtain ⟨q', hnext, hk⟩ := hp.2 r hr
        exact ⟨q', hnext, ih r hk _⟩

end Follows

section Handler

variable {P : Protocol ε Res φ} {h : κ → Handler ε Res σ} {acquired released : κ → σ → σ}

theorem acquiring_answers (hanswers : ∀ c op s, P.answers op (h c op s).1) (c : κ)
    (op : Acquiring Op) (s : σ) :
    P.acquiring.answers op (acquiringHandler h acquired released c op s).1 := by
  cases op with
  | call op => exact hanswers c op s
  | acquire => rfl
  | release => rfl

/-- What the calls keep is kept where acquiring and releasing the resource keeps it. -/
theorem acquiring_call {I : σ → (ℕ → φ) → Prop} {phase : ℕ → φ} {i : ℕ} {c : κ} {s : σ} {q : φ}
    {op : Acquiring Op}
    (hcall : ∀ op, P.allowed (phase i) op → P.next (phase i) op (h c op s).1 q →
      I (h c op s).2 (Function.update phase i q))
    (hacquired : I (acquired c s) phase) (hreleased : I (released c s) phase)
    (hallowed : P.acquiring.allowed (phase i) op)
    (hnext : P.acquiring.next (phase i) op (acquiringHandler h acquired released c op s).1 q) :
    I (acquiringHandler h acquired released c op s).2 (Function.update phase i q) := by
  cases op with
  | call op => exact hcall op hallowed hnext
  | acquire =>
      obtain rfl : q = phase i := hnext
      rw [Function.update_eq_self]
      exact hacquired
  | release =>
      obtain rfl : q = phase i := hnext
      rw [Function.update_eq_self]
      exact hreleased

end Handler

end Effects
