import FlipperBack.Effects.Waiting

/-!
# Protocols and what programs return

`Prog.Yields` says of a program that it keeps to a protocol, and of what it returns
or raises how that fits the phase it ends in: a triple of a phase, a program and what
holds at its end. `Prog.Follows` is the case where the value does not matter.
-/

namespace Effects

namespace Prog

variable {ε Op : Type} {Res : Op → Type} {φ α β : Type} {P : Protocol ε Res φ}

/-- A program keeps to the protocol from the phase `q` on, returns a value where `Q`
holds of it and of the phase, and raises where `E` does. -/
def Yields (P : Protocol ε Res φ) (Q : φ → α → Prop) (E : φ → ε → Prop) : φ → Prog ε Res α → Prop
  | q, ret a => Q q a
  | q, raise e => E q e
  | q, call op k => P.allowed q op ∧
      ∀ r, P.answers op r → ∃ q', P.next q op r q' ∧ Yields P Q E q' (k r)

namespace Yields

variable {Q Q' : φ → α → Prop} {E E' : φ → ε → Prop}

theorem mono (hQ : ∀ q a, Q q a → Q' q a) (hE : ∀ q e, E q e → E' q e) {p : Prog ε Res α} {q : φ}
    (hp : Yields P Q E q p) : Yields P Q' E' q p := by
  induction p generalizing q with
  | ret a => exact hQ q a hp
  | raise e => exact hE q e hp
  | call op k ih =>
      refine ⟨hp.1, fun r hr => ?_⟩
      obtain ⟨q', hnext, hk⟩ := hp.2 r hr
      exact ⟨q', hnext, ih r hk⟩

theorem bind {R : φ → β → Prop} {p : Prog ε Res α} {f : α → Prog ε Res β} {q : φ}
    (hp : Yields P Q E q p) (hf : ∀ q a, Q q a → Yields P R E q (f a)) :
    Yields P R E q (p >>= f) := by
  induction p generalizing q with
  | ret a => exact hf q a hp
  | raise e => exact hp
  | call op k ih =>
      refine ⟨hp.1, fun r hr => ?_⟩
      obtain ⟨q', hnext, hk⟩ := hp.2 r hr
      exact ⟨q', hnext, ih r hk⟩

theorem perform {op : Op} {q : φ} {Q : φ → Res op → Prop} (hallowed : P.allowed q op)
    (hok : ∀ a, P.answers op (.ok a) → ∃ q', P.next q op (.ok a) q' ∧ Q q' a)
    (herror : ∀ e, P.answers op (.error e) → ∃ q', P.next q op (.error e) q' ∧ E q' e) :
    Yields P Q E q (perform op) := by
  refine ⟨hallowed, fun r hr => ?_⟩
  cases r with
  | ok a => exact hok a hr
  | error e => exact herror e hr

theorem ofExcept {q : φ} {x : Except ε α} (hok : ∀ a, x = .ok a → Q q a)
    (herror : ∀ e, x = .error e → E q e) : Yields P Q E q (ofExcept x : Prog ε Res α) := by
  cases x with
  | ok a => exact hok a rfl
  | error e => exact herror e rfl

theorem tryCatch {p : Prog ε Res α} {f : ε → Prog ε Res α} {q : φ} (hp : Yields P Q E' q p)
    (hf : ∀ q e, E' q e → Yields P Q E q (f e)) : Yields P Q E q (tryCatch p f) := by
  induction p generalizing q with
  | ret a => exact hp
  | raise e => exact hf q e hp
  | call op k ih =>
      refine ⟨hp.1, fun r hr => ?_⟩
      obtain ⟨q', hnext, hk⟩ := hp.2 r hr
      exact ⟨q', hnext, ih r hk⟩

/-- What is done with the outcome of a program starts where it ends. -/
theorem attempt_bind {R : φ → β → Prop} {p : Prog ε Res α} {f : Except ε α → Prog ε Res β} {q : φ}
    (hp : Yields P Q E' q p) (hok : ∀ q a, Q q a → Yields P R E q (f (.ok a)))
    (herror : ∀ q e, E' q e → Yields P R E q (f (.error e))) :
    Yields P R E q (p.attempt >>= f) := by
  induction p generalizing q with
  | ret a => exact hok q a hp
  | raise e => exact herror q e hp
  | call op k ih =>
      refine ⟨hp.1, fun r hr => ?_⟩
      obtain ⟨q', hnext, hk⟩ := hp.2 r hr
      exact ⟨q', hnext, ih r hk⟩

theorem embed {Op' : Type} {Res' : Op' → Type} {R : Protocol ε Res' φ} {f : Op → Op'}
    {g : (op : Op) → Except ε (Res' (f op)) → Except ε (Res op)}
    (hallowed : ∀ q op, P.allowed q op → R.allowed q (f op))
    (hanswers : ∀ op r, R.answers (f op) r → P.answers op (g op r))
    (hnext : ∀ q op r q', P.next q op (g op r) q' → R.next q (f op) r q')
    {p : Prog ε Res α} {q : φ} (hp : Yields P Q E q p) : Yields R Q E q (p.embed f g) := by
  induction p generalizing q with
  | ret a => exact hp
  | raise e => exact hp
  | call op k ih =>
      refine ⟨hallowed q op hp.1, fun r hr => ?_⟩
      obtain ⟨q', hq', hk⟩ := hp.2 _ (hanswers op r hr)
      exact ⟨q', hnext q op r q' hq', ih _ hk⟩

/-- Where the value does not matter, the program follows the protocol. -/
theorem follows {F G : φ → Prop} {p : Prog ε Res α} {q : φ} (hp : Yields P Q E q p)
    (hQ : ∀ q a, Q q a → F q) (hE : ∀ q e, E q e → G q) : Follows P F G q p := by
  induction p generalizing q with
  | ret a => exact hQ q a hp
  | raise e => exact hE q e hp
  | call op k ih =>
      refine ⟨hp.1, fun r hr => ?_⟩
      obtain ⟨q', hnext, hk⟩ := hp.2 r hr
      exact ⟨q', hnext, ih r hk⟩

/-- A program of calls that keep to `J` ends in it. -/
theorem of_all {J : φ → Prop} {C : Op → Prop}
    (hC : ∀ op q, C op → J q → P.allowed q op ∧
      ∀ r, P.answers op r → ∃ q', P.next q op r q' ∧ J q')
    {p : Prog ε Res α} (hp : p.All C) {q : φ} (hq : J q) :
    Yields P (fun q _ => J q) (fun q _ => J q) q p := by
  induction p generalizing q with
  | ret a => exact hq
  | raise e => exact hq
  | call op k ih =>
      obtain ⟨hallowed, hnext⟩ := hC op q hp.1 hq
      refine ⟨hallowed, fun r hr => ?_⟩
      obtain ⟨q', hq', hJ⟩ := hnext r hr
      exact ⟨q', hq', ih r (hp.2 r) hJ⟩

end Yields

/-- A program that follows a protocol rests in a phase of another one that all its calls
are allowed in. -/
theorem Follows.rests {ψ : Type} {R : Protocol ε Res ψ} {F E : φ → Prop} {c : ψ}
    (hallowed : ∀ q op, P.allowed q op → R.Leaves c op)
    (hanswers : ∀ op r, R.answers op r → P.answers op r) {p : Prog ε Res α} {q : φ}
    (hp : Follows P F E q p) : Rests R c p := by
  induction p generalizing q with
  | ret a => rfl
  | raise e => rfl
  | call op k ih =>
      have hleaves := hallowed q op hp.1
      refine ⟨hleaves.1, fun r hr => ⟨c, hleaves.2 r hr, ?_⟩⟩
      obtain ⟨q', -, hk⟩ := hp.2 r (hanswers op r hr)
      exact ih r hk

end Prog

end Effects
