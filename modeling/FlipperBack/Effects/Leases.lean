import FlipperBack.Effects.Runs
import FlipperBack.Effects.Prog

/-!
# Leased resources

Programs that take a resource of a pool and are to give it back. `Leases` is the
pool, with what has been taken from it and given back to it so far, and `leased`
the handler that follows the calls of a program on it. `AllBack` says that each
resource taken has been given back once.
-/

namespace Effects

/-- A pool of resources: those that are free, the one that the running program holds,
and those taken and given back, in order. -/
structure Leases (κ : Type) where
  free : List κ
  held : Option κ := none
  taken : List κ := []
  given : List κ := []

namespace Leases

variable {κ : Type} {l l' : Leases κ}

/-- Take a resource, where one is free. -/
def take (l : Leases κ) : Option (Leases κ) :=
  match l.free with
  | [] => none
  | k :: free => some { free, held := some k, taken := l.taken ++ [k], given := l.given }

/-- Give back the resource that is held. -/
def giveBack (l : Leases κ) : Leases κ :=
  match l.held with
  | none => l
  | some k => { free := l.free ++ [k], taken := l.taken, given := l.given ++ [k] }

/-- Each resource that was taken has been given back once, and the pool has what it had
at first. -/
structure AllBack (free : List κ) (l : Leases κ) : Prop where
  given : l.given = l.taken
  free : l.free.Perm free

/-- Some resource has been taken and not given back. -/
def Lost (l : Leases κ) : Prop :=
  l.given.length < l.taken.length

theorem take_eq_some : l.take = some l' ↔ ∃ k free, l.free = k :: free ∧
    l' = { free, held := some k, taken := l.taken ++ [k], given := l.given } := by
  unfold take
  cases l.free with
  | nil => simp
  | cons k free => simp [eq_comm]

theorem not_lost_of_allBack {free : List κ} (h : AllBack free l) : ¬ l.Lost := by
  rw [Lost, h.given]
  exact Nat.lt_irrefl _

/-- A resource that is taken and given back. -/
theorem AllBack.giveBack {free : List κ} (h : AllBack free l) (htake : l.take = some l') :
    AllBack free l'.giveBack := by
  obtain ⟨k, rest, hfree, rfl⟩ := take_eq_some.mp htake
  refine ⟨?_, ?_⟩
  · change l.given ++ [k] = l.taken ++ [k]
    rw [h.given]
  · have hperm := h.free
    rw [hfree] at hperm
    exact (List.perm_append_singleton k rest).trans hperm

/-- One that is only taken. -/
theorem AllBack.lost {free : List κ} (h : AllBack free l) (htake : l.take = some l') :
    l'.Lost := by
  obtain ⟨k, rest, -, rfl⟩ := take_eq_some.mp htake
  simp [Lost, h.given]

/-- What is lost stays so. -/
theorem Lost.take (h : l.Lost) (htake : l.take = some l') : l'.Lost ∧ l'.giveBack.Lost := by
  obtain ⟨k, rest, -, rfl⟩ := take_eq_some.mp htake
  have hlength : l.given.length < l.taken.length := h
  simp only [Lost, giveBack, List.length_append, List.length_singleton]
  omega

end Leases

namespace Prog

variable {ε Op : Type} {Res : Op → Type} {κ σ α : Type}

/-- The calls of a program on a pool: `takes` says which ones take a resource where they
return, and `gives` which ones give it back, whatever they answer. Where no resource is
free, a call that takes one raises `e`. -/
def leased (takes gives : Op → Bool) (e : ε) (h : Handler ε Res σ) :
    Handler ε Res (Leases κ × σ) := fun op s =>
  if takes op then
    match s.1.take, h op s.2 with
    | none, _ => (.error e, s)
    | some l, (.ok r, s') => (.ok r, l, s')
    | some _, (.error e', s') => (.error e', s.1, s')
  else
    ((h op s.2).1, if gives op then s.1.giveBack else s.1, (h op s.2).2)

/-- A program that takes and gives back nothing leaves the pool alone. -/
theorem run_leased_of_all {takes gives : Op → Bool} {e : ε} {h : Handler ε Res σ}
    {p : Prog ε Res α} (hp : p.All fun op => takes op = false ∧ gives op = false)
    (s : Leases κ × σ) : (p.run (leased takes gives e h) s).2.1 = s.1 := by
  refine run_invariant (I := fun s' : Leases κ × σ => s'.1 = s.1) ?_ hp rfl
  rintro op s' ⟨htakes, hgives⟩ hs'
  simp only [leased, htakes, hgives]
  exact hs'

end Prog

end Effects
