import FlipperBack.Effects.Leases
import FlipperBack.Infrastructure.UnitOfWork
import FlipperBack.UseCase.Games

/-!
# The connections of the pool

A unit of work acquires a connection when it is entered and releases it when it is
left. Where the transaction cannot be started it is never left, since it has not been
entered, and its connection is lost; in every other case the connection is released
once (`blocks_release_iff`).
-/

namespace FlipperBack

open Effects

variable {σ α : Type}

def PgCall.acquires : PgCall → Bool
  | stmt .acquire => true
  | _ => false

def PgCall.releases : PgCall → Bool
  | stmt .release => true
  | _ => false

/-- The calls that a unit of work makes on the connection that it has. -/
def PgCall.OnConnection (call : PgCall) : Prop :=
  call.acquires = false ∧ call.releases = false

/-- The calls on a pool of connections, which answer as `h` says. -/
abbrev onPool (h : Handler Exc PgCall.Res σ) : Handler Exc PgCall.Res (Leases ℕ × σ) :=
  Prog.leased PgCall.acquires PgCall.releases .callFailed h

/-- `async with PgUnitOfWork(pool)`, the pool that it leaves. -/
def block (h : Handler Exc PgCall.Res σ) (p : Leases ℕ × σ) (body : PgProg α) : Leases ℕ × σ :=
  ((unitOfWork body).run (onPool h) p).2

/-- The next connection is acquired, and no transaction can be started on it. -/
def StartFails (h : Handler Exc PgCall.Res σ) (p : Leases ℕ × σ) : Prop :=
  ∃ l s e s', p.1.take = some l ∧ h (.stmt .acquire) p.2 = (.ok (), s) ∧
    h (.stmt .start) s = (.error e, s')

variable {h : Handler Exc PgCall.Res σ} {p : Leases ℕ × σ}

/-- What a block does to the pool. -/
inductive BlockEffect (h : Handler Exc PgCall.Res σ) (p : Leases ℕ × σ) : Leases ℕ → Prop
  | refused : ¬ StartFails h p → BlockEffect h p p.1
  | lost {l : Leases ℕ} : p.1.take = some l → StartFails h p → BlockEffect h p l
  | released {l : Leases ℕ} : p.1.take = some l → ¬ StartFails h p → BlockEffect h p l.giveBack

/-- The release gives the connection back, whatever the block then returns. -/
theorem release_pool (h : Handler Exc PgCall.Res σ) (l : Leases ℕ) (s : σ)
    (f : Unit → PgProg α) (hf : ∀ s', ((f ()).run (onPool h) s').2 = s') :
    ((pg (.stmt .release) >>= f).run (onPool h) (l, s)).2.1 = l.giveBack := by
  rw [Prog.run_bind, Prog.run_perform]
  have hrelease : onPool h (.stmt .release) (l, s) =
      ((h (.stmt .release) s).1, l.giveBack, (h (.stmt .release) s).2) := rfl
  rw [hrelease]
  rcases h (.stmt .release) s with ⟨e | _, s'⟩
  · rfl
  · dsimp only
    rw [hf]

/-- The end of a unit of work releases its connection, whatever else fails. -/
theorem endUnitOfWork_pool (h : Handler Exc PgCall.Res σ) (r : Except Exc α) (l : Leases ℕ)
    (s : σ) : ((endUnitOfWork r).run (onPool h) (l, s)).2.1 = l.giveBack := by
  unfold endUnitOfWork
  rw [Prog.run_bind, Prog.run_attempt]
  cases r with
  | ok a =>
      rw [Prog.run_perform]
      refine release_pool h l (h (.stmt .commit) s).2 _ fun s' => ?_
      split <;> rfl
  | error e =>
      rw [Prog.run_perform]
      refine release_pool h l (h (.stmt .rollback) s).2 _ fun s' => ?_
      split <;> rfl

theorem block_effect {body : PgProg α} (hbody : body.All PgCall.OnConnection)
    (p : Leases ℕ × σ) : BlockEffect h p (block h p body).1 := by
  obtain ⟨l₀, s₀⟩ := p
  rw [block, unitOfWork, Prog.run_bind, Prog.run_perform]
  cases htake : l₀.take with
  | none =>
      have hacquire : onPool h (.stmt .acquire) (l₀, s₀) = (.error .callFailed, l₀, s₀) := by
        simp [Prog.leased, PgCall.acquires, htake]
      rw [hacquire]
      refine .refused ?_
      rintro ⟨l, s, e, s', hl, -⟩
      rw [htake] at hl
      cases hl
  | some l =>
      rcases hcall : h (.stmt .acquire) s₀ with ⟨e | _, s₁⟩
      · have hacquire : onPool h (.stmt .acquire) (l₀, s₀) = (.error e, l₀, s₁) := by
          simp [Prog.leased, PgCall.acquires, htake, hcall]
        rw [hacquire]
        refine .refused ?_
        rintro ⟨l, s, e, s', -, hok, -⟩
        rw [hcall] at hok
        cases hok
      · have hacquire : onPool h (.stmt .acquire) (l₀, s₀) = (.ok (), l, s₁) := by
          simp [Prog.leased, PgCall.acquires, htake, hcall]
        rw [hacquire]
        dsimp only
        rw [Prog.run_bind, Prog.run_perform]
        have hstart : onPool h (.stmt .start) (l, s₁) =
            ((h (.stmt .start) s₁).1, l, (h (.stmt .start) s₁).2) := rfl
        rw [hstart]
        rcases hcall' : h (.stmt .start) s₁ with ⟨e | _, s₂⟩
        · exact .lost htake ⟨l, s₁, e, s₂, htake, hcall, hcall'⟩
        · have hstarts : ¬ StartFails h (l₀, s₀) := by
            rintro ⟨l', s, e, s', -, hok, hfails⟩
            obtain rfl := (Prod.mk.inj (hcall.symm.trans hok)).2
            rw [hcall'] at hfails
            cases hfails
          dsimp only
          rw [Prog.run_bind, Prog.run_attempt]
          have hpool : (body.run (onPool h) (l, s₂)).2.1 = l :=
            Prog.run_leased_of_all hbody (l, s₂)
          rcases hout : body.run (onPool h) (l, s₂) with ⟨r, l', s₃⟩
          rw [hout] at hpool
          obtain rfl : l' = l := hpool
          exact endUnitOfWork_pool h r l' s₃ ▸ .released htake hstarts

/-- A block releases the connection that it has acquired where its transaction starts, and
loses it where not. -/
theorem block_cases {free : List ℕ} (hback : Leases.AllBack free p.1) {body : PgProg α}
    (hbody : body.All PgCall.OnConnection) :
    Leases.AllBack free (block h p body).1 ∧ ¬ StartFails h p ∨
      (block h p body).1.Lost ∧ StartFails h p := by
  have heffect := block_effect (h := h) hbody p
  generalize (block h p body).1 = l at heffect ⊢
  cases heffect with
  | refused hstarts => exact Or.inl ⟨hback, hstarts⟩
  | lost htake hfails => exact Or.inr ⟨hback.lost htake, hfails⟩
  | released htake hstarts => exact Or.inl ⟨hback.giveBack htake, hstarts⟩

/-- A connection that is lost is not found again. -/
theorem lost_block (hlost : p.1.Lost) {body : PgProg α} (hbody : body.All PgCall.OnConnection) :
    (block h p body).1.Lost := by
  have heffect := block_effect (h := h) hbody p
  generalize (block h p body).1 = l at heffect ⊢
  cases heffect with
  | refused => exact hlost
  | lost htake => exact (hlost.take htake).1
  | released htake => exact (hlost.take htake).2

theorem lost_blocks {bodies : List (PgProg α)} (hbodies : ∀ b ∈ bodies, b.All PgCall.OnConnection)
    (hlost : p.1.Lost) : (bodies.foldl (block h) p).1.Lost :=
  Runs.invariant (I := fun p : Leases ℕ × σ => p.1.Lost) (fun _ _ hlost hbody => lost_block hlost hbody)
    hlost (Runs.along_of_mem hbodies p)

/-- After a sequence of units of work, each connection that was acquired has been released
once and the pool has what it had, exactly where no transaction has failed to start. -/
theorem blocks_release_iff (h : Handler Exc PgCall.Res σ) (bodies : List (PgProg α))
    (hbodies : ∀ b ∈ bodies, b.All PgCall.OnConnection) (free : List ℕ) (s : σ) :
    Leases.AllBack free (bodies.foldl (block h) ({ free }, s)).1 ↔
      Runs.Along (block h) (fun p _ => ¬ StartFails h p) ({ free }, s) bodies := by
  suffices hblocks : ∀ p : Leases ℕ × σ, Leases.AllBack free p.1 →
      (Leases.AllBack free (bodies.foldl (block h) p).1 ↔
        Runs.Along (block h) (fun p _ => ¬ StartFails h p) p bodies) by
    exact hblocks _ ⟨rfl, List.Perm.refl free⟩
  induction bodies with
  | nil => exact fun p hback => iff_of_true hback trivial
  | cons body bodies ih =>
      intro p hback
      obtain ⟨hbody, hbodies⟩ := List.forall_mem_cons.mp hbodies
      rw [List.foldl_cons, Runs.along_cons]
      rcases block_cases hback hbody with ⟨hblock, hstarts⟩ | ⟨hlost, hfails⟩
      · rw [ih hbodies _ hblock, and_iff_right hstarts]
      · exact iff_of_false
          (fun hend => Leases.not_lost_of_allBack hend (lost_blocks hbodies hlost))
          fun hstarts => hstarts.1 hfails

/-- The body of a new game makes no call on the pool. -/
theorem startBody_onConnection (hex pseudo : String) (mode : GameMode) (roomCode : Option String) :
    (startBody hex pseudo mode roomCode).All PgCall.OnConnection := by
  refine (startBody_calls hex pseudo mode roomCode).mono fun call hcall => ?_
  cases call with
  | stmt s => cases s <;> first | exact ⟨rfl, rfl⟩ | exact hcall.elim
  | _ => exact ⟨rfl, rfl⟩

/-- A game in a room that does not exist, and a game in a new room. -/
def twoStarts : List (PgProg Started) :=
  [startBody "abcdef" "ABC" .solo (some "NOROOM"), startBody "abcdef" "ABC" .solo none]

theorem onConnection_twoStarts : ∀ b ∈ twoStarts, b.All PgCall.OnConnection :=
  List.forall_mem_cons.mpr ⟨startBody_onConnection _ _ _ _,
    List.forall_mem_singleton.mpr (startBody_onConnection _ _ _ _)⟩

theorem blocks_release_iff_twoStarts :
    Leases.AllBack [0, 1] (twoStarts.foldl (block (serve 0))
      ({ free := [0, 1] }, { pg := { clock := fun _ => default } })).1 := by
  refine (blocks_release_iff (serve 0) twoStarts onConnection_twoStarts [0, 1] _).mpr ?_
  refine Runs.along_of_forall (fun p body => ?_) _ _
  rintro ⟨l, s, e, s', -, -, hfails⟩
  cases (Prod.mk.inj hfails).1

/-- A transaction that cannot be started leaves the pool without its only connection. -/
theorem block_start_fails :
    ¬ Leases.AllBack [0] (block (Prog.faulty (serve 0) .callFailed)
      ({ free := [0] }, [none, some false], { pg := { clock := fun _ => default } })
      (startBody "abcdef" "ABC" .solo none)).1 := by
  intro h
  cases h.given

end FlipperBack
