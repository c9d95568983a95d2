import FlipperBack.Effects.Expiry
import FlipperBack.Infrastructure.World

/-!
# The stores with their expirations

The hash of a session and the list of its events are two keys of Redis, each
with an expiration of `ttl` of its own. `TimedWorld` is the world with the time
and the deadlines of the two; every call does what it does in the world, and
those that run `EXPIRE` set a deadline: writing or reading a session for its
hash, a push for the list. When time passes, Redis drops the keys whose deadline
comes.
-/

namespace FlipperBack

open Effects Python

structure TimedWorld where
  world : World := {}
  now : ℕ := 0
  sessionDeadline : String → ℕ := fun _ => 0
  bufferDeadline : String → ℕ := fun _ => 0
  /-- The events pushed for each session and not yet flushed, with their times. -/
  pushes : String → List (ℕ × Dict) := fun _ => []

namespace TimedWorld

/-- The list of the events of a session, as a key of Redis. -/
def buffer (t : TimedWorld) (sessionId : String) : Expiring Dict :=
  { content := t.world.buffers sessionId, deadline := t.bufferDeadline sessionId }

/-- The events accepted for a session and not yet flushed. -/
def accepted (t : TimedWorld) (sessionId : String) : List Dict :=
  (t.pushes sessionId).map Prod.snd

/-- Time passes, and the keys whose deadline comes are dropped. -/
def advance (t : TimedWorld) (d : ℕ) : TimedWorld :=
  { t with
    now := t.now + d
    world :=
      { t.world with
        sessions := t.world.sessions.keep fun id => t.now + d < t.sessionDeadline id
        buffers := fun id => ((t.buffer id).expire (t.now + d)).content } }

end TimedWorld

/-- The session whose expiration a call sets: `get` does so where it finds the
key, before it decodes the hash, and a write where it has written. -/
def Op.refreshes (w : World) : Op → Option String
  | sessionCreate s => if s.writable then some s.sessionId else none
  | sessionGet sessionId => if (w.sessions sessionId).isSome then some sessionId else none
  | sessionUpdate s => if s.writable then some s.sessionId else none
  | _ => none

/-- What each call answers and does at its time. -/
def timedHandle (ttl : ℕ) (ctx : Context) : Handler Exc Op.Res TimedWorld := fun op t =>
  let out := handle ctx op t.world
  (out.1,
    { t with
      world := out.2
      sessionDeadline :=
        match op.refreshes t.world with
        | some id => Function.update t.sessionDeadline id (t.now + ttl)
        | none => t.sessionDeadline
      bufferDeadline :=
        match op with
        | .bufferPush sessionId _ => Function.update t.bufferDeadline sessionId (t.now + ttl)
        | _ => t.bufferDeadline
      pushes :=
        match op with
        | .bufferPush sessionId event =>
            Function.update t.pushes sessionId (t.pushes sessionId ++ [(t.now, event)])
        | .bufferClear sessionId => Function.update t.pushes sessionId []
        | _ => t.pushes })

/-- A run leaves in the world what it leaves without expirations. -/
theorem world_timedRun (ttl : ℕ) (ctx : Context) (p : UseCase Unit) (t : TimedWorld) :
    (p.run (timedHandle ttl ctx) t).2.world = (p.run (handle ctx) t.world).2 := by
  refine (Prog.run_sim (h := timedHandle ttl ctx) (g := handle ctx)
    (R := fun (t : TimedWorld) w => t.world = w) (fun op t w heq => ?_) p rfl).2
  subst heq
  exact ⟨rfl, rfl⟩

/-- Every list retains what its expiration leaves of the events pushed. -/
def TimedWorld.Kept (ttl : ℕ) (t : TimedWorld) : Prop :=
  ∀ id, Retains ttl t.now (t.pushes id) (t.buffer id)

theorem kept_init (ttl : ℕ) (db : Database) : TimedWorld.Kept ttl { world := { db } } :=
  fun _ => Retains.nil (e := { content := [], deadline := 0 })

theorem TimedWorld.Kept.advance {ttl : ℕ} {t : TimedWorld} (h : t.Kept ttl) (d : ℕ) :
    (t.advance d).Kept ttl := by
  intro id
  have hexpire := (h id).expire (Nat.le_add_right t.now d)
  have hdeadline : ((t.buffer id).expire (t.now + d)).deadline = t.bufferDeadline id :=
    Expiring.deadline_expire _ _
  unfold TimedWorld.buffer TimedWorld.advance
  dsimp only
  rw [← hdeadline]
  exact hexpire

theorem TimedWorld.Kept.handle {ttl : ℕ} (httl : 0 < ttl) {t : TimedWorld} (h : t.Kept ttl)
    (ctx : Context) (op : Op) : (timedHandle ttl ctx op t).2.Kept ttl := by
  intro id
  cases op with
  | bufferPush sessionId event =>
      by_cases hid : id = sessionId
      · subst hid
        have hpush := (h id).push httl event
        unfold timedHandle TimedWorld.buffer
        simp only [FlipperBack.handle, World.setBuffer, Function.update_self]
        exact hpush
      · unfold timedHandle TimedWorld.buffer
        simp only [FlipperBack.handle, World.setBuffer, Function.update_of_ne hid]
        exact h id
  | bufferClear sessionId =>
      by_cases hid : id = sessionId
      · subst hid
        unfold timedHandle TimedWorld.buffer
        simp only [FlipperBack.handle, World.setBuffer, Function.update_self]
        exact Retains.nil (e := t.buffer id)
      · unfold timedHandle TimedWorld.buffer
        simp only [FlipperBack.handle, World.setBuffer, Function.update_of_ne hid]
        exact h id
  | borneGetOrCreate borneId =>
      unfold timedHandle TimedWorld.buffer
      simp only [FlipperBack.handle]
      split <;> exact h id
  | _ => exact h id

end FlipperBack
