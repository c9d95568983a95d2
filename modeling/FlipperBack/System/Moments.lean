import FlipperBack.Infrastructure.TimedWorld
import FlipperBack.System.Step

/-!
# The application in time

Time passes between the requests, and Redis drops the keys whose deadline comes. A
request leaves in the world what it leaves without expirations (`world_request`). What
every call of its program keeps, and every stretch of a countdown, the request keeps
(`request_keeps`); so a buffer that is not empty has its deadline ahead at every moment
(`alive_run`).
-/

namespace FlipperBack

open Effects Python

/-- What happens next: time passes, or the application takes a step. -/
inductive Moment
  | pass (d : ℕ)
  | request (e : Event)

namespace TimedWorld

/-- One stretch of a countdown task. -/
def stretch (ttl : ℕ) (task : CountdownTask) (t : TimedWorld) : TimedWorld :=
  let out := (countdownFrom task.broadcaster task.sessionId task.remaining).runUntil Op.isSleep
    (timedHandle ttl { task := some task.id }) t
  match out.1 with
  | .inl _ => { out.2 with world := out.2.world.endTask task.id }
  | .inr _ => { out.2 with world := out.2.world.sleepTask task.id task.remaining.tail }

/-- The application takes a step. -/
def request (ttl : ℕ) (borneId : String) (t : TimedWorld) (e : Event) : TimedWorld :=
  match e.request with
  | .countdown id =>
      match t.world.task? id with
      | some task => t.stretch ttl task
      | none => t
  | _ => ((e.program borneId).run (timedHandle ttl { pg := e.pg }) t).2

def step (ttl : ℕ) (borneId : String) (t : TimedWorld) : Moment → TimedWorld
  | .pass d => t.advance d
  | .request e => t.request ttl borneId e

/-- The stores after the moments `ms`, with nothing in Redis before. -/
def run (ttl : ℕ) (borneId : String) (db : Database) (ms : List Moment) : TimedWorld :=
  ms.foldl (TimedWorld.step ttl borneId) { world := { db } }

theorem run_append (ttl : ℕ) (borneId : String) (db : Database) (ms ms' : List Moment) :
    run ttl borneId db (ms ++ ms') =
      ms'.foldl (TimedWorld.step ttl borneId) (run ttl borneId db ms) :=
  List.foldl_append

theorem world_stretch (ttl : ℕ) (task : CountdownTask) (t : TimedWorld) :
    (t.stretch ttl task).world = FlipperBack.stretch task t.world := by
  obtain ⟨hres, hworld⟩ := Prog.runUntil_sim (h := timedHandle ttl { task := some task.id })
    (g := handle { task := some task.id }) (R := fun (t : TimedWorld) w => t.world = w)
    (fun op t w heq => by
      subst heq
      exact ⟨rfl, rfl⟩) Op.isSleep
    (countdownFrom task.broadcaster task.sessionId task.remaining) (s := t) rfl
  unfold stretch FlipperBack.stretch
  dsimp only
  rw [← hres, ← hworld]
  generalize ((countdownFrom task.broadcaster task.sessionId task.remaining).runUntil Op.isSleep
    (timedHandle ttl { task := some task.id }) t).1 = result
  cases result with
  | inl ended => rfl
  | inr rest => rfl

/-- A request leaves in the world what it leaves without expirations. -/
theorem world_request (ttl : ℕ) (borneId : String) (t : TimedWorld) (e : Event) :
    (t.request ttl borneId e).world = FlipperBack.step borneId t.world e := by
  obtain ⟨request, clock, uuid, pg⟩ := e
  cases request with
  | countdown id =>
      unfold TimedWorld.request FlipperBack.step
      dsimp only
      cases t.world.task? id with
      | none => rfl
      | some task => exact world_stretch ttl task t
  | _ => exact world_timedRun ttl _ _ t

section Keeps

variable {ttl : ℕ} {borneId : String} {t : TimedWorld} {e : Event} {P : Op → Prop}
  {I : TimedWorld → Prop}

/-- What the calls of its program keep, a request keeps, where the tasks do not
matter. -/
theorem request_keeps (hcall : ∀ ctx op t, P op → I t → I (timedHandle ttl ctx op t).2)
    (htasks : ∀ t tasks, I t → I { t with world := { t.world with tasks } })
    (hcountdown : ∀ broadcaster sessionId values,
      (countdownFrom broadcaster sessionId values).All P)
    (hp : (e.program borneId).All P) (h : I t) : I (t.request ttl borneId e) := by
  have hrun := Prog.run_invariant (fun op t hop ht => hcall { pg := e.pg } op t hop ht) hp h
  unfold request
  split
  · split
    · next task _ =>
        obtain ⟨hstretch, -⟩ := Prog.runUntil_invariant (A := fun _ _ => True) Op.isSleep
          (fun _ _ _ => trivial) (hcall { task := some task.id })
          (hcountdown task.broadcaster task.sessionId task.remaining).given h
        unfold stretch
        dsimp only
        split
        · exact htasks _ _ hstretch
        · exact htasks _ _ hstretch
    · exact h
  · exact hrun

end Keeps

/-! ## Deadlines ahead -/

/-- A buffer that is not empty has its deadline ahead. -/
def Alive (t : TimedWorld) : Prop :=
  ∀ id, t.world.buffers id ≠ [] → t.now < t.bufferDeadline id

theorem Alive.handle {ttl : ℕ} (httl : 0 < ttl) {t : TimedWorld} (h : t.Alive) (ctx : Context)
    (op : Op) : (timedHandle ttl ctx op t).2.Alive := by
  intro id hne
  cases op with
  | bufferPush sessionId event =>
      by_cases hid : id = sessionId
      · rw [hid]
        simp only [timedHandle, Function.update_self]
        omega
      · simp only [timedHandle, FlipperBack.handle, World.setBuffer, Function.update_of_ne hid]
          at hne ⊢
        exact h id hne
  | bufferClear sessionId =>
      by_cases hid : id = sessionId
      · rw [hid] at hne
        simp [timedHandle, FlipperBack.handle, World.setBuffer] at hne
      · simp only [timedHandle, FlipperBack.handle, World.setBuffer, Function.update_of_ne hid]
          at hne ⊢
        exact h id hne
  | borneGetOrCreate borneId =>
      refine h id ?_
      unfold timedHandle at hne
      simp only [FlipperBack.handle] at hne
      split at hne <;> exact hne
  | _ => exact h id hne

theorem alive_advance (t : TimedWorld) (d : ℕ) : (t.advance d).Alive := by
  intro id hne
  change ((t.buffer id).expire (t.now + d)).content ≠ [] at hne
  unfold Expiring.expire at hne
  split at hne
  · exact absurd rfl hne
  · next hahead => exact Nat.lt_of_not_le hahead

theorem Alive.step {ttl : ℕ} (httl : 0 < ttl) (borneId : String) {t : TimedWorld} (h : t.Alive)
    (m : Moment) : (t.step ttl borneId m).Alive := by
  cases m with
  | pass d => exact alive_advance t d
  | request e =>
      exact request_keeps (P := fun _ => True) (fun ctx op _ _ ht => ht.handle httl ctx op)
        (fun _ _ ht => ht) (fun _ _ _ => Prog.all_true _) (Prog.all_true _) h

theorem alive_run {ttl : ℕ} (httl : 0 < ttl) (borneId : String) (db : Database)
    (ms : List Moment) : (run ttl borneId db ms).Alive :=
  Runs.invariant (I := TimedWorld.Alive) (C := fun _ _ => True)
    (fun _ m ht _ => ht.step httl borneId m) (fun _ hne => absurd rfl hne)
    (Runs.along_of_forall (fun _ _ => trivial) _ _)

end TimedWorld

end FlipperBack
