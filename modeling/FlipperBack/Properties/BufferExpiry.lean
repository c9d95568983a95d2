import FlipperBack.Infrastructure.TimedWorld
import FlipperBack.System.Interleaving
import FlipperBack.System.Invariants

/-!
# The event buffer and the expiration of its session

Every reading of a session puts its expiration off, but only a push does so for
its events: while the player pauses, or the sensors send what is dropped, the
session lives on and its buffer expires. The buffer of a living session holds
all the events accepted for it exactly where less than the expiration has passed
between any two of them and since the last one (`buffer_whole_iff`).
-/

namespace FlipperBack

open Effects Python

/-- What happens next in a timed run: time passes, or an execution makes its
next call. -/
inductive Tick
  | advance (d : ℕ)
  | call (i : ℕ)

/-- Executions in flight on the stores with their expirations. -/
abbrev TimedExecutions : Type := Pool Exc Op.Res Context TimedWorld

def timedStep (ttl : ℕ) (pool : TimedExecutions) : Tick → TimedExecutions
  | .advance d => { pool with state := pool.state.advance d }
  | .call i => pool.step (timedHandle ttl) i

/-- Jobs that have not made a call yet, on empty stores. -/
def timedExecutions (borneId : String) (db : Database) (jobs : List Job) : TimedExecutions :=
  { state := { world := { db } }
    threads := jobs.map fun job => (job.context, job.program borneId) }

theorem kept_timedStep {ttl : ℕ} (httl : 0 < ttl) {pool : TimedExecutions}
    (h : pool.state.Kept ttl) (tick : Tick) : (timedStep ttl pool tick).state.Kept ttl := by
  cases tick with
  | advance d => exact h.advance d
  | call i =>
      rcases Pool.step_cases (timedHandle ttl) pool i with heq | ⟨ctx, op, k, -, heq⟩
      · rw [timedStep, heq]
        exact h
      · rw [timedStep, heq]
        exact h.handle httl ctx op

/-- At every instant of a timed run, with any calls of any executions at any
times, the buffer of a session that is stored holds every event accepted for it
exactly where less than `ttl` has passed between any two of these events and
since the last one. -/
theorem buffer_whole_iff {ttl : ℕ} (httl : 0 < ttl) (borneId : String) (db : Database)
    (jobs : List Job) (ticks : List Tick) (id : String) :
    let t := (ticks.foldl (timedStep ttl) (timedExecutions borneId db jobs)).state
    ((t.world.sessions id).isSome → t.world.buffers id = t.accepted id) ↔
      ((t.world.sessions id).isSome → Punctual ttl t.now (t.pushes id)) := by
  intro t
  have hkept : t.Kept ttl := by
    refine Runs.invariant (I := fun pool : TimedExecutions => pool.state.Kept ttl)
      (C := fun _ _ => True) (fun pool tick h _ => kept_timedStep httl h tick) (kept_init ttl db)
      (Runs.along_of_forall (fun _ _ => trivial) _ _)
  exact imp_congr_right fun _ => (hkept id).eq_iff

/-- A session readied and played, hit once at time 0 and paused at time 5. -/
def pausedAfterHit : List Job × List Tick :=
  ([.request { request := .createSession "abc" .solo none, uuid := "s" },
      .request { request := .readyUp [.session] "s" }, .countdown 0 [.session] "s",
      .request (sensorEvent [.session, .borne] topicBumperHit "s" 100),
      .request { request := .sessionCommand [.session] .pause "s" }],
    .call 0 :: List.replicate 4 (.call 1) ++ List.replicate 11 (.call 2) ++
      List.replicate 4 (.call 3) ++ .advance 5 :: List.replicate 3 (.call 4))

/-- At time 5, with an expiration of 10, its buffer is whole. -/
theorem buffer_whole_iff_pausedAfterHit :
    let t := (pausedAfterHit.2.foldl (timedStep 10)
      (timedExecutions "b" {} pausedAfterHit.1)).state
    t.world.buffers "s" = t.accepted "s" ∧ (t.accepted "s").length = 1 := by
  intro t
  have halive : (t.world.sessions "s").isSome := by decide +kernel
  have hpunctual : Punctual 10 t.now (t.pushes "s") := by decide +kernel
  exact ⟨(buffer_whole_iff (by decide) "b" {} pausedAfterHit.1 pausedAfterHit.2 "s").mpr
    (fun _ => hpunctual) halive, by decide +kernel⟩

/-- At time 10, the event is lost while its session lives on. -/
theorem pausedAfterHit_loses_event :
    let t := ((pausedAfterHit.2 ++ [Tick.advance 5]).foldl (timedStep 10)
      (timedExecutions "b" {} pausedAfterHit.1)).state
    (t.world.sessions "s").map Session.score = some (.int 100) ∧
      (t.accepted "s").length = 1 ∧ (t.world.buffers "s").length = 0 := by
  decide +kernel

end FlipperBack
