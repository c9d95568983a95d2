import FlipperBack.Effects.Pool
import FlipperBack.System.Step

/-!
# Executions in flight together

The event loop leaves a coroutine at each of its awaits and may go on with
another one. A `Job` is one execution, of a request or of a countdown task, and
`executions` is the pool of several: a step of the pool is one call of one of
them, and each call is atomic.

What is left of an execution is a program. Where a property asks what it is about
to do, `calmAnswer` gives its calls the answers of empty stores.
-/

namespace FlipperBack

open Effects Python

/-- Executions in flight on the same stores. -/
abbrev Executions : Type := Pool Exc Op.Res Context World

inductive Job
  | request (e : Event)
  /-- A task that runs `StartCountdownUseCase.execute` from its start. -/
  | countdown (task : ℕ) (broadcaster : Broadcaster) (sessionId : String)

namespace Job

def program (borneId : String) : Job → UseCase Unit
  | request e => e.program borneId
  | countdown _ broadcaster sessionId => countdownFrom broadcaster sessionId countdownValues

def context : Job → Context
  | request e => { pg := e.pg }
  | countdown task _ _ => { task := some task }

/-- The id that a job has drawn from `uuid4`. -/
def uuid? : Job → Option String
  | request e => some e.uuid
  | countdown _ _ _ => none

end Job

/-- Jobs that have not made a call yet. -/
def executions (borneId : String) (w : World) (jobs : List Job) : Executions :=
  { state := w, threads := jobs.map fun job => (job.context, job.program borneId) }

/-- What a call answers where nothing is stored. -/
def calmAnswer : (op : Op) → Except Exc op.Res
  | .sessionCreate _ => .ok ()
  | .sessionGet _ => .ok none
  | .sessionUpdate _ => .ok ()
  | .sessionDelete _ => .ok ()
  | .bufferPush _ _ => .ok ()
  | .bufferReadAll _ => .ok []
  | .bufferClear _ => .ok ()
  | .borneGetOrCreate borneId => .ok { borneId }
  | .borneUpdate _ => .ok ()
  | .broadcastToSession _ _ _ => .ok ()
  | .broadcastToBorne _ _ => .ok ()
  | .playerGetByPseudo _ => .ok none
  | .gameGetBestSoloScore _ => .ok none
  | .gamePersistFinishedSession _ _ _ => .ok (0, 0, 0)
  | .createTask _ _ => .ok ()
  | .sleep => .ok ()

/-- The calls an execution is about to make. -/
abbrev upcoming (p : UseCase Unit) : List Op := p.trace calmAnswer

theorem upcoming_of_next {f : Op → Bool} {op : Op} {k : Except Exc op.Res → UseCase Unit}
    (h : (k (calmAnswer op)).head.any f) : (upcoming (.call op k)).any f := by
  rw [upcoming, Prog.trace, List.any_cons, Bool.or_eq_true]
  cases hk : k (calmAnswer op) with
  | ret a => simp [hk] at h
  | raise e => simp [hk] at h
  | call op' k' =>
      rw [hk] at h
      exact Or.inr (by simpa [Prog.trace] using Or.inl h)

/-- A call that writes the session with an id. -/
def Op.updates (id : String) : Op → Bool
  | sessionUpdate s => s.sessionId == id
  | _ => false

end FlipperBack
