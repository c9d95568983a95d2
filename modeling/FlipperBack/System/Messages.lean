import FlipperBack.Effects.Spawn
import FlipperBack.System.Interleaving

/-!
# Messages of the screens, with the countdowns they start

`messages` is the pool of the messages that screens of the borne have sent, each
handled in an execution of its own: those of one socket wait for each other,
which is one of the interleavings. The task that a call of `create_task` starts
is one more execution of the pool.
-/

namespace FlipperBack

open Effects Python

/-- Executions in flight under the jobs they are those of. -/
abbrev Messages : Type := Pool Exc Op.Res Job World

/-- The task that a call starts. -/
def startedTasks : Op → World → List (Job × UseCase Unit)
  | .createTask broadcaster sessionId, w =>
      [(.countdown w.nextTask broadcaster sessionId,
        countdownFrom broadcaster sessionId countdownValues)]
  | _, _ => []

/-- One call of one execution. -/
abbrev Messages.step : Messages → ℕ → Messages :=
  Pool.spawnStep (fun job => handle job.context) startedTasks

/-- The message comes from a screen of the borne. -/
def Event.FromScreen (e : Event) : Prop :=
  match e.request with
  | .intent _ _ => True
  | .matchCommand _ => True
  | .relay _ => True
  | _ => False

/-- The message is the validation of the players. -/
def Event.validates (e : Event) : Bool :=
  match e.request with
  | .intent action _ => action == playersValidated
  | _ => false

namespace Job

def validates : Job → Bool
  | request e => e.validates
  | countdown _ _ _ => false

def isCountdown : Job → Bool
  | request _ => false
  | countdown _ _ _ => true

/-- A countdown of the session. -/
def countsDown (id : String) : Job → Bool
  | request _ => false
  | countdown _ _ sessionId => sessionId == id

end Job

/-- Messages that have not been handled yet. -/
def messages (borneId : String) (w : World) (es : List Event) : Messages :=
  { state := w, threads := es.map fun e => (.request e, e.program borneId) }

/-- What a call answers where every session is one that is paused. -/
def luckyAnswer : (op : Op) → Except Exc op.Res
  | .sessionGet id =>
      .ok (some { sessionId := id, pseudo := "", status := .paused, createdAt := default })
  | op => calmAnswer op

end FlipperBack
