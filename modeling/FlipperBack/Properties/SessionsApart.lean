import FlipperBack.Effects.Separation
import FlipperBack.System.Step

/-!
# Sessions do not interfere

All sessions share one Redis, one hub manager and one event loop, and every use
case leaves the loop between its reading and its writing. Still a use case makes
no call but about its own session: whatever the interleaving, what is left of a
session is what its own executions leave when they are run without the others,
in their own order (`sessions_apart`).
-/

namespace FlipperBack

open Effects Python

/-! ## Executions on a session -/

/-- An execution of a use case on a session, with the hubs of the sessions to
broadcast to. -/
inductive SessionJob
  | create (uuid : String) (now : DateTime) (pseudo : String) (mode : GameMode)
      (roomCode : Option String)
  | readyUp (sessionId : String)
  | countdown (sessionId : String)
  | command (command : MatchCommand) (sessionId : String)
  | mqtt (now : DateTime) (event : MqttEvent)

namespace SessionJob

/-- The session an execution is about; an event that names none is about no
session that can be. -/
def sessionId : SessionJob → String
  | create uuid _ _ _ _ => uuid
  | readyUp sessionId => sessionId
  | countdown sessionId => sessionId
  | command _ sessionId => sessionId
  | mqtt _ event => event.sessionId?.getD ""

def program : SessionJob → UseCase Unit
  | create uuid now pseudo mode roomCode => do
      let _ ← createSession uuid now pseudo mode roomCode
      return
  | readyUp sessionId => do
      let _ ← FlipperBack.readyUp [.session] (some [.session]) sessionId
      return
  | countdown sessionId => countdownFrom [.session] sessionId countdownValues
  | command cmd sessionId => sessionCommand [.session] cmd sessionId
  | mqtt now event => handleMqttEvent [.session] none now event

end SessionJob

/-- Executions in flight, under the sessions they are about. -/
abbrev SessionExecutions : Type := Pool Exc Op.Res String World

/-- The countdown that a call starts. -/
def startedCountdown : Op → World → List (String × UseCase Unit)
  | .createTask broadcaster sessionId, _ =>
      [(sessionId, countdownFrom broadcaster sessionId countdownValues)]
  | _, _ => []

/-- One call of one execution. -/
abbrev SessionExecutions.step : SessionExecutions → ℕ → SessionExecutions :=
  Pool.spawnStep (fun _ => handle {}) startedCountdown

/-- Executions that have not made a call yet. -/
def sessionExecutions (w : World) (jobs : List SessionJob) : SessionExecutions :=
  { state := w, threads := jobs.map fun job => (job.sessionId, job.program) }

/-- The steps of a schedule that executions on a session take. -/
abbrev aloneSchedule (sessionId : String) : SessionExecutions → List ℕ → List ℕ :=
  Pool.project id sessionId SessionExecutions.step

/-- The messages about a session broadcast so far. -/
def World.told (w : World) (sessionId : String) : List (Broadcaster × SessionMessage) :=
  w.outbox.filterMap fun
    | .session broadcaster id message _ _ =>
        if id = sessionId then some (broadcaster, message) else none
    | .borne _ _ => none

/-- What there is of a session: its hash, its event buffer and the messages
about it. -/
def World.ofSession (sessionId : String) (w : World) :
    Option Hash × List Dict × List (Broadcaster × SessionMessage) :=
  ((w.sessions sessionId).map Session.fields, w.buffers sessionId, w.told sessionId)

/-! ## The calls of an execution are about its session -/

/-- The call is about the session. -/
def Op.Of (id : String) : Op → Prop
  | sessionCreate s => s.sessionId = id
  | sessionGet sessionId => sessionId = id
  | sessionUpdate s => s.sessionId = id
  | bufferPush sessionId _ => sessionId = id
  | broadcastToSession _ sessionId _ => sessionId = id
  | createTask _ sessionId => sessionId = id
  | sleep => True
  | _ => False

/-- A session is read under its own id. -/
def ReadsOwn : (op : Op) → Except Exc op.Res → Prop
  | .sessionGet sessionId, .ok (some s) => s.sessionId = sessionId
  | _, _ => True

/-- A use case whose calls are all about the session. -/
abbrev KeepsTo (id : String) {α : Type} (p : UseCase α) : Prop := p.AllGiven ReadsOwn (Op.Of id)

theorem keepsTo_createSession (uuid : String) (now : DateTime) (pseudo : String)
    (mode : GameMode) (roomCode : Option String) :
    KeepsTo uuid (createSession uuid now pseudo mode roomCode) := by
  refine Prog.AllGiven.bind (Prog.All.given (Prog.all_ofExcept _ _)) fun pseudo => ?_
  exact Prog.AllGiven.perform_bind rfl fun _ _ => trivial

theorem keepsTo_launch (startCountdown : Option Broadcaster) (id : String) :
    KeepsTo id (launch startCountdown id) := by
  cases startCountdown with
  | none => trivial
  | some broadcaster => exact Prog.All.given ((Prog.all_perform _ _).mpr rfl)

theorem keepsTo_switchStatus {allowed : SessionStatus → Bool} {target : SessionStatus}
    {after : UseCase Unit} {id : String} (hafter : KeepsTo id after) (broadcaster : Broadcaster) :
    KeepsTo id (switchStatus allowed target after broadcaster id) := by
  refine Prog.AllGiven.perform_bind rfl fun found hfound => ?_
  cases found with
  | none => trivial
  | some s =>
      dsimp only
      split
      · refine Prog.AllGiven.perform_bind hfound fun _ _ => ?_
        exact Prog.AllGiven.perform_bind rfl fun _ _ => hafter
      · trivial

theorem keepsTo_readyUp (broadcaster : Broadcaster) (onReady : Option Broadcaster) (id : String) :
    KeepsTo id (readyUp broadcaster onReady id) := by
  refine Prog.AllGiven.perform_bind rfl fun found hfound => ?_
  cases found with
  | none => trivial
  | some s =>
      refine Prog.AllGiven.perform_bind hfound fun _ _ => ?_
      refine Prog.AllGiven.perform_bind rfl fun _ _ => ?_
      exact (keepsTo_launch _ _).bind fun _ => trivial

theorem keepsTo_countdownFrom (broadcaster : Broadcaster) (id : String) (values : List ℕ) :
    KeepsTo id (countdownFrom broadcaster id values) := by
  induction values with
  | nil =>
      change KeepsTo id (finishCountdown broadcaster id)
      unfold finishCountdown
      exact keepsTo_switchStatus (Prog.all_pure _ ()).given _
  | cons value values ih =>
      refine Prog.AllGiven.perform_bind rfl fun _ _ => ?_
      exact Prog.AllGiven.perform_bind trivial fun _ _ => ih

theorem keepsTo_sessionCommand (broadcaster : Broadcaster) (command : MatchCommand) (id : String) :
    KeepsTo id (sessionCommand broadcaster command id) := by
  cases command with
  | pause =>
      change KeepsTo id (pauseSession broadcaster id)
      exact keepsTo_switchStatus (Prog.all_pure _ ()).given _
  | resume =>
      change KeepsTo id (resumeSession broadcaster (some broadcaster) id)
      exact keepsTo_switchStatus (keepsTo_launch _ _) _
  | abandon =>
      change KeepsTo id (abandonSession broadcaster id)
      exact keepsTo_switchStatus (Prog.all_pure _ ()).given _

theorem keepsTo_handleMqttEvent {event : MqttEvent} {id : String} (hid : event.sessionId? = some id)
    (broadcaster : Broadcaster) (now : DateTime) :
    KeepsTo id (handleMqttEvent broadcaster none now event) := by
  unfold handleMqttEvent
  rw [hid]
  refine Prog.AllGiven.perform_bind rfl fun found hfound => ?_
  cases found with
  | none => trivial
  | some s =>
      dsimp only
      split
      · cases happly : applyEvent event s with
        | error e => trivial
        | ok out =>
            rcases out with - | ⟨message, s'⟩
            · trivial
            · refine Prog.AllGiven.perform_bind
                ((applyEvent_sessionId happly).trans hfound) fun _ _ => ?_
              refine Prog.AllGiven.perform_bind rfl fun _ _ => ?_
              refine Prog.AllGiven.perform_bind rfl fun _ _ => ?_
              split
              · exact Prog.AllGiven.perform_bind rfl fun _ _ => trivial
              · trivial
      · trivial

theorem keepsTo_program (job : SessionJob) : KeepsTo job.sessionId job.program := by
  cases job with
  | create uuid now pseudo mode roomCode =>
      exact (keepsTo_createSession uuid now pseudo mode roomCode).bind fun _ => trivial
  | readyUp sessionId => exact (keepsTo_readyUp _ _ sessionId).bind fun _ => trivial
  | countdown sessionId => exact keepsTo_countdownFrom _ sessionId _
  | command command sessionId => exact keepsTo_sessionCommand _ command sessionId
  | mqtt now event =>
      cases hid : event.sessionId? with
      | none =>
          simp only [SessionJob.program, handleMqttEvent, hid]
          trivial
      | some id =>
          rw [SessionJob.sessionId, hid]
          exact keepsTo_handleMqttEvent hid _ now

/-! ## What a call about a session reads and writes -/

section Calls

variable {w w' : World} {ctx : Context} {id : String} {op : Op}

theorem handle_readsOwn (ctx : Context) (op : Op) (w : World) : ReadsOwn op (handle ctx op w).1 := by
  cases op with
  | sessionGet sessionId =>
      change ReadsOwn (.sessionGet sessionId) (w.readSession sessionId)
      rcases w.readSession_cases sessionId with hread | ⟨-, e, hread⟩
      · rw [hread]
        cases hseen : w.seen sessionId with
        | none => trivial
        | some s => exact World.seen_sessionId hseen
      · rw [hread]
        trivial
  | _ => trivial

theorem readSession_congr (h : (w.sessions id).map Session.fields =
    (w'.sessions id).map Session.fields) : w.readSession id = w'.readSession id := by
  have hread (w : World) : w.readSession id =
      match (w.sessions id).map Session.fields with
      | none => .ok none
      | some data => (liftPy (Session.fromHash data)).map some := by
    unfold World.readSession
    cases w.sessions id <;> rfl
  rw [hread w, hread w', h]

/-- What is told of the session by one more message. -/
theorem told_tell (task : Option ℕ) (broadcaster : Broadcaster) (sessionId : String)
    (message : SessionMessage) :
    (w.tell task broadcaster sessionId message).told id =
      w.told id ++ if sessionId = id then [(broadcaster, message)] else [] := by
  rw [World.told, World.tell, World.emit, List.filterMap_append]
  split
  · next heq => simp [World.told, heq]
  · next hne => simp [World.told, hne]

/-- The call leaves the session what it leaves wherever it is the same. -/
theorem ofSession_handle (hop : op.Of id) (h : w.ofSession id = w'.ofSession id) :
    World.ofSession id (handle ctx op w).2 = World.ofSession id (handle ctx op w').2 := by
  obtain ⟨hhash, hrest⟩ := Prod.mk.inj h
  obtain ⟨hbuffer, htold⟩ := Prod.mk.inj hrest
  cases op with
  | sessionGet sessionId => exact h
  | sleep => exact h
  | createTask broadcaster sessionId => exact h
  | sessionCreate s =>
      obtain rfl := hop
      by_cases hwritable : s.writable
      · rw [handle_sessionCreate hwritable, handle_sessionCreate hwritable]
        refine Prod.ext ?_ hrest
        exact congrArg (Option.map Session.fields)
          ((w.sessions.get_put_self s).trans (w'.sessions.get_put_self s).symm)
      · rw [handle_sessionCreate_error hwritable, handle_sessionCreate_error hwritable]
        exact h
  | sessionUpdate s =>
      obtain rfl := hop
      by_cases hwritable : s.writable
      · rw [handle_sessionUpdate hwritable, handle_sessionUpdate hwritable]
        refine Prod.ext ?_ hrest
        exact congrArg (Option.map Session.fields)
          ((w.sessions.get_put_self s).trans (w'.sessions.get_put_self s).symm)
      · rw [handle_sessionUpdate_error hwritable, handle_sessionUpdate_error hwritable]
        exact h
  | bufferPush sessionId event =>
      obtain rfl := hop
      refine Prod.ext hhash (Prod.ext ?_ htold)
      simp only [World.ofSession, handle, World.setBuffer, Function.update_self]
      rw [hbuffer]
  | broadcastToSession broadcaster sessionId message =>
      refine Prod.ext hhash (Prod.ext hbuffer ?_)
      exact (told_tell _ _ _ _).trans ((congrArg (· ++ _) htold).trans (told_tell _ _ _ _).symm)
  | _ => exact hop.elim

/-- The call leaves the other sessions alone. -/
theorem ofSession_handle_of_ne {id' : String} (hop : op.Of id) (hne : id' ≠ id) :
    World.ofSession id' (handle ctx op w).2 = World.ofSession id' w := by
  cases op with
  | sessionGet sessionId => rfl
  | sleep => rfl
  | createTask broadcaster sessionId => rfl
  | sessionCreate s =>
      obtain rfl := hop
      by_cases hwritable : s.writable
      · rw [handle_sessionCreate hwritable]
        exact Prod.ext (congrArg (Option.map Session.fields) (w.sessions.get_put_of_ne hne)) rfl
      · rw [handle_sessionCreate_error hwritable]
  | sessionUpdate s =>
      obtain rfl := hop
      by_cases hwritable : s.writable
      · rw [handle_sessionUpdate hwritable]
        exact Prod.ext (congrArg (Option.map Session.fields) (w.sessions.get_put_of_ne hne)) rfl
      · rw [handle_sessionUpdate_error hwritable]
  | bufferPush sessionId event =>
      obtain rfl := hop
      exact Prod.ext rfl (Prod.ext (Function.update_of_ne hne _ _) rfl)
  | broadcastToSession broadcaster sessionId message =>
      obtain rfl := hop
      refine Prod.ext rfl (Prod.ext rfl ((told_tell _ _ _ _).trans ?_))
      rw [if_neg fun heq => hne heq.symm, List.append_nil]
      rfl
  | _ => exact hop.elim

end Calls

theorem apart_sessions :
    Pool.Apart (fun _ : String => handle {}) startedCountdown id ReadsOwn Op.Of World.ofSession where
  answers _ op w := handle_readsOwn {} op w
  answer c op w w' hop h := by
    cases op with
    | sessionGet sessionId =>
        obtain rfl := hop
        exact readSession_congr (congrArg Prod.fst h)
    | sleep => rfl
    | createTask broadcaster sessionId => rfl
    | sessionCreate s => rfl
    | sessionUpdate s => rfl
    | bufferPush sessionId event => rfl
    | broadcastToSession broadcaster sessionId message => rfl
    | _ => exact hop.elim
  effect c op w w' hop h := ofSession_handle hop h
  frame c op w d hop hne := ofSession_handle_of_ne hop hne
  starts_same d op w w' _ _ := by cases op <;> rfl
  starts_own d op w hop t ht := by
    cases op with
    | createTask broadcaster sessionId =>
        obtain rfl := hop
        obtain rfl := List.mem_singleton.mp ht
        exact ⟨rfl, keepsTo_countdownFrom _ _ _⟩
    | _ => cases ht

/-- What any interleaving leaves of a session, its hash, its buffer and the
messages about it, is what the executions on it leave when they are run alone in
their own order, and so is what is left of these executions. -/
theorem sessions_apart (w : World) (jobs : List SessionJob) (schedule : List ℕ) (id : String) :
    let together := schedule.foldl SessionExecutions.step (sessionExecutions w jobs)
    let alone := (aloneSchedule id (sessionExecutions w jobs) schedule).foldl
      SessionExecutions.step (sessionExecutions w (jobs.filter fun job => job.sessionId = id))
    alone.state.ofSession id = together.state.ofSession id ∧
      alone.threads = together.threads.filter fun t => t.1 = id := by
  have hkeep : (sessionExecutions w jobs).Keep (fun s => s) ReadsOwn Op.Of := by
    intro t ht
    obtain ⟨job, -, rfl⟩ := List.mem_map.mp ht
    exact keepsTo_program job
  have halike : Pool.Alike (fun s => s) World.ofSession id (sessionExecutions w jobs)
      (sessionExecutions w (jobs.filter fun job => job.sessionId = id)) := by
    refine ⟨rfl, ?_⟩
    rw [sessionExecutions, sessionExecutions, List.filter_map]
    rfl
  exact apart_sessions.run hkeep halike schedule

end FlipperBack
