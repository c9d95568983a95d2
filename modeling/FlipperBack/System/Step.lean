import Mathlib.Data.List.Infix
import FlipperBack.Effects.Runs
import FlipperBack.Infrastructure.World
import FlipperBack.UseCase.Borne
import FlipperBack.UseCase.HandleBorneInput
import FlipperBack.UseCase.HandleMqttEvent

/-!
# The application, one request at a time

A request is what a client, the broker or the event loop asks of the
application; `step` runs the use case it leads to without interruption. A
countdown is the exception: it sleeps after each tick, so a request on it runs
one stretch of it, up to its next sleep or to its end.
-/

namespace FlipperBack

open Effects Python

/-! ## Requests -/

inductive Request
  /-- `POST /sessions`. -/
  | createSession (pseudo : String) (mode : GameMode) (roomCode : Option String)
  /-- `POST /sessions/{id}/ready`. -/
  | readyUp (broadcaster : Broadcaster) (sessionId : String)
  /-- `cmd:pause`, `cmd:resume` and `cmd:abandon` on the socket of a session. -/
  | sessionCommand (broadcaster : Broadcaster) (command : MatchCommand) (sessionId : String)
  /-- A message of the broker, with what `json.loads` made of it. -/
  | mqtt (broadcaster : Broadcaster) (topic : String) (payload : Option Json)
  /-- `POST /scores`. -/
  | finish (sessionId : String)
  /-- `intent`, `cmd:*` and `borne:relay` on the socket of the borne. -/
  | intent (action : String) (payload : Json)
  | matchCommand (command : MatchCommand)
  | relay (event : Dict)
  /-- The next stretch of a countdown task. -/
  | countdown (id : ℕ)

/-- A request, with what it draws from outside: the clock, an id of `uuid4`, and
the SQL statements that fail. -/
structure Event where
  request : Request
  clock : Clock := default
  uuid : String := ""
  pg : List (Option Bool) := []

/-! ## The broker -/

/-- `AioMqttGateway._dispatch`: what is not a JSON object is discarded, and an
exception of the handler goes no further. -/
def dispatch (handler : MqttEvent → UseCase Unit) (topic : String) (payload : Option Json) :
    UseCase Unit :=
  match payload with
  | some (.obj fields) => do
      let _ ← (handler { topic, payload := fields }).attempt
      return
  | _ => return

/-- `mqtt_handler`: inputs of the borne and sensors share the broker. -/
def mqttHandler (broadcaster : Broadcaster) (clock : Clock) (borneId : String)
    (event : MqttEvent) : UseCase Unit :=
  if "/input/".toList <:+: event.topic.toList then
    handleBorneInput borneId event.topic event.payload
  else
    handleMqttEvent broadcaster (some (finishBorneGame clock borneId)) clock.now event

theorem mqttHandler_of_input {event : MqttEvent} (h : "/input/".toList <:+: event.topic.toList)
    (broadcaster : Broadcaster) (clock : Clock) (borneId : String) :
    mqttHandler broadcaster clock borneId event =
      handleBorneInput borneId event.topic event.payload :=
  if_pos h

theorem mqttHandler_of_not_input {event : MqttEvent}
    (h : ¬ "/input/".toList <:+: event.topic.toList) (broadcaster : Broadcaster) (clock : Clock)
    (borneId : String) :
    mqttHandler broadcaster clock borneId event =
      handleMqttEvent broadcaster (some (finishBorneGame clock borneId)) clock.now event :=
  if_neg h

/-! ## Steps -/

/-- The command of a socket of a session (`_handle_session_command`). -/
def sessionCommand (broadcaster : Broadcaster) (command : MatchCommand) (sessionId : String) :
    UseCase Unit :=
  match command with
  | .pause => pauseSession broadcaster sessionId
  | .resume => resumeSession broadcaster (some broadcaster) sessionId
  | .abandon => abandonSession broadcaster sessionId

/-- What a request other than a stretch of a countdown runs. -/
def Event.program (borneId : String) (e : Event) : UseCase Unit :=
  match e.request with
  | .createSession pseudo mode roomCode => do
      let _ ← createSession e.uuid e.clock.now pseudo mode roomCode
      return
  | .readyUp broadcaster sessionId => do
      let _ ← readyUp broadcaster (some broadcaster) sessionId
      return
  | .sessionCommand broadcaster command sessionId => sessionCommand broadcaster command sessionId
  | .mqtt broadcaster topic payload =>
      dispatch (mqttHandler broadcaster e.clock borneId) topic payload
  | .finish sessionId => do
      let _ ← finishAndPersist e.clock sessionId
      return
  | .intent action payload => applyIntent e.uuid e.clock.now borneId action payload
  | .matchCommand command => handleMatchCommand borneId command
  | .relay event => relayEvent e.clock borneId event
  | .countdown _ => return

namespace World

/-- The task with an id, among those that have not finished. -/
def task? (w : World) (id : ℕ) : Option CountdownTask :=
  w.tasks.find? fun t => t.id == id

theorem mem_of_task {w : World} {id : ℕ} {t : CountdownTask} (h : w.task? id = some t) :
    t ∈ w.tasks :=
  List.mem_of_find?_eq_some h

/-- Leave a task with `remaining` values to announce. -/
def sleepTask (w : World) (id : ℕ) (remaining : List ℕ) : World :=
  { w with tasks := w.tasks.map fun t => if t.id = id then { t with remaining } else t }

/-- A task ends. -/
def endTask (w : World) (id : ℕ) : World :=
  { w with tasks := w.tasks.filter fun t => t.id != id }

end World

/-- Whether a call suspends a countdown. -/
def Op.isSleep : Op → Bool
  | sleep => true
  | _ => false

/-- One stretch of a countdown task: the coroutine goes on to its next sleep, or
to its end. -/
def stretch (t : CountdownTask) (w : World) : World :=
  let out := (countdownFrom t.broadcaster t.sessionId t.remaining).runUntil Op.isSleep
    (handle { task := some t.id }) w
  match out.1 with
  | .inl _ => out.2.endTask t.id
  | .inr _ => out.2.sleepTask t.id t.remaining.tail

/-- The application takes one step. -/
def step (borneId : String) (w : World) (e : Event) : World :=
  match e.request with
  | .countdown id =>
      match w.task? id with
      | some t => stretch t w
      | none => w
  | _ => ((e.program borneId).run (handle { pg := e.pg }) w).2

theorem finishCountdown_isSleep (broadcaster : Broadcaster) (sessionId : String) :
    (finishCountdown broadcaster sessionId).All fun op => Op.isSleep op = false := by
  refine Prog.All.bind ((Prog.all_perform _ _).mpr rfl) fun session => ?_
  cases session with
  | none => trivial
  | some s =>
      dsimp only
      split
      · exact Prog.All.bind ((Prog.all_perform _ _).mpr rfl) fun _ =>
          Prog.All.bind ((Prog.all_perform _ _).mpr rfl) fun _ => trivial
      · trivial

/-- A stretch with a value to announce: a tick, then the sleep. -/
theorem stretch_tick {t : CountdownTask} {value : ℕ} {values : List ℕ}
    (ht : t.remaining = value :: values) (w : World) :
    stretch t w = (w.tell (some t.id) t.broadcaster t.sessionId (.countdownTick value)).sleepTask
      t.id values := by
  rw [stretch, ht]
  rfl

/-- The last stretch: the check of the session, then the end of the task. -/
theorem stretch_finish {t : CountdownTask} (ht : t.remaining = []) (w : World) :
    stretch t w = ((finishCountdown t.broadcaster t.sessionId).run
      (handle { task := some t.id }) w).2.endTask t.id := by
  rw [stretch, ht, countdownFrom, Prog.runUntil_of_all _ (finishCountdown_isSleep _ _)]

end FlipperBack
