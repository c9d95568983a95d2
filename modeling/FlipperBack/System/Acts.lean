import FlipperBack.System.Step

/-!
# What a step is made of

Seen from the stores, every request does a few things of a fixed kind: it
creates a session, switches its status, applies an MQTT event to it, writes a
relayed score, flushes it, goes on with a countdown or moves the borne. `Act` is
one such thing, `World.act` its effect and `Act.Enabled` what holds when it is
done. The equations of each field of the world under an act are all that later
invariants look at.
-/

namespace FlipperBack

open Effects Python

/-- The commands that switch the status of a session. -/
inductive Switch
  | ready
  | pause
  | resume
  | abandon
  deriving DecidableEq, Repr

namespace Switch

/-- The statuses in which a command is obeyed. -/
def allowed : Switch → SessionStatus → Bool
  | ready, _ => true
  | pause, status => status == .playing
  | resume, status => status == .paused
  | abandon, status => terminatableStates.contains status

def target : Switch → SessionStatus
  | ready => .ready
  | pause => .paused
  | resume => .ready
  | abandon => .over

/-- Whether a countdown follows. -/
def launches : Switch → Bool
  | ready => true
  | pause => false
  | resume => true
  | abandon => false

end Switch

inductive Act
  | create (s : Session)
  | switch (via : Switch) (broadcaster : Broadcaster) (s : Session)
  | event (broadcaster : Broadcaster) (now : DateTime) (e : MqttEvent) (s s' : Session)
      (message : SessionMessage)
  | score (s : Session) (score : PyInt)
  | flush (pg : List (Option Bool)) (clock : Clock) (s : Session) (ids : ℕ × ℕ × ℕ)
      (db : Database)
  | flushFails (pg : List (Option Bool)) (clock : Clock) (s : Session) (e : Exc) (db : Database)
  | tick (t : CountdownTask) (value : ℕ) (values : List ℕ)
  | start (t : CountdownTask) (s : Session)
  | finish (t : CountdownTask)
  | openBorne (borneId : String)
  | nav (b : Borne)
  | display (borneId : String) (message : BorneMessage)

/-- The session with another status. -/
def Session.to (s : Session) (status : SessionStatus) : Session :=
  { s with status }

@[simp] theorem Session.writable_to (s : Session) (status : SessionStatus) :
    (s.to status).writable = s.writable := rfl

@[simp] theorem Session.readable_to (s : Session) (status : SessionStatus) :
    (s.to status).readable = s.readable := rfl

/-- A session that is seen is written with another status. -/
theorem handle_switch {w : World} {sessionId : String} {s : Session}
    (h : w.seen sessionId = some s) (ctx : Context) (status : SessionStatus) :
    handle ctx (.sessionUpdate { s with status }) w = (.ok (), w.putSession (s.to status)) :=
  handle_sessionUpdate (s := s.to status)
    ((s.writable_to status).trans (World.writable_of_seen h))

/-- The messages that announce an event that left the session at `s'`. -/
def MqttEvent.announced (e : MqttEvent) (message : SessionMessage) (s' : Session) :
    List SessionMessage :=
  message :: if e.topic = topicGameOver then [.matchState s'.status s'.sessionId] else []

namespace World

/-- Send messages about a session one after the other. -/
def tellAll (w : World) (task : Option ℕ) (broadcaster : Broadcaster) (sessionId : String)
    (messages : List SessionMessage) : World :=
  { w with
    outbox := w.outbox ++ messages.map fun message =>
      .session broadcaster sessionId message (w.sessions sessionId) task }

theorem tell_eq_tellAll (w : World) (task : Option ℕ) (broadcaster : Broadcaster)
    (sessionId : String) (message : SessionMessage) :
    w.tell task broadcaster sessionId message = w.tellAll task broadcaster sessionId [message] :=
  rfl

theorem tell_tell (w : World) (task : Option ℕ) (broadcaster : Broadcaster) (sessionId : String)
    (message message' : SessionMessage) :
    (w.tell task broadcaster sessionId message).tell task broadcaster sessionId message' =
      w.tellAll task broadcaster sessionId [message, message'] := by
  simp [tell, emit, tellAll]

/-- Start a countdown where there is one to start. -/
def spawnIf (w : World) (launches : Bool) (broadcaster : Broadcaster) (sessionId : String) :
    World :=
  { w with
    tasks :=
      if launches then
        w.tasks ++ [{ id := w.nextTask, broadcaster, sessionId, remaining := countdownValues }]
      else
        w.tasks
    nextTask := if launches then w.nextTask + 1 else w.nextTask }

def act (w : World) : Act → World
  | .create s => (w.putSession s).issue s.sessionId
  | .switch via broadcaster s =>
      ((w.putSession (s.to via.target)).tell none broadcaster s.sessionId
        (.matchState via.target s.sessionId)).spawnIf via.launches broadcaster s.sessionId
  | .event broadcaster now e s s' message =>
      ((w.putSession s').setBuffer s.sessionId
        (w.buffers s.sessionId ++ [bufferedEvent e now])).tellAll none broadcaster s.sessionId
          (e.announced message s')
  | .score s score => w.putSession { s with score }
  | .flush _ _ s ids db =>
      ((w.record s.sessionId (.ok ids, db)).setBuffer s.sessionId []).eraseSession s.sessionId
  | .flushFails _ _ s e db => w.record s.sessionId (.error e, db)
  | .tick t value values =>
      (w.tell (some t.id) t.broadcaster t.sessionId (.countdownTick value)).sleepTask t.id values
  | .start t s =>
      ((w.putSession (s.to .playing)).tell (some t.id) t.broadcaster t.sessionId
        (.matchState .playing t.sessionId)).endTask t.id
  | .finish t => w.endTask t.id
  | .openBorne borneId => w.putBorne { borneId }
  | .nav b => (w.putBorne b).emit (.borne b.borneId (.navState b.nav b.activeSessionId))
  | .display borneId message => w.emit (.borne borneId message)

end World

/-- What holds when an act is done. -/
def Act.Enabled (w : World) : Act → Prop
  | create s => s.sessionId ≠ "" ∧ s.sessionId ∉ w.issued ∧ s.score = .int 0 ∧
      s.lives = defaultLives ∧ s.combo = 0 ∧ s.status = .waiting
  | switch via _ s => w.seen s.sessionId = some s ∧ via.allowed s.status
  | event _ _ e s s' message => w.seen s.sessionId = some s ∧ s.status = .playing ∧
      e.sessionId? = some s.sessionId ∧ applyEvent e s = .ok (some (message, s')) ∧ s'.writable
  | score s x => w.seen s.sessionId = some s ∧ x.fitsStr
  | flush pg clock s ids db => w.seen s.sessionId = some s ∧
      persist pg clock.utcnow (s.finished clock (w.buffers s.sessionId)) w.db = (.ok ids, db)
  | flushFails pg clock s e db => w.seen s.sessionId = some s ∧
      persist pg clock.utcnow (s.finished clock (w.buffers s.sessionId)) w.db = (.error e, db)
  | tick t value values => w.task? t.id = some t ∧ t.remaining = value :: values
  | start t s => w.task? t.id = some t ∧ t.remaining = [] ∧ w.seen t.sessionId = some s ∧
      s.status = .ready
  | finish t => w.task? t.id = some t ∧ t.remaining = [] ∧
      ∀ s, w.seen t.sessionId = some s → s.status ≠ .ready
  | openBorne borneId => w.bornes borneId = none
  | nav _ => True
  | display _ _ => True

/-- What an act sends. -/
def Act.sent (w : World) : Act → List Emission
  | switch via broadcaster s =>
      [.session broadcaster s.sessionId (.matchState via.target s.sessionId)
        ((w.sessions.put (s.to via.target)) s.sessionId) none]
  | event broadcaster _ e s s' message =>
      (e.announced message s').map fun message =>
        .session broadcaster s.sessionId message ((w.sessions.put s') s.sessionId) none
  | tick t value _ =>
      [.session t.broadcaster t.sessionId (.countdownTick value) (w.sessions t.sessionId)
        (some t.id)]
  | start t s =>
      [.session t.broadcaster t.sessionId (.matchState .playing t.sessionId)
        ((w.sessions.put (s.to .playing)) t.sessionId) (some t.id)]
  | nav b => [.borne b.borneId (.navState b.nav b.activeSessionId)]
  | display borneId message => [.borne borneId message]
  | _ => []

/-! ## The fields of the world under an act -/

namespace World

variable (w : World) (a : Act)

theorem act_sessions : (w.act a).sessions =
    match a with
    | .create s => w.sessions.put s
    | .switch via _ s => w.sessions.put (s.to via.target)
    | .event _ _ _ _ s' _ => w.sessions.put s'
    | .score s score => w.sessions.put { s with score }
    | .flush _ _ s _ _ => w.sessions.erase s.sessionId
    | .start _ s => w.sessions.put (s.to .playing)
    | _ => w.sessions := by
  cases a <;> rfl

theorem act_buffers : (w.act a).buffers =
    match a with
    | .event _ now e s _ _ =>
        Function.update w.buffers s.sessionId (w.buffers s.sessionId ++ [bufferedEvent e now])
    | .flush _ _ s _ _ => Function.update w.buffers s.sessionId []
    | _ => w.buffers := by
  cases a <;> rfl

theorem act_bornes : (w.act a).bornes =
    match a with
    | .openBorne borneId => w.bornes.put { borneId }
    | .nav b => w.bornes.put b
    | _ => w.bornes := by
  cases a <;> rfl

theorem act_db : (w.act a).db =
    match a with
    | .flush _ _ _ _ db => db
    | .flushFails _ _ _ _ db => db
    | _ => w.db := by
  cases a <;> rfl

theorem act_tasks : (w.act a).tasks =
    match a with
    | .switch via broadcaster s =>
        if via.launches then
          w.tasks ++ [{ id := w.nextTask, broadcaster, sessionId := s.sessionId,
                        remaining := countdownValues }]
        else
          w.tasks
    | .tick t _ values => (w.sleepTask t.id values).tasks
    | .start t _ => (w.endTask t.id).tasks
    | .finish t => (w.endTask t.id).tasks
    | _ => w.tasks := by
  cases a <;> rfl

theorem act_nextTask : (w.act a).nextTask =
    match a with
    | .switch via _ _ => if via.launches then w.nextTask + 1 else w.nextTask
    | _ => w.nextTask := by
  cases a <;> rfl

theorem act_issued : (w.act a).issued =
    match a with
    | .create s => w.issued ++ [s.sessionId]
    | _ => w.issued := by
  cases a <;> rfl

theorem act_persisted : (w.act a).persisted =
    match a with
    | .flush _ _ s ids db => (w.record s.sessionId (.ok ids, db)).persisted
    | .flushFails _ _ s e db => (w.record s.sessionId (.error e, db)).persisted
    | _ => w.persisted := by
  cases a <;> rfl

theorem act_outbox : (w.act a).outbox = w.outbox ++ a.sent w := by
  cases a <;> first | rfl | exact (List.append_nil _).symm

end World

end FlipperBack
