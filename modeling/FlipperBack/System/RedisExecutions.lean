import FlipperBack.Effects.Atomic
import FlipperBack.Infrastructure.Redis
import FlipperBack.Python.JsonReads
import FlipperBack.System.Interleaving

/-!
# Executions command by command

A call of a store is a program over the commands of Redis, and the event loop may go on
with another execution between two of them. `WireOp` is what an execution awaits then: a
command, or a call of another port. Every call is atomic all the same (`atomic_commands`),
but for `get_or_create` on a borne that is not there, whose two commands another
execution may come between.
-/

namespace FlipperBack

open Effects Python

/-! ## Commands and calls -/

inductive WireOp
  | redis (op : RedisOp)
  | port (op : Op)

@[reducible] def WireOp.Res : WireOp → Type
  | redis op => op.Res
  | port op => op.Res

/-- Redis, and the world behind the other ports. The stores of `world` are not used. -/
structure RedisWorld where
  redis : Keyspace
  world : World

/-- The world with another value of a key. -/
def RedisWorld.set (v : RedisWorld) (key : String) (value : Option RedisValue) : RedisWorld where
  redis := Function.update v.redis key value
  world := v.world

@[simp] theorem RedisWorld.set_self (v : RedisWorld) (key : String) (value : Option RedisValue) :
    (v.set key value).redis key = value :=
  Function.update_self ..

theorem RedisWorld.set_of_ne {v : RedisWorld} {key key' : String} {value : Option RedisValue}
    (h : key' ≠ key) : (v.set key value).redis key' = v.redis key' :=
  Function.update_of_ne h ..

/-- What each command and each call of another port answers and does. -/
def wireHandle (ctx : Context) : Handler Exc WireOp.Res RedisWorld
  | .redis op, v => ((redisHandle op v.redis).1, { v with redis := (redisHandle op v.redis).2 })
  | .port op, v => ((handle ctx op v.world).1, { v with world := (handle ctx op v.world).2 })

/-- The commands of a store. -/
def onWire {α : Type} (p : Commands α) : Prog Exc WireOp.Res α :=
  p.embed .redis fun _ r => r

/-- An event of a buffer, which is a dict. -/
def eventDict : Json → Dict
  | .obj event => event
  | _ => []

/-- The commands of a call of a store; a call of another port is made as it is. A write
of a session that `_to_hash` refuses makes no command: it raises in a step that changes
nothing. -/
def Op.commands : (op : Op) → Prog Exc WireOp.Res op.Res
  | sessionCreate session =>
      if session.writable then onWire (RedisSessionStore.create session)
      else Prog.perform (WireOp.port (.sessionCreate session))
  | sessionGet sessionId => onWire (RedisSessionStore.get sessionId)
  | sessionUpdate session =>
      if session.writable then onWire (RedisSessionStore.update session)
      else Prog.perform (WireOp.port (.sessionUpdate session))
  | sessionDelete sessionId => onWire (RedisSessionStore.delete sessionId)
  | bufferPush sessionId event => onWire (RedisEventBuffer.push sessionId event)
  | bufferReadAll sessionId => do
      let events ← onWire (RedisEventBuffer.readAll sessionId)
      return events.map eventDict
  | bufferClear sessionId => onWire (RedisEventBuffer.clear sessionId)
  | borneGetOrCreate borneId => onWire (RedisBorneStore.getOrCreate borneId)
  | borneUpdate borne => onWire (RedisBorneStore.update borne)
  | op => Prog.perform (WireOp.port op)

/-- Executions in flight, command by command. -/
abbrev RedisExecutions : Type := Pool Exc WireOp.Res Context RedisWorld

/-- Jobs that have not made a command yet; each makes its calls by their commands. -/
def redisExecutions (borneId : String) (v : RedisWorld) (jobs : List Job) : RedisExecutions :=
  { state := v
    threads := (executions borneId v.world jobs).threads.map fun t =>
      (t.1, t.2.expand Op.commands) }

/-- The store can keep what a call writes, and the borne that it reads is `borneId`. -/
def Op.Storable (borneId : String) : Op → Prop
  | bufferPush _ event => (Json.obj event).WellFormed
  | borneGetOrCreate id => id = borneId
  | _ => True

/-- The payload of a message of the broker is what `json.loads` makes of a text. -/
def Job.Received : Job → Prop
  | request e => ∀ broadcaster topic payload, e.request = .mqtt broadcaster topic payload →
      ∃ text : String, payload = (Json.loads text).toOption
  | countdown _ _ _ => True

/-! ## What Redis and the world behind it stand for -/

/-- The message without what was stored when it was sent. -/
def Emission.sent : Emission → Emission
  | session broadcaster sessionId message _ task => session broadcaster sessionId message none task
  | e => e

/-- The events of a session in Redis, which has no empty lists. -/
def bufferValue (events : List Dict) : Option RedisValue :=
  if events = [] then none else some (.list (events.map fun event => (Json.obj event).dumps))

theorem bufferValue_nil : bufferValue [] = none := if_pos rfl

theorem bufferValue_of_ne {events : List Dict} (h : events ≠ []) :
    bufferValue events = some (.list (events.map fun event => (Json.obj event).dumps)) :=
  if_neg h

/-- The stores of the world are those in Redis, and the rest is alike. -/
structure RedisWorld.StandsFor (borneId : String) (v : RedisWorld) (w : World) : Prop where
  sessions : ∀ id, v.redis (RedisSessionStore.sessionKey id) =
    (w.sessions id).map fun s => .hash s.fields
  buffers : ∀ id, v.redis (RedisEventBuffer.key id) = bufferValue (w.buffers id)
  events : ∀ id, ∀ event ∈ w.buffers id, (Json.obj event).WellFormed
  bornes : ∀ id, v.redis (RedisBorneStore.borneKey id) =
    (w.bornes id).map fun b => .hash b.toHash
  borne : (w.bornes borneId).isSome
  db : v.world.db = w.db
  tasks : v.world.tasks = w.tasks ∧ v.world.nextTask = w.nextTask
  outbox : v.world.outbox.map Emission.sent = w.outbox.map Emission.sent
  persisted : v.world.persisted = w.persisted

namespace RedisWorld.StandsFor

variable {borneId : String} {v : RedisWorld} {w : World}

theorem putSession (h : v.StandsFor borneId w) (s : Session) :
    (v.set (RedisSessionStore.sessionKey s.sessionId) (some (.hash s.fields))).StandsFor borneId
      (w.putSession s) :=
  { h with
    sessions := fun id => by
      by_cases hid : id = s.sessionId
      · subst hid
        have hput : (w.putSession s).sessions s.sessionId = some s := w.sessions.get_put_self s
        rw [RedisWorld.set_self, hput]
        rfl
      · have hput : (w.putSession s).sessions id = w.sessions id := w.sessions.get_put_of_ne hid
        rw [RedisWorld.set_of_ne (by simpa using hid), hput, h.sessions]
    buffers := fun id => by
      rw [RedisWorld.set_of_ne (by simp)]
      exact h.buffers id
    bornes := fun id => by
      rw [RedisWorld.set_of_ne (by simp)]
      exact h.bornes id }

theorem eraseSession (h : v.StandsFor borneId w) (sessionId : String) :
    (v.set (RedisSessionStore.sessionKey sessionId) none).StandsFor borneId
      (w.eraseSession sessionId) :=
  { h with
    sessions := fun id => by
      by_cases hid : id = sessionId
      · subst hid
        have herase : (w.eraseSession id).sessions id = none := w.sessions.get_erase_self id
        rw [RedisWorld.set_self, herase]
        rfl
      · have herase : (w.eraseSession sessionId).sessions id = w.sessions id :=
          w.sessions.get_erase_of_ne hid
        rw [RedisWorld.set_of_ne (by simpa using hid), herase, h.sessions]
    buffers := fun id => by
      rw [RedisWorld.set_of_ne (by simp)]
      exact h.buffers id
    bornes := fun id => by
      rw [RedisWorld.set_of_ne (by simp)]
      exact h.bornes id }

theorem setBuffer (h : v.StandsFor borneId w) {sessionId : String} {events : List Dict}
    (hevents : ∀ event ∈ events, (Json.obj event).WellFormed) :
    (v.set (RedisEventBuffer.key sessionId) (bufferValue events)).StandsFor borneId
      (w.setBuffer sessionId events) := by
  have hself : (w.setBuffer sessionId events).buffers sessionId = events :=
    Function.update_self ..
  have hother {id : String} (hid : id ≠ sessionId) :
      (w.setBuffer sessionId events).buffers id = w.buffers id :=
    Function.update_of_ne hid ..
  exact
    { h with
      sessions := fun id => by
        rw [RedisWorld.set_of_ne (by simp)]
        exact h.sessions id
      buffers := fun id => by
        by_cases hid : id = sessionId
        · subst hid
          rw [RedisWorld.set_self, hself]
        · rw [RedisWorld.set_of_ne (by simpa using hid), hother hid, h.buffers]
      events := fun id event hevent => by
        by_cases hid : id = sessionId
        · subst hid
          rw [hself] at hevent
          exact hevents event hevent
        · rw [hother hid] at hevent
          exact h.events id event hevent
      bornes := fun id => by
        rw [RedisWorld.set_of_ne (by simp)]
        exact h.bornes id }

theorem putBorne (h : v.StandsFor borneId w) (b : Borne) :
    (v.set (RedisBorneStore.borneKey b.borneId) (some (.hash b.toHash))).StandsFor borneId
      (w.putBorne b) := by
  have hself : (w.putBorne b).bornes b.borneId = some b := w.bornes.get_put_self b
  have hother {id : String} (hid : id ≠ b.borneId) : (w.putBorne b).bornes id = w.bornes id :=
    w.bornes.get_put_of_ne hid
  exact
    { h with
      sessions := fun id => by
        rw [RedisWorld.set_of_ne (by simp)]
        exact h.sessions id
      buffers := fun id => by
        rw [RedisWorld.set_of_ne (by simp)]
        exact h.buffers id
      bornes := fun id => by
        by_cases hid : id = b.borneId
        · subst hid
          rw [RedisWorld.set_self, hself]
          rfl
        · rw [RedisWorld.set_of_ne (by simpa using hid), hother hid, h.bornes]
      borne := by
        by_cases hid : borneId = b.borneId
        · subst hid
          exact Option.isSome_of_eq_some hself
        · rw [hother hid]
          exact h.borne }

end RedisWorld.StandsFor

end FlipperBack
