import FlipperBack.Domain.Ports
import FlipperBack.Effects.KeyedTable
import FlipperBack.Infrastructure.RedisCodec

/-!
# The world behind the ports

`World` is what the calls read and write: the Redis stores, the database, the
countdown tasks that have not finished and, for the properties that speak of
them, the messages sent, the answers of the repository and the session ids given
out so far. `handle` says what each call answers and does. A session is kept as
it was last written and decoded from its hash on every reading.
-/

namespace FlipperBack

open Effects Python

/-- A task that runs `StartCountdownUseCase.execute`, with the values it has yet
to announce. -/
structure CountdownTask where
  id : ℕ
  broadcaster : Broadcaster
  sessionId : String
  remaining : List ℕ
  deriving DecidableEq, Repr

/-- A message sent. Beside the message, one about a session has the session as
it was stored at that moment and the task it comes from, if any. -/
inductive Emission
  | session (broadcaster : Broadcaster) (sessionId : String) (message : SessionMessage)
      (stored : Option Session) (task : Option ℕ)
  | borne (borneId : String) (message : BorneMessage)

/-- A call of `persist_finished_session`: what it answered and the games it
added. -/
structure Persisted where
  sessionId : String
  result : Except Exc (ℕ × ℕ × ℕ)
  games : List GameRow

structure World where
  sessions : KeyedTable Session.sessionId := .empty
  buffers : String → List Dict := fun _ => []
  bornes : KeyedTable Borne.borneId := .empty
  db : Database := {}
  tasks : List CountdownTask := []
  nextTask : ℕ := 0
  outbox : List Emission := []
  persisted : List Persisted := []
  issued : List String := []

/-- `COUNTDOWN_VALUES`. -/
def countdownValues : List ℕ := [3, 2, 1, 0]

namespace World

/-- `RedisSessionStore.get`. -/
def readSession (w : World) (sessionId : String) : Except Exc (Option Session) :=
  match w.sessions sessionId with
  | none => .ok none
  | some s => (liftPy (Session.fromHash s.fields)).map some

/-- `RedisBorneStore.get_or_create`, the borne it returns. -/
def readBorne (w : World) (borneId : String) : Except Exc Borne :=
  match w.bornes borneId with
  | none => .ok { borneId }
  | some b => liftPy (Borne.fromHash b.toHash)

/-- `PgPlayerRepository.get_by_pseudo`. -/
def player (w : World) (pseudo : String) : Option Player :=
  (w.db.players.find? fun p => p.pseudo == pseudo).map fun p => { id := p.id, pseudo := p.pseudo }

/-! ## What the calls change -/

def putSession (w : World) (s : Session) : World :=
  { w with sessions := w.sessions.put s }

/-- Write a session where `_to_hash` does not raise. -/
def writeSession (w : World) (s : Session) : World :=
  { w with sessions := if s.writable then w.sessions.put s else w.sessions }

def eraseSession (w : World) (sessionId : String) : World :=
  { w with sessions := w.sessions.erase sessionId }

def issue (w : World) (sessionId : String) : World :=
  { w with issued := w.issued ++ [sessionId] }

def issueIf (w : World) (created : Bool) (sessionId : String) : World :=
  { w with issued := if created then w.issued ++ [sessionId] else w.issued }

def setBuffer (w : World) (sessionId : String) (events : List Dict) : World :=
  { w with buffers := Function.update w.buffers sessionId events }

def putBorne (w : World) (b : Borne) : World :=
  { w with bornes := w.bornes.put b }

def emit (w : World) (e : Emission) : World :=
  { w with outbox := w.outbox ++ [e] }

/-- Send a message about a session. -/
def tell (w : World) (task : Option ℕ) (broadcaster : Broadcaster) (sessionId : String)
    (message : SessionMessage) : World :=
  w.emit (.session broadcaster sessionId message (w.sessions sessionId) task)

def spawn (w : World) (broadcaster : Broadcaster) (sessionId : String) : World :=
  { w with
    tasks := w.tasks ++ [{ id := w.nextTask, broadcaster, sessionId, remaining := countdownValues }]
    nextTask := w.nextTask + 1 }

/-- Keep the outcome of `persist_finished_session`. -/
def record (w : World) (sessionId : String)
    (out : Except Exc (ℕ × ℕ × ℕ) × Database) : World :=
  { w with
    db := out.2
    persisted := w.persisted ++
      [{ sessionId, result := out.1, games := out.2.games.drop w.db.games.length }] }

end World

/-- What a call is made under: the SQL statements that fail, and the countdown
task that makes it. -/
structure Context where
  pg : List (Option Bool) := []
  task : Option ℕ := none
  deriving DecidableEq, Repr

/-- What each call answers and does. A session with an integer that `str` does not write
is not written. -/
def handle (ctx : Context) : Handler Exc Op.Res World
  | .sessionCreate s, w =>
      (liftPy (s.toHash.map fun _ => ()), (w.writeSession s).issueIf s.writable s.sessionId)
  | .sessionGet sessionId, w => (w.readSession sessionId, w)
  | .sessionUpdate s, w => (liftPy (s.toHash.map fun _ => ()), w.writeSession s)
  | .sessionDelete sessionId, w => (.ok (), w.eraseSession sessionId)
  | .bufferPush sessionId event, w =>
      (.ok (), w.setBuffer sessionId (w.buffers sessionId ++ [event]))
  | .bufferReadAll sessionId, w => (.ok (w.buffers sessionId), w)
  | .bufferClear sessionId, w => (.ok (), w.setBuffer sessionId [])
  | .borneGetOrCreate borneId, w =>
      (w.readBorne borneId,
        if (w.bornes borneId).isSome then w else w.putBorne { borneId })
  | .borneUpdate b, w => (.ok (), w.putBorne b)
  | .broadcastToSession broadcaster sessionId message, w =>
      (.ok (), w.tell ctx.task broadcaster sessionId message)
  | .broadcastToBorne borneId message, w => (.ok (), w.emit (.borne borneId message))
  | .playerGetByPseudo pseudo, w => (.ok (w.player pseudo), w)
  | .gameGetBestSoloScore playerId, w => (.ok (w.db.bestSoloScore playerId), w)
  | .gamePersistFinishedSession sessionId utcnow finished, w =>
      let out := persist ctx.pg utcnow finished w.db
      (out.1, w.record sessionId out)
  | .createTask broadcaster sessionId, w => (.ok (), w.spawn broadcaster sessionId)
  | .sleep, w => (.ok (), w)

section Writes

variable {s : Session} {ctx : Context} {w : World}

theorem handle_sessionUpdate (h : s.writable) :
    handle ctx (.sessionUpdate s) w = (.ok (), w.putSession s) := by
  rw [handle, World.writeSession, Session.toHash_eq, if_pos h, if_pos h]
  rfl

theorem handle_sessionUpdate_error (h : ¬ s.writable) :
    handle ctx (.sessionUpdate s) w = (.error (.python .valueError), w) := by
  rw [handle, World.writeSession, Session.toHash_eq, if_neg h, if_neg h]
  rfl

theorem handle_sessionCreate (h : s.writable) :
    handle ctx (.sessionCreate s) w = (.ok (), (w.putSession s).issue s.sessionId) := by
  rw [handle, World.writeSession, World.issueIf, Session.toHash_eq, if_pos h, if_pos h, if_pos h]
  rfl

theorem handle_sessionCreate_error (h : ¬ s.writable) :
    handle ctx (.sessionCreate s) w = (.error (.python .valueError), w) := by
  rw [handle, World.writeSession, World.issueIf, Session.toHash_eq, if_neg h, if_neg h, if_neg h]
  rfl

theorem sessions_writeSession_of_ne {id : String} (h : s.sessionId ≠ id) :
    (w.writeSession s).sessions id = w.sessions id := by
  unfold World.writeSession
  dsimp only
  split
  · exact w.sessions.get_put_of_ne h.symm
  · rfl

end Writes

/-! ## What the readings return -/

namespace World

/-- What a use case gets of a session, nothing where it is absent or where its
hash cannot be read. -/
def seen (w : World) (sessionId : String) : Option Session :=
  match w.readSession sessionId with
  | .ok s => s
  | .error _ => none

/-- The borne that `get_or_create` returns. -/
def borne (w : World) (borneId : String) : Borne :=
  match w.bornes borneId with
  | none => { borneId }
  | some b => b.readBack

theorem readSession_eq (w : World) (sessionId : String) :
    w.readSession sessionId =
      match w.sessions sessionId with
      | none => .ok none
      | some s => s.readBack.map some := by
  unfold readSession
  cases w.sessions sessionId with
  | none => rfl
  | some s =>
      dsimp only
      rw [Session.fromHash_fields]

theorem readBorne_eq (w : World) (borneId : String) :
    w.readBorne borneId = .ok (w.borne borneId) := by
  unfold readBorne borne
  cases w.bornes borneId with
  | none => rfl
  | some b => simp [Borne.fromHash_toHash]

/-- A reading returns what is seen, or it raises. -/
theorem readSession_cases (w : World) (sessionId : String) :
    w.readSession sessionId = .ok (w.seen sessionId) ∨
      w.seen sessionId = none ∧ ∃ e, w.readSession sessionId = .error e := by
  unfold seen
  cases h : w.readSession sessionId with
  | ok s => exact Or.inl rfl
  | error e => exact Or.inr ⟨rfl, e, rfl⟩

theorem readSession_of_seen {w : World} {sessionId : String} {s : Session}
    (h : w.seen sessionId = some s) : w.readSession sessionId = .ok (some s) := by
  rcases w.readSession_cases sessionId with hread | ⟨hnone, -⟩
  · rw [hread, h]
  · rw [hnone] at h
    cases h

/-- A session is seen as it was written, an empty room code apart, where it is
readable. -/
theorem seen_eq_some {w : World} {sessionId : String} {s : Session} :
    w.seen sessionId = some s ↔
      ∃ s₀, w.sessions sessionId = some s₀ ∧ s₀.readable ∧
        s = { s₀ with roomCode := noneIfEmpty s₀.roomCode } := by
  rw [seen, readSession_eq]
  cases w.sessions sessionId with
  | none => simp
  | some s₀ =>
      by_cases hscore : s₀.readable
      · simp only [Session.readBack_of_readable hscore, Except.map, Option.some.injEq]
        constructor
        · rintro rfl
          exact ⟨s₀, rfl, hscore, rfl⟩
        · rintro ⟨s₁, rfl, -, rfl⟩
          rfl
      · simp only [Session.readBack_of_not_readable hscore, Except.map, Option.some.injEq]
        constructor
        · intro h
          cases h
        · rintro ⟨s₁, rfl, hint, -⟩
          exact absurd hint hscore

/-- A session that is seen can be written again. -/
theorem writable_of_seen {w : World} {sessionId : String} {s : Session}
    (h : w.seen sessionId = some s) : s.writable := by
  obtain ⟨s₀, -, hreadable, rfl⟩ := seen_eq_some.mp h
  exact s₀.writable_of_readable hreadable

theorem seen_sessionId {w : World} {sessionId : String} {s : Session}
    (h : w.seen sessionId = some s) : s.sessionId = sessionId := by
  obtain ⟨s₀, hs₀, -, rfl⟩ := seen_eq_some.mp h
  exact w.sessions.keyed (v := s₀) hs₀

/-- Where the stored session is readable, nothing is missed. -/
theorem seen_of_stored {w : World} {sessionId : String} {s₀ : Session}
    (h : w.sessions sessionId = some s₀) (hscore : s₀.readable) :
    w.seen sessionId = some { s₀ with roomCode := noneIfEmpty s₀.roomCode } :=
  seen_eq_some.mpr ⟨s₀, h, hscore, rfl⟩

theorem seen_of_absent {w : World} {sessionId : String} (h : w.sessions sessionId = none) :
    w.seen sessionId = none := by
  rw [seen, readSession_eq, h]

/-- What is seen of a session depends on what is stored under its id. -/
theorem seen_congr {w w' : World} {sessionId : String}
    (h : w.sessions sessionId = w'.sessions sessionId) : w.seen sessionId = w'.seen sessionId := by
  rw [seen, seen, readSession_eq, readSession_eq, h]

theorem borneId_borne (w : World) (borneId : String) : (w.borne borneId).borneId = borneId := by
  unfold borne
  cases h : w.bornes borneId with
  | none => rfl
  | some b => exact w.bornes.keyed (v := b) h

theorem borne_congr {w w' : World} {borneId : String}
    (h : w.bornes borneId = w'.bornes borneId) : w.borne borneId = w'.borne borneId := by
  rw [borne, borne, h]

theorem borne_of_stored {w : World} {borneId : String} {b : Borne}
    (h : w.bornes borneId = some b) : w.borne borneId = b.readBack := by
  rw [borne, h]

theorem borne_putBorne (w : World) (b : Borne) : (w.putBorne b).borne b.borneId = b.readBack :=
  borne_of_stored (w.bornes.get_put_self b)

/-- The id of an active session is never empty. -/
theorem activeSessionId_borne (w : World) (borneId : String) :
    (w.borne borneId).activeSessionId ≠ some "" := by
  unfold borne
  cases w.bornes borneId with
  | none => simp
  | some b => exact noneIfEmpty_ne b.activeSessionId

/-- Every call but an update of it leaves a borne as it is read. -/
theorem borne_handle {borneId : String} {op : Op}
    (h : ∀ b, op = .borneUpdate b → b.borneId ≠ borneId) (ctx : Context) (w : World) :
    (handle ctx op w).2.borne borneId = w.borne borneId := by
  cases op with
  | borneUpdate b => exact borne_congr (w.bornes.get_put_of_ne (h b rfl).symm)
  | borneGetOrCreate borneId' =>
      dsimp only [handle]
      split
      · rfl
      · next hnone =>
          by_cases hid : borneId' = borneId
          · subst hid
            have hopened := w.bornes.get_put_self { borneId := borneId' }
            rw [borne_of_stored (b := { borneId := borneId' }) hopened, borne,
              Option.not_isSome_iff_eq_none.mp hnone]
            rfl
          · exact borne_congr (w.bornes.get_put_of_ne (v := { borneId := borneId' })
              fun heq => hid heq.symm)
  | _ => rfl

end World

end FlipperBack
