import FlipperBack.Infrastructure.Redis

/-!
# Three stores in one keyspace

`Stores` is what the Redis stores are for: a map of sessions, a map of event
lists and a map of bornes that know nothing of each other, of strings or of
keys. Every sequence of calls to the three Redis stores is answered as these
maps answer it (`stores_answers`).
-/

namespace FlipperBack

open Effects Python

/-! ## The calls -/

/-- A session whose score is an integer, as its type says, and whose integers `str`
writes. -/
abbrev TypedSession : Type := { s : Session // s.readable }

/-- A dict that a program can hold and write. -/
abbrev JsonEvent : Type := { event : Dict // (Json.obj event).WellFormed }

inductive StoreCall
  | sessionCreate (session : TypedSession)
  | sessionGet (sessionId : String)
  | sessionUpdate (session : TypedSession)
  | sessionDelete (sessionId : String)
  | bufferPush (sessionId : String) (event : JsonEvent)
  | bufferReadAll (sessionId : String)
  | bufferClear (sessionId : String)
  | borneGetOrCreate (borneId : String)
  | borneUpdate (borne : Borne)

@[reducible] def StoreCall.Res : StoreCall → Type
  | sessionGet _ => Option Session
  | bufferReadAll _ => List Json
  | borneGetOrCreate _ => Borne
  | _ => Unit

/-- The commands of a call. -/
def StoreCall.commands : (c : StoreCall) → Commands c.Res
  | sessionCreate session => RedisSessionStore.create session
  | sessionGet sessionId => RedisSessionStore.get sessionId
  | sessionUpdate session => RedisSessionStore.update session
  | sessionDelete sessionId => RedisSessionStore.delete sessionId
  | bufferPush sessionId event => RedisEventBuffer.push sessionId event
  | bufferReadAll sessionId => RedisEventBuffer.readAll sessionId
  | bufferClear sessionId => RedisEventBuffer.clear sessionId
  | borneGetOrCreate borneId => RedisBorneStore.getOrCreate borneId
  | borneUpdate borne => RedisBorneStore.update borne

/-- The Redis stores. -/
def redisStores : Handler Exc StoreCall.Res Keyspace
  | c, ks => c.commands.run redisHandle ks

/-! ## The abstract stores -/

/-- The session last written for each id, the events pushed for each id, and the
borne last written for each id. -/
structure Stores where
  sessions : KeyedTable fun s : TypedSession => s.val.sessionId
  events : String → List JsonEvent
  bornes : KeyedTable Borne.borneId

namespace Stores

def empty : Stores where
  sessions := .empty
  events _ := []
  bornes := .empty

def putSession (t : Stores) (session : TypedSession) : Stores :=
  { t with sessions := t.sessions.put session }

def eraseSession (t : Stores) (sessionId : String) : Stores :=
  { t with sessions := t.sessions.erase sessionId }

def setEvents (t : Stores) (sessionId : String) (events : List JsonEvent) : Stores :=
  { t with events := Function.update t.events sessionId events }

def putBorne (t : Stores) (borne : Borne) : Stores :=
  { t with bornes := t.bornes.put borne }

/-- A session is read as it was written, but an empty room code as none. -/
def session (t : Stores) (sessionId : String) : Option Session :=
  (t.sessions sessionId).map fun s => { s.val with roomCode := noneIfEmpty s.val.roomCode }

/-- A borne is read as it was written, but an empty active session as none; one
that was never written is a new one. -/
def borne (t : Stores) (borneId : String) : Borne :=
  match t.bornes borneId with
  | some b => { b with activeSessionId := noneIfEmpty b.activeSessionId }
  | none => { borneId, nav := .splash, activeSessionId := none }

/-- What each call answers and does. -/
def serve : Handler Exc StoreCall.Res Stores
  | .sessionCreate session, t => (.ok (), t.putSession session)
  | .sessionGet sessionId, t => (.ok (t.session sessionId), t)
  | .sessionUpdate session, t => (.ok (), t.putSession session)
  | .sessionDelete sessionId, t => (.ok (), t.eraseSession sessionId)
  | .bufferPush sessionId event, t => (.ok (), t.setEvents sessionId (t.events sessionId ++ [event]))
  | .bufferReadAll sessionId, t => (.ok ((t.events sessionId).map fun event => .obj event.val), t)
  | .bufferClear sessionId, t => (.ok (), t.setEvents sessionId [])
  | .borneGetOrCreate borneId, t => (.ok (t.borne borneId), t)
  | .borneUpdate borne, t => (.ok (), t.putBorne borne)

end Stores

/-! ## The keyspace holds the stores -/

/-- The value of a session, of the events of one, and of a borne. -/
def sessionValue (s : TypedSession) : RedisValue :=
  .hash s.val.fields

def eventsValue (events : List JsonEvent) : Option RedisValue :=
  if events = [] then none else some (.list (events.map fun event => (Json.obj event.val).dumps))

/-- What Redis keeps of the stores. A borne that was read before it was written
is kept as a new one. -/
structure Keeps (ks : Keyspace) (t : Stores) : Prop where
  sessions : ∀ id, ks (RedisSessionStore.sessionKey id) = (t.sessions id).map sessionValue
  events : ∀ id, ks (RedisEventBuffer.key id) = eventsValue (t.events id)
  bornes : ∀ id, ks (RedisBorneStore.borneKey id) = (t.bornes id).map (.hash ·.toHash) ∨
    t.bornes id = none ∧
      ks (RedisBorneStore.borneKey id) = some (.hash (Borne.toHash { borneId := id }))

namespace Keeps

variable {ks : Keyspace} {t : Stores}

theorem putSession (h : Keeps ks t) (s : TypedSession) :
    Keeps (Function.update ks (RedisSessionStore.sessionKey s.val.sessionId)
      (some (sessionValue s))) (t.putSession s) where
  sessions id := by
    by_cases hid : id = s.val.sessionId
    · subst hid
      rw [Function.update_self, Stores.putSession, KeyedTable.get_put_self t.sessions s]
      rfl
    · rw [Function.update_of_ne (by simpa using hid), Stores.putSession,
        KeyedTable.get_put_of_ne t.sessions hid, h.sessions]
  events id := by
    rw [Function.update_of_ne (by simp)]
    exact h.events id
  bornes id := by
    rw [Function.update_of_ne (by simp)]
    exact h.bornes id

theorem eraseSession (h : Keeps ks t) (sessionId : String) :
    Keeps (Function.update ks (RedisSessionStore.sessionKey sessionId) none)
      (t.eraseSession sessionId) where
  sessions id := by
    by_cases hid : id = sessionId
    · subst hid
      rw [Function.update_self, Stores.eraseSession, KeyedTable.get_erase_self]
      rfl
    · rw [Function.update_of_ne (by simpa using hid), Stores.eraseSession,
        KeyedTable.get_erase_of_ne t.sessions hid, h.sessions]
  events id := by
    rw [Function.update_of_ne (by simp)]
    exact h.events id
  bornes id := by
    rw [Function.update_of_ne (by simp)]
    exact h.bornes id

theorem setEvents (h : Keeps ks t) (sessionId : String) (events : List JsonEvent) :
    Keeps (Function.update ks (RedisEventBuffer.key sessionId) (eventsValue events))
      (t.setEvents sessionId events) where
  sessions id := by
    rw [Function.update_of_ne (by simp)]
    exact h.sessions id
  events id := by
    by_cases hid : id = sessionId
    · subst hid
      have hevents : (t.setEvents id events).events id = events := Function.update_self ..
      rw [Function.update_self, hevents]
    · have hevents : (t.setEvents sessionId events).events id = t.events id :=
        Function.update_of_ne hid ..
      rw [Function.update_of_ne (by simpa using hid), hevents, h.events]
  bornes id := by
    rw [Function.update_of_ne (by simp)]
    exact h.bornes id

theorem putBorne (h : Keeps ks t) (b : Borne) :
    Keeps (Function.update ks (RedisBorneStore.borneKey b.borneId) (some (.hash b.toHash)))
      (t.putBorne b) where
  sessions id := by
    rw [Function.update_of_ne (by simp)]
    exact h.sessions id
  events id := by
    rw [Function.update_of_ne (by simp)]
    exact h.events id
  bornes id := by
    by_cases hid : id = b.borneId
    · subst hid
      rw [Function.update_self, Stores.putBorne, KeyedTable.get_put_self t.bornes b]
      exact Or.inl rfl
    · rw [Function.update_of_ne (by simpa using hid), Stores.putBorne,
        KeyedTable.get_put_of_ne t.bornes hid]
      exact h.bornes id

/-- A borne that is read before it was written. -/
theorem newBorne (h : Keeps ks t) {borneId : String} (hnone : t.bornes borneId = none) :
    Keeps (Function.update ks (RedisBorneStore.borneKey borneId)
      (some (.hash (Borne.toHash { borneId })))) t where
  sessions id := by
    rw [Function.update_of_ne (by simp)]
    exact h.sessions id
  events id := by
    rw [Function.update_of_ne (by simp)]
    exact h.events id
  bornes id := by
    by_cases hid : id = borneId
    · subst hid
      exact Or.inr ⟨hnone, Function.update_self ..⟩
    · rw [Function.update_of_ne (by simpa using hid)]
      exact h.bornes id

end Keeps

theorem keeps_empty : Keeps (fun _ => none) .empty where
  sessions _ := rfl
  events _ := rfl
  bornes _ := Or.inl rfl

/-! ## The commands answer as the stores -/

section Commands

variable {ks : Keyspace} {t : Stores}

/-- Writing a hash whose fields are all written again by every later one. -/
theorem run_hset {key : String} {mapping : Hash} (hnil : Hash.merge [] mapping = mapping)
    (hks : ∀ value, ks key = some value → ∃ data, value = .hash data ∧
      Hash.merge data mapping = mapping) :
    redisHandle (.hset key mapping) ks =
      (.ok (), Function.update ks key (some (.hash mapping))) := by
  cases hkey : ks key with
  | none => simp only [redisHandle, hkey, hnil]
  | some value =>
      obtain ⟨data, rfl, hmerge⟩ := hks value hkey
      simp only [redisHandle, hkey, hmerge]

theorem Keeps.run_sessionWrite (h : Keeps ks t) (s : TypedSession) :
    redisHandle (.hset (RedisSessionStore.sessionKey s.val.sessionId) s.val.fields) ks =
      (.ok (), Function.update ks (RedisSessionStore.sessionKey s.val.sessionId)
        (some (sessionValue s))) := by
  refine run_hset s.val.merge_nil_fields fun value hvalue => ?_
  rw [h.sessions, Option.map_eq_some_iff] at hvalue
  obtain ⟨s', -, rfl⟩ := hvalue
  exact ⟨_, rfl, s'.val.merge_fields s.val⟩

theorem Keeps.run_borneWrite (h : Keeps ks t) (b : Borne) :
    redisHandle (.hset (RedisBorneStore.borneKey b.borneId) b.toHash) ks =
      (.ok (), Function.update ks (RedisBorneStore.borneKey b.borneId)
        (some (.hash b.toHash))) := by
  refine run_hset b.merge_nil_toHash fun value hvalue => ?_
  rcases h.bornes b.borneId with hkey | ⟨-, hkey⟩
  · rw [hkey, Option.map_eq_some_iff] at hvalue
    obtain ⟨b', -, rfl⟩ := hvalue
    exact ⟨_, rfl, b'.merge_toHash b⟩
  · rw [hkey] at hvalue
    obtain rfl := Option.some.inj hvalue
    exact ⟨_, rfl, Borne.merge_toHash _ b⟩

theorem Session.fromHash_typed (s : TypedSession) :
    liftPy (Session.fromHash s.val.fields) =
      .ok { s.val with roomCode := noneIfEmpty s.val.roomCode } := by
  rw [Session.fromHash_fields, Session.readBack_of_readable s.property]

/-- The texts of the events are read back as the events. -/
theorem mapM_loads (events : List JsonEvent) :
    (events.map fun event => (Json.obj event.val).dumps).mapM Json.loads =
      .ok (events.map fun event => .obj event.val) := by
  induction events with
  | nil => rfl
  | cons event events ih =>
      rw [List.map_cons, List.mapM_cons, Json.loads_dumps event.property, ih]
      rfl

theorem Keeps.run_update (h : Keeps ks t) (s : TypedSession) :
    (RedisSessionStore.update s.val).run redisHandle ks =
      (.ok (), Function.update ks (RedisSessionStore.sessionKey s.val.sessionId)
        (some (sessionValue s))) := by
  rw [RedisSessionStore.update_of_writable (Session.writable_of_readable s.property), Prog.run_bind,
    Prog.run_perform, h.run_sessionWrite]
  rfl

theorem Keeps.run_get (h : Keeps ks t) (sessionId : String) :
    (RedisSessionStore.get sessionId).run redisHandle ks = (.ok (t.session sessionId), ks) := by
  have hkey := h.sessions sessionId
  rw [RedisSessionStore.get, Prog.run_bind, Prog.run_perform]
  cases hsession : t.sessions sessionId with
  | none =>
      rw [hsession] at hkey
      have hread : redisHandle (.hgetall (RedisSessionStore.sessionKey sessionId)) ks =
          (.ok [], ks) := by
        simp only [redisHandle, hkey, Option.map_none]
      rw [hread, Stores.session, hsession]
      rfl
  | some s =>
      rw [hsession] at hkey
      have hread : redisHandle (.hgetall (RedisSessionStore.sessionKey sessionId)) ks =
          (.ok s.val.fields, ks) := by
        simp only [redisHandle, hkey, Option.map_some, sessionValue]
      have hne : s.val.fields.isEmpty = false := rfl
      rw [hread, Stores.session, hsession]
      simp only [hne, Session.fromHash_typed s]
      rfl

theorem Keeps.run_push (h : Keeps ks t) (sessionId : String) (event : JsonEvent) :
    (RedisEventBuffer.push sessionId event.val).run redisHandle ks =
      (.ok (), Function.update ks (RedisEventBuffer.key sessionId)
        (eventsValue (t.events sessionId ++ [event]))) := by
  have hkey := h.events sessionId
  have hvalue : eventsValue (t.events sessionId ++ [event]) =
      some (.list ((t.events sessionId ++ [event]).map fun event => (Json.obj event.val).dumps)) :=
    if_neg (by simp)
  rw [RedisEventBuffer.push, Prog.run_bind, Prog.run_perform, hvalue, List.map_append]
  unfold eventsValue at hkey
  split at hkey
  · next hnil => simp only [redisHandle, hkey, hnil]; rfl
  · simp only [redisHandle, hkey]; rfl

theorem Keeps.run_readAll (h : Keeps ks t) (sessionId : String) :
    (RedisEventBuffer.readAll sessionId).run redisHandle ks =
      (.ok ((t.events sessionId).map fun event => .obj event.val), ks) := by
  have hkey := h.events sessionId
  have hread : redisHandle (.lrange (RedisEventBuffer.key sessionId)) ks =
      (.ok ((t.events sessionId).map fun event => (Json.obj event.val).dumps), ks) := by
    unfold eventsValue at hkey
    split at hkey
    · next hnil => simp only [redisHandle, hkey, hnil, List.map_nil]
    · simp only [redisHandle, hkey]
  rw [RedisEventBuffer.readAll, Prog.run_bind, Prog.run_perform, hread]
  simp only [mapM_loads, liftPy_ok, Prog.run_ofExcept]

/-- A borne is read as the stores keep it, and is written as a new one if it was
not. -/
theorem Keeps.run_getOrCreate (h : Keeps ks t) (borneId : String) :
    ((RedisBorneStore.getOrCreate borneId).run redisHandle ks).1 = .ok (t.borne borneId) ∧
      Keeps ((RedisBorneStore.getOrCreate borneId).run redisHandle ks).2 t := by
  have hstored (b : Borne) (hkey : ks (RedisBorneStore.borneKey borneId) = some (.hash b.toHash)) :
      (RedisBorneStore.getOrCreate borneId).run redisHandle ks = (.ok b.readBack, ks) := by
    have hread : redisHandle (.hgetall (RedisBorneStore.borneKey borneId)) ks =
        (.ok b.toHash, ks) := by
      simp only [redisHandle, hkey]
    have hne : b.toHash.isEmpty = false := rfl
    rw [RedisBorneStore.getOrCreate, Prog.run_bind, Prog.run_perform, hread]
    simp only [hne, Borne.fromHash_toHash b]
    rfl
  cases hborne : t.bornes borneId with
  | some b =>
      rcases h.bornes borneId with hkey | ⟨hnone, -⟩
      · rw [hborne] at hkey
        rw [hstored b hkey, Stores.borne, hborne]
        exact ⟨rfl, h⟩
      · rw [hborne] at hnone
        cases hnone
  | none =>
      rw [Stores.borne, hborne]
      rcases h.bornes borneId with hkey | ⟨-, hkey⟩
      · rw [hborne] at hkey
        have hread : redisHandle (.hgetall (RedisBorneStore.borneKey borneId)) ks =
            (.ok [], ks) := by
          simp only [redisHandle, hkey, Option.map_none]
        have hwrite : redisHandle (.hset (RedisBorneStore.borneKey borneId)
            (Borne.toHash { borneId })) ks = (.ok (), Function.update ks
              (RedisBorneStore.borneKey borneId) (some (.hash (Borne.toHash { borneId })))) :=
          h.run_borneWrite { borneId }
        have hrun : (RedisBorneStore.getOrCreate borneId).run redisHandle ks =
            (.ok { borneId }, Function.update ks (RedisBorneStore.borneKey borneId)
              (some (.hash (Borne.toHash { borneId })))) := by
          rw [RedisBorneStore.getOrCreate, Prog.run_bind, Prog.run_perform, hread]
          simp only [List.isEmpty_nil, Bool.not_true]
          rw [if_neg Bool.false_ne_true, RedisBorneStore.update, Prog.run_bind, Prog.run_perform,
            hwrite]
          rfl
        rw [hrun]
        exact ⟨rfl, h.newBorne hborne⟩
      · rw [hstored { borneId } hkey]
        exact ⟨rfl, h⟩

/-- Every call is answered as the abstract stores answer it, and the keyspace
holds what they hold. -/
theorem redisStores_serve (c : StoreCall) (ks : Keyspace) (t : Stores) (h : Keeps ks t) :
    (redisStores c ks).1 = (Stores.serve c t).1 ∧
      Keeps (redisStores c ks).2 (Stores.serve c t).2 := by
  cases c with
  | sessionCreate session =>
      rw [redisStores, StoreCall.commands, RedisSessionStore.create, ← RedisSessionStore.update,
        h.run_update session]
      exact ⟨rfl, h.putSession session⟩
  | sessionGet sessionId =>
      rw [redisStores, StoreCall.commands, h.run_get]
      exact ⟨rfl, h⟩
  | sessionUpdate session =>
      rw [redisStores, StoreCall.commands, h.run_update session]
      exact ⟨rfl, h.putSession session⟩
  | sessionDelete sessionId => exact ⟨rfl, h.eraseSession sessionId⟩
  | bufferPush sessionId event =>
      rw [redisStores, StoreCall.commands, h.run_push]
      exact ⟨rfl, h.setEvents sessionId _⟩
  | bufferReadAll sessionId =>
      rw [redisStores, StoreCall.commands, h.run_readAll]
      exact ⟨rfl, h⟩
  | bufferClear sessionId => exact ⟨rfl, h.setEvents sessionId []⟩
  | borneGetOrCreate borneId => exact h.run_getOrCreate borneId
  | borneUpdate borne =>
      rw [redisStores, StoreCall.commands, RedisBorneStore.update, Prog.run_perform,
        h.run_borneWrite borne]
      exact ⟨rfl, h.putBorne borne⟩

end Commands

/-- Every sequence of calls to the Redis stores is answered as three abstract
stores answer it. -/
theorem stores_answers (calls : List StoreCall) :
    Prog.answers redisStores calls (fun _ => none) = Prog.answers Stores.serve calls .empty :=
  Prog.answers_sim redisStores_serve calls keeps_empty

/-! ## The stores of the world -/

/-- The call of a port that a call of a store is. -/
def StoreCall.op : StoreCall → Op
  | sessionCreate session => .sessionCreate session
  | sessionGet sessionId => .sessionGet sessionId
  | sessionUpdate session => .sessionUpdate session
  | sessionDelete sessionId => .sessionDelete sessionId
  | bufferPush sessionId event => .bufferPush sessionId event
  | bufferReadAll sessionId => .bufferReadAll sessionId
  | bufferClear sessionId => .bufferClear sessionId
  | borneGetOrCreate borneId => .borneGetOrCreate borneId
  | borneUpdate borne => .borneUpdate borne

/-- The answer of the store that an answer of the port is. -/
def StoreCall.answer : (c : StoreCall) → c.op.Res → c.Res
  | sessionCreate _, a => a
  | sessionGet _, a => a
  | sessionUpdate _, a => a
  | sessionDelete _, a => a
  | bufferPush _ _, a => a
  | bufferReadAll _, a => a.map .obj
  | bufferClear _, a => a
  | borneGetOrCreate _, a => a
  | borneUpdate _, a => a

/-- A world that holds what the stores hold. -/
structure World.Holds (w : World) (t : Stores) : Prop where
  sessions : ∀ id, w.sessions id = (t.sessions id).map Subtype.val
  events : ∀ id, w.buffers id = (t.events id).map Subtype.val
  bornes : ∀ id, w.bornes id = t.bornes id ∨
    t.bornes id = none ∧ w.bornes id = some { borneId := id }

namespace World.Holds

variable {w : World} {t : Stores}

theorem putSession (h : w.Holds t) (s : TypedSession) :
    (w.putSession s).Holds (t.putSession s) where
  sessions id := by
    by_cases hid : id = s.val.sessionId
    · subst hid
      exact (w.sessions.get_put_self s.val).trans
        (congrArg (Option.map Subtype.val) (t.sessions.get_put_self s)).symm
    · exact (w.sessions.get_put_of_ne hid).trans ((h.sessions id).trans
        (congrArg (Option.map Subtype.val) (t.sessions.get_put_of_ne hid)).symm)
  events := h.events
  bornes := h.bornes

theorem eraseSession (h : w.Holds t) (sessionId : String) :
    (w.eraseSession sessionId).Holds (t.eraseSession sessionId) where
  sessions id := by
    by_cases hid : id = sessionId
    · subst hid
      exact (w.sessions.get_erase_self id).trans
        (congrArg (Option.map Subtype.val) (t.sessions.get_erase_self id)).symm
    · exact (w.sessions.get_erase_of_ne hid).trans ((h.sessions id).trans
        (congrArg (Option.map Subtype.val) (t.sessions.get_erase_of_ne hid)).symm)
  events := h.events
  bornes := h.bornes

theorem setBuffer (h : w.Holds t) (sessionId : String) (events : List JsonEvent) :
    (w.setBuffer sessionId (events.map Subtype.val)).Holds (t.setEvents sessionId events) where
  sessions := h.sessions
  events id := by
    by_cases hid : id = sessionId
    · subst hid
      have ht : (t.setEvents id events).events id = events := Function.update_self ..
      rw [ht]
      exact Function.update_self ..
    · have ht : (t.setEvents sessionId events).events id = t.events id :=
        Function.update_of_ne hid ..
      rw [ht, ← h.events]
      exact Function.update_of_ne hid ..
  bornes := h.bornes

theorem putBorne (h : w.Holds t) (b : Borne) : (w.putBorne b).Holds (t.putBorne b) where
  sessions := h.sessions
  events := h.events
  bornes id := by
    by_cases hid : id = b.borneId
    · subst hid
      exact Or.inl ((w.bornes.get_put_self b).trans (t.bornes.get_put_self b).symm)
    · have hw : (w.putBorne b).bornes id = w.bornes id := w.bornes.get_put_of_ne hid
      have ht : (t.putBorne b).bornes id = t.bornes id := t.bornes.get_put_of_ne hid
      rw [hw, ht]
      exact h.bornes id

theorem readSession (h : w.Holds t) (sessionId : String) :
    w.readSession sessionId = .ok (t.session sessionId) := by
  rw [readSession_eq, h.sessions, Stores.session]
  cases t.sessions sessionId with
  | none => rfl
  | some s => exact congrArg (Except.map some) (Session.readBack_of_readable s.property)

theorem readBorne (h : w.Holds t) (borneId : String) :
    w.readBorne borneId = .ok (t.borne borneId) := by
  rw [readBorne_eq, World.borne, Stores.borne]
  rcases h.bornes borneId with hborne | ⟨hnone, hborne⟩
  · rw [hborne]
    cases t.bornes borneId <;> rfl
  · rw [hborne, hnone]
    rfl

theorem getOrCreate (h : w.Holds t) (borneId : String) :
    (if (w.bornes borneId).isSome then w else w.putBorne { borneId }).Holds t := by
  split
  · exact h
  · next hsome =>
      have hw : w.bornes borneId = none := Option.not_isSome_iff_eq_none.mp hsome
      refine ⟨h.sessions, h.events, fun id => ?_⟩
      by_cases hid : id = borneId
      · subst hid
        rcases h.bornes id with hborne | ⟨-, hborne⟩
        · exact Or.inr ⟨hborne.symm.trans hw, w.bornes.get_put_self { borneId := id }⟩
        · rw [hw] at hborne
          cases hborne
      · have hput : (w.putBorne { borneId }).bornes id = w.bornes id :=
          w.bornes.get_put_of_ne (v := { borneId }) hid
        rw [hput]
        exact h.bornes id

end World.Holds

/-- The ports of the world answer as the stores too, so that Redis and the world
answer alike. -/
theorem handle_serve (ctx : Context) (c : StoreCall) {w : World} {t : Stores} (h : w.Holds t) :
    (handle ctx c.op w).1.map c.answer = (Stores.serve c t).1 ∧
      (handle ctx c.op w).2.Holds (Stores.serve c t).2 := by
  cases c with
  | sessionCreate session =>
      have hput := h.putSession session
      have hwrite : handle ctx (StoreCall.sessionCreate session).op w =
          (.ok (), (w.putSession session.val).issue session.val.sessionId) :=
        handle_sessionCreate (Session.writable_of_readable session.property)
      rw [hwrite]
      exact ⟨rfl, hput.sessions, hput.events, hput.bornes⟩
  | sessionGet sessionId => exact ⟨congrArg (Except.map id) (h.readSession sessionId), h⟩
  | sessionUpdate session =>
      have hwrite : handle ctx (StoreCall.sessionUpdate session).op w =
          (.ok (), w.putSession session.val) :=
        handle_sessionUpdate (Session.writable_of_readable session.property)
      rw [hwrite]
      exact ⟨rfl, h.putSession session⟩
  | sessionDelete sessionId => exact ⟨rfl, h.eraseSession sessionId⟩
  | bufferPush sessionId event =>
      refine ⟨rfl, ?_⟩
      have hevents : w.buffers sessionId ++ [event.val] =
          (t.events sessionId ++ [event]).map Subtype.val := by
        rw [h.events, List.map_append]
        rfl
      have hset := h.setBuffer sessionId (t.events sessionId ++ [event])
      rw [← hevents] at hset
      exact hset
  | bufferReadAll sessionId =>
      have hread : (w.buffers sessionId).map Json.obj =
          (t.events sessionId).map fun event => Json.obj event.val := by
        rw [h.events, List.map_map]
        rfl
      exact ⟨congrArg Except.ok hread, h⟩
  | bufferClear sessionId => exact ⟨rfl, h.setBuffer sessionId []⟩
  | borneGetOrCreate borneId =>
      exact ⟨congrArg (Except.map id) (h.readBorne borneId), h.getOrCreate borneId⟩
  | borneUpdate borne => exact ⟨rfl, h.putBorne borne⟩

end FlipperBack
