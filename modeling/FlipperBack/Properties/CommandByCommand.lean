import FlipperBack.Properties.Stores
import FlipperBack.System.RedisExecutions

/-!
# Command by command as call by call

However the executions take turns between the commands of Redis, they do what they do
where each call is one step (`commands_as_calls`): every call is atomic, as the other
commands of it change nothing that the stores hold.
-/

namespace FlipperBack

open Effects Python

section Atomic

variable {borneId : String} {ctx : Context} {v : RedisWorld} {w : World}

/-! ## The commands on what the stores hold -/

theorem wireHandle_hset {key : String} {mapping : Hash} (hnil : Hash.merge [] mapping = mapping)
    (hkey : ∀ value, v.redis key = some value → ∃ data, value = .hash data ∧
      Hash.merge data mapping = mapping) :
    wireHandle ctx (.redis (.hset key mapping)) v = (.ok (), v.set key (some (.hash mapping))) := by
  rw [wireHandle, run_hset hnil hkey]
  rfl

theorem wireHandle_hgetall {key : String} {data : Option Hash}
    (hkey : v.redis key = data.map .hash) :
    wireHandle ctx (.redis (.hgetall key)) v = (.ok (data.getD []), v) := by
  have hread : redisHandle (.hgetall key) v.redis = (.ok (data.getD []), v.redis) := by
    unfold redisHandle
    dsimp only
    rw [hkey]
    cases data <;> rfl
  rw [wireHandle, hread]

theorem wireHandle_rpush {sessionId : String} {events : List Dict}
    (hkey : v.redis (RedisEventBuffer.key sessionId) = bufferValue events) (event : Dict) :
    wireHandle ctx (.redis (.rpush (RedisEventBuffer.key sessionId) (Json.obj event).dumps)) v =
      (.ok (), v.set (RedisEventBuffer.key sessionId) (bufferValue (events ++ [event]))) := by
  rw [bufferValue_of_ne (List.append_ne_nil_of_right_ne_nil events (List.cons_ne_nil event []))]
  unfold wireHandle redisHandle RedisWorld.set
  dsimp only
  by_cases hempty : events = []
  · subst hempty
    rw [hkey, bufferValue_nil]
    rfl
  · rw [hkey, bufferValue_of_ne hempty, List.map_append]
    rfl

theorem wireHandle_lrange {sessionId : String} {events : List Dict}
    (hkey : v.redis (RedisEventBuffer.key sessionId) = bufferValue events) :
    wireHandle ctx (.redis (.lrange (RedisEventBuffer.key sessionId))) v =
      (.ok (events.map fun event => (Json.obj event).dumps), v) := by
  unfold wireHandle redisHandle
  dsimp only
  by_cases hempty : events = []
  · subst hempty
    rw [hkey, bufferValue_nil]
    rfl
  · rw [hkey, bufferValue_of_ne hempty]

/-! ## Every call is atomic -/

/-- The first command of a call has its effect. -/
theorem atomic_call {op : Op} {c : WireOp}
    {k : Except Exc c.Res → Prog Exc WireOp.Res op.Res}
    (h : ∀ v w, v.StandsFor borneId w → ∃ r v', wireHandle ctx c v = (r, v') ∧
      v'.StandsFor borneId (handle ctx op w).2 ∧
        Prog.Settled (wireHandle ctx) (RedisWorld.StandsFor borneId) (handle ctx op w).1 (k r)) :
    Prog.Atomic (wireHandle ctx) (handle ctx) (RedisWorld.StandsFor borneId) op (.call c k) := by
  intro v w hv
  obtain ⟨r, v', hc, hstands, hrest⟩ := h v w hv
  rw [hc]
  exact Or.inr ⟨hstands, hrest⟩

/-- Setting an expiration changes nothing that the stores hold. -/
theorem settled_expire {α : Type} {key : String} {r : Except Exc α}
    {k : Except Exc Unit → Prog Exc WireOp.Res α}
    (h : Prog.Settled (wireHandle ctx) (RedisWorld.StandsFor borneId) r (k (.ok ()))) :
    Prog.Settled (wireHandle ctx) (RedisWorld.StandsFor borneId) r
      (.call (.redis (.expire key)) k) :=
  fun _ _ hv => ⟨hv, h⟩

theorem settled_ofExcept {α : Type} (r : Except Exc α) :
    Prog.Settled (wireHandle ctx) (RedisWorld.StandsFor borneId) r (onWire (Prog.ofExcept r)) := by
  cases r <;> rfl

/-- The hash of a session is written over the one that is there. -/
theorem wireHandle_fields (hv : v.StandsFor borneId w) (s : Session) :
    wireHandle ctx (.redis (.hset (RedisSessionStore.sessionKey s.sessionId) s.fields)) v =
      (.ok (), v.set (RedisSessionStore.sessionKey s.sessionId) (some (.hash s.fields))) := by
  refine wireHandle_hset s.merge_nil_fields fun value hvalue => ?_
  rw [hv.sessions, Option.map_eq_some_iff] at hvalue
  obtain ⟨s', -, rfl⟩ := hvalue
  exact ⟨_, rfl, s'.merge_fields s⟩

theorem atomic_update (s : Session) :
    Prog.Atomic (wireHandle ctx) (handle ctx) (RedisWorld.StandsFor borneId) (.sessionUpdate s)
      (Op.sessionUpdate s).commands := by
  rw [Op.commands]
  split
  · next hwritable =>
      rw [RedisSessionStore.update_of_writable hwritable]
      refine atomic_call fun v w hv => ⟨.ok (), _, wireHandle_fields hv s, ?_, ?_⟩
      · rw [handle_sessionUpdate hwritable]
        exact hv.putSession s
      · rw [handle_sessionUpdate hwritable]
        exact settled_expire rfl
  · next hwritable =>
      refine atomic_call fun v w hv => ⟨.error (.python .valueError), v, ?_, ?_, ?_⟩
      · rw [wireHandle, handle_sessionUpdate_error hwritable]
      · rwa [handle_sessionUpdate_error hwritable]
      · rw [handle_sessionUpdate_error hwritable]
        rfl

theorem atomic_get (sessionId : String) :
    Prog.Atomic (wireHandle ctx) (handle ctx) (RedisWorld.StandsFor borneId)
      (.sessionGet sessionId) (Op.sessionGet sessionId).commands := by
  refine atomic_call fun v w hv => ?_
  have hkey : v.redis (RedisSessionStore.sessionKey sessionId) =
      ((w.sessions sessionId).map Session.fields).map .hash := by
    rw [hv.sessions, Option.map_map]
    rfl
  refine ⟨_, v, wireHandle_hgetall hkey, hv, ?_⟩
  change Prog.Settled _ _ (w.readSession sessionId) _
  unfold World.readSession
  cases w.sessions sessionId with
  | none => rfl
  | some s =>
      refine settled_expire ?_
      change Prog.Settled _ _ ((liftPy (Session.fromHash s.fields)).map some)
        (onWire (Prog.ofExcept (liftPy (Session.fromHash s.fields)) >>=
          fun session => pure (some session)))
      cases liftPy (Session.fromHash s.fields) <;> rfl

theorem atomic_delete (sessionId : String) :
    Prog.Atomic (wireHandle ctx) (handle ctx) (RedisWorld.StandsFor borneId)
      (.sessionDelete sessionId) (Op.sessionDelete sessionId).commands :=
  atomic_call fun _ _ hv => ⟨.ok (), _, rfl, hv.eraseSession sessionId, rfl⟩

theorem atomic_push (sessionId : String) {event : Dict} (hevent : (Json.obj event).WellFormed) :
    Prog.Atomic (wireHandle ctx) (handle ctx) (RedisWorld.StandsFor borneId)
      (.bufferPush sessionId event) (Op.bufferPush sessionId event).commands := by
  refine atomic_call fun v w hv => ⟨.ok (), _, wireHandle_rpush (hv.buffers sessionId) event,
    hv.setBuffer fun e he => ?_, settled_expire rfl⟩
  rcases List.mem_append.mp he with he | he
  · exact hv.events sessionId e he
  · rw [List.mem_singleton.mp he]
    exact hevent

/-- The texts of dicts that a program can hold are read back as these. -/
theorem mapM_loads_dumps {events : List Dict}
    (h : ∀ event ∈ events, (Json.obj event).WellFormed) :
    (events.map fun event => (Json.obj event).dumps).mapM Json.loads = .ok (events.map .obj) := by
  induction events with
  | nil => rfl
  | cons event events ih =>
      obtain ⟨hevent, hevents⟩ := List.forall_mem_cons.mp h
      rw [List.map_cons, List.mapM_cons, Json.loads_dumps hevent, ih hevents]
      rfl

theorem atomic_readAll (sessionId : String) :
    Prog.Atomic (wireHandle ctx) (handle ctx) (RedisWorld.StandsFor borneId)
      (.bufferReadAll sessionId) (Op.bufferReadAll sessionId).commands := by
  refine atomic_call fun v w hv => ⟨_, v, wireHandle_lrange (hv.buffers sessionId), hv, ?_⟩
  change Prog.Settled _ _ (.ok (w.buffers sessionId)) (onWire (Prog.ofExcept (liftPy
    (((w.buffers sessionId).map fun event => (Json.obj event).dumps).mapM Json.loads))) >>=
      fun events => pure (events.map eventDict))
  rw [mapM_loads_dumps (hv.events sessionId)]
  change Except.ok (w.buffers sessionId) =
    .ok (((w.buffers sessionId).map Json.obj).map eventDict)
  rw [List.map_map]
  exact congrArg Except.ok (List.map_id _).symm

theorem atomic_clear (sessionId : String) :
    Prog.Atomic (wireHandle ctx) (handle ctx) (RedisWorld.StandsFor borneId)
      (.bufferClear sessionId) (Op.bufferClear sessionId).commands := by
  refine atomic_call fun v w hv => ⟨.ok (), v.set (RedisEventBuffer.key sessionId) none, rfl,
    ?_, rfl⟩
  have hclear : (v.set (RedisEventBuffer.key sessionId) (bufferValue [])).StandsFor borneId
      (w.setBuffer sessionId []) :=
    hv.setBuffer (by simp)
  rwa [bufferValue_nil] at hclear

theorem atomic_borneUpdate (b : Borne) :
    Prog.Atomic (wireHandle ctx) (handle ctx) (RedisWorld.StandsFor borneId) (.borneUpdate b)
      (Op.borneUpdate b).commands := by
  refine atomic_call fun v w hv => ⟨.ok (), _, wireHandle_hset b.merge_nil_toHash ?_,
    hv.putBorne b, rfl⟩
  intro value hvalue
  rw [hv.bornes, Option.map_eq_some_iff] at hvalue
  obtain ⟨b', -, rfl⟩ := hvalue
  exact ⟨_, rfl, b'.merge_toHash b⟩

/-- The borne is there, so that `get_or_create` reads it and writes nothing. -/
theorem atomic_getOrCreate :
    Prog.Atomic (wireHandle ctx) (handle ctx) (RedisWorld.StandsFor borneId)
      (.borneGetOrCreate borneId) (Op.borneGetOrCreate borneId).commands := by
  refine atomic_call fun v w hv => ?_
  obtain ⟨b, hb⟩ := Option.isSome_iff_exists.mp hv.borne
  have hkey : v.redis (RedisBorneStore.borneKey borneId) = (some b.toHash).map .hash := by
    rw [hv.bornes, hb]
    rfl
  refine ⟨_, v, wireHandle_hgetall hkey, ?_, ?_⟩
  · change v.StandsFor borneId (if (w.bornes borneId).isSome then w else w.putBorne { borneId })
    rw [if_pos hv.borne]
    exact hv
  · change Prog.Settled _ _ (w.readBorne borneId) _
    unfold World.readBorne
    rw [hb]
    exact settled_ofExcept _

/-- The session is created as it is written later. -/
theorem atomic_create (s : Session) :
    Prog.Atomic (wireHandle ctx) (handle ctx) (RedisWorld.StandsFor borneId) (.sessionCreate s)
      (Op.sessionCreate s).commands := by
  rw [Op.commands]
  split
  · next hwritable =>
      have hcreate : RedisSessionStore.create s = RedisSessionStore.update s := rfl
      rw [hcreate, RedisSessionStore.update_of_writable hwritable]
      refine atomic_call fun v w hv => ⟨.ok (), _, wireHandle_fields hv s, ?_, ?_⟩
      · rw [handle_sessionCreate hwritable]
        exact { hv.putSession s with }
      · rw [handle_sessionCreate hwritable]
        exact settled_expire rfl
  · next hwritable =>
      refine atomic_call fun v w hv => ⟨.error (.python .valueError), v, ?_, ?_, ?_⟩
      · rw [wireHandle, handle_sessionCreate_error hwritable]
      · rwa [handle_sessionCreate_error hwritable]
      · rw [handle_sessionCreate_error hwritable]
        rfl

/-- A call that is of no store. -/
def Op.isPort : Op → Bool
  | broadcastToSession _ _ _ => true
  | broadcastToBorne _ _ => true
  | playerGetByPseudo _ => true
  | gameGetBestSoloScore _ => true
  | gamePersistFinishedSession _ _ _ => true
  | createTask _ _ => true
  | sleep => true
  | _ => false

/-- The world behind the other ports answers them as the world does. -/
theorem handle_port {op : Op} (hop : op.isPort = true) (hv : v.StandsFor borneId w) :
    (handle ctx op v.world).1 = (handle ctx op w).1 ∧
      RedisWorld.StandsFor borneId { v with world := (handle ctx op v.world).2 }
        (handle ctx op w).2 := by
  have hemit (e e' : Emission) (he : e.sent = e'.sent) :
      (v.world.outbox ++ [e]).map Emission.sent = (w.outbox ++ [e']).map Emission.sent := by
    rw [List.map_append, List.map_append, hv.outbox, List.map_singleton, he]
    rfl
  cases op with
  | broadcastToSession broadcaster sessionId message =>
      exact ⟨rfl, { hv with outbox := hemit _ _ rfl }⟩
  | broadcastToBorne borneId' message => exact ⟨rfl, { hv with outbox := hemit _ _ rfl }⟩
  | playerGetByPseudo pseudo =>
      refine ⟨?_, hv⟩
      change Except.ok (v.world.player pseudo) = .ok (w.player pseudo)
      rw [World.player, World.player, hv.db]
  | gameGetBestSoloScore playerId =>
      refine ⟨?_, hv⟩
      change Except.ok (v.world.db.bestSoloScore playerId) = .ok (w.db.bestSoloScore playerId)
      rw [hv.db]
  | gamePersistFinishedSession sessionId utcnow finished =>
      simp only [handle, World.record, hv.db, hv.persisted]
      exact ⟨trivial, { hv with db := rfl, persisted := rfl }⟩
  | createTask broadcaster sessionId =>
      refine ⟨rfl, { hv with tasks := ?_ }⟩
      obtain ⟨htasks, hnext⟩ := hv.tasks
      simp only [handle, World.spawn, htasks, hnext]
      exact ⟨trivial, trivial⟩
  | sleep => exact ⟨rfl, hv⟩
  | _ => cases hop

theorem atomic_port {op : Op} (hop : op.isPort = true) :
    Prog.Atomic (wireHandle ctx) (handle ctx) (RedisWorld.StandsFor borneId) op op.commands := by
  have hcommands : op.commands = Prog.perform (WireOp.port op) := by
    cases op <;> first | rfl | cases hop
  rw [hcommands]
  refine atomic_call fun v w hv => ⟨_, _, rfl, (handle_port hop hv).2, ?_⟩
  rw [← (handle_port hop hv).1]
  cases (handle ctx op v.world).1 <;> rfl

theorem atomic_commands {op : Op} (hop : op.Storable borneId) :
    Prog.Atomic (wireHandle ctx) (handle ctx) (RedisWorld.StandsFor borneId) op op.commands := by
  cases op with
  | sessionCreate s => exact atomic_create s
  | sessionGet sessionId => exact atomic_get sessionId
  | sessionUpdate s => exact atomic_update s
  | sessionDelete sessionId => exact atomic_delete sessionId
  | bufferPush sessionId event => exact atomic_push sessionId hop
  | bufferReadAll sessionId => exact atomic_readAll sessionId
  | bufferClear sessionId => exact atomic_clear sessionId
  | borneGetOrCreate id =>
      obtain rfl : id = borneId := hop
      exact atomic_getOrCreate
  | borneUpdate b => exact atomic_borneUpdate b
  | _ => exact atomic_port rfl

end Atomic

/-! ## What the executions store -/

section Storable

variable {borneId : String}

theorem storable_await {op : Op} (hop : op.Storable borneId) :
    (await op).All (Op.Storable borneId) :=
  (Prog.all_perform _ _).mpr hop

theorem storable_switchStatus (allowed : SessionStatus → Bool) (target : SessionStatus)
    {after : UseCase Unit} (hafter : after.All (Op.Storable borneId)) (broadcaster : Broadcaster)
    (sessionId : String) :
    (switchStatus allowed target after broadcaster sessionId).All (Op.Storable borneId) := by
  refine .bind (storable_await trivial) fun session => ?_
  cases session with
  | none => trivial
  | some session =>
      dsimp only
      split
      · exact .bind (storable_await trivial) fun _ => .bind (storable_await trivial) fun _ => hafter
      · trivial

theorem storable_launch (startCountdown : Option Broadcaster) (sessionId : String) :
    (launch startCountdown sessionId).All (Op.Storable borneId) := by
  cases startCountdown with
  | none => trivial
  | some broadcaster => exact storable_await trivial

theorem storable_countdownFrom (broadcaster : Broadcaster) (sessionId : String)
    (values : List ℕ) :
    (countdownFrom broadcaster sessionId values).All (Op.Storable borneId) := by
  induction values with
  | nil => exact storable_switchStatus (· == .ready) .playing (Prog.all_pure _ ()) _ _
  | cons value values ih =>
      exact .bind (storable_await trivial) fun _ => .bind (storable_await trivial) fun _ => ih

theorem storable_createSession (uuid : String) (now : DateTime) (pseudo : String)
    (mode : GameMode) (roomCode : Option String) :
    (createSession uuid now pseudo mode roomCode).All (Op.Storable borneId) :=
  .bind (Prog.all_ofExcept _ _) fun _ =>
    .bind (storable_await trivial) fun _ => trivial

theorem storable_readyUp (broadcaster : Broadcaster) (onReady : Option Broadcaster)
    (sessionId : String) :
    (readyUp broadcaster onReady sessionId).All (Op.Storable borneId) := by
  refine .bind (storable_await trivial) fun session => ?_
  cases session with
  | none => trivial
  | some session =>
      exact .bind (storable_await trivial) fun _ => .bind (storable_await trivial) fun _ =>
        .bind (storable_launch _ _) fun _ => trivial

theorem storable_sessionCommand (broadcaster : Broadcaster) (command : MatchCommand)
    (sessionId : String) :
    (sessionCommand broadcaster command sessionId).All (Op.Storable borneId) := by
  cases command with
  | pause => exact storable_switchStatus (· == .playing) .paused (Prog.all_pure _ ()) _ _
  | resume =>
      exact storable_switchStatus (· == .paused) .ready
        (storable_launch (some broadcaster) sessionId) _ _
  | abandon =>
      exact storable_switchStatus (terminatableStates.contains ·) .over (Prog.all_pure _ ()) _ _

theorem storable_finishAndPersist (clock : Clock) (sessionId : String) :
    (finishAndPersist clock sessionId).All (Op.Storable borneId) := by
  refine .bind (storable_await trivial) fun session => ?_
  cases session with
  | none => trivial
  | some session =>
      have hbest : (previousBestFor session.pseudo session.mode).All (Op.Storable borneId) :=
        (previousBestFor_isLookup _ _).mono fun op hop => by cases op <;> trivial
      exact .bind (storable_await trivial) fun _ => .bind hbest fun _ =>
        .bind (storable_await trivial) fun _ => .bind (storable_await trivial) fun _ =>
          .bind (storable_await trivial) fun _ => trivial

theorem storable_markGameOver : (markGameOver borneId).All (Op.Storable borneId) := by
  refine .bind (storable_await rfl) fun borne => ?_
  split
  · exact .bind (storable_await trivial) fun _ => storable_await trivial
  · trivial

theorem storable_finishBorneGame (clock : Clock) (sessionId : String) :
    (finishBorneGame clock borneId sessionId).All (Op.Storable borneId) := by
  refine .bind (storable_await rfl) fun borne => ?_
  split
  · refine .bind storable_markGameOver fun _ => ?_
    refine .tryCatch (.bind (storable_finishAndPersist clock sessionId) fun _ => trivial) ?_
    intro e
    cases e <;> trivial
  · trivial

theorem storable_startGame (uuid : String) (now : DateTime) (borne : Borne) (payload : Json) :
    (startGame uuid now borne payload).All (Op.Storable borneId) := by
  unfold startGame
  split
  · split
    · trivial
    · exact .bind (storable_createSession _ _ _ _ _) fun _ => .bind (storable_await trivial) fun _ =>
        .bind (storable_await trivial) fun _ => .bind (storable_readyUp _ _ _) fun _ => trivial
  · trivial

theorem storable_applyIntent (uuid : String) (now : DateTime) (action : String)
    (payload : Json) :
    (applyIntent uuid now borneId action payload).All (Op.Storable borneId) := by
  refine .bind (storable_await rfl) fun borne => ?_
  split
  · exact storable_startGame _ _ _ _
  · split
    · trivial
    · exact .bind (storable_await trivial) fun _ => storable_await trivial

theorem storable_handleMatchCommand (command : MatchCommand) :
    (handleMatchCommand borneId command).All (Op.Storable borneId) := by
  refine .bind (storable_await rfl) fun borne => ?_
  cases borne.activeSessionId with
  | none => trivial
  | some sessionId =>
      cases command with
      | pause => exact storable_sessionCommand [.borne] .pause sessionId
      | resume => exact storable_sessionCommand [.borne] .resume sessionId
      | abandon =>
          exact .bind (storable_sessionCommand [.borne] .abandon sessionId) fun _ =>
            storable_markGameOver

theorem storable_relayEvent (clock : Clock) (event : Dict) :
    (relayEvent clock borneId event).All (Op.Storable borneId) := by
  have hfinish (finalScore : Json) :
      (finishBorneGameFromRelay clock borneId finalScore).All (Op.Storable borneId) := by
    refine .bind (storable_await rfl) fun borne => ?_
    cases borne.activeSessionId with
    | none => exact storable_markGameOver
    | some sessionId =>
        refine .bind (storable_await trivial) fun session => ?_
        have hgame : (finishBorneGame clock borneId sessionId).All (Op.Storable borneId) :=
          storable_finishBorneGame clock sessionId
        cases session with
        | none => exact hgame
        | some session =>
            cases finalScore.asPyInt with
            | none => exact hgame
            | some score => exact .bind (storable_await trivial) fun _ => hgame
  unfold relayEvent
  split
  · split
    · refine .bind (storable_await trivial) fun _ => ?_
      split
      · exact hfinish _
      · trivial
    · trivial
  all_goals trivial

theorem wellFormed_bufferedEvent {event : MqttEvent} (h : (Json.obj event.payload).WellFormed)
    (now : DateTime) : (Json.obj (bufferedEvent event now)).WellFormed := by
  have hkeys : ["topic", "payload", "occured_at"].Nodup := by decide
  refine .obj hkeys fun m hm => ?_
  simp only [bufferedEvent, List.mem_cons, List.not_mem_nil, or_false] at hm
  rcases hm with rfl | rfl | rfl
  · exact .str _
  · exact h
  · exact .str _

theorem storable_handleMqttEvent {event : MqttEvent} (h : (Json.obj event.payload).WellFormed)
    (broadcaster : Broadcaster) (clock : Clock) :
    (handleMqttEvent broadcaster (some (finishBorneGame clock borneId)) clock.now event).All
      (Op.Storable borneId) := by
  unfold handleMqttEvent
  split
  · trivial
  · refine .bind (storable_await trivial) fun session => ?_
    cases session with
    | none => trivial
    | some session =>
        dsimp only
        split
        · refine .bind (Prog.all_ofExcept _ _) fun applied => ?_
          rcases applied with _ | ⟨message, session'⟩
          · trivial
          · refine .bind (storable_await trivial) fun _ =>
              .bind (storable_await (wellFormed_bufferedEvent h _)) fun _ =>
                .bind (storable_await trivial) fun _ => ?_
            split
            · exact .bind (storable_await trivial) fun _ => storable_finishBorneGame clock _
            · trivial
        · trivial

theorem storable_handleBorneInput (topic : String) (payload : Dict) :
    (handleBorneInput borneId topic payload).All (Op.Storable borneId) := by
  unfold handleBorneInput handlePlunger handleButton
  repeat' split
  all_goals first | trivial | exact storable_await trivial

theorem storable_mqtt {payload : Option Json} (h : ∀ j, payload = some j → j.WellFormed)
    (broadcaster : Broadcaster) (clock : Clock) (topic : String) :
    (dispatch (mqttHandler broadcaster clock borneId) topic payload).All
      (Op.Storable borneId) := by
  unfold dispatch
  split
  · next fields =>
      refine .bind (.attempt ?_) fun _ => trivial
      unfold mqttHandler
      split
      · exact storable_handleBorneInput _ _
      · exact storable_handleMqttEvent (h _ rfl) _ _
  · trivial

theorem storable_program {job : Job} (hjob : job.Received) :
    (job.program borneId).All (Op.Storable borneId) := by
  cases job with
  | countdown task broadcaster sessionId => exact storable_countdownFrom _ _ _
  | request e =>
      obtain ⟨request, clock, uuid, pg⟩ := e
      cases request with
      | createSession pseudo mode roomCode =>
          exact .bind (storable_createSession _ _ _ _ _) fun _ => trivial
      | readyUp broadcaster sessionId => exact .bind (storable_readyUp _ _ _) fun _ => trivial
      | sessionCommand broadcaster command sessionId => exact storable_sessionCommand _ _ _
      | mqtt broadcaster topic payload =>
          obtain ⟨text, hpayload⟩ := hjob _ _ _ rfl
          refine storable_mqtt (fun j hj => ?_) _ _ _
          cases hloads : Json.loads text with
          | error err => simp [hpayload, hloads, Except.toOption] at hj
          | ok j' =>
              obtain rfl : j' = j := by simpa [hpayload, hloads, Except.toOption] using hj
              exact Json.loads_wellFormed hloads
      | finish sessionId => exact .bind (storable_finishAndPersist _ _) fun _ => trivial
      | intent action payload => exact storable_applyIntent _ _ _ _
      | matchCommand command => exact storable_handleMatchCommand _
      | relay event => exact storable_relayEvent _ _
      | countdown id => trivial

end Storable

/-! ## Every schedule -/

variable {borneId : String} {jobs : List Job} {v : RedisWorld} {w : World}

/-- Whatever the executions and however they take turns command by command: what they
store, send and persist, and how each of them ends, is what they do in some order of
turns call by call, where each call takes the turn of one of its commands. -/
theorem commands_as_calls (hstands : v.StandsFor borneId w)
    (hjobs : ∀ job ∈ jobs, job.Received) (schedule : List ℕ) :
    let low := schedule.foldl (Pool.step wireHandle) (redisExecutions borneId v jobs)
    ∃ calls : List ℕ, calls.Sublist schedule ∧
      let high := calls.foldl (Pool.step handle) (executions borneId w jobs)
      low.state.StandsFor borneId high.state ∧
        ∀ i r, low.outcome i = some r → high.outcome i = some r := by
  intro low
  have hatomic (ctx : Context) (op : Op) (hop : op.Storable borneId) :
      Prog.Atomic (wireHandle ctx) (handle ctx) (RedisWorld.StandsFor borneId) op op.commands :=
    atomic_commands hop
  have hstart : Pool.Expands wireHandle handle (RedisWorld.StandsFor borneId) Op.commands
      (Op.Storable borneId) (redisExecutions borneId v jobs) (executions borneId w jobs) := by
    refine .start hstands fun x hx => ?_
    obtain ⟨job, hjob, rfl⟩ := List.mem_map.mp hx
    exact storable_program (hjobs job hjob)
  obtain ⟨calls, hsub, hpool⟩ := hstart.foldl hatomic schedule
  exact ⟨calls, hsub, hpool.state, fun i r => hpool.outcome hatomic⟩

/-- A new borne and nothing else. -/
theorem standsFor_newBorne (borneId : String) :
    (RedisWorld.set { redis := fun _ => none, world := {} } (RedisBorneStore.borneKey borneId)
      (some (.hash (Borne.toHash { borneId })))).StandsFor borneId
        (World.putBorne {} { borneId }) := by
  have hself : (World.putBorne {} { borneId }).bornes borneId = some { borneId } :=
    (World.bornes {}).get_put_self { borneId }
  have hother {id : String} (hid : id ≠ borneId) :
      (World.putBorne {} { borneId }).bornes id = none :=
    (World.bornes {}).get_put_of_ne (v := { borneId }) hid
  exact
    { sessions := fun id => RedisWorld.set_of_ne (by simp)
      buffers := fun id => (RedisWorld.set_of_ne (by simp)).trans bufferValue_nil.symm
      events := fun id event hevent => (List.not_mem_nil hevent).elim
      bornes := fun id => by
        by_cases hid : id = borneId
        · subst hid
          rw [RedisWorld.set_self, hself]
          rfl
        · rw [RedisWorld.set_of_ne (by simpa using hid), hother hid]
          rfl
      borne := Option.isSome_of_eq_some hself
      db := rfl
      tasks := ⟨rfl, rfl⟩
      outbox := rfl
      persisted := rfl }

/-- Two screens press A at once: both read the borne before either writes it. -/
theorem commands_as_calls_pressed :
    let jobs : List Job := [.request { request := .intent "PRESS_A" .null },
      .request { request := .intent "PRESS_A" .null }]
    let low := [0, 1, 0, 1, 0, 1].foldl (Pool.step wireHandle) (redisExecutions "b"
      (RedisWorld.set { redis := fun _ => none, world := {} } (RedisBorneStore.borneKey "b")
        (some (.hash (Borne.toHash { borneId := "b" })))) jobs)
    ∃ calls : List ℕ, calls.Sublist [0, 1, 0, 1, 0, 1] ∧
      let high := calls.foldl (Pool.step handle)
        (executions "b" (World.putBorne {} { borneId := "b" }) jobs)
      low.state.StandsFor "b" high.state ∧
        ∀ i r, low.outcome i = some r → high.outcome i = some r := by
  intro jobs low
  refine commands_as_calls (standsFor_newBorne "b") (fun job hjob => ?_) [0, 1, 0, 1, 0, 1]
  simp only [jobs, List.mem_cons, List.not_mem_nil, or_false, or_self] at hjob
  subst hjob
  rintro broadcaster topic payload ⟨⟩

/-- Where the borne is not there, the command that creates it may come after another execution
has moved it on. -/
example :
    let jobs : List Job := [.request { request := .matchCommand .pause },
      .request { request := .intent "PRESS_A" .null }]
    let low := [0, 1, 1, 1, 1, 0].foldl (Pool.step wireHandle) (redisExecutions "b"
      { redis := fun _ => none, world := {} } jobs)
    low.outcome 0 = some (.ok ()) ∧ low.outcome 1 = some (.ok ()) ∧
      low.state.redis (RedisBorneStore.borneKey "b") =
        some (.hash (Borne.toHash { borneId := "b", nav := .splash })) := by
  decide +kernel

end FlipperBack
