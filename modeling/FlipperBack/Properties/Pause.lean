import FlipperBack.Properties.Countdown
import FlipperBack.Properties.Readable
import FlipperBack.System.Moments

/-!
# Pauses

A `cmd:pause` pauses the session that is played. Until it is played again it keeps every
field but its status, whatever the sensors send and whatever commands, countdowns and
stretches of time come in between; its buffer keeps its events until it expires, for
nothing puts its deadline off meanwhile, while the requests put off that of the session
(`pause_identity`).
-/

namespace FlipperBack

open Effects Python

/-! ## Requests -/

/-- The request is a `cmd:pause` to the session `id`. -/
def Event.Pauses (borneId : String) (w : World) (id : String) (e : Event) : Prop :=
  match e.request with
  | .sessionCommand _ .pause sessionId => sessionId = id
  | .matchCommand .pause => (w.borne borneId).activeSessionId = some id
  | _ => False

/-- A message of the broker, a `cmd:pause` or a `cmd:resume`, or a stretch of a
countdown, about any session. -/
def Event.InPause (e : Event) : Prop :=
  match e.request with
  | .mqtt _ _ _ => True
  | .sessionCommand _ command _ => command ≠ .abandon
  | .matchCommand command => command ≠ .abandon
  | .countdown _ => True
  | _ => False

instance : (e : Event) → Decidable e.InPause
  | { request := .mqtt _ _ _, .. } => isTrue trivial
  | { request := .sessionCommand _ command _, .. } =>
      inferInstanceAs (Decidable (command ≠ .abandon))
  | { request := .matchCommand command, .. } => inferInstanceAs (Decidable (command ≠ .abandon))
  | { request := .countdown _, .. } => isTrue trivial
  | { request := .createSession _ _ _, .. } => isFalse id
  | { request := .readyUp _ _, .. } => isFalse id
  | { request := .finish _, .. } => isFalse id
  | { request := .intent _ _, .. } => isFalse id
  | { request := .relay _, .. } => isFalse id

/-! ## What a pause keeps -/

/-- The session is `s` but for its status, which is one of a pause, unless it has
expired, and `buffer` is buffered for it. -/
structure World.Frozen (w : World) (s : Session) (buffer : List Dict) : Prop where
  seen : w.sessions s.sessionId = none ∨
    ∃ status ∈ [SessionStatus.paused, .ready, .playing], w.seen s.sessionId = some (s.to status)
  buffers : w.buffers s.sessionId = buffer

/-- An act about the session `id` pauses it, resumes it or goes on with one of its
countdowns. -/
def Act.KeepsPause (id : String) (a : Act) : Prop :=
  a.about = some id →
    match a with
    | switch via _ _ => via = .pause ∨ via = .resume
    | tick _ _ _ => True
    | start _ _ => True
    | finish _ => True
    | _ => False

section Frozen

variable {w : World} {s : Session} {buffer : List Dict}

/-- A session that has been read is written and read again with its status changed
only. -/
theorem World.seen_of_written {w' : World} {id : String} {status : SessionStatus}
    (hread : w.seen id = some s) (hwritten : w'.sessions id = some (s.to status)) :
    w'.seen id = some (s.to status) := by
  obtain ⟨s₀, -, hscore, rfl⟩ := World.seen_eq_some.mp hread
  rw [World.seen_of_stored hwritten hscore]
  simp [Session.to]

/-- An act of a session that has expired does not bring it back. -/
theorem absent_of_keepsPause {a : Act} (hnone : w.sessions s.sessionId = none) (ha : a.Enabled w)
    (hkeeps : a.KeepsPause s.sessionId) (hid : a.about = some s.sessionId) :
    (w.act a).sessions s.sessionId = none ∧
      (w.act a).buffers s.sessionId = w.buffers s.sessionId := by
  have hafter := World.act_sessions_about ha hid
  have hkept := hkeeps hid
  have habsent {s' : Session} (hs' : w.seen s.sessionId = some s') : False := by
    obtain ⟨s₀, hs₀, -⟩ := World.seen_eq_some.mp hs'
    rw [hnone] at hs₀
    cases hs₀
  cases a with
  | switch via broadcaster s' => exact (habsent (Option.some.inj hid ▸ ha.1)).elim
  | start t s' => exact (habsent (Option.some.inj hid ▸ ha.2.2.1)).elim
  | tick t value values => exact ⟨hafter.trans hnone, congrFun (World.act_buffers w _) _⟩
  | finish t => exact ⟨hafter.trans hnone, congrFun (World.act_buffers w _) _⟩
  | _ => exact hkept.elim

theorem frozen_act {a : Act} (h : w.Frozen s buffer) (ha : a.Enabled w)
    (hkeeps : a.KeepsPause s.sessionId) : (w.act a).Frozen s buffer := by
  obtain ⟨hseen, hbuffer⟩ := h
  by_cases hid : a.about = some s.sessionId
  · rcases hseen with hnone | ⟨status, hstatus, hseen⟩
    · obtain ⟨hsessions, hbuffers⟩ := absent_of_keepsPause hnone ha hkeeps hid
      exact ⟨Or.inl hsessions, hbuffers.trans hbuffer⟩
    have hafter := World.act_sessions_about ha hid
    have hkept := hkeeps hid
    have hto {s' : Session} (hs' : w.seen s.sessionId = some s') (target : SessionStatus) :
        s'.to target = s.to target := by
      obtain rfl := Option.some.inj (hseen.symm.trans hs')
      rfl
    have hread {target : SessionStatus}
        (hwritten : (w.act a).sessions s.sessionId = some (s.to target)) :
        (w.act a).seen s.sessionId = some (s.to target) :=
      World.seen_of_written (s := s.to status) hseen hwritten
    cases a with
    | switch via broadcaster s' =>
        have hs' : w.seen s.sessionId = some s' := Option.some.inj hid ▸ ha.1
        have hwritten := hafter.trans (congrArg some (hto hs' via.target))
        refine ⟨Or.inr ⟨via.target, ?_, hread hwritten⟩, ?_⟩
        · rcases hkept with rfl | rfl <;> decide
        · exact (congrFun (World.act_buffers w _) _).trans hbuffer
    | tick t value values =>
        refine ⟨Or.inr ⟨status, hstatus, ?_⟩, ?_⟩
        · rw [World.seen_congr hafter, hseen]
        · exact (congrFun (World.act_buffers w _) _).trans hbuffer
    | start t s' =>
        have hs' : w.seen s.sessionId = some s' := Option.some.inj hid ▸ ha.2.2.1
        have hwritten := hafter.trans (congrArg some (hto hs' .playing))
        refine ⟨Or.inr ⟨.playing, by decide, hread hwritten⟩, ?_⟩
        exact (congrFun (World.act_buffers w _) _).trans hbuffer
    | finish t =>
        refine ⟨Or.inr ⟨status, hstatus, ?_⟩, ?_⟩
        · rw [World.seen_congr hafter, hseen]
        · exact (congrFun (World.act_buffers w _) _).trans hbuffer
    | _ => exact hkept.elim
  · refine ⟨?_, by rw [World.act_buffers_of_ne hid, hbuffer]⟩
    rw [World.act_sessions_of_ne ha hid, World.seen_congr (World.act_sessions_of_ne ha hid)]
    exact hseen

end Frozen

/-! ## The requests of a pause -/

section Requests

variable {borneId : String} {w : World} {e : Event} {id : String}

theorem Act.Closes.about {a : Act} {pg : List (Option Bool)} {clock : Clock} {sessionId : String}
    (h : a.Closes pg clock sessionId) (hid : a.about = some id) : sessionId = id := by
  cases a with
  | flush pg' clock' s ids db => exact h.2.2.symm.trans (Option.some.inj hid)
  | flushFails pg' clock' s e db => exact h.2.2.symm.trans (Option.some.inj hid)
  | openBorne borneId => cases hid
  | nav b => cases hid
  | _ => exact h.elim

/-- What a sensor sends does something to a session only while it is played. -/
theorem playing_of_mem_mqttActs {pg : List (Option Bool)} {clock : Clock} {topic : String}
    {broadcaster : Broadcaster} {payload : Option Json} {a : Act}
    (ha : a ∈ mqttActs pg clock borneId broadcaster topic payload w) (hid : a.about = some id) :
    w.status id = some .playing := by
  unfold mqttActs at ha
  split at ha
  · split at ha
    · split at ha
      · obtain rfl := List.mem_singleton.mp ha
        cases hid
      · cases ha
    · unfold mqttEventActs at ha
      split at ha
      · cases ha
      · next sessionId hsessionId =>
          split at ha
          · cases ha
          · next s hseen =>
              obtain rfl := World.seen_sessionId hseen
              have hplaying (hstatus : s.status = .playing) (heq : s.sessionId = id) :
                  w.status id = some .playing := by
                rw [← heq, World.status_of_seen hseen, hstatus]
              split at ha
              · next hstatus =>
                  split at ha
                  · split at ha
                    · rcases mem_andThen ha with ha | ⟨w', rfl, ha⟩
                      · obtain rfl := List.mem_singleton.mp ha
                        exact hplaying hstatus (Option.some.inj hid)
                      · dsimp only at ha
                        split at ha
                        · exact hplaying hstatus ((mem_finishBorneGameActs ha).about hid)
                        · cases ha
                    · cases ha
                  · cases ha
              · cases ha
  · cases ha

theorem keepsPause_of_mem_acts (hpause : e.InPause) (hstatus : w.status id ≠ some .playing)
    {a : Act} (ha : a ∈ e.acts borneId w) : a.KeepsPause id := by
  intro hid
  have hyields := acts_yields ha
  obtain ⟨request, clock, uuid, pg⟩ := e
  have hcommand {command : MatchCommand} (h : command ≠ .abandon) :
      command.toSwitch = .pause ∨ command.toSwitch = .resume := by
    cases command with
    | pause => exact Or.inl rfl
    | resume => exact Or.inr rfl
    | abandon => exact absurd rfl h
  cases request with
  | mqtt broadcaster topic payload => exact absurd (playing_of_mem_mqttActs ha hid) hstatus
  | sessionCommand broadcaster command sessionId =>
      cases a with
      | switch via broadcaster' s => exact hyields.1 ▸ hcommand hpause
      | _ => exact hyields.elim
  | matchCommand command =>
      cases a with
      | switch via broadcaster' s => exact hyields.1 ▸ hcommand hpause
      | openBorne borneId => cases hid
      | nav b => cases hid
      | _ => exact hyields.elim
  | countdown i =>
      cases a with
      | tick t value values => trivial
      | start t s => trivial
      | finish t => trivial
      | _ => exact hyields.elim
  | _ => exact hpause.elim

theorem Event.InPause.fresh (h : e.InPause) (w : World) : e.Fresh w := by
  obtain ⟨request, clock, uuid, pg⟩ := e
  cases request with
  | createSession pseudo mode roomCode => exact h.elim
  | intent action payload => exact h.elim
  | _ => trivial

theorem frozen_step {s : Session} {buffer : List Dict} (h : w.Frozen s buffer)
    (hpause : e.InPause) (hstatus : w.status s.sessionId ≠ some .playing) :
    (step borneId w e).Frozen s buffer :=
  step_invariant (I := fun w => w.Frozen s buffer) (C := fun _ a => a.KeepsPause s.sessionId)
    (fun _ _ hw ha hkeeps => frozen_act hw ha hkeeps) (hpause.fresh w) h
    (Runs.along_of_mem (fun _ ha => keepsPause_of_mem_acts hpause hstatus ha) w)

/-- A `cmd:pause` to a session that is played pauses it. -/
theorem acts_of_pauses {s : Session} (hs : w.seen s.sessionId = some s)
    (hplaying : s.status = .playing) (hpause : e.Pauses borneId w s.sessionId) :
    ∃ broadcaster, e.acts borneId w = [.switch .pause broadcaster s] := by
  have hswitch (broadcaster : Broadcaster) :
      switchActs .pause broadcaster s.sessionId w = [.switch .pause broadcaster s] := by
    rw [switchActs, hs]
    exact if_pos (by rw [hplaying]; rfl)
  obtain ⟨request, clock, uuid, pg⟩ := e
  cases request with
  | sessionCommand broadcaster command sessionId =>
      cases command with
      | pause =>
          obtain rfl : sessionId = s.sessionId := hpause
          exact ⟨broadcaster, hswitch broadcaster⟩
      | _ => exact hpause.elim
  | matchCommand command =>
      cases command with
      | pause =>
          have hactive : (w.borne borneId).activeSessionId = some s.sessionId := hpause
          have hopen : openActs borneId w = [] := by
            unfold openActs
            cases hborne : w.bornes borneId with
            | none =>
                rw [World.borne, hborne] at hactive
                cases hactive
            | some b => rfl
          refine ⟨[.borne], ?_⟩
          change matchCommandActs borneId .pause w = _
          rw [matchCommandActs, Plan.andThen, Runs.andThen, hopen, List.nil_append, List.foldl_nil,
            hactive]
          exact hswitch [.borne]
      | _ => exact hpause.elim
  | _ => exact hpause.elim

theorem Event.Pauses.inPause (h : e.Pauses borneId w id) : e.InPause := by
  obtain ⟨request, clock, uuid, pg⟩ := e
  have hne {command : MatchCommand} (hcommand : command = .pause) : command ≠ .abandon := by
    rw [hcommand]
    decide
  cases request with
  | sessionCommand broadcaster command sessionId =>
      cases command with
      | pause => exact hne rfl
      | _ => exact h.elim
  | matchCommand command =>
      cases command with
      | pause => exact hne rfl
      | _ => exact h.elim
  | _ => exact h.elim

/-- A `cmd:pause` to a session that is played pauses it, and leaves its buffer alone. -/
theorem seen_of_pauses {s : Session} (hs : w.seen s.sessionId = some s)
    (hplaying : s.status = .playing) (hpause : e.Pauses borneId w s.sessionId) :
    (step borneId w e).seen s.sessionId = some (s.to .paused) ∧
      (step borneId w e).buffers s.sessionId = w.buffers s.sessionId := by
  obtain ⟨broadcaster, hacts⟩ := acts_of_pauses hs hplaying hpause
  have henabled : (Act.switch .pause broadcaster s).Enabled w :=
    ⟨hs, by rw [hplaying]; rfl⟩
  rw [step_eq, hacts, List.foldl_cons, List.foldl_nil]
  exact ⟨World.seen_of_written hs (World.act_sessions_about henabled rfl),
    congrFun (World.act_buffers w (.switch .pause broadcaster s)) s.sessionId⟩

theorem counted_inPause (h : w.Counted id) (hw : w.Sound) (hpause : e.InPause) :
    (step borneId w e).Counted id := by
  refine counted_step h hw (hpause.fresh w) ?_ ?_
  · obtain ⟨request, clock, uuid, pg⟩ := e
    cases request with
    | readyUp broadcaster sessionId => exact hpause.elim
    | _ => trivial
  · obtain ⟨request, clock, uuid, pg⟩ := e
    cases request with
    | relay event => exact hpause.elim
    | _ => trivial

end Requests

/-! ## The deadline of the buffer -/

section Deadline

variable {ttl : ℕ} {borneId id : String} {t : TimedWorld} {e : Event}

/-- The use case pushes no event to the buffer of the session `id`. -/
abbrev PushesNone (id : String) {α : Type} (p : UseCase α) : Prop :=
  p.All fun op => op.pushes id = false

theorem pushesNone_of_spares {α : Type} {p : UseCase α} (hp : p.All fun op => op.spares = true) :
    PushesNone id p :=
  hp.mono fun op hop => by
    cases op <;> first | rfl | cases hop

theorem pushesNone_switchStatus (allowed : SessionStatus → Bool) (target : SessionStatus)
    {after : UseCase Unit} (hafter : PushesNone id after) (broadcaster : Broadcaster)
    (sessionId : String) :
    PushesNone id (switchStatus allowed target after broadcaster sessionId) := by
  refine Prog.All.bind ((Prog.all_perform _ _).mpr rfl) fun session => ?_
  cases session with
  | none => trivial
  | some s =>
      dsimp only
      split
      · exact Prog.All.bind ((Prog.all_perform _ _).mpr rfl) fun _ =>
          Prog.All.bind ((Prog.all_perform _ _).mpr rfl) fun _ => hafter
      · trivial

theorem pushesNone_countdownFrom (broadcaster : Broadcaster) (sessionId : String)
    (values : List ℕ) : PushesNone id (countdownFrom broadcaster sessionId values) := by
  induction values with
  | nil => exact pushesNone_switchStatus (· == .ready) .playing (Prog.all_pure _ ()) _ _
  | cons value values ih =>
      exact Prog.All.bind ((Prog.all_perform _ _).mpr rfl) fun _ =>
        Prog.All.bind ((Prog.all_perform _ _).mpr rfl) fun _ => ih

theorem pushesNone_sessionCommand (broadcaster : Broadcaster) (command : MatchCommand)
    (sessionId : String) : PushesNone id (sessionCommand broadcaster command sessionId) := by
  cases command with
  | pause => exact pushesNone_switchStatus (· == .playing) .paused (Prog.all_pure _ ()) _ _
  | resume =>
      have hlaunch : PushesNone id (launch (some broadcaster) sessionId) :=
        (Prog.all_perform _ _).mpr rfl
      exact pushesNone_switchStatus (· == .paused) .ready hlaunch _ _
  | abandon =>
      exact pushesNone_switchStatus (terminatableStates.contains ·) .over (Prog.all_pure _ ()) _ _

theorem pushesNone_handleMatchCommand (borneId : String) (command : MatchCommand) :
    PushesNone id (handleMatchCommand borneId command) := by
  refine Prog.All.bind ((Prog.all_perform _ _).mpr rfl) fun borne => ?_
  cases borne.activeSessionId with
  | none => trivial
  | some sessionId =>
      cases command with
      | pause => exact pushesNone_sessionCommand [.borne] .pause sessionId
      | resume => exact pushesNone_sessionCommand [.borne] .resume sessionId
      | abandon =>
          exact Prog.All.bind (pushesNone_sessionCommand [.borne] .abandon sessionId) fun _ =>
            pushesNone_of_spares (spares_markGameOver borneId)

/-- What a sensor sends for another session is pushed to the buffer of that one. -/
theorem pushesNone_handleMqttEvent {event : MqttEvent} (hid : event.sessionId? ≠ some id)
    (broadcaster : Broadcaster) (clock : Clock) (borneId : String) :
    PushesNone id
      (handleMqttEvent broadcaster (some (finishBorneGame clock borneId)) clock.now event) := by
  unfold handleMqttEvent
  cases hsession : event.sessionId? with
  | none => trivial
  | some sessionId =>
      have hne : Op.pushes id (.bufferPush sessionId (bufferedEvent event clock.now)) = false := by
        rw [hsession] at hid
        simpa [Op.pushes] using hid
      refine Prog.All.bind ((Prog.all_perform _ _).mpr rfl) fun session => ?_
      cases session with
      | none => trivial
      | some s =>
          dsimp only
          split
          · refine Prog.All.bind (Prog.all_ofExcept _ _) fun applied => ?_
            rcases applied with _ | ⟨message, s'⟩
            · trivial
            · refine Prog.All.bind ((Prog.all_perform _ _).mpr rfl) fun _ =>
                Prog.All.bind ((Prog.all_perform _ _).mpr hne) fun _ =>
                  Prog.All.bind ((Prog.all_perform _ _).mpr rfl) fun _ => ?_
              split
              · exact Prog.All.bind ((Prog.all_perform _ _).mpr rfl) fun _ =>
                  pushesNone_of_spares (spares_finishBorneGame _ _ _)
              · trivial
          · trivial

/-- A call that is no push for the session `id` leaves the deadline of its buffer
alone, and takes no time. -/
theorem deadline_handle (ctx : Context) {op : Op} (hop : op.pushes id = false) :
    (timedHandle ttl ctx op t).2.now = t.now ∧
      (timedHandle ttl ctx op t).2.bufferDeadline id = t.bufferDeadline id := by
  cases op with
  | bufferPush sessionId event =>
      have hne : id ≠ sessionId := by
        rintro rfl
        simp [Op.pushes] at hop
      exact ⟨rfl, Function.update_of_ne hne _ _⟩
  | _ => exact ⟨rfl, rfl⟩

theorem deadline_of_pushesNone (hp : PushesNone id (e.program borneId)) :
    (t.request ttl borneId e).now = t.now ∧
      (t.request ttl borneId e).bufferDeadline id = t.bufferDeadline id :=
  TimedWorld.request_keeps (P := fun op => op.pushes id = false)
    (I := fun t' => t'.now = t.now ∧ t'.bufferDeadline id = t.bufferDeadline id)
    (fun ctx op t' hop ht => by
      obtain ⟨hnow, hdeadline⟩ := @deadline_handle ttl id t' ctx op hop
      exact ⟨hnow.trans ht.1, hdeadline.trans ht.2⟩)
    (fun _ _ ht => ht) pushesNone_countdownFrom hp ⟨rfl, rfl⟩

theorem pushesNone_dispatch {handler : MqttEvent → UseCase Unit} {topic : String} {fields : Dict}
    (hp : PushesNone id (handler { topic, payload := fields })) :
    PushesNone id (dispatch handler topic (some (.obj fields))) :=
  Prog.All.bind hp.attempt fun _ => trivial

/-- What a sensor sends for a session that is not played is dropped once its status has
been read. -/
theorem deadline_notPlaying {event : MqttEvent} (hid : event.sessionId? = some id)
    (hstatus : t.world.status id ≠ some .playing) (ctx : Context) (broadcaster : Broadcaster)
    (onGameOver : Option (String → UseCase Unit)) (now : DateTime) :
    let t' := ((handleMqttEvent broadcaster onGameOver now event).run (timedHandle ttl ctx) t).2
    t'.now = t.now ∧ t'.bufferDeadline id = t.bufferDeadline id := by
  intro t'
  have hread : t' = (timedHandle ttl ctx (.sessionGet id) t).2 := by
    change ((handleMqttEvent broadcaster onGameOver now event).run (timedHandle ttl ctx) t).2 = _
    unfold handleMqttEvent
    rw [hid]
    dsimp only
    have hget : timedHandle ttl ctx (.sessionGet id) t =
        (t.world.readSession id, (timedHandle ttl ctx (.sessionGet id) t).2) := rfl
    rw [Prog.run_bind, Prog.run_perform, hget]
    rcases t.world.readSession_cases id with hread | ⟨-, e, hread⟩
    · rw [hread]
      cases hseen : t.world.seen id with
      | none => rfl
      | some s =>
          have hnot : s.status ≠ .playing := fun hplaying =>
            hstatus (by rw [World.status_of_seen hseen, hplaying])
          dsimp only
          rw [if_neg hnot]
          rfl
    · rw [hread]
  rw [hread]
  exact ⟨rfl, rfl⟩

theorem deadline_mqtt {broadcaster : Broadcaster} {topic : String} {payload : Option Json}
    {clock : Clock} {uuid : String} {pg : List (Option Bool)}
    (hstatus : t.world.status id ≠ some .playing) :
    let t' := t.request ttl borneId { request := .mqtt broadcaster topic payload, clock, uuid, pg }
    t'.now = t.now ∧ t'.bufferDeadline id = t.bufferDeadline id := by
  intro t'
  rcases payload with _ | payload
  · exact deadline_of_pushesNone (Prog.all_pure _ ())
  cases payload with
  | obj fields =>
      by_cases hinput : "/input/".toList <:+: topic.toList
      · refine deadline_of_pushesNone (pushesNone_dispatch ?_)
        rw [mqttHandler_of_input hinput]
        exact pushesNone_of_spares (spares_handleBorneInput borneId _ _)
      · by_cases hid : MqttEvent.sessionId? { topic, payload := fields } = some id
        · have hrun : t' = ((mqttHandler broadcaster clock borneId { topic, payload := fields }).run
              (timedHandle ttl { pg }) t).2 := by
            change ((dispatch (mqttHandler broadcaster clock borneId) topic
              (some (.obj fields))).run (timedHandle ttl { pg }) t).2 = _
            rw [dispatch, Prog.run_bind, Prog.run_attempt]
            rfl
          rw [hrun, mqttHandler_of_not_input hinput]
          exact deadline_notPlaying hid hstatus _ _ _ _
        · refine deadline_of_pushesNone (pushesNone_dispatch ?_)
          rw [mqttHandler_of_not_input hinput]
          exact pushesNone_handleMqttEvent hid broadcaster clock borneId
  | _ => exact deadline_of_pushesNone (Prog.all_pure _ ())

/-- A `cmd:pause` leaves the deadline of every buffer alone. -/
theorem deadline_of_pauses (hpause : e.Pauses borneId t.world id) :
    (t.request ttl borneId e).now = t.now ∧
      (t.request ttl borneId e).bufferDeadline id = t.bufferDeadline id := by
  obtain ⟨request, clock, uuid, pg⟩ := e
  cases request with
  | sessionCommand broadcaster command sessionId =>
      exact deadline_of_pushesNone (pushesNone_sessionCommand broadcaster command sessionId)
  | matchCommand command =>
      exact deadline_of_pushesNone (pushesNone_handleMatchCommand borneId command)
  | _ => exact hpause.elim

/-- A request of a pause leaves the deadline of the buffer of a session alone that is
not played. -/
theorem deadline_inPause (hpause : e.InPause) (hstatus : t.world.status id ≠ some .playing) :
    (t.request ttl borneId e).now = t.now ∧
      (t.request ttl borneId e).bufferDeadline id = t.bufferDeadline id := by
  obtain ⟨request, clock, uuid, pg⟩ := e
  cases request with
  | sessionCommand broadcaster command sessionId =>
      exact deadline_of_pushesNone (pushesNone_sessionCommand broadcaster command sessionId)
  | matchCommand command =>
      exact deadline_of_pushesNone (pushesNone_handleMatchCommand borneId command)
  | countdown i => exact deadline_of_pushesNone (Prog.all_pure _ ())
  | mqtt broadcaster topic payload => exact deadline_mqtt hstatus
  | _ => exact hpause.elim

end Deadline

/-! ## Pauses in time -/

/-- Time passes, or a request of a pause is handled. -/
def Moment.InPause : Moment → Prop
  | pass _ => True
  | request e => e.InPause

instance : (m : Moment) → Decidable m.InPause
  | .pass _ => isTrue trivial
  | .request e => inferInstanceAs (Decidable e.InPause)

/-- What a moment draws is new. -/
def Moment.Fresh (w : World) : Moment → Prop
  | pass _ => True
  | request e => e.Fresh w

theorem Moment.InPause.fresh {m : Moment} (h : m.InPause) (w : World) : m.Fresh w := by
  cases m with
  | pass d => trivial
  | request e => exact Event.InPause.fresh h w

namespace TimedWorld

variable {ttl : ℕ} {borneId : String} {t : TimedWorld} {m : Moment}

/-- The session `s` in a pause, with `buffer` buffered for it until the deadline. -/
structure Frozen (t : TimedWorld) (s : Session) (buffer : List Dict) (deadline : ℕ) : Prop where
  world : t.world.Frozen s (if t.now < deadline then buffer else [])
  deadline : t.bufferDeadline s.sessionId = deadline

section Frozen

variable {s : Session} {buffer : List Dict} {deadline : ℕ}

/-- The session is there as it was, or has expired. -/
theorem sessions_advance (t : TimedWorld) (d : ℕ) (id : String) :
    (t.advance d).world.sessions id = t.world.sessions id ∨
      (t.advance d).world.sessions id = none := by
  change (if _ then t.world.sessions id else none) = _ ∨
    (if _ then t.world.sessions id else none) = none
  split
  · exact Or.inl rfl
  · exact Or.inr rfl

theorem Frozen.advance (h : t.Frozen s buffer deadline) (d : ℕ) :
    (t.advance d).Frozen s buffer deadline := by
  obtain ⟨⟨hseen, hbuffer⟩, hdeadline⟩ := h
  refine ⟨⟨?_, ?_⟩, hdeadline⟩
  · rcases sessions_advance t d s.sessionId with hkept | hgone
    · rw [hkept, World.seen_congr hkept]
      exact hseen
    · exact Or.inl hgone
  · have hdue : (t.buffer s.sessionId).deadline = deadline := hdeadline
    change ((t.buffer s.sessionId).expire (t.now + d)).content =
      if t.now + d < deadline then buffer else []
    by_cases hahead : t.now + d < deadline
    · rw [Expiring.expire, if_neg (by rw [hdue]; omega), if_pos hahead]
      exact hbuffer.trans (if_pos (by omega))
    · rw [Expiring.expire, if_pos (by rw [hdue]; omega), if_neg hahead]

theorem Frozen.step (h : t.Frozen s buffer deadline) (hpause : m.InPause)
    (hstatus : t.world.status s.sessionId ≠ some .playing) :
    (t.step ttl borneId m).Frozen s buffer deadline := by
  cases m with
  | pass d => exact h.advance d
  | request e =>
      obtain ⟨hnow, hdeadline⟩ := @deadline_inPause ttl borneId _ t e hpause hstatus
      refine ⟨?_, hdeadline.trans h.deadline⟩
      change (t.request ttl borneId e).world.Frozen s
        (if (t.request ttl borneId e).now < deadline then buffer else [])
      rw [hnow, world_request]
      exact frozen_step h.world hpause hstatus

/-- A `cmd:pause` to a session that is played begins its pause. -/
theorem frozen_of_pauses {pause : Event} (halive : t.Alive)
    (hs : t.world.seen s.sessionId = some s) (hplaying : s.status = .playing)
    (hpause : pause.Pauses borneId t.world s.sessionId) :
    (t.request ttl borneId pause).Frozen s (t.world.buffers s.sessionId)
      (t.bufferDeadline s.sessionId) := by
  obtain ⟨hnow, hdeadline⟩ := @deadline_of_pauses ttl borneId _ t pause hpause
  obtain ⟨hseen, hbuffers⟩ := seen_of_pauses hs hplaying hpause
  -- A buffer that is not empty has not expired.
  have hwhole : (if t.now < t.bufferDeadline s.sessionId then t.world.buffers s.sessionId
      else []) = t.world.buffers s.sessionId := by
    by_cases hempty : t.world.buffers s.sessionId = []
    · rw [hempty, ite_self]
    · exact if_pos (halive _ hempty)
  refine ⟨⟨Or.inr ⟨.paused, by decide, ?_⟩, ?_⟩, hdeadline⟩
  · rw [world_request]
    exact hseen
  · rw [world_request, hnow, hwhole]
    exact hbuffers

theorem Frozen.run (h : t.Frozen s buffer deadline) {moments : List Moment}
    (hmoments : Runs.Along (TimedWorld.step ttl borneId)
      (fun t m => m.InPause ∧ t.world.status s.sessionId ≠ some .playing) t moments) :
    (moments.foldl (TimedWorld.step ttl borneId) t).Frozen s buffer deadline :=
  Runs.invariant (I := fun t : TimedWorld => t.Frozen s buffer deadline)
    (fun _ _ ht hm => ht.step hm.1 hm.2) h hmoments

/-- The session is back as it was, and its buffer where it has not expired. -/
theorem Frozen.back (h : t.Frozen s buffer deadline) (hplaying : s.status = .playing)
    (hback : t.world.status s.sessionId = some .playing) :
    t.world.seen s.sessionId = some s ∧
      (t.world.buffers s.sessionId = buffer ↔ buffer = [] ∨ t.now < deadline) := by
  constructor
  · rcases h.world.seen with hnone | ⟨status, -, hseen⟩
    · rw [World.status, hnone] at hback
      cases hback
    · rw [World.status_of_seen hseen] at hback
      obtain rfl : status = .playing := Option.some.inj hback
      rw [hseen, Session.to, ← hplaying]
  · rw [h.world.buffers]
    by_cases hahead : t.now < deadline
    · rw [if_pos hahead]
      exact iff_of_true rfl (Or.inr hahead)
    · rw [if_neg hahead, or_iff_left hahead]
      exact eq_comm

end Frozen

/-! ### Countdowns -/

theorem sound_advance (h : t.world.Sound) (d : ℕ) : (t.advance d).world.Sound where
  issued_ne := h.issued_ne
  sessions_issued hs := h.sessions_issued (KeyedTable.get_of_get_keep hs)
  buffers_issued {id} hid := by
    change ((t.buffer id).expire (t.now + d)).content = []
    unfold Expiring.expire
    split
    · rfl
    · exact h.buffers_issued hid
  tasks_issued := h.tasks_issued
  outbox_issued := h.outbox_issued
  persisted_issued := h.persisted_issued
  tasks_lt := h.tasks_lt
  tasks_nodup := h.tasks_nodup

theorem sound_moment (h : t.world.Sound) (hfresh : m.Fresh t.world) :
    (t.step ttl borneId m).world.Sound := by
  cases m with
  | pass d => exact sound_advance h d
  | request e =>
      change (t.request ttl borneId e).world.Sound
      rw [world_request]
      exact sound_step h hfresh

theorem counted_moment {id : String} (h : t.world.Counted id) (hw : t.world.Sound)
    (hpause : m.InPause) : (t.step ttl borneId m).world.Counted id := by
  cases m with
  | pass d =>
      exact
        { ready := fun s hs => h.ready s (KeyedTable.get_of_get_keep hs)
          other := fun s hs => h.other s (KeyedTable.get_of_get_keep hs)
          absent := fun _ => h.length_le }
  | request e =>
      change (t.request ttl borneId e).world.Counted id
      rw [world_request]
      exact counted_inPause h hw hpause

theorem sound_run (db : Database) {history : List Moment}
    (hfresh : Runs.Along (TimedWorld.step ttl borneId) (fun t m => m.Fresh t.world)
      (run ttl borneId db []) history) : (run ttl borneId db history).world.Sound :=
  Runs.invariant (I := fun t : TimedWorld => t.world.Sound) (fun _ _ ht hm => sound_moment ht hm)
    (World.Sound.init db) hfresh

theorem counted_run {id : String} (h : t.world.Counted id) (hw : t.world.Sound)
    {moments : List Moment} (hmoments : Runs.Along (TimedWorld.step ttl borneId)
      (fun t m => m.InPause ∧ t.world.status id ≠ some .playing) t moments) :
    (moments.foldl (TimedWorld.step ttl borneId) t).world.Counted id :=
  (Runs.invariant (I := fun t : TimedWorld => t.world.Sound ∧ t.world.Counted id)
    (fun _ _ ht hm => ⟨sound_moment ht.1 (hm.1.fresh _), counted_moment ht.2 ht.1 hm.1⟩)
    ⟨hw, h⟩ hmoments).2

/-- A pause of a session without countdowns begins with none. -/
theorem counted_of_pauses {s : Session} {pause : Event}
    (hs : t.world.seen s.sessionId = some s) (hplaying : s.status = .playing)
    (hpause : pause.Pauses borneId t.world s.sessionId) (hw : t.world.Sound)
    (htasks : t.world.tasksOf s.sessionId = []) :
    (t.request ttl borneId pause).world.Counted s.sessionId := by
  obtain ⟨s₀, hs₀, -, heq⟩ := World.seen_eq_some.mp hs
  have hready : s₀.status ≠ .ready := by
    rw [heq] at hplaying
    rw [show s₀.status = .playing from hplaying]
    decide
  rw [world_request]
  exact counted_inPause (.of_not_ready hs₀ hready htasks) hw hpause.inPause

end TimedWorld

/-- A session has one countdown when it is ready, and none otherwise. -/
theorem World.Counted.length_eq {w : World} {id : String} (h : w.Counted id)
    {status : SessionStatus} (hstatus : w.status id = some status) :
    (w.tasksOf id).length = if status = .ready then 1 else 0 := by
  obtain ⟨s, hs, rfl⟩ := Option.map_eq_some_iff.mp hstatus
  by_cases hready : s.status = .ready
  · obtain ⟨-, task, htask, -⟩ := h.ready s hs hready
    rw [if_pos hready, htask]
    rfl
  · rw [if_neg hready, h.other s hs hready]
    rfl

/-! ## The identity -/

/-- In every run with an expiration of `ttl`, a `cmd:pause` to a session that is played
pauses it and leaves its buffer alone. After it, whatever time passes and whatever
messages of the broker, `cmd:pause`, `cmd:resume` and stretches of countdowns are
handled until it is played again, the session stays as it was but for its status,
unless it expires; when it is back, it is the session that was paused, and its buffer is
as it was exactly where it was empty or its deadline at the pause is still ahead. Where
it had no countdown before, it has one when and only when it is ready again, the one
that its `cmd:resume` has launched and whose end brings it back. -/
theorem pause_identity {ttl : ℕ} (httl : 0 < ttl) (borneId : String) (db : Database)
    (history : List Moment) (s : Session) (pause : Event) (moments : List Moment)
    (hs : (TimedWorld.run ttl borneId db history).world.seen s.sessionId = some s)
    (hplaying : s.status = .playing)
    (hpause : pause.Pauses borneId (TimedWorld.run ttl borneId db history).world s.sessionId)
    (hmoments : Runs.Along (TimedWorld.step ttl borneId)
      (fun t m => m.InPause ∧ t.world.status s.sessionId ≠ some .playing)
      (TimedWorld.run ttl borneId db (history ++ [.request pause])) moments) :
    let t := TimedWorld.run ttl borneId db history
    let paused := TimedWorld.run ttl borneId db (history ++ [.request pause])
    let t' := TimedWorld.run ttl borneId db (history ++ .request pause :: moments)
    (paused.world.seen s.sessionId = some (s.to .paused) ∧
      paused.world.buffers s.sessionId = t.world.buffers s.sessionId) ∧
    (t'.world.sessions s.sessionId = none ∨
      ∃ status ∈ [SessionStatus.paused, .ready, .playing],
        t'.world.seen s.sessionId = some (s.to status)) ∧
    (t'.world.status s.sessionId = some .playing →
      t'.world.seen s.sessionId = some s ∧
        (t'.world.buffers s.sessionId = t.world.buffers s.sessionId ↔
          t.world.buffers s.sessionId = [] ∨ t'.now < t.bufferDeadline s.sessionId)) ∧
    (Runs.Along (TimedWorld.step ttl borneId) (fun t m => m.Fresh t.world)
        (TimedWorld.run ttl borneId db []) history →
      t.world.tasksOf s.sessionId = [] →
      ∀ status, t'.world.status s.sessionId = some status →
        (t'.world.tasksOf s.sessionId).length = if status = .ready then 1 else 0) := by
  intro t paused t'
  have hrequest : paused = t.request ttl borneId pause := TimedWorld.run_append ..
  have hrun : t' = moments.foldl (TimedWorld.step ttl borneId) paused := by
    rw [hrequest]
    exact TimedWorld.run_append ..
  have hbegin : paused.Frozen s (t.world.buffers s.sessionId) (t.bufferDeadline s.sessionId) := by
    rw [hrequest]
    exact TimedWorld.frozen_of_pauses (TimedWorld.alive_run httl borneId db history) hs hplaying
      hpause
  have hfrozen : t'.Frozen s (t.world.buffers s.sessionId) (t.bufferDeadline s.sessionId) := by
    rw [hrun]
    exact hbegin.run hmoments
  refine ⟨?_, hfrozen.world.seen, hfrozen.back hplaying, fun hfresh htasks status hstatus => ?_⟩
  · rw [hrequest, TimedWorld.world_request]
    exact seen_of_pauses hs hplaying hpause
  · have hsound : t.world.Sound := TimedWorld.sound_run db hfresh
    have hcounted : t'.world.Counted s.sessionId := by
      rw [hrun]
      refine TimedWorld.counted_run ?_ ?_ hmoments
      · rw [hrequest]
        exact TimedWorld.counted_of_pauses hs hplaying hpause hsound htasks
      · rw [hrequest, TimedWorld.world_request]
        exact sound_step hsound (hpause.inPause.fresh _)
    exact hcounted.length_eq hstatus

/-- A game hit once at time 0, until time 20. -/
def hitGame : List Moment :=
  (gameStart [.session] "s" ++ [sensorEvent [.session] topicBumperHit "s" 100]).map .request ++
    [.pass 20]

/-- A pause from the socket of its session. -/
def pauseCommand : Event := { request := .sessionCommand [.session] .pause "s" }

/-- After `d`, the session is resumed with hits and commands in between, and its
countdown brings it back. -/
def resumedAfter (d : ℕ) : List Moment :=
  let resume : Event := { request := .sessionCommand [.session] .resume "s" }
  let hit : Event := sensorEvent [.session] topicBumperHit "s" 100
  let requests : List Event := [hit, pauseCommand, resume, resume, hit] ++
    List.replicate 5 { request := .countdown 1 }
  .pass d :: requests.map .request

/-- With an expiration of 30, a game that is back at time 29 is the one that was paused. -/
theorem pause_identity_hitGame :
    ∃ s, (TimedWorld.run 30 "b" {} hitGame).world.seen "s" = some s ∧ s.score = .int 100 ∧
      (TimedWorld.run 30 "b" {} (hitGame ++ .request pauseCommand :: resumedAfter 9)).world.seen "s" =
        some s ∧
      (TimedWorld.run 30 "b" {} (hitGame ++ .request pauseCommand :: resumedAfter 9)).world.buffers
        "s" = (TimedWorld.run 30 "b" {} hitGame).world.buffers "s" := by
  have hread : ((TimedWorld.run 30 "b" {} hitGame).world.seen "s").map
      (fun s => (s.score, s.status)) = some (.int 100, .playing) := by
    decide +kernel
  obtain ⟨s, hs, hfields⟩ := Option.map_eq_some_iff.mp hread
  obtain ⟨hscore, hplaying⟩ := Prod.mk.inj hfields
  have hid : s.sessionId = "s" := World.seen_sessionId hs
  have hpaused := pause_identity (by decide : 0 < 30) "b" {} hitGame s pauseCommand (resumedAfter 9)
  rw [hid] at hpaused
  obtain ⟨-, -, hidentity, -⟩ := hpaused hs hplaying rfl (by decide +kernel)
  obtain ⟨hseen, hbuffers⟩ := hidentity (by decide +kernel)
  exact ⟨s, hs, hscore, hseen, hbuffers.mpr (Or.inr (by decide +kernel))⟩

/-- One that is back at time 31 has lost its event. -/
theorem resumed_without_events :
    let t := TimedWorld.run 30 "b" {} hitGame
    let paused := TimedWorld.run 30 "b" {} (hitGame ++ [.request pauseCommand])
    let t' := TimedWorld.run 30 "b" {} (hitGame ++ .request pauseCommand :: resumedAfter 11)
    t.world.status "s" = some .playing ∧ paused.world.status "s" = some .paused ∧
      Runs.Along (TimedWorld.step 30 "b")
        (fun t m => m.InPause ∧ t.world.status "s" ≠ some .playing) paused (resumedAfter 11) ∧
      t'.world.status "s" = some .playing ∧ (t.world.buffers "s").length = 1 ∧
      (t'.world.buffers "s").length = 0 := by
  decide +kernel

end FlipperBack
