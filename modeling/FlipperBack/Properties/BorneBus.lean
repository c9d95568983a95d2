import FlipperBack.Properties.FlushContent
import FlipperBack.System.Calls
import FlipperBack.System.Rests

/-!
# What is said on the bus of the borne

The hubs of the borne ignore the id of the session a message is about, and the
sensor events of every session are broadcast on them. The intents, the match
commands and the relays only ever speak of the session that the borne has
active. A sensor event that another session accepts is heard all the same, and
so is a countdown that another session has left behind; in the runs without
them, and in no others, the screens hear of the active session alone
(`isolated_iff`).
-/

namespace FlipperBack

open Effects Python

/-! ## What the screens hear -/

/-- The session a call speaks of on the bus of the borne. -/
def Op.toldToScreens : Op → Option String
  | broadcastToSession broadcaster sessionId _ =>
      if .borne ∈ broadcaster then some sessionId else none
  | _ => none

/-- What is said on the bus of the borne is about the session it has active at
that moment. -/
def AboutActive (borneId : String) (c : Op × World) : Prop :=
  ∀ id, c.1.toldToScreens = some id → (c.2.borne borneId).activeSessionId = some id

/-- What the screens of the borne get of an emission. -/
def Emission.toScreens (borneId : String) : Emission → Option (SessionMessage ⊕ BorneMessage)
  | session broadcaster _ message _ _ =>
      if .borne ∈ broadcaster then some (.inl message) else none
  | borne id message => if id = borneId then some (.inr message) else none

/-- All that the screens of the borne have been sent. -/
def World.heard (w : World) (borneId : String) : List (SessionMessage ⊕ BorneMessage) :=
  w.outbox.filterMap (Emission.toScreens borneId)

/-! ## The events of other sessions -/

/-- The hubs that the requests are given: those of the sessions for the requests
on a session, and both for the events of the sensors. -/
def Event.Wired (e : Event) : Prop :=
  match e.request with
  | .readyUp broadcaster _ => broadcaster = [.session]
  | .sessionCommand broadcaster _ _ => broadcaster = [.session]
  | .mqtt broadcaster _ _ => broadcaster = [.session, .borne]
  | _ => True

instance : (e : Event) → Decidable e.Wired
  | { request := .readyUp broadcaster _, .. } =>
      inferInstanceAs (Decidable (broadcaster = [.session]))
  | { request := .sessionCommand broadcaster _ _, .. } =>
      inferInstanceAs (Decidable (broadcaster = [.session]))
  | { request := .mqtt broadcaster _ _, .. } =>
      inferInstanceAs (Decidable (broadcaster = [.session, .borne]))
  | { request := .createSession _ _ _, .. } => isTrue trivial
  | { request := .finish _, .. } => isTrue trivial
  | { request := .intent _ _, .. } => isTrue trivial
  | { request := .matchCommand _, .. } => isTrue trivial
  | { request := .relay _, .. } => isTrue trivial
  | { request := .countdown _, .. } => isTrue trivial

/-- The session that an event of a sensor names. -/
def Event.sensed (e : Event) : Option String :=
  match e.request with
  | .mqtt _ topic (some (.obj fields)) =>
      if "/input/".toList <:+: topic.toList then none
      else MqttEvent.sessionId? { topic, payload := fields }
  | _ => none

/-- An event of a sensor that names a session other than the active one. -/
def OfOther (borneId : String) (w : World) (e : Event) : Bool :=
  e.sensed.any fun id => (w.borne borneId).activeSessionId != some id

/-- The run without the sensor events of the sessions that are not active when
they arrive. -/
def withoutOthers (borneId : String) : World → List Event → List Event
  | _, [] => []
  | w, e :: evs =>
      if OfOther borneId w e then withoutOthers borneId (step borneId w e) evs
      else e :: withoutOthers borneId (step borneId w e) evs

/-- A countdown has something to say in its next stretch: a tick, or the start
of a session that is ready. -/
def CountdownTask.Speaks (t : CountdownTask) (w : World) : Prop :=
  t.remaining ≠ [] ∨ (w.seen t.sessionId).map Session.status = some .ready

instance (t : CountdownTask) (w : World) : Decidable (t.Speaks w) :=
  inferInstanceAs (Decidable (_ ∨ _))

/-- Only the active session accepts an event of a sensor, and only its countdown
has something to say on the bus of the borne. -/
def OfActive (borneId : String) (w : World) (e : Event) : Prop :=
  match e.request with
  | .countdown task => ∀ t ∈ w.task? task, .borne ∈ t.broadcaster → t.Speaks w →
      (w.borne borneId).activeSessionId = some t.sessionId
  | _ => ∀ id ∈ e.sensed, (e.accepted w id).isSome →
      (w.borne borneId).activeSessionId = some id

instance (borneId : String) (w : World) : (e : Event) → Decidable (OfActive borneId w e)
  | { request := .countdown task, .. } =>
      inferInstanceAs (Decidable (∀ t ∈ w.task? task, .borne ∈ t.broadcaster → t.Speaks w →
        (w.borne borneId).activeSessionId = some t.sessionId))
  | { request := .mqtt broadcaster topic payload, clock, uuid, pg } =>
      inferInstanceAs (Decidable (∀ id ∈ Event.sensed
          { request := .mqtt broadcaster topic payload, clock, uuid, pg },
        (Event.accepted w id
          { request := .mqtt broadcaster topic payload, clock, uuid, pg }).isSome →
            (w.borne borneId).activeSessionId = some id))
  | { request := .createSession _ _ _, .. } => isTrue fun _ hid => nomatch hid
  | { request := .readyUp _ _, .. } => isTrue fun _ hid => nomatch hid
  | { request := .sessionCommand _ _ _, .. } => isTrue fun _ hid => nomatch hid
  | { request := .finish _, .. } => isTrue fun _ hid => nomatch hid
  | { request := .intent _ _, .. } => isTrue fun _ hid => nomatch hid
  | { request := .matchCommand _, .. } => isTrue fun _ hid => nomatch hid
  | { request := .relay _, .. } => isTrue fun _ hid => nomatch hid

/-- The screens hear of the active session alone: each message is about it when
it is sent, and the sensor events of the other sessions make no difference. -/
structure Isolated (borneId : String) (w : World) (evs : List Event) : Prop where
  aboutActive : Runs.Along (step borneId)
    (fun w e => ∀ c ∈ e.calls borneId w, AboutActive borneId c) w evs
  alone : (evs.foldl (step borneId) w).heard borneId =
    ((withoutOthers borneId w evs).foldl (step borneId) w).heard borneId

/-! ## Programs that speak of one session -/

/-- A call that speaks of the session `active` only on the bus of the borne, and
leaves it active. -/
def Op.SpeaksOf (borneId : String) (active : Option String) (op : Op) : Prop :=
  match op with
  | broadcastToSession broadcaster sessionId _ => .borne ∈ broadcaster → active = some sessionId
  | borneUpdate b => b.borneId = borneId → b.activeSessionId = active
  | _ => True

/-- A reading of the borne finds the session `active`. -/
def FindsActive (borneId : String) (active : Option String) :
    (op : Op) → Except Exc op.Res → Prop
  | .borneGetOrCreate id, .ok b => id = borneId → b.activeSessionId = active
  | _, _ => True

abbrev speakProtocol (borneId : String) (active : Option String) : Protocol Exc Op.Res Unit :=
  .steady (FindsActive borneId active) (Op.SpeaksOf borneId active)

section Speaks

variable {borneId : String} {active : Option String}

theorem findsActive (ctx : Context) (op : Op) (w : World)
    (hw : (w.borne borneId).activeSessionId = active) :
    FindsActive borneId active op (handle ctx op w).1 := by
  cases op with
  | borneGetOrCreate id =>
      rw [handle, World.readBorne_eq]
      rintro rfl
      exact hw
  | _ => trivial

/-- What speaks of the active session only leaves it active. -/
theorem speaksOf_keeps (ctx : Context) (op : Op) (w : World) (hop : op.SpeaksOf borneId active)
    (hw : (w.borne borneId).activeSessionId = active) :
    ((handle ctx op w).2.borne borneId).activeSessionId = active := by
  by_cases hupdate : ∀ b, op = .borneUpdate b → b.borneId ≠ borneId
  · rw [World.borne_handle hupdate, hw]
  · push Not at hupdate
    obtain ⟨b, rfl, hid⟩ := hupdate
    have hactive : b.activeSessionId = active := hop hid
    have hempty : b.activeSessionId ≠ some "" := by
      rw [hactive, ← hw]
      exact w.activeSessionId_borne borneId
    rw [handle, ← hid, World.borne_putBorne, b.readBack_of_ne hempty, hactive]

/-- A program that speaks of the active session only is heard of it alone. -/
theorem aboutActive_of_rests {α : Type} {p : UseCase α}
    (hp : Prog.Rests (speakProtocol borneId active) () p) (stop : Op → Bool) (ctx : Context)
    {w : World} (hw : (w.borne borneId).activeSessionId = active) :
    ∀ c ∈ p.logUntil stop (handle ctx) w, AboutActive borneId c := by
  intro c hc id hid
  obtain ⟨hspeaks, w', hw', hc'⟩ := (Prog.runUntil_invariant stop (findsActive ctx)
    (speaksOf_keeps ctx) hp.allGiven hw).2 c hc
  obtain ⟨op, w''⟩ := c
  rw [hc', speaksOf_keeps ctx op w' hspeaks hw']
  cases op with
  | broadcastToSession broadcaster sessionId message =>
      rw [Op.toldToScreens] at hid
      split at hid
      · next hborne => rw [hspeaks hborne, Option.some.inj hid]
      · cases hid
  | _ => cases hid

theorem speaks_plain (op : Op) (h : op.isPlain = true) :
    (speakProtocol borneId active).Leaves () op := by
  cases op <;> first | exact ⟨trivial, fun _ _ => trivial⟩ | cases h

theorem speaks_tell {broadcaster : Broadcaster} {sessionId : String}
    (h : .borne ∈ broadcaster → active = some sessionId) (message : SessionMessage) :
    (speakProtocol borneId active).Leaves () (.broadcastToSession broadcaster sessionId message) :=
  ⟨h, fun _ _ => trivial⟩

theorem speaks_launch (startCountdown : Option Broadcaster) (sessionId : String) :
    Prog.Rests (speakProtocol borneId active) () (launch startCountdown sessionId) := by
  cases startCountdown with
  | none => rfl
  | some broadcaster => exact .perform ⟨trivial, fun _ _ => trivial⟩

theorem speaks_nav (borne : Borne) :
    Prog.Rests (speakProtocol borneId active) () (broadcastNav borne) :=
  .perform ⟨trivial, fun _ _ => trivial⟩

theorem speaks_markGameOver :
    Prog.Rests (speakProtocol borneId active) () (markGameOver borneId) := by
  refine Prog.Follows.perform_bind trivial (fun borne hborne => ⟨(), trivial, ?_⟩)
    fun _ _ => ⟨(), trivial, rfl⟩
  split
  · exact Prog.Rests.bind (.perform ⟨fun _ => hborne rfl, fun _ _ => trivial⟩) fun _ =>
      speaks_nav _
  · rfl

theorem speaks_finishAndPersist (clock : Clock) (sessionId : String) :
    Prog.Rests (speakProtocol borneId active) () (finishAndPersist clock sessionId) :=
  rests_finishAndPersist speaks_plain (fun _ _ => ⟨trivial, fun _ _ => trivial⟩)
    ⟨trivial, fun _ _ => trivial⟩ ⟨trivial, fun _ _ => trivial⟩ clock

theorem speaks_createSession (uuid : String) (now : DateTime) (pseudo : String) (mode : GameMode)
    (roomCode : Option String) :
    Prog.Rests (speakProtocol borneId active) () (createSession uuid now pseudo mode roomCode) :=
  .bind (.ofExcept _) fun _ => .bind (.perform ⟨trivial, fun _ _ => trivial⟩) fun _ => rfl

theorem speaks_readyUp {broadcaster : Broadcaster} {sessionId : String}
    (h : .borne ∈ broadcaster → active = some sessionId) (onReady : Option Broadcaster) :
    Prog.Rests (speakProtocol borneId active) () (readyUp broadcaster onReady sessionId) :=
  rests_readyUp speaks_plain speaks_launch (speaks_tell h) onReady

theorem speaks_handleMatchCommand (command : MatchCommand) :
    Prog.Rests (speakProtocol borneId active) () (handleMatchCommand borneId command) := by
  refine Prog.Follows.perform_bind trivial (fun borne hborne => ⟨(), trivial, ?_⟩)
    fun _ _ => ⟨(), trivial, rfl⟩
  have hactive : borne.activeSessionId = active := hborne rfl
  cases hborneActive : borne.activeSessionId with
  | none => rfl
  | some sessionId =>
      have htell (message : SessionMessage) : (speakProtocol borneId active).Leaves ()
          (.broadcastToSession [.borne] sessionId message) :=
        speaks_tell (fun _ => hactive.symm.trans hborneActive) message
      have hcommand := rests_sessionCommand speaks_plain speaks_launch htell
      cases command with
      | pause => exact hcommand .pause
      | resume => exact hcommand .resume
      | abandon => exact Prog.Rests.bind (hcommand .abandon) fun _ => speaks_markGameOver

end Speaks

/-! ## The calls of each request -/

theorem forall_mem_none {α : Type} (p : α → Prop) : ∀ a ∈ (none : Option α), p a :=
  fun a ha => absurd ha (Option.not_mem_none a)

section Calls

variable {borneId : String} {w : World} {ctx : Context}

/-- A call that speaks of no session, then a program that is heard of the active
one alone. -/
theorem aboutActive_call {α : Type} {op : Op} {k : Except Exc op.Res → UseCase α}
    (hop : op.toldToScreens = none)
    (hk : ∀ c ∈ (k (handle ctx op w).1).log (handle ctx) (handle ctx op w).2,
      AboutActive borneId c) :
    ∀ c ∈ (Prog.call op k).log (handle ctx) w, AboutActive borneId c := by
  rw [Prog.log_call]
  refine List.forall_mem_cons.mpr ⟨fun id hid => ?_, hk⟩
  rw [hop] at hid
  cases hid

/-- From its move into a game on, the borne speaks of the session attached. -/
theorem aboutActive_attach {uuid : String} (huuid : uuid ≠ "") {borne : Borne}
    (hid : borne.borneId = borneId) :
    ∀ c ∈ Prog.log (handle ctx) (do
        let borne := { borne with activeSessionId := some uuid, nav := .inGame }
        await (.borneUpdate borne)
        broadcastNav borne
        let _ ← readyUp [.borne] (some [.borne]) uuid
        return : UseCase Unit) w, AboutActive borneId c := by
  subst hid
  have hrests : Prog.Rests (speakProtocol borne.borneId (some uuid)) () (do
      broadcastNav { borne with activeSessionId := some uuid, nav := .inGame }
      let _ ← readyUp [.borne] (some [.borne]) uuid
      return : UseCase Unit) :=
    .bind (speaks_nav _) fun _ => .bind (speaks_readyUp (fun _ => rfl) _) fun _ => rfl
  refine aboutActive_call rfl (aboutActive_of_rests hrests _ ctx ?_)
  have hattached := World.borne_putBorne w
    { borne with activeSessionId := some uuid, nav := .inGame }
  rw [Borne.readBack_of_ne fun heq => huuid (Option.some.inj heq)] at hattached
  exact congrArg Borne.activeSessionId hattached

/-- Where an intent is applied, the session spoken of has been attached before. -/
theorem aboutActive_applyIntent {uuid : String} (huuid : uuid ≠ "") (now : DateTime)
    (action : String) (payload : Json) :
    ∀ c ∈ (applyIntent uuid now borneId action payload).log (handle ctx) w,
      AboutActive borneId c := by
  refine aboutActive_call rfl ?_
  rw [show (handle ctx (.borneGetOrCreate borneId) w).1 = .ok (w.borne borneId) from
    w.readBorne_eq borneId]
  change ∀ c ∈ Prog.log (handle ctx) (if action = playersValidated then _ else _) _, _
  split
  · unfold startGame
    split
    · cases extractPseudo payload with
      | none => exact List.forall_mem_nil _
      | some pseudo =>
          dsimp only [createSession]
          cases normalizeAndValidate pseudo with
          | error e => exact List.forall_mem_nil _
          | ok pseudo =>
              have hcreate := @handle_sessionCreate _ ctx
                (handle ctx (.borneGetOrCreate borneId) w).2 (Session.writable_of_readable
                  (@newSession_readable uuid now pseudo (extractMode payload) none))
              refine aboutActive_call rfl ?_
              change ∀ c ∈ Prog.log (handle ctx)
                ((Prog.ofExcept (handle ctx (.sessionCreate (newSession uuid now pseudo
                  (extractMode payload) none)) _).1 >>= fun _ => _) >>= fun _ => _)
                (handle ctx (.sessionCreate (newSession uuid now pseudo (extractMode payload)
                  none)) _).2, _
              rw [hcreate]
              exact aboutActive_attach huuid (w.borneId_borne borneId)
    · exact List.forall_mem_nil _
  · cases nextNavState (w.borne borneId).nav action with
    | none => exact List.forall_mem_nil _
    | some target => exact aboutActive_call rfl (aboutActive_of_rests (speaks_nav _) _ ctx rfl)

/-- A sensor event is accepted for the session `id` that is seen as `s`: it leads
to `message` and to the session `s'`, which is written. -/
structure Accepts (w : World) (event : MqttEvent) (s s' : Session) (message : SessionMessage) :
    Prop where
  named : event.sessionId? = some s.sessionId
  seen : w.seen s.sessionId = some s
  playing : s.status = .playing
  applied : applyEvent event s = .ok (some (message, s'))
  written : s'.writable

/-- A sensor event that is accepted is spoken of. -/
theorem told_handleMqttEvent {event : MqttEvent} {s s' : Session} {message : SessionMessage}
    (h : Accepts w event s s' message) (ctx : Context) (borneId : String)
    (broadcaster : Broadcaster) (callback : String → UseCase Unit) (now : DateTime) :
    ∃ c ∈ (handleMqttEvent broadcaster (some callback) now event).log (handle ctx) w,
      (∃ message, c.1 = .broadcastToSession broadcaster s.sessionId message) ∧
        c.2.borne borneId = w.borne borneId := by
  have hread : (handle ctx (.sessionGet s.sessionId) w).1 = .ok (some s) :=
    World.readSession_of_seen h.seen
  unfold handleMqttEvent
  rw [h.named]
  dsimp only
  rw [Prog.log_of_ok hread]
  dsimp only
  rw [if_pos h.playing, h.applied]
  change ∃ c ∈ _ :: Prog.log (handle ctx) (await (.sessionUpdate s') >>= _) _, _
  have hwrite : handle ctx (.sessionUpdate s') (handle ctx (.sessionGet s.sessionId) w).2 =
      (.ok (), w.putSession s') := handle_sessionUpdate h.written
  rw [Prog.log_of_ok (congrArg Prod.fst hwrite), hwrite]
  exact ⟨_, List.mem_cons_of_mem _ (List.mem_cons_of_mem _ (List.mem_cons_of_mem _
    List.mem_cons_self)), ⟨message, rfl⟩, rfl⟩

/-- A sensor event that is not accepted leaves the world as it is, and nothing is
said of it. -/
theorem ignored_handleMqttEvent {event : MqttEvent}
    (h : ∀ s s' message, ¬ Accepts w event s s' message) (broadcaster : Broadcaster)
    (callback : String → UseCase Unit) (now : DateTime) :
    ((handleMqttEvent broadcaster (some callback) now event).run (handle ctx) w).2 = w ∧
      ∀ c ∈ (handleMqttEvent broadcaster (some callback) now event).log (handle ctx) w,
        c.1.toldToScreens = none := by
  unfold handleMqttEvent
  cases hid : event.sessionId? with
  | none => exact ⟨rfl, List.forall_mem_nil _⟩
  | some sessionId =>
      dsimp only
      rw [Prog.run_bind, Prog.run_perform, Prog.log_perform_bind, handle]
      rcases w.readSession_cases sessionId with hread | ⟨hseen, err, hread⟩
      · rw [hread]
        cases hseen : w.seen sessionId with
        | none => exact ⟨rfl, List.forall_mem_singleton.mpr rfl⟩
        | some s =>
            obtain rfl := World.seen_sessionId hseen
            dsimp only
            split
            · next hplaying =>
                cases happly : applyEvent event s with
                | error err => exact ⟨rfl, List.forall_mem_singleton.mpr rfl⟩
                | ok out =>
                    cases out with
                    | none => exact ⟨rfl, List.forall_mem_singleton.mpr rfl⟩
                    | some out =>
                        have hunwritable : ¬ out.2.writable := fun hwritable =>
                          h s out.2 out.1 ⟨hid, hseen, hplaying, happly, hwritable⟩
                        change (Prog.run (handle ctx) (await (.sessionUpdate out.2) >>= _) w).2 = w
                          ∧ ∀ c ∈ _ :: Prog.log (handle ctx) (await (.sessionUpdate out.2) >>= _) w,
                            _
                        rw [Prog.run_bind, Prog.run_perform, Prog.log_perform_bind,
                          handle_sessionUpdate_error hunwritable]
                        exact ⟨rfl, List.forall_mem_cons.mpr
                          ⟨rfl, List.forall_mem_singleton.mpr rfl⟩⟩
            · exact ⟨rfl, List.forall_mem_singleton.mpr rfl⟩
      · rw [hread]
        exact ⟨rfl, List.forall_mem_singleton.mpr rfl⟩

/-- What is accepted for a session, read off the message. -/
theorem accepted_iff (w : World) (broadcaster : Broadcaster) (topic : String) (fields : Dict)
    (clock : Clock) (uuid : String) (pg : List (Option Bool)) (id : String) :
    (Event.accepted w id
        { request := .mqtt broadcaster topic (some (.obj fields)), clock, uuid, pg }).isSome ↔
      ∃ s s' message, s.sessionId = id ∧ Accepts w { topic, payload := fields } s s' message := by
  unfold Event.accepted
  dsimp only
  rw [Option.isSome_ite]
  constructor
  · rintro ⟨hid, hplaying, htopic, hpoints, hkeeps⟩
    obtain ⟨s, hseen, hstatus⟩ := Option.map_eq_some_iff.mp hplaying
    obtain rfl := World.seen_sessionId hseen
    obtain ⟨message, s', happly⟩ :=
      (applyEvent_isSome_iff { topic, payload := fields } s).mpr ⟨htopic, hpoints⟩
    rw [hseen, Option.all_some] at hkeeps
    exact ⟨s, s', message, rfl, hid, hseen, hstatus, happly,
      (writable_applied (World.writable_of_seen hseen) happly).trans hkeeps⟩
  · rintro ⟨s, s', message, rfl, h⟩
    obtain ⟨htopic, hpoints⟩ :=
      (applyEvent_isSome_iff { topic, payload := fields } s).mp ⟨message, s', h.applied⟩
    refine ⟨h.named, by rw [h.seen, Option.map_some, h.playing], htopic, hpoints, ?_⟩
    rw [h.seen, Option.all_some]
    exact (writable_applied (World.writable_of_seen h.seen) h.applied).symm.trans h.written

theorem log_dispatch (handler : MqttEvent → UseCase Unit) (topic : String) (fields : Dict) :
    (dispatch handler topic (some (.obj fields))).log (handle ctx) w =
      (handler { topic, payload := fields }).log (handle ctx) w := by
  rw [dispatch, Prog.log_bind, Prog.log_attempt, Prog.run_attempt]
  exact List.append_nil _

/-- The callback of a game over closes the game of the active session, or does
nothing. -/
theorem speaks_finishBorneGame {active : Option String} (clock : Clock) (sessionId : String) :
    Prog.Rests (speakProtocol borneId active) () (finishBorneGame clock borneId sessionId) :=
  rests_finishBorneGame speaks_plain speaks_markGameOver (speaks_finishAndPersist clock) sessionId

/-- The events of the sensors are heard of the active session alone where no
other one accepts them. -/
theorem aboutActive_sensed_iff {event : MqttEvent} {broadcaster : Broadcaster}
    (hborne : .borne ∈ broadcaster) (clock : Clock) :
    (∀ c ∈ (handleMqttEvent broadcaster (some (finishBorneGame clock borneId)) clock.now event).log
        (handle ctx) w, AboutActive borneId c) ↔
      ∀ s s' message, Accepts w event s s' message →
        (w.borne borneId).activeSessionId = some s.sessionId := by
  constructor
  · intro h s s' message haccepts
    obtain ⟨⟨op, w'⟩, hc, ⟨message', rfl⟩, hborne'⟩ :=
      told_handleMqttEvent haccepts ctx borneId broadcaster _ clock.now
    rw [← hborne']
    exact h _ hc s.sessionId (if_pos hborne)
  · intro h
    by_cases haccepts : ∃ s s' message, Accepts w event s s' message
    · obtain ⟨s, s', message, haccepts⟩ := haccepts
      refine aboutActive_of_rests (rests_handleMqttEvent speaks_plain
        (speaks_finishBorneGame clock) (fun id hid message => speaks_tell (fun _ => ?_) message)
        clock.now) _ ctx rfl
      rw [h s s' _ haccepts, ← haccepts.named, hid]
    · push Not at haccepts
      intro c hc id hid
      rw [(ignored_handleMqttEvent haccepts broadcaster _ clock.now).2 c hc] at hid
      cases hid

theorem aboutActive_mqtt_iff {broadcaster : Broadcaster} (hborne : .borne ∈ broadcaster)
    (topic : String) (payload : Option Json) (clock : Clock) (uuid : String)
    (pg : List (Option Bool)) :
    (∀ c ∈ Event.calls borneId w { request := .mqtt broadcaster topic payload, clock, uuid, pg },
        AboutActive borneId c) ↔
      OfActive borneId w { request := .mqtt broadcaster topic payload, clock, uuid, pg } := by
  cases payload with
  | none => exact iff_of_true (List.forall_mem_nil _) (forall_mem_none _)
  | some payload =>
      cases payload with
      | obj fields =>
          have haccepted := accepted_iff w broadcaster topic fields clock uuid pg
          simp only [Event.calls, Event.program, OfActive, Event.sensed, log_dispatch]
          by_cases hinput : "/input/".toList <:+: topic.toList
          · rw [mqttHandler_of_input hinput, if_pos hinput]
            exact iff_of_true (aboutActive_of_rests
              (rests_handleBorneInput speaks_plain borneId topic fields) _ _ rfl)
              (forall_mem_none _)
          · rw [mqttHandler_of_not_input hinput, if_neg hinput, aboutActive_sensed_iff hborne]
            constructor
            · intro h id _ hid
              obtain ⟨s, s', message, rfl, haccepts⟩ := (haccepted id).mp hid
              exact h s s' message haccepts
            · intro h s s' message haccepts
              exact h s.sessionId haccepts.named
                ((haccepted s.sessionId).mpr ⟨s, s', message, rfl, haccepts⟩)
      | _ => exact iff_of_true (List.forall_mem_nil _) (forall_mem_none _)

/-- A countdown that has something to say says it in its next stretch. -/
theorem told_countdown {t : CountdownTask} (h : t.Speaks w) (ctx : Context) (borneId : String) :
    ∃ c ∈ (countdownFrom t.broadcaster t.sessionId t.remaining).logUntil Op.isSleep
        (handle ctx) w,
      (∃ message, c.1 = .broadcastToSession t.broadcaster t.sessionId message) ∧
        c.2.borne borneId = w.borne borneId := by
  cases hremaining : t.remaining with
  | cons value values => exact ⟨_, List.mem_cons_self, ⟨_, rfl⟩, rfl⟩
  | nil =>
      obtain ⟨s, hseen, hready⟩ := Option.map_eq_some_iff.mp (h.resolve_left (absurd hremaining))
      have hread : (handle ctx (.sessionGet t.sessionId) w).1 = .ok (some s) :=
        World.readSession_of_seen hseen
      rw [countdownFrom, Prog.logUntil_of_all _ (finishCountdown_isSleep _ _), finishCountdown,
        switchStatus, Prog.log_of_ok hread]
      dsimp only
      have hwrite : handle ctx (.sessionUpdate { s with status := .playing })
          (handle ctx (.sessionGet t.sessionId) w).2 = (.ok (), w.putSession (s.to .playing)) :=
        handle_switch hseen ctx .playing
      rw [if_pos (by rw [hready]; rfl), Prog.log_of_ok (congrArg Prod.fst hwrite), hwrite]
      exact ⟨_, List.mem_cons_of_mem _ (List.mem_cons_of_mem _ List.mem_cons_self), ⟨_, rfl⟩, rfl⟩

theorem silent_countdown {t : CountdownTask} (h : ¬ t.Speaks w) :
    ∀ c ∈ (countdownFrom t.broadcaster t.sessionId t.remaining).logUntil Op.isSleep
        (handle ctx) w, c.1.toldToScreens = none := by
  obtain ⟨hremaining, hready⟩ := not_or.mp h
  rw [not_not.mp hremaining, countdownFrom, Prog.logUntil_of_all _ (finishCountdown_isSleep _ _),
    finishCountdown, switchStatus, Prog.log_perform_bind, handle]
  rcases w.readSession_cases t.sessionId with hread | ⟨-, err, hread⟩
  · rw [hread]
    cases hseen : w.seen t.sessionId with
    | none => exact List.forall_mem_singleton.mpr rfl
    | some s =>
        rw [hseen] at hready
        dsimp only
        rw [if_neg fun hstatus => hready (congrArg some (eq_of_beq hstatus))]
        exact List.forall_mem_singleton.mpr rfl
  · rw [hread]
    exact List.forall_mem_singleton.mpr rfl

theorem aboutActive_countdown_iff (task : ℕ) (clock : Clock) (uuid : String)
    (pg : List (Option Bool)) :
    (∀ c ∈ Event.calls borneId w { request := .countdown task, clock, uuid, pg },
        AboutActive borneId c) ↔
      OfActive borneId w { request := .countdown task, clock, uuid, pg } := by
  simp only [Event.calls, OfActive]
  cases htask : w.task? task with
  | none => exact iff_of_true (List.forall_mem_nil _) (forall_mem_none _)
  | some t =>
      simp only [Option.mem_def, Option.some.injEq, forall_eq']
      constructor
      · intro h hborne hspeaks
        obtain ⟨⟨op, w'⟩, hc, ⟨message, rfl⟩, hborne'⟩ :=
          told_countdown hspeaks { task := some t.id } borneId
        rw [← hborne']
        exact h _ hc t.sessionId (if_pos hborne)
      · intro h
        by_cases hspeaks : t.Speaks w
        · exact aboutActive_of_rests (rests_countdownFrom speaks_plain
            (speaks_tell fun hborne => h hborne hspeaks) t.remaining) _ _ rfl
        · intro c hc id hid
          rw [silent_countdown hspeaks c hc] at hid
          cases hid

theorem aboutActive_of_program {p : UseCase Unit}
    (hp : Prog.Rests (speakProtocol borneId (w.borne borneId).activeSessionId) () p) :
    ∀ c ∈ p.log (handle ctx) w, AboutActive borneId c :=
  aboutActive_of_rests hp _ ctx rfl

/-- What a request says on the bus of the borne is about the active session
exactly where only that one has something to say. -/
theorem aboutActive_iff {e : Event} (hwired : e.Wired) (hfresh : e.Fresh w) :
    (∀ c ∈ e.calls borneId w, AboutActive borneId c) ↔ OfActive borneId w e := by
  obtain ⟨request, clock, uuid, pg⟩ := e
  cases request with
  | mqtt broadcaster topic payload =>
      exact aboutActive_mqtt_iff (by rw [hwired]; decide) topic payload clock uuid pg
  | countdown task => exact aboutActive_countdown_iff task clock uuid pg
  | intent action payload =>
      exact iff_of_true (aboutActive_applyIntent hfresh.1 clock.now action payload)
        (forall_mem_none _)
  | createSession pseudo mode roomCode =>
      exact iff_of_true (aboutActive_of_program
        (.bind (speaks_createSession _ _ _ _ _) fun _ => rfl)) (forall_mem_none _)
  | readyUp broadcaster sessionId =>
      obtain rfl : broadcaster = [.session] := hwired
      exact iff_of_true (aboutActive_of_program
        (.bind (speaks_readyUp (fun h => absurd h (by decide)) _) fun _ => rfl))
        (forall_mem_none _)
  | sessionCommand broadcaster command sessionId =>
      obtain rfl : broadcaster = [.session] := hwired
      exact iff_of_true (aboutActive_of_program (rests_sessionCommand speaks_plain speaks_launch
        (speaks_tell fun h => absurd h (by decide)) command)) (forall_mem_none _)
  | finish sessionId =>
      exact iff_of_true (aboutActive_of_program
        (.bind (speaks_finishAndPersist _ _) fun _ => rfl)) (forall_mem_none _)
  | matchCommand command =>
      exact iff_of_true (aboutActive_of_program (speaks_handleMatchCommand _))
        (forall_mem_none _)
  | relay event =>
      exact iff_of_true (aboutActive_of_program (rests_relayEvent speaks_plain
        speaks_markGameOver (speaks_finishAndPersist clock) event)) (forall_mem_none _)

end Calls

/-! ## Runs -/

section Runs

variable {borneId : String} {w : World} {e : Event} {evs : List Event}

/-- The sensor events of the other sessions change nothing where they are not
accepted. -/
theorem step_of_other (h : OfActive borneId w e) (hother : OfOther borneId w e = true) :
    step borneId w e = w := by
  obtain ⟨request, clock, uuid, pg⟩ := e
  cases request with
  | mqtt broadcaster topic payload =>
      cases payload with
      | none => rfl
      | some payload =>
          cases payload with
          | obj fields =>
              simp only [OfOther, OfActive, Event.sensed] at h hother
              by_cases hinput : "/input/".toList <:+: topic.toList
              · rw [if_pos hinput] at hother
                cases hother
              · rw [if_neg hinput] at h hother
                obtain ⟨id, hid, hne⟩ := (Option.any_eq_true _ _).mp hother
                have hignored : ∀ s s' message,
                    ¬ Accepts w { topic, payload := fields } s s' message := by
                  intro s s' message haccepts
                  obtain rfl := Option.some.inj (haccepts.named.symm.trans hid)
                  have haccepted := (accepted_iff w broadcaster topic fields clock uuid pg
                    s.sessionId).mpr ⟨s, s', message, rfl, haccepts⟩
                  rw [h _ haccepts.named haccepted] at hne
                  simp at hne
                simp only [step, Event.program, run_dispatch]
                rw [mqttHandler_of_not_input hinput]
                exact (ignored_handleMqttEvent hignored broadcaster _ clock.now).1
          | _ => rfl
  | _ => cases hother

/-- Where only the active session has something to say, the run without the
sensor events of the others ends in the same world. -/
theorem foldl_withoutOthers (h : Runs.Along (step borneId) (OfActive borneId) w evs) :
    (withoutOthers borneId w evs).foldl (step borneId) w = evs.foldl (step borneId) w := by
  induction evs generalizing w with
  | nil => rfl
  | cons e evs ih =>
      obtain ⟨hactive, hrest⟩ := h
      rw [withoutOthers]
      split
      · next hother =>
          have hstep := step_of_other hactive hother
          rw [hstep] at hrest
          rw [List.foldl_cons, hstep]
          exact ih hrest
      · exact ih hrest

theorem along_aboutActive_iff
    (h : Runs.Along (step borneId) (fun w e => e.Wired ∧ e.Fresh w) w evs) :
    Runs.Along (step borneId) (fun w e => ∀ c ∈ e.calls borneId w, AboutActive borneId c) w evs ↔
      Runs.Along (step borneId) (OfActive borneId) w evs := by
  constructor
  · intro habout
    exact (h.and habout).mono fun _ _ he => (aboutActive_iff he.1.1 he.1.2).mp he.2
  · intro hactive
    exact (h.and hactive).mono fun _ _ he => (aboutActive_iff he.1.1 he.1.2).mpr he.2

/-- The screens of the borne hear of the active session alone exactly in the runs
in which no other session accepts an event of a sensor and no countdown of
another one has something left to say on the bus of the borne. -/
theorem isolated_iff (borneId : String) (w : World) (evs : List Event)
    (h : Runs.Along (step borneId) (fun w e => e.Wired ∧ e.Fresh w) w evs) :
    Isolated borneId w evs ↔ Runs.Along (step borneId) (OfActive borneId) w evs := by
  constructor
  · intro hisolated
    exact (along_aboutActive_iff h).mp hisolated.aboutActive
  · intro hactive
    refine ⟨(along_aboutActive_iff h).mpr hactive, ?_⟩
    rw [foldl_withoutOthers hactive]

end Runs

/-- A game on the borne, a session of the other front that is not played yet,
and a hit of each. -/
def hitBeforeReady : List Event :=
  (borneGame "s").take 8 ++
    [{ request := .createSession "Zoe" .solo none, uuid := "l" },
      sensorEvent [.session, .borne] topicBumperHit "l" 100,
      sensorEvent [.session, .borne] topicBumperHit "s" 100]

theorem isolated_iff_hitBeforeReady :
    Isolated "b" {} hitBeforeReady ↔ Runs.Along (step "b") (OfActive "b") {} hitBeforeReady :=
  isolated_iff "b" {} hitBeforeReady (by decide +kernel)

/-- A game on the borne, and a hit in a game of the other front. -/
def hitOfOther : List Event :=
  (borneGame "s").take 8 ++
    [{ request := .createSession "Zoe" .solo none, uuid := "l" },
      { request := .readyUp [.session] "l" }] ++
    List.replicate 5 { request := .countdown 1 } ++
    [sensorEvent [.session, .borne] topicBumperHit "l" 100]

/-- The hit of another session is shown on the screens of the borne. -/
theorem hitOfOther_heard :
    Runs.Along (step "b") (fun w e => e.Wired ∧ e.Fresh w) {} hitOfOther ∧
      ¬ Runs.Along (step "b") (fun w e => ∀ c ∈ e.calls "b" w, AboutActive "b" c) {}
        hitOfOther ∧
      ((hitOfOther.foldl (step "b") {}).heard "b").length =
        (((withoutOthers "b" {} hitOfOther).foldl (step "b") {}).heard "b").length + 1 := by
  have hrun : Runs.Along (step "b") (fun w e => e.Wired ∧ e.Fresh w) {} hitOfOther := by
    decide +kernel
  refine ⟨hrun, fun h => ?_, by decide +kernel⟩
  have hactive := (along_aboutActive_iff hrun).mp h
  revert hactive
  decide +kernel

end FlipperBack
