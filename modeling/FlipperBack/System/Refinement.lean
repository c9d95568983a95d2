import FlipperBack.System.Acts

/-!
# Every step is a run of acts

For each use case, the acts it does from a given world. `step_eq` says that a
step of the application leaves what these acts leave.
-/

namespace FlipperBack

open Effects Python

/-- Acts chosen from the world. -/
abbrev Plan : Type := World → List Act

/-- One plan, then another from where it leads. -/
def Plan.andThen (p q : Plan) : Plan := Runs.andThen World.act p q

namespace World

/-- Whether reading a session raises. -/
def unreadable (w : World) (sessionId : String) : Bool :=
  match w.readSession sessionId with
  | .ok _ => false
  | .error _ => true

end World

/-! ## The acts of the use cases -/

def switchActs (via : Switch) (broadcaster : Broadcaster) (sessionId : String) : Plan := fun w =>
  match w.seen sessionId with
  | none => []
  | some s => if via.allowed s.status then [.switch via broadcaster s] else []

def openActs (borneId : String) : Plan := fun w =>
  match w.bornes borneId with
  | none => [.openBorne borneId]
  | some _ => []

def flushActs (pg : List (Option Bool)) (clock : Clock) (sessionId : String) : Plan := fun w =>
  match w.seen sessionId with
  | none => []
  | some s =>
      match persist pg clock.utcnow (s.finished clock (w.buffers sessionId)) w.db with
      | (.ok ids, db) => [.flush pg clock s ids db]
      | (.error e, db) => [.flushFails pg clock s e db]

def markGameOverActs (borneId : String) : Plan :=
  (openActs borneId).andThen fun w =>
    if (w.borne borneId).nav = .inGame then [.nav { w.borne borneId with nav := .gameOver }] else []

def finishBorneGameActs (pg : List (Option Bool)) (clock : Clock) (borneId sessionId : String) :
    Plan :=
  (openActs borneId).andThen fun w =>
    if (w.borne borneId).activeSessionId = some sessionId then
      ((markGameOverActs borneId).andThen (flushActs pg clock sessionId)) w
    else
      []

/-- Whether the relayed score has too many digits for a session to be written with it. -/
def World.refuses (w : World) (sessionId : String) (finalScore : Json) : Bool :=
  match w.seen sessionId, finalScore.asPyInt with
  | some _, some score => !score.fitsStr
  | _, _ => false

/-- The relayed score, where the session can be read and the score is an
integer. -/
def scoreActs (sessionId : String) (finalScore : Json) : Plan := fun w =>
  match w.seen sessionId, finalScore.asPyInt with
  | some s, some score => [.score s score]
  | _, _ => []

def finishFromRelayActs (pg : List (Option Bool)) (clock : Clock) (borneId : String)
    (finalScore : Json) : Plan :=
  (openActs borneId).andThen fun w =>
    match (w.borne borneId).activeSessionId with
    | none => markGameOverActs borneId w
    | some sessionId =>
        if w.unreadable sessionId || w.refuses sessionId finalScore then []
        else ((scoreActs sessionId finalScore).andThen
          (finishBorneGameActs pg clock borneId sessionId)) w

def relayActs (pg : List (Option Bool)) (clock : Clock) (borneId : String) (event : Dict) : Plan :=
  fun w =>
    match event.get "type" with
    | some (.str type) =>
        if type ∈ relayableEventTypes then
          (Plan.andThen (fun _ => [.display borneId (.relayed event)]) fun w =>
            if type = "game:over" then
              finishFromRelayActs pg clock borneId ((event.get "finalScore").getD .null) w
            else []) w
        else []
    | _ => []

/-- The session that `createSession` stores. -/
def newSession (uuid : String) (now : DateTime) (pseudo : String) (mode : GameMode)
    (roomCode : Option String) : Session :=
  { sessionId := uuid, pseudo, score := .int 0, status := .waiting, mode, roomCode,
    createdAt := now }

def createActs (uuid : String) (now : DateTime) (pseudo : String) (mode : GameMode)
    (roomCode : Option String) : Plan := fun _ =>
  match normalizeAndValidate pseudo with
  | .ok pseudo => [.create (newSession uuid now pseudo mode roomCode)]
  | .error _ => []

theorem newSession_readable {uuid : String} {now : DateTime} {pseudo : String} {mode : GameMode}
    {roomCode : Option String} : (newSession uuid now pseudo mode roomCode).readable :=
  Session.readable_of_isInt rfl (Session.writable_of_unplayed rfl rfl rfl)

/-- The start of a game from the identification screen. -/
def startGameActs (uuid : String) (now : DateTime) (borneId : String) (payload : Json) : Plan :=
  fun w =>
    if (w.borne borneId).nav = .identification then
      match extractPseudo payload with
      | none => []
      | some pseudo =>
          match normalizeAndValidate pseudo with
          | .error _ => []
          | .ok pseudo =>
              let s := newSession uuid now pseudo (extractMode payload) none
              [.create s,
                .nav { w.borne borneId with activeSessionId := some uuid, nav := .inGame },
                .switch .ready [.borne] s]
    else []

/-- The borne after an intent that the navigation table leads to `target`. -/
def Borne.movedTo (b : Borne) (target : BorneNavState) : Borne :=
  { b with
    activeSessionId :=
      if b.nav = .gameOver ∧ (target = .menu ∨ target = .identification) then none
      else b.activeSessionId
    nav := target }

def intentActs (uuid : String) (now : DateTime) (borneId action : String) (payload : Json) : Plan :=
  (openActs borneId).andThen fun w =>
    if action = playersValidated then
      startGameActs uuid now borneId payload w
    else
      match nextNavState (w.borne borneId).nav action with
      | none => []
      | some target => [.nav ((w.borne borneId).movedTo target)]

/-- The switch a match command asks for. -/
def MatchCommand.toSwitch : MatchCommand → Switch
  | pause => .pause
  | resume => .resume
  | abandon => .abandon

def matchCommandActs (borneId : String) (command : MatchCommand) : Plan :=
  (openActs borneId).andThen fun w =>
    match (w.borne borneId).activeSessionId with
    | none => []
    | some sessionId =>
        if command = .abandon ∧ w.unreadable sessionId = false then
          ((switchActs .abandon [.borne] sessionId).andThen (markGameOverActs borneId)) w
        else
          switchActs command.toSwitch [.borne] sessionId w

/-- The acts of an event of a sensor. -/
def mqttEventActs (pg : List (Option Bool)) (clock : Clock) (borneId : String)
    (broadcaster : Broadcaster) (e : MqttEvent) : Plan := fun w =>
  match e.sessionId? with
  | none => []
  | some sessionId =>
      match w.seen sessionId with
      | none => []
      | some s =>
          if s.status = .playing then
            match applyEvent e s with
            | .ok (some (message, s')) =>
                if s'.writable then
                  (Plan.andThen (fun _ => [.event broadcaster clock.now e s s' message]) fun w =>
                    if e.topic = topicGameOver then
                      finishBorneGameActs pg clock borneId sessionId w
                    else []) w
                else []
            | _ => []
          else []

/-- The message a physical input is shown as, if any. -/
def inputMessage (topic : String) (payload : Dict) : Option BorneMessage :=
  if "/plunger".toList.isSuffixOf topic.toList then
    (inputState payload).map fun pressed =>
      .controlPlunger (if pressed then "charge" else "release")
  else if "/button".toList.isSuffixOf topic.toList then
    match payload.get "id" with
    | some (.str buttonId) =>
        match buttonMap.lookup buttonId, inputState payload with
        | some (kind, value), some pressed =>
            if kind = "nav" then if pressed then some (.controlNav value) else none
            else some (.controlFlipper value (if pressed then "press" else "release"))
        | _, _ => none
    | _ => none
  else none

def mqttActs (pg : List (Option Bool)) (clock : Clock) (borneId : String)
    (broadcaster : Broadcaster) (topic : String) (payload : Option Json) : Plan := fun w =>
  match payload with
  | some (.obj fields) =>
      if "/input/".toList <:+: topic.toList then
        match inputMessage topic fields with
        | some message => [.display borneId message]
        | none => []
      else
        mqttEventActs pg clock borneId broadcaster { topic, payload := fields } w
  | _ => []

theorem mqttActs_of_input {topic : String} (h : "/input/".toList <:+: topic.toList)
    (pg : List (Option Bool)) (clock : Clock) (borneId : String) (broadcaster : Broadcaster)
    (fields : Dict) (w : World) :
    mqttActs pg clock borneId broadcaster topic (some (.obj fields)) w =
      match inputMessage topic fields with
      | some message => [.display borneId message]
      | none => [] :=
  if_pos h

theorem mqttActs_of_not_input {topic : String} (h : ¬ "/input/".toList <:+: topic.toList)
    (pg : List (Option Bool)) (clock : Clock) (borneId : String) (broadcaster : Broadcaster)
    (fields : Dict) (w : World) :
    mqttActs pg clock borneId broadcaster topic (some (.obj fields)) w =
      mqttEventActs pg clock borneId broadcaster { topic, payload := fields } w :=
  if_neg h

def countdownActs (id : ℕ) : Plan := fun w =>
  match w.task? id with
  | none => []
  | some t =>
      match t.remaining with
      | value :: values => [.tick t value values]
      | [] =>
          match w.seen t.sessionId with
          | none => [.finish t]
          | some s => if s.status = .ready then [.start t s] else [.finish t]

/-- The acts of a request. -/
def Event.acts (borneId : String) (e : Event) : Plan :=
  match e.request with
  | .createSession pseudo mode roomCode => createActs e.uuid e.clock.now pseudo mode roomCode
  | .readyUp broadcaster sessionId => switchActs .ready broadcaster sessionId
  | .sessionCommand broadcaster command sessionId =>
      switchActs command.toSwitch broadcaster sessionId
  | .mqtt broadcaster topic payload => mqttActs e.pg e.clock borneId broadcaster topic payload
  | .finish sessionId => flushActs e.pg e.clock sessionId
  | .intent action payload => intentActs e.uuid e.clock.now borneId action payload
  | .matchCommand command => matchCommandActs borneId command
  | .relay event => relayActs e.pg e.clock borneId event
  | .countdown id => countdownActs id

/-! ## What the use cases leave -/

section Runs

variable (ctx : Context) (w : World)

theorem foldl_andThen (p q : Plan) :
    ((p.andThen q) w).foldl World.act w =
      (q ((p w).foldl World.act w)).foldl World.act ((p w).foldl World.act w) :=
  Runs.foldl_andThen p q w

theorem unreadable_eq_false {w : World} {sessionId : String} (h : w.unreadable sessionId = false) :
    w.readSession sessionId = .ok (w.seen sessionId) := by
  rcases w.readSession_cases sessionId with hread | ⟨-, e, hread⟩
  · exact hread
  · rw [World.unreadable, hread] at h
    cases h

theorem borne_openActs (borneId : String) :
    ((openActs borneId w).foldl World.act w).borne borneId = w.borne borneId := by
  unfold openActs
  cases h : w.bornes borneId with
  | none =>
      have hput : (w.bornes.put { borneId := borneId }) borneId =
          some ({ borneId } : Borne) := w.bornes.get_put_self { borneId := borneId }
      simp only [List.foldl_cons, List.foldl_nil, World.borne, World.act_bornes, hput, h]
      rfl
  | some b => rfl

theorem seen_openActs (borneId sessionId : String) :
    ((openActs borneId w).foldl World.act w).seen sessionId = w.seen sessionId := by
  unfold openActs
  cases w.bornes borneId <;> rfl

theorem handle_borneGetOrCreate (borneId : String) :
    handle ctx (.borneGetOrCreate borneId) w =
      (.ok (w.borne borneId), (openActs borneId w).foldl World.act w) := by
  have hw : (if (w.bornes borneId).isSome then w else w.putBorne { borneId }) =
      (openActs borneId w).foldl World.act w := by
    unfold openActs
    cases h : w.bornes borneId <;> rfl
  rw [handle, World.readBorne_eq, hw]

theorem run_switchStatus (hctx : ctx.task = none) (via : Switch) {after : UseCase Unit}
    {broadcaster : Broadcaster} {sessionId : String}
    (hafter : ∀ w, after.run (handle ctx) w =
      (.ok (), w.spawnIf via.launches broadcaster sessionId)) :
    (switchStatus via.allowed via.target after broadcaster sessionId).run (handle ctx) w =
      ((w.readSession sessionId).map fun _ => (),
        (switchActs via broadcaster sessionId w).foldl World.act w) := by
  rw [switchStatus, Prog.run_bind, Prog.run_perform, handle]
  rcases w.readSession_cases sessionId with hread | ⟨hseen, e, hread⟩
  · rw [hread, switchActs]
    cases hseen : w.seen sessionId with
    | none => rfl
    | some s =>
        obtain rfl := World.seen_sessionId hseen
        dsimp only
        split
        · rw [Prog.run_bind, Prog.run_perform, handle_switch hseen]
          dsimp only
          rw [Prog.run_bind, Prog.run_perform]
          dsimp only [handle]
          rw [hafter, hctx]
          rfl
        · rfl
  · rw [hread, switchActs, hseen]
    rfl

theorem run_pauseSession (hctx : ctx.task = none) (broadcaster : Broadcaster)
    (sessionId : String) :
    (pauseSession broadcaster sessionId).run (handle ctx) w =
      ((w.readSession sessionId).map fun _ => (),
        (switchActs .pause broadcaster sessionId w).foldl World.act w) :=
  run_switchStatus ctx w hctx .pause fun _ => rfl

theorem run_resumeSession (hctx : ctx.task = none) (broadcaster : Broadcaster)
    (sessionId : String) :
    (resumeSession broadcaster (some broadcaster) sessionId).run (handle ctx) w =
      ((w.readSession sessionId).map fun _ => (),
        (switchActs .resume broadcaster sessionId w).foldl World.act w) :=
  run_switchStatus ctx w hctx .resume fun _ => rfl

theorem run_abandonSession (hctx : ctx.task = none) (broadcaster : Broadcaster)
    (sessionId : String) :
    (abandonSession broadcaster sessionId).run (handle ctx) w =
      ((w.readSession sessionId).map fun _ => (),
        (switchActs .abandon broadcaster sessionId w).foldl World.act w) :=
  run_switchStatus ctx w hctx .abandon fun _ => rfl

theorem run_readyUp (hctx : ctx.task = none) (broadcaster : Broadcaster) (sessionId : String) :
    ((readyUp broadcaster (some broadcaster) sessionId).run (handle ctx) w).2 =
      (switchActs .ready broadcaster sessionId w).foldl World.act w := by
  rw [readyUp, Prog.run_bind, Prog.run_perform, handle]
  rcases w.readSession_cases sessionId with hread | ⟨hseen, e, hread⟩
  · rw [hread, switchActs]
    cases hseen : w.seen sessionId with
    | none => rfl
    | some s =>
        obtain rfl := World.seen_sessionId hseen
        dsimp only
        rw [Prog.run_bind, Prog.run_perform, handle_switch hseen]
        simp only [Prog.run_bind, Prog.run_perform, handle, launch, hctx]
        rfl
  · rw [hread, switchActs, hseen]
    rfl

/-- The lookup of the best score so far only reads. -/
theorem run_previousBestFor (pseudo : String) (mode : GameMode) :
    ∃ best, (previousBestFor pseudo mode).run (handle ctx) w = (.ok best, w) := by
  unfold previousBestFor
  split
  · rw [Prog.run_bind, Prog.run_perform, handle]
    dsimp only
    cases w.player pseudo with
    | none => exact ⟨none, rfl⟩
    | some player => exact ⟨w.db.bestSoloScore player.id, rfl⟩
  · exact ⟨none, rfl⟩

theorem run_finishAndPersist (clock : Clock) (sessionId : String) :
    ((finishAndPersist clock sessionId).run (handle ctx) w).2 =
      (flushActs ctx.pg clock sessionId w).foldl World.act w := by
  rw [finishAndPersist, Prog.run_bind, Prog.run_perform, handle]
  rcases w.readSession_cases sessionId with hread | ⟨hseen, e, hread⟩
  · rw [hread, flushActs]
    cases hseen : w.seen sessionId with
    | none => rfl
    | some s =>
        obtain rfl := World.seen_sessionId hseen
        dsimp only
        rw [Prog.run_bind, Prog.run_perform]
        dsimp only [handle]
        obtain ⟨best, hbest⟩ := run_previousBestFor ctx w s.pseudo s.mode
        rw [Prog.run_bind, hbest]
        dsimp only
        rw [Prog.run_bind, Prog.run_perform]
        dsimp only [handle]
        rcases persist ctx.pg clock.utcnow (s.finished clock (w.buffers s.sessionId)) w.db with
          ⟨e | ids, db⟩
        · rfl
        · rfl
  · rw [hread, flushActs, hseen]
    rfl

theorem run_markGameOver (borneId : String) :
    (markGameOver borneId).run (handle ctx) w =
      (.ok (), (markGameOverActs borneId w).foldl World.act w) := by
  rw [markGameOver, Prog.run_bind, Prog.run_perform, handle_borneGetOrCreate, markGameOverActs,
    foldl_andThen, borne_openActs]
  dsimp only
  split <;> rfl

theorem run_finishBorneGame (clock : Clock) (borneId sessionId : String) :
    ((finishBorneGame clock borneId sessionId).run (handle ctx) w).2 =
      (finishBorneGameActs ctx.pg clock borneId sessionId w).foldl World.act w := by
  rw [finishBorneGame, Prog.run_bind, Prog.run_perform, handle_borneGetOrCreate,
    finishBorneGameActs, foldl_andThen, borne_openActs]
  dsimp only
  split
  · rw [Prog.run_bind, run_markGameOver, foldl_andThen]
    dsimp only
    refine (Prog.run_tryCatch_snd ?_ _).trans ((Prog.run_bind_pure_snd _ _ _ _).trans ?_)
    · intro e s
      cases e <;> rfl
    · exact run_finishAndPersist _ _ _ _
  · rfl

theorem run_finishBorneGameFromRelay (clock : Clock) (borneId : String) (finalScore : Json) :
    ((finishBorneGameFromRelay clock borneId finalScore).run (handle ctx) w).2 =
      (finishFromRelayActs ctx.pg clock borneId finalScore w).foldl World.act w := by
  rw [finishBorneGameFromRelay, Prog.run_bind, Prog.run_perform, handle_borneGetOrCreate,
    finishFromRelayActs, foldl_andThen, borne_openActs]
  generalize (openActs borneId w).foldl World.act w = w₁
  dsimp only
  cases (w.borne borneId).activeSessionId with
  | none => rw [run_markGameOver]
  | some sessionId =>
      dsimp only
      rw [Prog.run_bind, Prog.run_perform, handle]
      cases hread : w₁.readSession sessionId with
      | error e => rw [if_pos (by rw [World.unreadable, hread]; rfl)]; rfl
      | ok s =>
          have hseen : w₁.seen sessionId = s := by rw [World.seen, hread]
          have hreadable : w₁.unreadable sessionId = false := by rw [World.unreadable, hread]
          rw [hreadable, Bool.false_or, World.refuses, hseen]
          dsimp only
          cases s with
          | none =>
              rw [if_neg Bool.false_ne_true, foldl_andThen, scoreActs, hseen]
              exact run_finishBorneGame _ _ _ _ _
          | some s =>
              cases hscore : finalScore.asPyInt with
              | none =>
                  rw [if_neg Bool.false_ne_true, foldl_andThen, scoreActs, hseen, hscore]
                  exact run_finishBorneGame _ _ _ _ _
              | some score =>
                  dsimp only
                  rw [Prog.run_bind, Prog.run_perform]
                  have hwritable := Session.writable_withScore (World.writable_of_seen hseen) score
                  by_cases hfits : score.fitsStr
                  · rw [handle_sessionUpdate (hwritable.trans hfits), if_neg (by simp [hfits]),
                      foldl_andThen, scoreActs, hseen, hscore]
                    exact run_finishBorneGame _ _ _ _ _
                  · rw [handle_sessionUpdate_error (hwritable ▸ hfits), if_pos (by simpa using hfits)]
                    rfl

theorem run_relayEvent (clock : Clock) (borneId : String) (event : Dict) :
    ((relayEvent clock borneId event).run (handle ctx) w).2 =
      (relayActs ctx.pg clock borneId event w).foldl World.act w := by
  unfold relayEvent relayActs
  cases event.get "type" with
  | none => rfl
  | some type =>
      cases type with
      | str type =>
          dsimp only
          split
          · rw [foldl_andThen, Prog.run_bind, Prog.run_perform]
            dsimp only [handle]
            split
            · exact run_finishBorneGameFromRelay _ _ _ _ _
            · rfl
          · rfl
      | _ => rfl

theorem run_createSession (uuid : String) (now : DateTime) (pseudo : String) (mode : GameMode)
    (roomCode : Option String) :
    (createSession uuid now pseudo mode roomCode).run (handle ctx) w =
      ((normalizeAndValidate pseudo).map fun pseudo =>
          newSession uuid now pseudo mode roomCode,
        (createActs uuid now pseudo mode roomCode w).foldl World.act w) := by
  rw [createSession, Prog.run_bind, Prog.run_ofExcept, createActs]
  cases normalizeAndValidate pseudo with
  | error e => rfl
  | ok pseudo =>
      have hcreate := @handle_sessionCreate _ ctx w
        (Session.writable_of_readable (@newSession_readable uuid now pseudo mode roomCode))
      change (Prog.run (handle ctx)
        (await (.sessionCreate (newSession uuid now pseudo mode roomCode)) >>= fun _ =>
          pure (newSession uuid now pseudo mode roomCode)) w) = _
      rw [Prog.run_bind, Prog.run_perform, hcreate]
      rfl

/-- The session of a game that starts is seen as it was created. -/
theorem seen_started {s : Session} {b : Borne} (hreadable : s.readable)
    (hroom : s.roomCode = none) :
    ((w.act (.create s)).act (.nav b)).seen s.sessionId = some s := by
  have hstored : ((w.act (.create s)).act (.nav b)).sessions s.sessionId = some s := by
    rw [World.act_sessions, World.act_sessions]
    exact w.sessions.get_put_self s
  rw [World.seen_of_stored hstored hreadable, hroom, noneIfEmpty_none]
  cases s
  rw [← hroom]

theorem run_startGame (hctx : ctx.task = none) (uuid : String) (now : DateTime) (borneId : String)
    (payload : Json) :
    ((startGame uuid now (w.borne borneId) payload).run (handle ctx) w).2 =
      (startGameActs uuid now borneId payload w).foldl World.act w := by
  unfold startGame startGameActs
  split
  · cases extractPseudo payload with
    | none => rfl
    | some pseudo =>
        dsimp only
        rw [Prog.run_bind, run_createSession, createActs]
        cases normalizeAndValidate pseudo with
        | error e => rfl
        | ok pseudo =>
            let s := newSession uuid now pseudo (extractMode payload) none
            let b : Borne :=
              { w.borne borneId with activeSessionId := some uuid, nav := .inGame }
            change ((readyUp [.borne] (some [.borne]) uuid >>= fun _ => pure ()).run (handle ctx)
              ((w.act (.create s)).act (.nav b))).2 =
                ((w.act (.create s)).act (.nav b)).act (.switch .ready [.borne] s)
            have hseen : ((w.act (.create s)).act (.nav b)).seen uuid = some s :=
              seen_started w (s := s) newSession_readable rfl
            rw [Prog.run_bind_pure_snd, run_readyUp ctx _ hctx, switchActs, hseen]
            rfl
  · rfl

theorem run_applyIntent (hctx : ctx.task = none) (uuid : String) (now : DateTime)
    (borneId action : String) (payload : Json) :
    ((applyIntent uuid now borneId action payload).run (handle ctx) w).2 =
      (intentActs uuid now borneId action payload w).foldl World.act w := by
  rw [applyIntent, Prog.run_bind, Prog.run_perform, handle_borneGetOrCreate, intentActs,
    foldl_andThen]
  have hborne := borne_openActs w borneId
  generalize (openActs borneId w).foldl World.act w = w₁ at hborne ⊢
  rw [← hborne]
  dsimp only
  split
  · exact run_startGame ctx w₁ hctx _ _ _ _
  · cases nextNavState (w₁.borne borneId).nav action with
    | none => rfl
    | some target =>
        simp only [Prog.run_bind, Prog.run_perform, handle, broadcastNav]
        rfl

theorem run_handleMatchCommand (hctx : ctx.task = none) (borneId : String)
    (command : MatchCommand) :
    ((handleMatchCommand borneId command).run (handle ctx) w).2 =
      (matchCommandActs borneId command w).foldl World.act w := by
  rw [handleMatchCommand, Prog.run_bind, Prog.run_perform, handle_borneGetOrCreate,
    matchCommandActs, foldl_andThen, borne_openActs]
  generalize (openActs borneId w).foldl World.act w = w₁
  dsimp only
  cases (w.borne borneId).activeSessionId with
  | none => rfl
  | some sessionId =>
      cases command with
      | pause => exact congrArg Prod.snd (run_pauseSession ctx w₁ hctx [.borne] sessionId)
      | resume => exact congrArg Prod.snd (run_resumeSession ctx w₁ hctx [.borne] sessionId)
      | abandon =>
          dsimp only
          rw [Prog.run_bind, run_abandonSession ctx w₁ hctx]
          cases hread : w₁.readSession sessionId with
          | error e =>
              rw [if_neg (by simp [World.unreadable, hread])]
              rfl
          | ok s =>
              rw [if_pos (by simp [World.unreadable, hread]), foldl_andThen]
              exact congrArg Prod.snd (run_markGameOver _ _ _)

theorem run_handleBorneInput (borneId topic : String) (payload : Dict) :
    ((handleBorneInput borneId topic payload).run (handle ctx) w).2 =
      (match inputMessage topic payload with
        | some message => [Act.display borneId message]
        | none => []).foldl World.act w := by
  unfold handleBorneInput inputMessage handlePlunger handleButton
  split
  · cases inputState payload <;> rfl
  · split
    · cases payload.get "id" with
      | none => rfl
      | some id =>
          cases id with
          | str buttonId =>
              dsimp only
              cases buttonMap.lookup buttonId with
              | none => rfl
              | some button =>
                  cases inputState payload with
                  | none => rfl
                  | some pressed =>
                      dsimp only
                      split
                      · cases pressed <;> rfl
                      · rfl
          | _ => rfl
    · rfl

/-- What is left of the handling of an event once the session is seen played. -/
theorem run_handlePlaying (hctx : ctx.task = none) (broadcaster : Broadcaster) (clock : Clock)
    (borneId : String) (e : MqttEvent) (s : Session) :
    (Prog.run (handle ctx) (do
      match ← Prog.ofExcept (liftPy (applyEvent e s)) with
      | none => return
      | some (message, s') =>
          await (.sessionUpdate s')
          await (.bufferPush s.sessionId (bufferedEvent e clock.now))
          await (.broadcastToSession broadcaster s.sessionId message)
          if e.topic = topicGameOver then
            await (.broadcastToSession broadcaster s.sessionId (.matchState s'.status s.sessionId))
            finishBorneGame clock borneId s.sessionId
          else
            return) w).2 =
      (match applyEvent e s with
        | .ok (some (message, s')) =>
            if s'.writable then
              (Plan.andThen (fun _ => [.event broadcaster clock.now e s s' message])
                fun w =>
                  if e.topic = topicGameOver then
                    finishBorneGameActs ctx.pg clock borneId s.sessionId w
                  else []) w
            else []
        | _ => []).foldl World.act w := by
  rw [Prog.run_bind, Prog.run_ofExcept]
  cases happly : applyEvent e s with
  | error err => rfl
  | ok out =>
      cases out with
      | none => rfl
      | some out =>
          obtain ⟨message, s'⟩ := out
          have hid : s'.sessionId = s.sessionId := applyEvent_sessionId happly
          dsimp only [liftPy_ok]
          rw [Prog.run_bind, Prog.run_perform]
          by_cases hwritable : s'.writable
          · rw [handle_sessionUpdate hwritable, if_pos hwritable, foldl_andThen]
            simp only [Prog.run_bind, Prog.run_perform, handle, List.foldl_cons,
              List.foldl_nil, World.act, MqttEvent.announced, hid, hctx]
            split
            · simp only [Prog.run_bind, Prog.run_perform, handle, hctx]
              rw [run_finishBorneGame, World.tell_tell]
              rfl
            · rw [World.tell_eq_tellAll]
              rfl
          · rw [handle_sessionUpdate_error hwritable, if_neg hwritable]
            rfl

theorem run_handleMqttEvent (hctx : ctx.task = none) (broadcaster : Broadcaster) (clock : Clock)
    (borneId : String) (e : MqttEvent) :
    ((handleMqttEvent broadcaster (some (finishBorneGame clock borneId)) clock.now e).run
        (handle ctx) w).2 =
      (mqttEventActs ctx.pg clock borneId broadcaster e w).foldl World.act w := by
  unfold handleMqttEvent mqttEventActs
  cases e.sessionId? with
  | none => rfl
  | some sessionId =>
      dsimp only
      rw [Prog.run_bind, Prog.run_perform, handle]
      rcases w.readSession_cases sessionId with hread | ⟨hseen, err, hread⟩
      · rw [hread]
        cases hseen : w.seen sessionId with
        | none => rfl
        | some s =>
            obtain rfl := World.seen_sessionId hseen
            dsimp only
            split
            · exact run_handlePlaying ctx w hctx broadcaster clock borneId e s
            · rfl
      · rw [hread, hseen]
        rfl

theorem run_dispatch {handler : MqttEvent → UseCase Unit} (topic : String) (fields : Dict) :
    ((dispatch handler topic (some (.obj fields))).run (handle ctx) w).2 =
      ((handler { topic, payload := fields }).run (handle ctx) w).2 := by
  rw [dispatch, Prog.run_bind, Prog.run_attempt]
  rfl

theorem run_mqtt (hctx : ctx.task = none) (broadcaster : Broadcaster) (clock : Clock)
    (borneId topic : String) (payload : Option Json) :
    ((dispatch (mqttHandler broadcaster clock borneId) topic payload).run (handle ctx) w).2 =
      (mqttActs ctx.pg clock borneId broadcaster topic payload w).foldl World.act w := by
  cases payload with
  | none => rfl
  | some payload =>
      cases payload with
      | obj fields =>
          rw [run_dispatch]
          by_cases hinput : "/input/".toList <:+: topic.toList
          · rw [mqttHandler_of_input hinput, mqttActs_of_input hinput]
            exact run_handleBorneInput _ _ _ _ _
          · rw [mqttHandler_of_not_input hinput, mqttActs_of_not_input hinput]
            exact run_handleMqttEvent _ _ hctx _ _ _ _
      | _ => rfl

theorem run_stretch (id : ℕ) :
    (match w.task? id with
      | some t => stretch t w
      | none => w) = (countdownActs id w).foldl World.act w := by
  unfold countdownActs
  cases w.task? id with
  | none => rfl
  | some t =>
      dsimp only
      cases hremaining : t.remaining with
      | cons value values => exact stretch_tick hremaining w
      | nil =>
          rw [stretch_finish hremaining, finishCountdown, switchStatus, Prog.run_bind,
            Prog.run_perform, handle]
          rcases w.readSession_cases t.sessionId with hread | ⟨hseen, e, hread⟩
          · rw [hread]
            cases hseen : w.seen t.sessionId with
            | none => rfl
            | some s =>
                dsimp only
                by_cases hready : s.status = .ready
                · rw [if_pos (by simp [hready]), if_pos hready, Prog.run_bind, Prog.run_perform,
                    handle_switch hseen]
                  rfl
                · rw [if_neg (by simp [hready]), if_neg hready]
                  rfl
          · rw [hread, hseen]
            rfl

/-- A step leaves what its acts leave. -/
theorem step_eq (borneId : String) (e : Event) :
    step borneId w e = (e.acts borneId w).foldl World.act w := by
  obtain ⟨request, clock, uuid, pg⟩ := e
  cases request with
  | createSession pseudo mode roomCode =>
      exact (Prog.run_bind_pure_snd _ _ _ _).trans (congrArg Prod.snd (run_createSession _ _ _ _ _ _ _))
  | readyUp broadcaster sessionId =>
      exact (Prog.run_bind_pure_snd _ _ _ _).trans (run_readyUp _ _ rfl _ _)
  | sessionCommand broadcaster command sessionId =>
      cases command with
      | pause => exact congrArg Prod.snd (run_pauseSession _ w rfl broadcaster sessionId)
      | resume => exact congrArg Prod.snd (run_resumeSession _ w rfl broadcaster sessionId)
      | abandon => exact congrArg Prod.snd (run_abandonSession _ w rfl broadcaster sessionId)
  | mqtt broadcaster topic payload => exact run_mqtt _ _ rfl _ _ _ _ _
  | finish sessionId =>
      exact (Prog.run_bind_pure_snd _ _ _ _).trans (run_finishAndPersist _ _ _ _)
  | intent action payload => exact run_applyIntent _ _ rfl _ _ _ _ _
  | matchCommand command => exact run_handleMatchCommand _ _ rfl _ _
  | relay event => exact run_relayEvent _ _ _ _ _
  | countdown id => exact run_stretch w id

end Runs

/-! ## Which acts a request leads to -/

/-- The acts that end a game on the borne. -/
def Act.Closes (pg : List (Option Bool)) (clock : Clock) (sessionId : String) : Act → Prop
  | openBorne _ => True
  | nav _ => True
  | flush pg' clock' s _ _ => pg' = pg ∧ clock' = clock ∧ s.sessionId = sessionId
  | flushFails pg' clock' s _ _ => pg' = pg ∧ clock' = clock ∧ s.sessionId = sessionId
  | _ => False

/-- The score a relayed event writes to the active session, if any. -/
def relayedScore (event : Dict) : Option PyInt :=
  match event.get "type" with
  | some (.str type) =>
      if type = "game:over" then ((event.get "finalScore").getD .null).asPyInt else none
  | _ => none

/-- Whether a message to the screens is about their navigation. -/
def BorneMessage.isNav : BorneMessage → Bool
  | navState _ _ => true
  | _ => false

/-- The acts a request can lead to. -/
def Event.Yields (borneId : String) (w : World) (e : Event) : Act → Prop :=
  match e.request with
  | .createSession _ _ _ => fun
      | .create s => s.sessionId = e.uuid
      | _ => False
  | .readyUp broadcaster sessionId => fun
      | .switch via bc s => via = .ready ∧ bc = broadcaster ∧ s.sessionId = sessionId
      | _ => False
  | .sessionCommand broadcaster command sessionId => fun
      | .switch via bc s => via = command.toSwitch ∧ bc = broadcaster ∧ s.sessionId = sessionId
      | _ => False
  | .mqtt broadcaster topic payload => fun
      | .display _ message => message.isNav = false
      | .event bc now event s _ _ => bc = broadcaster ∧ now = e.clock.now ∧ event.topic = topic ∧
          payload = some (.obj event.payload) ∧ event.sessionId? = some s.sessionId
      | a => ∃ sessionId, a.Closes e.pg e.clock sessionId
  | .finish sessionId => Act.Closes e.pg e.clock sessionId
  | .intent _ _ => fun
      | .create s => s.sessionId = e.uuid
      | .switch via bc s =>
          via = .ready ∧ bc = [.borne] ∧ s.sessionId = e.uuid ∧ s.status = .waiting
      | .openBorne _ => True
      | .nav _ => True
      | _ => False
  | .matchCommand command => fun
      | .switch via bc s => via = command.toSwitch ∧ bc = [.borne] ∧
          (w.borne borneId).activeSessionId = some s.sessionId
      | .openBorne _ => True
      | .nav _ => True
      | _ => False
  | .relay event => fun
      | .display _ message => message.isNav = false
      | .score s score => relayedScore event = some score ∧
          (w.borne borneId).activeSessionId = some s.sessionId ∧
          w.seen s.sessionId = some s ∧ score.fitsStr
      | a => ∃ sessionId, a.Closes e.pg e.clock sessionId
  | .countdown id => fun
      | .tick t _ _ => w.task? id = some t
      | .start t _ => w.task? id = some t ∧ t.remaining = []
      | .finish t => w.task? id = some t ∧ t.remaining = []
      | _ => False

section Yields

variable {w : World} {a : Act}

theorem mem_andThen {p q : Plan} (ha : a ∈ (p.andThen q) w) :
    a ∈ p w ∨ ∃ w', w' = (p w).foldl World.act w ∧ a ∈ q w' :=
  (List.mem_append.mp ha).imp_right fun h => ⟨_, rfl, h⟩

theorem mem_openActs {borneId : String} (ha : a ∈ openActs borneId w) : a = .openBorne borneId := by
  unfold openActs at ha
  split at ha
  · exact List.mem_singleton.mp ha
  · cases ha

theorem mem_switchActs {via : Switch} {broadcaster : Broadcaster} {sessionId : String}
    (ha : a ∈ switchActs via broadcaster sessionId w) :
    ∃ s, a = .switch via broadcaster s ∧ s.sessionId = sessionId := by
  unfold switchActs at ha
  split at ha
  · cases ha
  · next s hseen =>
      split at ha
      · exact ⟨s, List.mem_singleton.mp ha, World.seen_sessionId hseen⟩
      · cases ha

theorem mem_markGameOverActs {borneId : String} (ha : a ∈ markGameOverActs borneId w) :
    a = .openBorne borneId ∨ ∃ b, a = .nav b := by
  rcases mem_andThen ha with ha | ⟨w', rfl, ha⟩
  · exact Or.inl (mem_openActs ha)
  · dsimp only at ha
    split at ha
    · exact Or.inr ⟨_, List.mem_singleton.mp ha⟩
    · cases ha

theorem mem_flushActs {pg : List (Option Bool)} {clock : Clock} {sessionId : String}
    (ha : a ∈ flushActs pg clock sessionId w) : a.Closes pg clock sessionId := by
  unfold flushActs at ha
  split at ha
  · cases ha
  · next s hseen =>
      split at ha
      · obtain rfl := List.mem_singleton.mp ha
        exact ⟨rfl, rfl, World.seen_sessionId hseen⟩
      · obtain rfl := List.mem_singleton.mp ha
        exact ⟨rfl, rfl, World.seen_sessionId hseen⟩

theorem mem_finishBorneGameActs {pg : List (Option Bool)} {clock : Clock}
    {borneId sessionId : String} (ha : a ∈ finishBorneGameActs pg clock borneId sessionId w) :
    a.Closes pg clock sessionId := by
  rcases mem_andThen ha with ha | ⟨w', rfl, ha⟩
  · rw [mem_openActs ha]
    trivial
  · split at ha
    · rcases mem_andThen ha with ha | ⟨w'', rfl, ha⟩
      · rcases mem_markGameOverActs ha with rfl | ⟨b, rfl⟩ <;> trivial
      · exact mem_flushActs ha
    · cases ha

theorem mem_relayActs {pg : List (Option Bool)} {clock : Clock} {borneId : String} {event : Dict}
    (ha : a ∈ relayActs pg clock borneId event w) :
    (∃ message, a = .display borneId message ∧ message.isNav = false) ∨
      (∃ s score, a = .score s score ∧ relayedScore event = some score ∧
        (w.borne borneId).activeSessionId = some s.sessionId ∧ w.seen s.sessionId = some s ∧
        score.fitsStr) ∨
      ∃ sessionId, a.Closes pg clock sessionId ∧
        ((w.borne borneId).activeSessionId = some sessionId ∨ ∀ id, a.Closes pg clock id) := by
  unfold relayActs at ha
  split at ha
  · next type htype =>
    split at ha
    · rcases mem_andThen ha with ha | ⟨w', rfl, ha⟩
      · exact Or.inl ⟨_, List.mem_singleton.mp ha, rfl⟩
      · refine Or.inr ?_
        split at ha
        · next hover =>
          rcases mem_andThen ha with ha | ⟨w', rfl, ha⟩
          · rw [mem_openActs ha]
            exact Or.inr ⟨"", trivial, Or.inr fun _ => trivial⟩
          · split at ha
            · rcases mem_markGameOverActs ha with rfl | ⟨b, rfl⟩
              · exact Or.inr ⟨"", trivial, Or.inr fun _ => trivial⟩
              · exact Or.inr ⟨"", trivial, Or.inr fun _ => trivial⟩
            · next sessionId hactive =>
                rw [borne_openActs] at hactive
                split at ha
                · cases ha
                · next hstops =>
                  rcases mem_andThen ha with ha | ⟨w', rfl, ha⟩
                  · unfold scoreActs at ha
                    split at ha
                    · next s score hseen hscore =>
                        have hfits : score.fitsStr := by
                          rw [World.refuses, hseen, hscore] at hstops
                          exact (Bool.not_eq_false' _).mp
                            (Bool.or_eq_false_iff.mp (Bool.not_eq_true _ ▸ hstops)).2
                        have hid : s.sessionId = sessionId := World.seen_sessionId hseen
                        have hactive : (w.borne borneId).activeSessionId = some s.sessionId :=
                          hid ▸ hactive
                        rw [seen_openActs, ← hid] at hseen
                        refine Or.inl
                          ⟨s, score, List.mem_singleton.mp ha, ?_, hactive, hseen, hfits⟩
                        rw [relayedScore, htype]
                        exact (if_pos hover).trans hscore
                    · cases ha
                  · exact Or.inr ⟨sessionId, mem_finishBorneGameActs ha, Or.inl hactive⟩
        · cases ha
    · cases ha
  · cases ha

theorem mem_intentActs {uuid : String} {now : DateTime} {borneId action : String} {payload : Json}
    (ha : a ∈ intentActs uuid now borneId action payload w) :
    a = .openBorne borneId ∨ (∃ b, a = .nav b) ∨ (∃ s, a = .create s ∧ s.sessionId = uuid) ∨
      ∃ s, a = .switch .ready [.borne] s ∧ s.sessionId = uuid ∧ s.status = .waiting := by
  rcases mem_andThen ha with ha | ⟨w', rfl, ha⟩
  · exact Or.inl (mem_openActs ha)
  · refine Or.inr ?_
    split at ha
    · unfold startGameActs at ha
      split at ha
      · split at ha
        · cases ha
        · split at ha
          · cases ha
          · simp only [List.mem_cons, List.not_mem_nil, or_false] at ha
            rcases ha with rfl | rfl | rfl
            · exact Or.inr (Or.inl ⟨_, rfl, rfl⟩)
            · exact Or.inl ⟨_, rfl⟩
            · exact Or.inr (Or.inr ⟨_, rfl, rfl, rfl⟩)
      · cases ha
    · split at ha
      · cases ha
      · exact Or.inl ⟨_, List.mem_singleton.mp ha⟩

theorem mem_matchCommandActs {borneId : String} {command : MatchCommand}
    (ha : a ∈ matchCommandActs borneId command w) :
    a = .openBorne borneId ∨ (∃ b, a = .nav b) ∨
      ∃ s, a = .switch command.toSwitch [.borne] s ∧
        (w.borne borneId).activeSessionId = some s.sessionId := by
  rcases mem_andThen ha with ha | ⟨w', rfl, ha⟩
  · exact Or.inl (mem_openActs ha)
  · split at ha
    · cases ha
    · next sessionId hactive =>
        rw [borne_openActs] at hactive
        split at ha
        · next hcommand =>
            rcases mem_andThen ha with ha | ⟨w'', rfl, ha⟩
            · obtain ⟨s, rfl, rfl⟩ := mem_switchActs ha
              exact Or.inr (Or.inr ⟨s, by rw [hcommand.1]; rfl, hactive⟩)
            · rcases mem_markGameOverActs ha with rfl | ⟨b, rfl⟩
              · exact Or.inl rfl
              · exact Or.inr (Or.inl ⟨b, rfl⟩)
        · obtain ⟨s, rfl, rfl⟩ := mem_switchActs ha
          exact Or.inr (Or.inr ⟨s, rfl, hactive⟩)

/-- An input is not shown as a navigation. -/
theorem inputMessage_isNav {topic : String} {payload : Dict} {message : BorneMessage}
    (h : inputMessage topic payload = some message) : message.isNav = false := by
  unfold inputMessage at h
  split at h
  · obtain ⟨pressed, -, rfl⟩ := Option.map_eq_some_iff.mp h
    rfl
  · split at h
    · split at h
      · split at h
        · split at h
          · split at h
            · rw [← Option.some.inj h]
              rfl
            · cases h
          · rw [← Option.some.inj h]
            rfl
        · cases h
      · cases h
    · cases h

theorem mem_mqttActs {pg : List (Option Bool)} {clock : Clock} {borneId topic : String}
    {broadcaster : Broadcaster} {payload : Option Json}
    (ha : a ∈ mqttActs pg clock borneId broadcaster topic payload w) :
    (∃ message, a = .display borneId message ∧ message.isNav = false) ∨
      (∃ fields s s' message, payload = some (.obj fields) ∧
        MqttEvent.sessionId? { topic, payload := fields } = some s.sessionId ∧
        a = .event broadcaster clock.now { topic, payload := fields } s s' message) ∨
      ∃ sessionId, a.Closes pg clock sessionId := by
  unfold mqttActs at ha
  split at ha
  · next fields =>
      split at ha
      · split at ha
        · next message hmessage =>
            exact Or.inl ⟨message, List.mem_singleton.mp ha, inputMessage_isNav hmessage⟩
        · cases ha
      · refine Or.inr ?_
        unfold mqttEventActs at ha
        split at ha
        · cases ha
        · next sessionId hid =>
            split at ha
            · cases ha
            · next s hseen =>
                obtain rfl := World.seen_sessionId hseen
                split at ha
                · split at ha
                  · next message s' happly =>
                      split at ha
                      · rcases mem_andThen ha with ha | ⟨w', rfl, ha⟩
                        · exact Or.inl ⟨fields, s, s', message, rfl, hid, List.mem_singleton.mp ha⟩
                        · dsimp only at ha
                          split at ha
                          · exact Or.inr ⟨_, mem_finishBorneGameActs ha⟩
                          · cases ha
                      · cases ha
                  · cases ha
                · cases ha
  · cases ha

theorem mem_countdownActs {id : ℕ} (ha : a ∈ countdownActs id w) :
    ∃ t : CountdownTask, w.task? id = some t ∧
      ((∃ value values, a = .tick t value values) ∨
        t.remaining = [] ∧ ((∃ s, a = .start t s) ∨ a = .finish t)) := by
  unfold countdownActs at ha
  split at ha
  · cases ha
  · next t htask =>
      refine ⟨t, htask, ?_⟩
      split at ha
      · exact Or.inl ⟨_, _, List.mem_singleton.mp ha⟩
      · next hremaining =>
          refine Or.inr ⟨hremaining, ?_⟩
          split at ha
          · exact Or.inr (List.mem_singleton.mp ha)
          · split at ha
            · exact Or.inl ⟨_, List.mem_singleton.mp ha⟩
            · exact Or.inr (List.mem_singleton.mp ha)

/-- A request leads to acts of its kind only. -/
theorem acts_yields {borneId : String} {e : Event} (ha : a ∈ e.acts borneId w) :
    e.Yields borneId w a := by
  obtain ⟨request, clock, uuid, pg⟩ := e
  cases request with
  | createSession pseudo mode roomCode =>
      change a ∈ createActs uuid clock.now pseudo mode roomCode w at ha
      unfold createActs at ha
      split at ha
      · obtain rfl := List.mem_singleton.mp ha
        rfl
      · cases ha
  | readyUp broadcaster sessionId =>
      obtain ⟨s, rfl, hid⟩ := mem_switchActs ha
      exact ⟨rfl, rfl, hid⟩
  | sessionCommand broadcaster command sessionId =>
      obtain ⟨s, rfl, hid⟩ := mem_switchActs ha
      exact ⟨rfl, rfl, hid⟩
  | mqtt broadcaster topic payload =>
      rcases mem_mqttActs ha with
        ⟨message, rfl, hnav⟩ | ⟨fields, s, s', message, hpayload, hid, rfl⟩ | ⟨sessionId, hcloses⟩
      · exact hnav
      · exact ⟨rfl, rfl, rfl, hpayload, hid⟩
      · cases a with
        | event _ _ _ _ _ _ => exact hcloses.elim
        | display _ _ => exact hcloses.elim
        | _ => exact ⟨sessionId, hcloses⟩
  | finish sessionId => exact mem_flushActs ha
  | intent action payload =>
      rcases mem_intentActs ha with rfl | ⟨b, rfl⟩ | ⟨s, rfl, hid⟩ | ⟨s, rfl, hid, hstatus⟩
      · trivial
      · trivial
      · exact hid
      · exact ⟨rfl, rfl, hid, hstatus⟩
  | matchCommand command =>
      rcases mem_matchCommandActs ha with rfl | ⟨b, rfl⟩ | ⟨s, rfl, hactive⟩
      · trivial
      · trivial
      · exact ⟨rfl, rfl, hactive⟩
  | relay event =>
      rcases mem_relayActs ha with
        ⟨message, rfl, hnav⟩ | ⟨s, score, rfl, hscore⟩ | ⟨sessionId, hcloses, -⟩
      · exact hnav
      · exact hscore
      · cases a with
        | score _ _ => exact hcloses.elim
        | display _ _ => exact hcloses.elim
        | _ => exact ⟨sessionId, hcloses⟩
  | countdown id =>
      obtain ⟨t, hid, ⟨value, values, rfl⟩ | ⟨hremaining, ⟨s, rfl⟩ | rfl⟩⟩ := mem_countdownActs ha
      · exact hid
      · exact ⟨hid, hremaining⟩
      · exact ⟨hid, hremaining⟩

end Yields

end FlipperBack
