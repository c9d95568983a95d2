import FlipperBack.Properties.FlushContent

/-!
# What the broker is heard of

The gateway takes the messages of the broker one after the other, whatever their
topics and their bytes. A message can be refused at six depths, from `json.loads`
to the conversion of its points, by a return or by an exception that goes no
further than the gateway. None of them leaves a trace: a sequence of messages
does what its accepted messages do. An accepted message adds an entry to the buffer
of its session, unless `str` refuses the digits of the counters it leads to: the
session is then not written, and nothing tells it (`dispatch_accepted`).
-/

namespace FlipperBack

open Effects Python

/-- A message of the broker, with the reading of the clock while it is handled. -/
structure RawMessage where
  topic : String
  payload : List UInt8
  now : DateTime

/-- `AioMqttGateway._dispatch` on raw bytes, with `loads` for `json.loads`: of its
exceptions, `ValueError` and `TypeError` are caught. -/
def dispatchRaw (loads : List UInt8 → Except PyError Json) (handler : MqttEvent → UseCase Unit)
    (m : RawMessage) : UseCase Unit :=
  match loads m.payload with
  | .ok payload => dispatch handler m.topic (some payload)
  | .error .valueError => dispatch handler m.topic none
  | .error .typeError => dispatch handler m.topic none
  | .error e => throw (.python e)

section Gateway

variable (loads : List UInt8 → Except PyError Json) (broadcaster : Broadcaster)
  (onGameOver : Option (String → UseCase Unit))

/-- The consumer of the gateway, with the stores that its handler works on. -/
structure Consumer where
  world : World
  crashed : Bool := false

/-- One turn of the loop of `AioMqttGateway._run`: a message is handled to its end
before the next one is taken, and an exception of `_dispatch` ends the loop. -/
def consume (g : Consumer) (m : RawMessage) : Consumer :=
  if g.crashed then g
  else
    let out := (dispatchRaw loads (handleMqttEvent broadcaster onGameOver m.now) m).run (handle {})
      g.world
    { world := out.2, crashed := !out.1.isOk }

/-- A message that is accepted: a JSON object whose `sessionId` is a non-empty
string naming a stored session that is played, on a topic of the game, and whose
points, where they count, are absent or convertible. -/
def RawMessage.Accepted (w : World) (m : RawMessage) : Prop :=
  ∃ (fields : Dict) (sessionId : String) (s : Session), loads m.payload = .ok (.obj fields) ∧
    fields.get "sessionId" = some (.str sessionId) ∧ sessionId ≠ "" ∧
    w.seen sessionId = some s ∧ s.status = .playing ∧ m.topic ∈ gameTopics ∧
    (m.topic = topicBumperHit ∨ m.topic = topicBonus →
      ∀ points, fields.get "points" = some points → ∃ n, points.toInt = .ok n)

/-- The counters that the message leads to have no more digits than `str` writes. -/
def RawMessage.Kept (w : World) (m : RawMessage) : Prop :=
  ∀ (fields : Dict) (sessionId : String) (s : Session), loads m.payload = .ok (.obj fields) →
    fields.get "sessionId" = some (.str sessionId) → w.seen sessionId = some s →
    s.keeps { topic := m.topic, payload := fields }

/-- What follows an event once it has been applied and broadcast. -/
def afterEvent (topic sessionId : String) (w : World) : World :=
  match onGameOver with
  | some callback =>
      if topic = topicGameOver then ((callback sessionId).run (handle {}) w).2 else w
  | none => w

end Gateway

/-! ## One message -/

theorem sessionId_eq_some {event : MqttEvent} {sessionId : String} :
    event.sessionId? = some sessionId ↔
      event.payload.get "sessionId" = some (.str sessionId) ∧ sessionId ≠ "" := by
  unfold MqttEvent.sessionId?
  split
  · next id hid =>
      rw [hid]
      by_cases hempty : id = ""
      · rw [if_pos hempty]
        simp only [Option.some.injEq, Json.str.injEq, reduceCtorEq, false_iff, not_and, not_not]
        rintro rfl
        exact hempty
      · rw [if_neg hempty]
        simp only [Option.some.injEq, Json.str.injEq]
        constructor
        · rintro rfl
          exact ⟨rfl, hempty⟩
        · exact And.left
  · next hother =>
      simp only [reduceCtorEq, false_iff, not_and]
      intro hid
      exact absurd hid (hother sessionId)

theorem eventPoints_isOk {payload : Dict} :
    (eventPoints payload).isOk ↔
      ∀ points, payload.get "points" = some points → ∃ n, points.toInt = .ok n := by
  unfold eventPoints
  cases payload.get "points" with
  | none => exact iff_of_true rfl nofun
  | some points =>
      rw [Option.getD_some]
      cases h : points.toInt with
      | ok n => exact iff_of_true rfl fun p hp => ⟨n, Option.some.inj hp ▸ h⟩
      | error e =>
          refine iff_of_false Bool.false_ne_true fun hall => ?_
          obtain ⟨n, hn⟩ := hall points rfl
          rw [h] at hn
          cases hn

section Message

variable {loads : List UInt8 → Except PyError Json} {broadcaster : Broadcaster}
  {onGameOver : Option (String → UseCase Unit)} {w : World} {m : RawMessage}

theorem scores_iff {topic : String} :
    scores topic ↔ topic = topicBumperHit ∨ topic = topicBonus := by
  simp [scores]

variable (broadcaster) in
/-- A message is accepted where the event it carries can be applied; the event is
enabled where the counters are kept, too. -/
theorem rawAccepted_iff : m.Accepted loads w ∧ m.Kept loads w ↔
    ∃ fields s s' message, loads m.payload = .ok (.obj fields) ∧
      (Act.event broadcaster m.now { topic := m.topic, payload := fields } s s' message).Enabled w := by
  constructor
  · rintro ⟨⟨fields, sessionId, s, hloads, hid, hne, hseen, hplaying, htopic, hpoints⟩, hkept⟩
    have hkeeps := hkept fields sessionId s hloads hid hseen
    obtain rfl := World.seen_sessionId hseen
    obtain ⟨message, s', happly⟩ :=
      (applyEvent_isSome_iff { topic := m.topic, payload := fields } s).mpr
        ⟨htopic, fun h => eventPoints_isOk.mpr (hpoints (scores_iff.mp h))⟩
    exact ⟨fields, s, s', message, hloads, hseen, hplaying, sessionId_eq_some.mpr ⟨hid, hne⟩, happly,
      writable_applied (World.writable_of_seen hseen) happly ▸ hkeeps⟩
  · rintro ⟨fields, s, s', message, hloads, hseen, hplaying, hid, happly, hwritable⟩
    obtain ⟨hid, hne⟩ := sessionId_eq_some.mp hid
    obtain ⟨htopic, hpoints⟩ := (applyEvent_isSome_iff _ s).mp ⟨message, s', happly⟩
    refine ⟨⟨fields, s.sessionId, s, hloads, hid, hne, hseen, hplaying, htopic,
      fun h => eventPoints_isOk.mp (hpoints (scores_iff.mpr h))⟩, ?_⟩
    intro fields' sessionId s₁ hloads' hid' hseen'
    obtain rfl : fields = fields' := Json.obj.inj (Except.ok.inj (hloads.symm.trans hloads'))
    obtain rfl : s.sessionId = sessionId := Json.str.inj (Option.some.inj (hid.symm.trans hid'))
    obtain rfl : s = s₁ := Option.some.inj (hseen.symm.trans hseen')
    exact writable_applied (World.writable_of_seen hseen) happly ▸ hwritable

/-- What the handler does of an event it can apply. -/
theorem run_handleMqttEvent_of_enabled {now : DateTime} {e : MqttEvent} {s s' : Session}
    {message : SessionMessage} (h : (Act.event broadcaster now e s s' message).Enabled w) :
    ((handleMqttEvent broadcaster onGameOver now e).run (handle {}) w).2 =
      afterEvent onGameOver e.topic s.sessionId
        (w.act (.event broadcaster now e s s' message)) := by
  obtain ⟨hseen, hplaying, hid, happly, hwritable⟩ := h
  have hid' : s'.sessionId = s.sessionId := applyEvent_sessionId happly
  unfold handleMqttEvent
  rw [hid]
  dsimp only
  rw [Prog.run_bind, Prog.run_perform, handle, World.readSession_of_seen hseen]
  dsimp only
  rw [if_pos hplaying, Prog.run_bind, Prog.run_ofExcept, happly, liftPy_ok]
  dsimp only
  rw [Prog.run_bind, Prog.run_perform, handle_sessionUpdate hwritable]
  simp only [Prog.run_bind, Prog.run_perform, handle, World.act, MqttEvent.announced, hid']
  unfold afterEvent
  split
  · simp only [Prog.run_bind, Prog.run_perform, handle]
    cases onGameOver with
    | none => exact World.tell_tell _ _ _ _ _ _
    | some callback =>
        rw [World.tell_tell]
        rfl
  · rw [World.tell_eq_tellAll]
    cases onGameOver with
    | none => rfl
    | some callback => rfl

/-- The handler leaves an event that it cannot apply, whatever stops it. -/
theorem run_handleMqttEvent_of_not_enabled {now : DateTime} {e : MqttEvent}
    (h : ∀ s s' message, ¬ (Act.event broadcaster now e s s' message).Enabled w) :
    ((handleMqttEvent broadcaster onGameOver now e).run (handle {}) w).2 = w := by
  unfold handleMqttEvent
  cases hid : e.sessionId? with
  | none => rfl
  | some sessionId =>
      dsimp only
      rw [Prog.run_bind, Prog.run_perform, handle]
      rcases w.readSession_cases sessionId with hread | ⟨-, err, hread⟩
      · rw [hread]
        cases hseen : w.seen sessionId with
        | none => rfl
        | some s =>
            obtain rfl := World.seen_sessionId hseen
            dsimp only
            split
            · next hplaying =>
                rw [Prog.run_bind, Prog.run_ofExcept]
                cases happly : applyEvent e s with
                | error err => rfl
                | ok out =>
                    cases out with
                    | none => rfl
                    | some out =>
                        have hunwritable : ¬ out.2.writable := fun hwritable =>
                          h s out.2 out.1 ⟨hseen, hplaying, hid, happly, hwritable⟩
                        dsimp only [liftPy_ok]
                        rw [Prog.run_bind, Prog.run_perform, handle_sessionUpdate_error hunwritable]
            · rfl
      · rw [hread]

theorem run_dispatch_fst (handler : MqttEvent → UseCase Unit) (topic : String)
    (payload : Option Json) : ((dispatch handler topic payload).run (handle {}) w).1 = .ok () := by
  unfold dispatch
  split
  · rw [Prog.run_bind, Prog.run_attempt]
    rfl
  · rfl

theorem consume_of_object {fields : Dict} (hloads : loads m.payload = .ok (.obj fields)) :
    consume loads broadcaster onGameOver { world := w } m =
      { world := ((handleMqttEvent broadcaster onGameOver m.now
          { topic := m.topic, payload := fields }).run (handle {}) w).2 } := by
  rw [consume, if_neg Bool.false_ne_true, dispatchRaw, hloads]
  dsimp only
  rw [run_dispatch, run_dispatch_fst]
  rfl

/-- A message that carries no JSON object is discarded, and the loop goes on. -/
theorem consume_of_not_object
    (hraises : ∀ bytes e, loads bytes = .error e → e = .valueError ∨ e = .typeError)
    (h : ∀ fields, loads m.payload ≠ .ok (.obj fields)) :
    consume loads broadcaster onGameOver { world := w } m = { world := w } := by
  rw [consume, if_neg Bool.false_ne_true, dispatchRaw]
  cases hloads : loads m.payload with
  | ok payload =>
      cases payload with
      | obj fields => exact absurd hloads (h fields)
      | _ => rfl
  | error e => rcases hraises _ _ hloads with rfl | rfl <;> rfl

/-- A message that is not accepted, or whose counters are not kept, changes nothing. -/
theorem consume_of_not_accepted
    (hraises : ∀ bytes e, loads bytes = .error e → e = .valueError ∨ e = .typeError)
    (h : ¬ (m.Accepted loads w ∧ m.Kept loads w)) :
    consume loads broadcaster onGameOver { world := w } m = { world := w } := by
  by_cases hobject : ∃ fields, loads m.payload = .ok (.obj fields)
  · obtain ⟨fields, hloads⟩ := hobject
    rw [consume_of_object hloads, run_handleMqttEvent_of_not_enabled fun s s' message henabled =>
      h ((rawAccepted_iff broadcaster).mpr ⟨fields, s, s', message, hloads, henabled⟩)]
  · exact consume_of_not_object hraises fun fields hloads => hobject ⟨fields, hloads⟩

/-- The message adds one entry to the buffer of the session it names, and what
follows it is the callback of a game over. -/
def AddsEntry (loads : List UInt8 → Except PyError Json) (broadcaster : Broadcaster)
    (onGameOver : Option (String → UseCase Unit)) (w : World) (m : RawMessage) : Prop :=
  ∃ (fields : Dict) (sessionId : String) (w' : World), loads m.payload = .ok (.obj fields) ∧
    fields.get "sessionId" = some (.str sessionId) ∧
    w'.buffers = Function.update w.buffers sessionId
      (w.buffers sessionId ++ [bufferedEvent { topic := m.topic, payload := fields } m.now]) ∧
    consume loads broadcaster onGameOver { world := w } m =
      { world := afterEvent onGameOver m.topic sessionId w' }

/-- A message whose handling raises nothing leaves the loop going. -/
theorem crashed_consume
    (hraises : ∀ bytes e, loads bytes = .error e → e = .valueError ∨ e = .typeError) :
    (consume loads broadcaster onGameOver { world := w } m).crashed = false := by
  by_cases hobject : ∃ fields, loads m.payload = .ok (.obj fields)
  · obtain ⟨fields, hloads⟩ := hobject
    rw [consume_of_object hloads]
  · rw [consume_of_not_object hraises fun fields hloads => hobject ⟨fields, hloads⟩]

theorem addsEntry_of_accepted (h : m.Accepted loads w) (hkept : m.Kept loads w) :
    AddsEntry loads broadcaster onGameOver w m := by
  obtain ⟨fields, s, s', message, hloads, henabled⟩ := (rawAccepted_iff broadcaster).mp ⟨h, hkept⟩
  refine ⟨fields, s.sessionId,
    w.act (.event broadcaster m.now { topic := m.topic, payload := fields } s s' message), hloads,
    (sessionId_eq_some.mp henabled.2.2.1).1, World.act_buffers _ _, ?_⟩
  rw [consume_of_object hloads, run_handleMqttEvent_of_enabled henabled]

/-- The events that score nothing are kept. -/
theorem keeps_gameOver (s : Session) {e : MqttEvent} (h : e.topic = topicGameOver) : s.keeps e := by
  have hscores : scores topicGameOver = false := by decide
  have hover : topicGameOver ≠ topicBumperHit := by decide
  simp [Session.keeps, h, hscores, hover]

/-- An entry is added where the counters are kept only: nothing follows a message that
scores. -/
theorem kept_of_addsEntry
    (hraises : ∀ bytes e, loads bytes = .error e → e = .valueError ∨ e = .typeError)
    (h : AddsEntry loads broadcaster onGameOver w m) : m.Kept loads w := by
  obtain ⟨fields, sessionId, w', hloads, hid, hbuffers, hconsume⟩ := h
  by_contra hnot
  by_cases hover : m.topic = topicGameOver
  · refine hnot fun fields' sessionId' s _ _ _ => keeps_gameOver s hover
  · have hafter : afterEvent onGameOver m.topic sessionId w' = w' := by
      unfold afterEvent
      cases onGameOver with
      | none => rfl
      | some callback => exact if_neg hover
    rw [consume_of_not_accepted hraises fun h => hnot h.2, hafter] at hconsume
    have hsame : w'.buffers sessionId = w.buffers sessionId :=
      congrArg (fun g => g.world.buffers sessionId) hconsume.symm
    rw [hbuffers, Function.update_self] at hsame
    simp at hsame

end Message

/-! ## A sequence of messages -/

section Sequence

variable {loads : List UInt8 → Except PyError Json} {broadcaster : Broadcaster}
  {onGameOver : Option (String → UseCase Unit)}

open scoped Classical in
/-- A sequence of messages leaves the sessions, the buffers and the messages
broadcast as its accepted messages do, and the others change nothing. Each accepted
message adds one entry to a buffer exactly where none of them leads to counters that
`str` refuses. -/
theorem dispatch_accepted
    (hraises : ∀ bytes e, loads bytes = .error e → e = .valueError ∨ e = .typeError)
    (w : World) (messages : List RawMessage) :
    let step := consume loads broadcaster onGameOver
    let accepted := Runs.taken step (fun g m => m.Accepted loads g.world) { world := w } messages
    (messages.foldl step { world := w } = accepted.foldl step { world := w } ∧
      (messages.foldl step { world := w }).crashed = false ∧
      Runs.Along step (fun g m => m.Accepted loads g.world) { world := w } accepted) ∧
    (Runs.Along step (fun g m => if m.Accepted loads g.world then
        AddsEntry loads broadcaster onGameOver g.world m else step g m = g) { world := w } messages ↔
      Runs.Along step (fun g m => m.Accepted loads g.world → m.Kept loads g.world)
        { world := w } messages) := by
  dsimp only
  have hskip : ∀ (g : Consumer) m, ¬ m.Accepted loads g.world →
      consume loads broadcaster onGameOver g m = g := by
    rintro ⟨w, crashed⟩ m h
    cases crashed with
    | true => rfl
    | false => exact consume_of_not_accepted hraises fun hboth => h hboth.1
  have hgoes : ∀ (g : Consumer) m, g.crashed = false → True →
      (consume loads broadcaster onGameOver g m).crashed = false := by
    rintro ⟨w, _⟩ m rfl -
    exact crashed_consume hraises
  have hall : Runs.Along (consume loads broadcaster onGameOver) (fun _ _ => True)
      { world := w } messages := Runs.along_of_forall (fun _ _ => trivial) _ _
  obtain ⟨haccepted, hsame⟩ := Runs.along_taken hskip { world := w } messages
  refine ⟨⟨hsame.symm, Runs.invariant hgoes rfl hall, haccepted⟩, ?_, ?_⟩
  · refine fun h => h.mono ?_
    intro g m hadds hm
    rw [if_pos hm] at hadds
    exact kept_of_addsEntry hraises hadds
  · refine Runs.Along.imp (I := fun g => g.crashed = false)
      (fun g m hg _ => hgoes g m hg trivial) ?_ rfl
    rintro ⟨w, _⟩ m rfl hkept
    split
    · next h => exact addsEntry_of_accepted h (hkept h)
    · next h => exact hskip _ m h

/-- `\x7b"sessionId": "s", "points": 1\x7d` in UTF-8. -/
def hitBytes : List UInt8 := "\x7b\"sessionId\": \"s\", \"points\": 1\x7d".toUTF8.toList

/-- What `json.loads` makes of these bytes and of no bytes. -/
def hitLoads (bytes : List UInt8) : Except PyError Json :=
  if bytes = hitBytes then .ok (.obj [("sessionId", .str "s"), ("points", .int 1)])
  else .error .valueError

theorem hitLoads_raises (bytes : List UInt8) (e : PyError) (h : hitLoads bytes = .error e) :
    e = .valueError ∨ e = .typeError := by
  unfold hitLoads at h
  split at h
  · cases h
  · exact Or.inl (Except.error.inj h).symm

/-- No bytes, then a hit, on a session being played. -/
theorem dispatch_accepted_hit :
    (∀ bytes e, hitLoads bytes = .error e → e = .valueError ∨ e = .typeError) ∧
      ([{ topic := topicBonus, payload := [], now := default },
          { topic := topicBumperHit, payload := hitBytes, now := default }].foldl
        (consume hitLoads [.session] none)
        { world := World.putSession {}
            { sessionId := "s", pseudo := "ABC", status := .playing, createdAt := default } }).crashed =
        false :=
  ⟨hitLoads_raises, (dispatch_accepted hitLoads_raises _ _).1.2.1⟩

/-- A hit of one point on a session whose score has as many digits as `str` writes: the
message is accepted, and adds no entry. -/
theorem fullScore_noEntry :
    let w := World.putSession {}
      { sessionId := "s", pseudo := "ABC", score := .int (10 ^ maxStrDigits - 1),
        status := .playing, createdAt := default }
    let hit : RawMessage := { topic := topicBumperHit, payload := hitBytes, now := default }
    hit.Accepted hitLoads w ∧ ¬ AddsEntry hitLoads [.session] none w hit := by
  intro w hit
  have hloads : hitLoads hitBytes = .ok (.obj [("sessionId", .str "s"), ("points", .int 1)]) :=
    if_pos rfl
  have hstored : w.sessions "s" = some
      { sessionId := "s", pseudo := "ABC", score := .int (10 ^ maxStrDigits - 1),
        status := .playing, createdAt := default } :=
    KeyedTable.get_put_self KeyedTable.empty
      ({ sessionId := "s", pseudo := "ABC", score := .int (10 ^ maxStrDigits - 1),
         status := .playing, createdAt := default } : Session)
  have hsmall : fitsStr defaultLives = true ∧ fitsStr 0 = true := by decide
  have hseen := World.seen_of_stored hstored (by
    simp [Session.readable, Session.writable, PyInt.isInt, fitsStr_pow_sub_one, hsmall])
  refine ⟨⟨_, "s", _, hloads, rfl, by decide, hseen, rfl, by decide, ?_⟩, fun hadds => ?_⟩
  · rintro - points hpoints
    exact ⟨1, Option.some.inj hpoints ▸ rfl⟩
  · have hkeeps := kept_of_addsEntry hitLoads_raises hadds _ "s" _ hloads rfl hseen
    have hscores : scores topicBumperHit = true := by decide
    have hpoints : pointsOf [("sessionId", .str "s"), ("points", .int 1)] = 1 := by decide
    have hsum : (10 ^ maxStrDigits - 1 + 1 : ℤ) = 10 ^ maxStrDigits := by ring
    simp [Session.keeps, hit, hscores, hpoints, hsum, fitsStr_pow] at hkeeps

end Sequence

end FlipperBack
