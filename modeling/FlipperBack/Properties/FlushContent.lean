import FlipperBack.Infrastructure.Persist
import FlipperBack.Properties.Replay

/-!
# What a flush stores is what was accepted

`acceptedEvents` is the list of the events that a run has accepted for a
session, read off the messages and the states they found. Every flush that
returns has stored one row for each of them, in that order, and the score of the
game is the sum of the points of its bumper and bonus rows. The live score and
the rows go by two tables of topics and two conversions of points, which agree
on what was accepted.
-/

namespace FlipperBack

open Effects Python

/-! ## Accepted events -/

/-- The topics of the game. -/
def gameTopics : List String := [topicBumperHit, topicBonus, topicBallLost, topicGameOver]

/-- The event a request makes the application accept for the session `id`, with
its date: a JSON object that names a stored session being played, on one of the
topics of the game, its points readable where they count, and which leaves counters
that `str` writes. -/
def Event.accepted (w : World) (id : String) (e : Event) : Option (MqttEvent × DateTime) :=
  match e.request with
  | .mqtt _ topic (some (.obj fields)) =>
      let event : MqttEvent := { topic, payload := fields }
      if event.sessionId? = some id ∧ (w.seen id).map Session.status = some .playing ∧
          topic ∈ gameTopics ∧ (scores topic → (eventPoints fields).isOk) ∧
          (w.seen id).all (Session.keeps · event) then
        some (event, e.clock.now)
      else
        none
  | _ => none

/-- The events a run accepts for the session `id`, in order. -/
def acceptedEvents (borneId id : String) : World → List Event → List (MqttEvent × DateTime)
  | _, [] => []
  | w, e :: evs => (e.accepted w id).toList ++ acceptedEvents borneId id (step borneId w e) evs

/-- The event type of a topic of the game. -/
def acceptedType (topic : String) : GameEventType :=
  if topic = topicBumperHit then .bumperHit
  else if topic = topicBonus then .bonus
  else if topic = topicBallLost then .ballLost
  else .gameOver

/-- The row of an accepted event: unreadable points count for 0. -/
def acceptedRow (accepted : MqttEvent × DateTime) : EventRow :=
  { type := acceptedType accepted.1.topic, points := pointsOf accepted.1.payload,
    occuredAt := accepted.2.naive }

/-- What the buffer keeps of an accepted event. -/
def acceptedEntry (accepted : MqttEvent × DateTime) : Dict :=
  bufferedEvent accepted.1 accepted.2

/-- The accepted event of an act, if it is one for the session `id`. -/
def Act.accepted (id : String) : Act → List (MqttEvent × DateTime)
  | event _ now e s _ _ => if s.sessionId = id then [(e, now)] else []
  | _ => []

/-- An event is applied exactly when its topic is one of the game and its points
are readable where they count. -/
theorem applyEvent_isSome_iff (e : MqttEvent) (s : Session) :
    (∃ message s', applyEvent e s = .ok (some (message, s'))) ↔
      e.topic ∈ gameTopics ∧ (scores e.topic → (eventPoints e.payload).isOk) := by
  constructor
  · rintro ⟨message, s', h⟩
    rcases applyEvent_cases h with
      ⟨htopic, points, hpoints, -⟩ | ⟨htopic, points, hpoints, -⟩ | ⟨htopic, -⟩ | ⟨htopic, -⟩
    · rw [htopic, hpoints]
      exact ⟨by decide, fun _ => rfl⟩
    · rw [htopic, hpoints]
      exact ⟨by decide, fun _ => rfl⟩
    · rw [htopic]
      exact ⟨by decide, fun h => absurd h (by decide)⟩
    · rw [htopic]
      exact ⟨by decide, fun h => absurd h (by decide)⟩
  · rintro ⟨htopic, hpoints⟩
    simp only [gameTopics, List.mem_cons, List.not_mem_nil, or_false] at htopic
    unfold applyEvent
    rcases htopic with htopic | htopic | htopic | htopic
    · have hok := hpoints (by rw [htopic]; decide)
      rw [if_pos htopic]
      cases h : eventPoints e.payload with
      | ok points => exact ⟨_, _, rfl⟩
      | error err =>
          rw [h] at hok
          cases hok
    · have hok := hpoints (by rw [htopic]; decide)
      rw [if_neg (by rw [htopic]; decide), if_pos htopic]
      cases h : eventPoints e.payload with
      | ok points => exact ⟨_, _, rfl⟩
      | error err =>
          rw [h] at hok
          cases hok
    · rw [if_neg (by rw [htopic]; decide), if_neg (by rw [htopic]; decide), if_pos htopic]
      exact ⟨_, _, rfl⟩
    · rw [if_neg (by rw [htopic]; decide), if_neg (by rw [htopic]; decide),
        if_neg (by rw [htopic]; decide), if_pos htopic]
      exact ⟨_, _, rfl⟩

theorem accepted_of_closes {a : Act} {pg : List (Option Bool)} {clock : Clock} {sessionId : String}
    (h : a.Closes pg clock sessionId) (id : String) : a.accepted id = [] := by
  cases a with
  | event _ _ _ _ _ _ => exact h.elim
  | _ => rfl

/-- The inputs of the borne are no topics of the game. -/
theorem not_input_of_mem_gameTopics {topic : String} (h : topic ∈ gameTopics) :
    ¬ "/input/".toList <:+: topic.toList := by
  simp only [gameTopics, List.mem_cons, List.not_mem_nil, or_false] at h
  rcases h with rfl | rfl | rfl | rfl <;> decide +kernel

theorem flatMap_accepted_of_closes {acts : List Act} {pg : List (Option Bool)} {clock : Clock}
    {sessionId : String} (h : ∀ a ∈ acts, a.Closes pg clock sessionId) (id : String) :
    acts.flatMap (Act.accepted id) = [] :=
  List.flatMap_eq_nil_iff.mpr fun a ha => accepted_of_closes (h a ha) id

/-- The acts of a sensor event accept it where it is to be accepted. -/
theorem flatMap_accepted_mqttEventActs (pg : List (Option Bool)) (clock : Clock)
    (borneId id : String) (broadcaster : Broadcaster) (e : MqttEvent) (w : World) :
    (mqttEventActs pg clock borneId broadcaster e w).flatMap (Act.accepted id) =
      (if e.sessionId? = some id ∧ (w.seen id).map Session.status = some .playing ∧
          e.topic ∈ gameTopics ∧ (scores e.topic → (eventPoints e.payload).isOk) ∧
          (w.seen id).all (Session.keeps · e) then
        some (e, clock.now)
      else none).toList := by
  unfold mqttEventActs
  cases hid : e.sessionId? with
  | none => rw [if_neg (by simp)]; rfl
  | some sessionId =>
      dsimp only
      cases hseen : w.seen sessionId with
      | none =>
          rw [if_neg]
          · rfl
          · rintro ⟨heq, hplaying, -⟩
            rw [← Option.some.inj heq, hseen] at hplaying
            cases hplaying
      | some s =>
          obtain rfl := World.seen_sessionId hseen
          dsimp only
          by_cases hplaying : s.status = .playing
          · rw [if_pos hplaying]
            have happlied := applyEvent_isSome_iff e s
            split
            · next message s' happly =>
                rw [writable_applied (World.writable_of_seen hseen) happly]
                have htail (w' : World) : (if e.topic = topicGameOver then
                    finishBorneGameActs pg clock borneId s.sessionId w' else []).flatMap
                      (Act.accepted id) = [] := by
                  split
                  · exact flatMap_accepted_of_closes (fun a => mem_finishBorneGameActs) id
                  · rfl
                obtain ⟨htopic, hpoints⟩ := happlied.mp ⟨message, s', happly⟩
                by_cases hkeeps : s.keeps e
                · rw [if_pos hkeeps, Plan.andThen, Runs.andThen, List.flatMap_append, htail,
                    List.append_nil, List.flatMap_singleton]
                  by_cases heq : s.sessionId = id
                  · subst heq
                    have haccepted : (w.seen s.sessionId).map Session.status = some .playing ∧
                        (w.seen s.sessionId).all (Session.keeps · e) := by
                      rw [hseen, Option.map_some, hplaying]
                      exact ⟨rfl, hkeeps⟩
                    rw [if_pos ⟨rfl, haccepted.1, htopic, hpoints, haccepted.2⟩, Act.accepted,
                      if_pos rfl]
                    rfl
                  · rw [if_neg fun h => heq (Option.some.inj h.1), Act.accepted, if_neg heq]
                    rfl
                · rw [if_neg hkeeps, if_neg]
                  · rfl
                  · rintro ⟨heq, -, -, -, h⟩
                    rw [← Option.some.inj heq, hseen] at h
                    exact hkeeps h
            · next hnone =>
                rw [if_neg]
                · rfl
                · rintro ⟨-, -, htopic, hpoints, -⟩
                  obtain ⟨message, s', happly⟩ := happlied.mpr ⟨htopic, hpoints⟩
                  exact hnone message s' happly
          · rw [if_neg hplaying, if_neg]
            · rfl
            · rintro ⟨heq, h, -⟩
              rw [← Option.some.inj heq, hseen] at h
              exact hplaying (Option.some.inj h)

/-- The acts of a request accept what the request is said to. -/
theorem flatMap_accepted_acts (borneId id : String) (w : World) (e : Event) :
    (e.acts borneId w).flatMap (Act.accepted id) = (e.accepted w id).toList := by
  have hyields : ∀ a ∈ e.acts borneId w, e.Yields borneId w a := fun a => acts_yields
  obtain ⟨request, clock, uuid, pg⟩ := e
  cases request with
  | mqtt broadcaster topic payload =>
      change (mqttActs pg clock borneId broadcaster topic payload w).flatMap _ = _
      cases payload with
      | none => rfl
      | some payload =>
          cases payload with
          | obj fields =>
              unfold mqttActs
              dsimp only
              by_cases hinput : "/input/".toList <:+: topic.toList
              · rw [if_pos hinput, Event.accepted]
                dsimp only
                rw [if_neg fun h => not_input_of_mem_gameTopics h.2.2.1 hinput]
                cases inputMessage topic fields <;> rfl
              · rw [if_neg hinput]
                exact flatMap_accepted_mqttEventActs _ _ _ _ _ _ _
          | _ => rfl
  | finish sessionId => exact flatMap_accepted_of_closes (fun a ha => mem_flushActs ha) id
  | relay event =>
      refine List.flatMap_eq_nil_iff.mpr fun a ha => ?_
      rcases mem_relayActs ha with ⟨message, rfl, -⟩ | ⟨s, score, rfl, -⟩ | ⟨sessionId, hcloses, -⟩
      · rfl
      · rfl
      · exact accepted_of_closes hcloses id
  | _ =>
      refine List.flatMap_eq_nil_iff.mpr fun a ha => ?_
      have hkind := hyields a ha
      cases a with
      | event _ _ _ _ _ _ => exact hkind.elim
      | _ => rfl

/-- What the acts of a run accept. -/
theorem flatMap_accepted_allActs (borneId id : String) (w : World) (evs : List Event) :
    (allActs borneId w evs).flatMap (Act.accepted id) = acceptedEvents borneId id w evs := by
  induction evs generalizing w with
  | nil => rfl
  | cons e evs ih =>
      rw [allActs, List.flatMap_append, flatMap_accepted_acts, ih, acceptedEvents]

/-! ## Rows of accepted events -/

theorem topicToEventType_acceptedType {topic : String} (h : topic ∈ gameTopics) :
    topicToEventType.lookup topic = some (acceptedType topic) := by
  simp only [gameTopics, List.mem_cons, List.not_mem_nil, or_false] at h
  rcases h with rfl | rfl | rfl | rfl <;> decide

theorem eventPayload_bufferedEvent (e : MqttEvent) (now : DateTime) :
    eventPayload (bufferedEvent e now) = .ok e.payload := by
  unfold eventPayload
  rw [show (bufferedEvent e now).get "payload" = some (.obj e.payload) from rfl]
  cases hpayload : e.payload with
  | nil => rfl
  | cons field fields => rfl

theorem pointsOf_of_tolerantPoints {payload : Dict} {points : Int}
    (h : tolerantPoints payload = .ok points) : points = pointsOf payload := by
  unfold tolerantPoints at h
  unfold pointsOf eventPoints
  split at h
  · next n hn =>
      rw [hn]
      exact (Except.ok.inj h).symm
  · next hn =>
      rw [hn]
      exact (Except.ok.inj h).symm
  · next hn =>
      rw [hn]
      exact (Except.ok.inj h).symm
  · cases h

/-- The row of an event of the game, whose points may not be read. -/
theorem buildEventRow_bufferedEvent (utcnow now : DateTime) {e : MqttEvent}
    (htopic : e.topic ∈ gameTopics) :
    buildEventRow utcnow (bufferedEvent e now) = (tolerantPoints e.payload).map fun points =>
      some { type := acceptedType e.topic, points, occuredAt := now.naive } := by
  have hdate : eventDate utcnow (bufferedEvent e now) = now.naive := by
    rw [eventDate, show (bufferedEvent e now).get "occured_at" = some (.str (isoformat now)) from rfl]
    dsimp only
    rw [fromisoformat_isoformat, Option.getD_some]
  unfold buildEventRow
  rw [show (bufferedEvent e now).get "topic" = some (.str e.topic) from rfl]
  dsimp only
  rw [topicToEventType_acceptedType htopic, eventPayload_bufferedEvent, hdate]
  dsimp only [bind, Except.bind]
  cases tolerantPoints e.payload <;> rfl

/-- Where the row of an accepted event can be built, it is the one expected. -/
theorem buildEventRow_accepted {utcnow : DateTime} {accepted : MqttEvent × DateTime}
    (htopic : accepted.1.topic ∈ gameTopics) {row : Option EventRow}
    (h : buildEventRow utcnow (acceptedEntry accepted) = .ok row) :
    row = some (acceptedRow accepted) := by
  rw [acceptedEntry, buildEventRow_bufferedEvent _ _ htopic] at h
  cases hpoints : tolerantPoints accepted.1.payload with
  | error e =>
      rw [hpoints] at h
      cases h
  | ok points =>
      rw [hpoints] at h
      obtain rfl := Except.ok.inj h
      rw [acceptedRow, pointsOf_of_tolerantPoints hpoints]

/-- Where the rows of a buffer can be built, they are those of the accepted
events. -/
theorem buildEventRows_accepted {utcnow : DateTime} {accepted : List (MqttEvent × DateTime)}
    (htopic : ∀ a ∈ accepted, a.1.topic ∈ gameTopics) {rows : List EventRow}
    (h : buildEventRows utcnow (accepted.map acceptedEntry) = .ok rows) :
    rows = accepted.map acceptedRow := by
  induction accepted generalizing rows with
  | nil => exact (Except.ok.inj h).symm
  | cons a accepted ih =>
      obtain ⟨row, hrow, h⟩ := bind_eq_ok.mp h
      obtain ⟨rows', hrows', h⟩ := bind_eq_ok.mp h
      rw [buildEventRow_accepted (htopic a List.mem_cons_self) hrow,
        ih (fun a' ha' => htopic a' (List.mem_cons_of_mem a ha')) hrows'] at h
      exact (Except.ok.inj h).symm

/-- Whether the points of the rows of a type are part of the score. -/
def GameEventType.scores (type : GameEventType) : Bool :=
  type == .bumperHit || type == .bonus

/-- The points of the rows that are part of the score. -/
def scoredPoints (rows : List EventRow) : Int :=
  ((rows.filter fun row => row.type.scores).map EventRow.points).sum

theorem scores_acceptedType {topic : String} (h : topic ∈ gameTopics) :
    (acceptedType topic).scores = scores topic := by
  simp only [gameTopics, List.mem_cons, List.not_mem_nil, or_false] at h
  rcases h with rfl | rfl | rfl | rfl <;> decide

/-- The score of the rows is that of the buffer they were built from. -/
theorem scoredPoints_accepted {accepted : List (MqttEvent × DateTime)}
    (htopic : ∀ a ∈ accepted, a.1.topic ∈ gameTopics) :
    scoredPoints (accepted.map acceptedRow) = totalPoints (accepted.map acceptedEntry) := by
  unfold scoredPoints totalPoints
  rw [List.filter_map, List.filter_map, List.map_map, List.map_map]
  have hfilter : accepted.filter ((fun row => row.type.scores) ∘ acceptedRow) =
      accepted.filter ((fun ev => scores (bufferedTopic ev)) ∘ acceptedEntry) :=
    List.filter_congr fun a ha => scores_acceptedType (htopic a ha)
  rw [hfilter]
  rfl

/-! ## Flushes -/

/-- The rows of a game, in the order of their insertion. -/
def Database.eventsOf (db : Database) (gameId : ℕ) : List EventRow :=
  (db.gameEvents.filter fun e => e.gameId == gameId).map GameEventRow.row

/-- The game `gameId` holds the accepted events, one row each, and its score is
that of its rows. -/
structure Flushed (db : Database) (gameId count : ℕ) (accepted : List (MqttEvent × DateTime)) :
    Prop where
  rows : db.eventsOf gameId = accepted.map acceptedRow
  count : count = accepted.length
  game : ∃ g ∈ db.games, g.id = gameId ∧ g.score = scoredPoints (db.eventsOf gameId)

/-- A flush adds no row to the games that were there. -/
theorem Written.eventsOf_old {db db' : Database} {s : FinishedSession} {rows : List EventRow}
    {playerId gameId : ℕ} (h : Written db db' s rows playerId gameId) {old : ℕ}
    (hold : old ≤ db.gameSeq) : db'.eventsOf old = db.eventsOf old := by
  obtain ⟨added, hadded, -, hgame⟩ := h.events
  have hnone : added.filter (fun e => e.gameId == old) = [] := by
    refine List.filter_eq_nil_iff.mpr fun e he => ?_
    have := hgame e he
    have := h.game_id
    simp
    omega
  rw [Database.eventsOf, hadded, List.filter_append, hnone, List.append_nil, Database.eventsOf]

/-- The rows of the game a flush adds are those it was given. -/
theorem Written.eventsOf_new {db db' : Database} {s : FinishedSession} {rows : List EventRow}
    {playerId gameId : ℕ} (h : Written db db' s rows playerId gameId) :
    db'.eventsOf gameId = rows := by
  obtain ⟨added, hadded, hrows, hgame⟩ := h.events
  have hold : db.gameEvents.filter (fun e => e.gameId == gameId) = [] := by
    refine List.filter_eq_nil_iff.mpr fun e he => ?_
    obtain ⟨g, hg, hid⟩ := db.events_game e he
    have := db.games_seq g hg
    have := h.game_id
    simp
    omega
  have hnew : added.filter (fun e => e.gameId == gameId) = added :=
    List.filter_eq_self.mpr fun e he => by simp [hgame e he]
  rw [Database.eventsOf, hadded, List.filter_append, hold, hnew, List.nil_append, hrows]

theorem Flushed.written {db db' : Database} {gameId count : ℕ}
    {accepted : List (MqttEvent × DateTime)} (h : Flushed db gameId count accepted)
    {s : FinishedSession} {rows : List EventRow} {playerId gameId' : ℕ}
    (hwritten : Written db db' s rows playerId gameId') : Flushed db' gameId count accepted := by
  obtain ⟨g, hg, hid, hscore⟩ := h.game
  have hold : db'.eventsOf gameId = db.eventsOf gameId :=
    hwritten.eventsOf_old (hid ▸ db.games_seq g hg)
  refine ⟨hold ▸ h.rows, h.count, g, ?_, hid, hold ▸ hscore⟩
  rw [hwritten.games]
  exact List.mem_append_left _ hg

theorem Flushed.of_rows_eq {db db' : Database} {gameId count : ℕ}
    {accepted : List (MqttEvent × DateTime)} (h : Flushed db gameId count accepted)
    (hrows : db'.rows = db.rows) : Flushed db' gameId count accepted := by
  have hevents : db'.gameEvents = db.gameEvents := congrArg (fun rows => rows.2.2) hrows
  have hgames : db'.games = db.games := congrArg (fun rows => rows.2.1) hrows
  have heventsOf : db'.eventsOf gameId = db.eventsOf gameId := by
    rw [Database.eventsOf, Database.eventsOf, hevents]
  exact ⟨heventsOf ▸ h.rows, h.count, by rw [heventsOf, hgames]; exact h.game⟩

/-- Whatever a flush answers, the games already stored keep their content. -/
theorem Flushed.kept {db : Database} {gameId count : ℕ}
    {accepted : List (MqttEvent × DateTime)} (h : Flushed db gameId count accepted)
    (pg : List (Option Bool)) (utcnow : DateTime) (s : FinishedSession) :
    Flushed (persist pg utcnow s db).2 gameId count accepted := by
  rcases persist_cases pg utcnow s db with ⟨hrows, -⟩ | ⟨rows, playerId, gameId', -, hwritten, -⟩
  · exact h.of_rows_eq hrows
  · exact h.written hwritten

/-- What the run has accepted is what the buffers and the flushed games hold. -/
structure Accounts (w : World) (accepted : String → List (MqttEvent × DateTime)) : Prop where
  topics : ∀ id, ∀ a ∈ accepted id, a.1.topic ∈ gameTopics
  issued : ∀ id, id ∉ w.issued → accepted id = []
  buffers : ∀ {id s}, w.sessions id = some s → w.buffers id = (accepted id).map acceptedEntry
  flushed : ∀ p ∈ w.persisted, ∀ {playerId gameId count}, p.result = .ok (playerId, gameId, count) →
    w.sessions p.sessionId = none ∧ Flushed w.db gameId count (accepted p.sessionId)

theorem accepted_eq_nil_of_ne {a : Act} {id : String} (h : a.about ≠ some id) :
    a.accepted id = [] := by
  cases a with
  | event broadcaster now e s s' message => exact if_neg fun heq => h (congrArg some heq)
  | _ => rfl

/-- Nothing is accepted for a session that is absent. -/
theorem accepted_eq_nil_of_absent {w : World} {a : Act} (ha : a.Enabled w) {id : String}
    (h : w.sessions id = none) : a.accepted id = [] := by
  cases a with
  | event broadcaster now e s s' message =>
      refine if_neg fun heq => ?_
      have hseen := ha.1
      rw [World.seen_of_absent (heq ▸ h)] at hseen
      cases hseen
  | _ => rfl

/-- What a flush that returns has stored of a session that replays its buffer. -/
theorem flushed_of_persist {pg : List (Option Bool)} {clock : Clock} {s : Session}
    {accepted : List (MqttEvent × DateTime)} {db db' : Database} {playerId gameId count : ℕ}
    (htopics : ∀ a ∈ accepted, a.1.topic ∈ gameTopics)
    (hscore : s.score = .int (totalPoints (accepted.map acceptedEntry)))
    (h : persist pg clock.utcnow (s.finished clock (accepted.map acceptedEntry)) db =
      (.ok (playerId, gameId, count), db')) :
    Flushed db' gameId count accepted := by
  obtain ⟨rows, hbuild, hcount, hwritten⟩ := persist_ok h
  obtain rfl := buildEventRows_accepted htopics hbuild
  refine ⟨hwritten.eventsOf_new, hcount.trans (List.length_map _), _,
    hwritten.games ▸ List.mem_append_right _ (List.mem_singleton.mpr rfl), rfl, ?_⟩
  rw [hwritten.eventsOf_new, scoredPoints_accepted htopics]
  change s.score.val = _
  rw [hscore, PyInt.val_int]

/-- An act leaves the games that have been flushed as they are. -/
theorem Flushed.act {w : World} {gameId count : ℕ} {accepted : List (MqttEvent × DateTime)}
    (h : Flushed w.db gameId count accepted) {a : Act} (ha : a.Enabled w) :
    Flushed (w.act a).db gameId count accepted := by
  rw [World.act_db]
  cases a with
  | flush pg clock s ids db =>
      have hkept := h.kept pg clock.utcnow (s.finished clock (w.buffers s.sessionId))
      rw [ha.2] at hkept
      exact hkept
  | flushFails pg clock s e db =>
      have hkept := h.kept pg clock.utcnow (s.finished clock (w.buffers s.sessionId))
      rw [ha.2] at hkept
      exact hkept
  | _ => exact h

/-- A flushed session that is absent stays so. -/
theorem absent_after {w : World} {a : Act} (ha : a.Enabled w) (hw : w.Sound) {p : Persisted}
    (hp : p ∈ w.persisted) (h : w.sessions p.sessionId = none) :
    (w.act a).sessions p.sessionId = none := by
  refine World.absent_act ha ?_ h
  rintro s rfl hid
  exact ha.2.1 (hid ▸ hw.persisted_issued p hp)

theorem Accounts.act {w : World} {accepted : String → List (MqttEvent × DateTime)} {a : Act}
    (h : Accounts w accepted) (hw : w.Sound) (hreplays : w.Replays) (ha : a.Enabled w) :
    Accounts (w.act a) (fun id => accepted id ++ a.accepted id) where
  topics id x hx := by
    rcases List.mem_append.mp hx with hx | hx
    · exact h.topics id x hx
    · cases a with
      | event broadcaster now e s s' message =>
          by_cases heq : s.sessionId = id
          · rw [Act.accepted, if_pos heq] at hx
            obtain rfl := List.mem_singleton.mp hx
            exact ((applyEvent_isSome_iff e s).mp ⟨message, s', ha.2.2.2.1⟩).1
          · rw [Act.accepted, if_neg heq] at hx
            cases hx
      | _ => cases hx
  issued id hid := by
    have hne : a.about ≠ some id := fun habout => hid (hw.about_issued ha habout)
    rw [h.issued id fun hold => hid (World.issued_act a hold), accepted_eq_nil_of_ne hne]
    rfl
  buffers {id s} hs := by
    by_cases hid : a.about = some id
    · rw [World.act_sessions_about ha hid] at hs
      rw [World.act_buffers]
      have hstored {id : String} {s₀ : Session} (hseen : w.seen id = some s₀) :
          w.buffers id = (accepted id).map acceptedEntry := by
        obtain ⟨s₁, hs₁, -⟩ := World.seen_eq_some.mp hseen
        exact h.buffers hs₁
      cases a with
      | create s₀ =>
          obtain rfl := Option.some.inj hid
          dsimp only
          rw [hw.buffers_issued ha.2.1, h.issued _ ha.2.1]
          rfl
      | switch via broadcaster s₀ =>
          obtain rfl := Option.some.inj hid
          exact (hstored ha.1).trans (congrArg _ (List.append_nil _).symm)
      | event broadcaster now e s₀ s' message =>
          obtain rfl := Option.some.inj hid
          dsimp only
          rw [Function.update_self, hstored ha.1, Act.accepted, if_pos rfl, List.map_append]
          rfl
      | score s₀ n =>
          obtain rfl := Option.some.inj hid
          exact (hstored ha.1).trans (congrArg _ (List.append_nil _).symm)
      | flush pg clock s₀ ids db => cases hs
      | start t s₀ =>
          obtain rfl := Option.some.inj hid
          exact (hstored ha.2.2.1).trans (congrArg _ (List.append_nil _).symm)
      | _ => exact (h.buffers hs).trans (congrArg _ (List.append_nil _).symm)
    · rw [World.act_sessions_of_ne ha hid] at hs
      rw [World.act_buffers_of_ne hid, h.buffers hs, accepted_eq_nil_of_ne hid, List.append_nil]
  flushed p hp playerId gameId count hresult := by
    rw [World.act_persisted] at hp
    have hold (hp : p ∈ w.persisted) : (w.act a).sessions p.sessionId = none ∧
        Flushed (w.act a).db gameId count (accepted p.sessionId ++ a.accepted p.sessionId) := by
      obtain ⟨habsent, hflushed⟩ := h.flushed p hp hresult
      rw [accepted_eq_nil_of_absent ha habsent, List.append_nil]
      exact ⟨absent_after ha hw hp habsent, hflushed.act ha⟩
    cases a with
    | flush pg clock s ids db =>
        rcases List.mem_append.mp hp with hp | hp
        · exact hold hp
        · obtain rfl := List.mem_singleton.mp hp
          obtain rfl : ids = (playerId, gameId, count) := Except.ok.inj hresult
          obtain ⟨s₀, hs₀, -⟩ := World.seen_eq_some.mp ha.1
          have hbuffer := h.buffers hs₀
          refine ⟨w.sessions.get_erase_self _, ?_⟩
          have hpersist := ha.2
          rw [hbuffer] at hpersist
          have hscore : s.score = .int (totalPoints ((accepted s.sessionId).map acceptedEntry)) := by
            rw [← hbuffer]
            exact (hreplays.seen ha.1).score
          rw [show Act.accepted s.sessionId _ = [] from rfl, List.append_nil]
          exact flushed_of_persist (h.topics _) hscore hpersist
    | flushFails pg clock s e db =>
        rcases List.mem_append.mp hp with hp | hp
        · exact hold hp
        · obtain rfl := List.mem_singleton.mp hp
          cases hresult
    | _ => exact hold hp

theorem Accounts.acts {w : World} {accepted : String → List (MqttEvent × DateTime)}
    {acts : List Act} (h : Accounts w accepted) (hw : w.Sound) (hreplays : w.Replays)
    (hacts : Runs.Along World.act (fun w a => a.Enabled w) w acts)
    (hscore : ∀ a ∈ acts, ∀ s n, a ≠ .score s n) :
    Accounts (acts.foldl World.act w) (fun id => accepted id ++ acts.flatMap (Act.accepted id)) := by
  induction acts generalizing w accepted with
  | nil =>
      simp only [List.flatMap_nil, List.append_nil]
      exact h
  | cons a acts ih =>
      have hrest := ih (h.act hw hreplays hacts.1) (hw.act hacts.1)
        (replays_act hw hreplays hacts.1 (hscore a List.mem_cons_self)) hacts.2
        (fun a' ha' => hscore a' (List.mem_cons_of_mem a ha'))
      simp only [List.append_assoc] at hrest
      exact hrest

/-! ## Runs -/

section Runs

variable {borneId : String} {db : Database} {evs : List Event}

theorem accounts_run
    (h : Runs.Along (step borneId) (fun w e => e.Fresh w ∧ NoRelayedScore w e) { db } evs) :
    Accounts (evs.foldl (step borneId) { db }) fun id => acceptedEvents borneId id { db } evs := by
  have hnone : Accounts { db } fun _ => [] :=
    { topics := fun _ _ hx => by cases hx
      issued := fun _ _ => rfl
      buffers := fun hs => by cases hs
      flushed := fun _ hp => by cases hp }
  have hacts := hnone.acts (World.Sound.init db) (fun hs => by cases hs)
    (allActs_enabled (h.mono fun w e he => he.1))
    (mem_allActs (fun w e he a ha => no_score_of_noRelayedScore he ha)
      (h.mono fun w e he => he.2))
  simp only [List.nil_append, flatMap_accepted_allActs, foldl_allActs] at hacts
  exact hacts

/-- A flush that returns has done one act, with the ids and the count of its
result. -/
theorem finishAndPersist_ok {ctx : Context} {clock : Clock} {sessionId : String} {w w' : World}
    {res : FinishAndPersistResult}
    (h : (finishAndPersist clock sessionId).run (handle ctx) w = (.ok res, w')) :
    ∃ s db, Act.Enabled w (.flush ctx.pg clock s (res.playerId, res.gameId, res.eventCount) db) ∧
      s.sessionId = sessionId ∧
      w' = w.act (.flush ctx.pg clock s (res.playerId, res.gameId, res.eventCount) db) := by
  rw [finishAndPersist] at h
  obtain ⟨found, w₁, hget, h⟩ := Prog.run_bind_ok h
  rw [Prog.run_perform, handle] at hget
  obtain ⟨hread, rfl⟩ := Prod.mk.inj hget
  have hseen : w.seen sessionId = found := by rw [World.seen, hread]
  cases found with
  | none => cases (Prod.mk.inj h).1
  | some s =>
      obtain rfl := World.seen_sessionId hseen
      obtain ⟨events, w₁, hevents, h⟩ := Prog.run_bind_ok h
      rw [Prog.run_perform, handle] at hevents
      obtain ⟨hbuffer, rfl⟩ := Prod.mk.inj hevents
      obtain rfl := Except.ok.inj hbuffer
      obtain ⟨best, hbest⟩ := run_previousBestFor ctx w s.pseudo s.mode
      rw [Prog.run_bind, hbest] at h
      obtain ⟨⟨playerId, gameId, eventCount⟩, w₁, hpersist, h⟩ := Prog.run_bind_ok h
      rw [Prog.run_perform, handle] at hpersist
      obtain ⟨hresult, rfl⟩ := Prod.mk.inj hpersist
      obtain ⟨hres, rfl⟩ := Prod.mk.inj h
      obtain rfl := Except.ok.inj hres
      refine ⟨s, (persist ctx.pg clock.utcnow (s.finished clock (w.buffers s.sessionId)) w.db).2,
        ⟨hseen, Prod.ext hresult rfl⟩, rfl, ?_⟩
      rw [World.act, ← hresult]
      rfl

/-- In every run without a relayed score, every flush that returns has stored
the events accepted for its session. -/
theorem flush_stores_accepted (borneId : String) (db : Database) (evs : List Event)
    (h : Runs.Along (step borneId) (fun w e => e.Fresh w ∧ NoRelayedScore w e) { db } evs) :
    (∀ p ∈ (evs.foldl (step borneId) { db }).persisted, ∀ playerId gameId count,
        p.result = .ok (playerId, gameId, count) →
          Flushed (evs.foldl (step borneId) { db }).db gameId count
            (acceptedEvents borneId p.sessionId { db } evs)) ∧
      ∀ ctx clock sessionId res w',
        (finishAndPersist clock sessionId).run (handle ctx) (evs.foldl (step borneId) { db }) =
            (.ok res, w') →
          Flushed w'.db res.gameId res.eventCount
            (acceptedEvents borneId sessionId { db } evs) := by
  have haccounts := accounts_run h
  refine ⟨fun p hp playerId gameId count hresult => (haccounts.flushed p hp hresult).2, ?_⟩
  intro ctx clock sessionId res w' hrun
  obtain ⟨s, db', hflush, rfl, rfl⟩ := finishAndPersist_ok hrun
  have hw := sound_run (World.Sound.init db) (h.mono fun w e he => he.1)
  have hafter := haccounts.act hw (replays_run h) hflush
  have hflushed := (hafter.flushed _ (List.mem_append_right _ (List.mem_singleton.mpr rfl)) rfl).2
  simpa [Act.accepted] using hflushed

/-- A bumper hit with unreadable points, one that counts, a ball lost and the
flush. -/
theorem flush_stores_accepted_played :
    let evs := gameStart [.session] "s" ++
      [{ request := .mqtt [.session] topicBumperHit
          (some (.obj [("sessionId", .str "s"), ("points", .str "many")])) },
        sensorEvent [.session] topicBumperHit "s" 100, sensorEvent [.session] topicBallLost "s" 7,
        { request := .finish "s" }]
    let w := evs.foldl (step "b") {}
    ∃ p ∈ w.persisted, p.result = .ok (1, 1, 2) ∧
      Flushed w.db 1 2 (acceptedEvents "b" p.sessionId {} evs) := by
  intro evs w
  have hok : ∃ p ∈ w.persisted, p.result.toOption = some (1, 1, 2) := by decide +kernel
  obtain ⟨p, hp, hresult⟩ := hok
  have hresult : p.result = .ok (1, 1, 2) := by
    cases h : p.result with
    | ok ids => rw [h] at hresult; rw [Option.some.inj hresult]
    | error e => rw [h] at hresult; cases hresult
  exact ⟨p, hp, hresult,
    (flush_stores_accepted "b" {} evs (by decide +kernel)).1 p hp 1 1 2 hresult⟩

end Runs

end FlipperBack
