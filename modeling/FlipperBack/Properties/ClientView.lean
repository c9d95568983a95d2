import FlipperBack.Properties.Replay

/-!
# What a screen knows of a session

A screen only sees the messages broadcast for its session. `Client` folds them
from the state of a new session on; at the end of every operation it holds the
status, the score, the combo and the lives that are stored, and a `game:over`
shows the score that is stored when it is sent.
-/

namespace FlipperBack

open Effects Python

/-! ## The screen -/

/-- What a screen shows of a session. -/
structure Client where
  status : SessionStatus := .waiting
  score : PyInt := .int 0
  combo : Int := 0
  lives : Int := 3
  deriving DecidableEq, Repr

/-- A screen takes a message in. -/
def Client.receive (c : Client) : SessionMessage → Client
  | .matchState status _ => { c with status }
  | .scoreUpdate score combo _ => { c with score, combo }
  | .ballLost livesRemaining => { c with lives := livesRemaining, combo := 0 }
  | .countdownTick _ => c
  | .gameOver _ => c

/-- What there is to show of a session. -/
def Session.client (s : Session) : Client :=
  { status := s.status, score := s.score, combo := s.combo, lives := s.lives }

/-- The message about the session `id` that a screen connected to `hub` gets from
an emission, if it gets one. -/
def Emission.toClient (hub : Hub) (id : String) : Emission → Option SessionMessage
  | session broadcaster sessionId message _ _ =>
      if hub ∈ broadcaster ∧ sessionId = id then some message else none
  | borne _ _ => none

namespace World

/-- The messages about the session `id` that a screen connected to `hub` has
got. -/
def received (w : World) (hub : Hub) (id : String) : List SessionMessage :=
  w.outbox.filterMap (Emission.toClient hub id)

/-- The screen of the session `id`, connected to `hub` since its creation. -/
def client (w : World) (hub : Hub) (id : String) : Client :=
  (w.received hub id).foldl Client.receive {}

end World

/-! ## One broadcaster -/

/-- The request broadcasts to `hub`, if it broadcasts to sessions. -/
def Event.Through (hub : Hub) (e : Event) : Prop :=
  match e.request with
  | .readyUp broadcaster _ => hub ∈ broadcaster
  | .sessionCommand broadcaster _ _ => hub ∈ broadcaster
  | .mqtt broadcaster _ _ => hub ∈ broadcaster
  | .intent _ _ => hub = .borne
  | .matchCommand _ => hub = .borne
  | _ => True

instance (hub : Hub) : (e : Event) → Decidable (e.Through hub)
  | { request := .readyUp broadcaster _, .. } => inferInstanceAs (Decidable (hub ∈ broadcaster))
  | { request := .sessionCommand broadcaster _ _, .. } =>
      inferInstanceAs (Decidable (hub ∈ broadcaster))
  | { request := .mqtt broadcaster _ _, .. } => inferInstanceAs (Decidable (hub ∈ broadcaster))
  | { request := .intent _ _, .. } => inferInstanceAs (Decidable (hub = .borne))
  | { request := .matchCommand _, .. } => inferInstanceAs (Decidable (hub = .borne))
  | { request := .createSession _ _ _, .. } => isTrue trivial
  | { request := .finish _, .. } => isTrue trivial
  | { request := .relay _, .. } => isTrue trivial
  | { request := .countdown _, .. } => isTrue trivial

/-- The act broadcasts to `hub`, if it broadcasts to a session, and writes no
relayed score. -/
def Act.Through (hub : Hub) : Act → Prop
  | switch _ broadcaster _ => hub ∈ broadcaster
  | event broadcaster _ _ _ _ _ => hub ∈ broadcaster
  | score _ _ => False
  | _ => True

theorem through_of_mem_acts {borneId : String} {hub : Hub} {w : World} {e : Event}
    (h : e.Through hub) (hscore : NoRelayedScore w e) {a : Act} (ha : a ∈ e.acts borneId w) :
    a.Through hub := by
  have hyields := acts_yields ha
  have hnoscore := no_score_of_noRelayedScore hscore ha
  obtain ⟨request, clock, uuid, pg⟩ := e
  cases a with
  | score s n => exact absurd rfl (hnoscore s n)
  | switch via broadcaster s =>
      cases request with
      | readyUp broadcaster' sessionId => exact hyields.2.1 ▸ h
      | sessionCommand broadcaster' command sessionId => exact hyields.2.1 ▸ h
      | intent action payload =>
          obtain rfl : hub = .borne := h
          exact hyields.2.1 ▸ List.mem_singleton.mpr rfl
      | matchCommand command =>
          obtain rfl : hub = .borne := h
          exact hyields.2.1 ▸ List.mem_singleton.mpr rfl
      | mqtt broadcaster' topic payload => exact hyields.elim fun _ hcloses => hcloses.elim
      | relay event => exact hyields.elim fun _ hcloses => hcloses.elim
      | _ => exact hyields.elim
  | event broadcaster now event s s' message =>
      cases request with
      | mqtt broadcaster' topic payload => exact hyields.1 ▸ h
      | relay event => exact hyields.elim fun _ hcloses => hcloses.elim
      | _ => exact hyields.elim
  | _ => trivial

/-! ## The invariant -/

/-- A `game:over` shows the score that is stored when it is sent. -/
def Emission.ShowsScore : Emission → Prop
  | session _ _ (.gameOver finalScore) stored _ => stored.map Session.score = some finalScore
  | _ => True

/-- The screens connected to `hub` show what is stored. -/
structure World.Shown (w : World) (hub : Hub) : Prop where
  client : ∀ {id s}, w.sessions id = some s → w.client hub id = s.client
  tasks : ∀ t ∈ w.tasks, hub ∈ t.broadcaster
  scores : ∀ e ∈ w.outbox, e.ShowsScore

/-- A screen after an act has taken in what the act sends. -/
theorem World.client_act (w : World) (a : Act) (hub : Hub) (id : String) :
    (w.act a).client hub id =
      ((a.sent w).filterMap (Emission.toClient hub id)).foldl Client.receive (w.client hub id) := by
  rw [client, received, act_outbox, List.filterMap_append, List.foldl_append]
  rfl

/-- An act about another session sends nothing to the screen of this one. -/
theorem World.client_act_of_ne {w : World} {a : Act} {id : String} (hid : a.about ≠ some id)
    (hub : Hub) : (w.act a).client hub id = w.client hub id := by
  rw [client_act]
  have hnone : (a.sent w).filterMap (Emission.toClient hub id) = [] := by
    refine List.filterMap_eq_nil_iff.mpr fun e he => ?_
    cases e with
    | session broadcaster sessionId message stored task =>
        refine if_neg fun h => hid ?_
        rw [Act.about_of_mem_sent he rfl, h.2]
    | borne borneId message => rfl
  rw [hnone]
  rfl

/-- The screen of a session whose id has not been drawn has got nothing. -/
theorem World.client_of_not_issued {w : World} (hw : w.Sound) {id : String}
    (hid : id ∉ w.issued) (hub : Hub) : w.client hub id = {} := by
  have hnone : w.received hub id = [] := by
    refine List.filterMap_eq_nil_iff.mpr fun e he => ?_
    cases e with
    | session broadcaster sessionId message stored task =>
        exact if_neg fun h => hid (hw.outbox_issued _ he id (congrArg some h.2))
    | borne borneId message => rfl
  rw [client, hnone]
  rfl

/-- The messages of an event bring a screen from the session it finds to the one
it leaves. -/
theorem receive_announced {e : MqttEvent} {s s' : Session} {message : SessionMessage}
    (happly : applyEvent e s = .ok (some (message, s'))) :
    (e.announced message s').foldl Client.receive s.client = s'.client := by
  rcases applyEvent_cases happly with
    ⟨htopic, points, -, rfl, rfl⟩ | ⟨htopic, points, -, rfl, rfl⟩ | ⟨htopic, rfl, rfl⟩ |
      ⟨htopic, rfl, rfl⟩
  · rw [MqttEvent.announced, if_neg (by rw [htopic]; decide)]
    rfl
  · rw [MqttEvent.announced, if_neg (by rw [htopic]; decide)]
    rfl
  · rw [MqttEvent.announced, if_neg (by rw [htopic]; decide)]
    rfl
  · rw [MqttEvent.announced, if_pos htopic]
    rfl

theorem filterMap_toClient_announced {hub : Hub} {broadcaster : Broadcaster} {id : String}
    (hhub : hub ∈ broadcaster) (messages : List SessionMessage) (stored : Option Session)
    (task : Option ℕ) :
    (messages.map fun message => Emission.session broadcaster id message stored task).filterMap
      (Emission.toClient hub id) = messages := by
  rw [List.filterMap_map]
  exact (List.filterMap_congr fun message _ => if_pos ⟨hhub, rfl⟩).trans List.filterMap_some

theorem World.Shown.client_seen {w : World} {hub : Hub} (h : w.Shown hub) {id : String}
    {s : Session} (hs : w.seen id = some s) : w.client hub id = s.client := by
  obtain ⟨s₀, hs₀, -, rfl⟩ := World.seen_eq_some.mp hs
  have hshown := h.client hs₀
  exact hshown

/-- After an act, the screen of its session shows what the act has stored. -/
theorem World.Shown.client_about {w : World} {hub : Hub} {a : Act} (h : w.Shown hub)
    (hw : w.Sound) (ha : a.Enabled w) (hthrough : a.Through hub) {id : String} {s : Session}
    (hid : a.about = some id) (hs : (w.act a).sessions id = some s) :
    (w.act a).client hub id = s.client := by
  rw [World.act_sessions_about ha hid] at hs
  rw [World.client_act]
  have hone {broadcaster : Broadcaster} (hhub : hub ∈ broadcaster) (message : SessionMessage)
      (stored : Option Session) (task : Option ℕ) :
      [Emission.session broadcaster id message stored task].filterMap (Emission.toClient hub id) =
        [message] :=
    filterMap_toClient_announced hhub [message] stored task
  cases a with
  | create s₀ =>
      obtain rfl := Option.some.inj hs
      obtain rfl := Option.some.inj hid
      rw [World.client_of_not_issued hw ha.2.1, Session.client, ha.2.2.1, ha.2.2.2.1,
        ha.2.2.2.2.1, ha.2.2.2.2.2]
      rfl
  | switch via broadcaster s₀ =>
      obtain rfl := Option.some.inj hs
      obtain rfl := Option.some.inj hid
      rw [h.client_seen ha.1, Act.sent]
      rw [hone hthrough]
      rfl
  | event broadcaster now e s₀ s' message =>
      obtain rfl := Option.some.inj hs
      obtain rfl := Option.some.inj hid
      rw [h.client_seen ha.1, Act.sent, filterMap_toClient_announced hthrough]
      exact receive_announced ha.2.2.2.1
  | score s₀ n => exact hthrough.elim
  | flush pg clock s₀ ids db => cases hs
  | flushFails pg clock s₀ e db => exact h.client hs
  | tick t value values =>
      obtain rfl := Option.some.inj hid
      have ht := h.tasks t (World.mem_of_task ha.1)
      rw [h.client hs, Act.sent]
      rw [hone ht]
      rfl
  | start t s₀ =>
      obtain rfl := Option.some.inj hs
      obtain rfl := Option.some.inj hid
      have ht := h.tasks t (World.mem_of_task ha.1)
      rw [h.client_seen ha.2.2.1, Act.sent]
      rw [hone ht]
      rfl
  | finish t => exact h.client hs
  | openBorne borneId => cases hid
  | nav b => cases hid
  | display borneId message => cases hid

/-- A `game:over` is the message of an event, and shows the score it leaves. -/
theorem showsScore_sent {w : World} {a : Act} (ha : a.Enabled w) :
    ∀ e ∈ a.sent w, e.ShowsScore := by
  intro emission he
  cases a with
  | switch via broadcaster s =>
      obtain rfl := List.mem_singleton.mp he
      trivial
  | event broadcaster now e s s' message =>
      obtain ⟨message', hmessage', rfl⟩ := List.mem_map.mp he
      have hstored : (w.sessions.put s') s.sessionId = some s' := by
        rw [← applyEvent_sessionId ha.2.2.2.1]
        exact w.sessions.get_put_self s'
      rw [hstored]
      rcases List.mem_cons.mp hmessage' with rfl | hmessage'
      · rcases applyEvent_cases ha.2.2.2.1 with
          ⟨-, points, -, -, rfl⟩ | ⟨-, points, -, -, rfl⟩ | ⟨-, -, rfl⟩ | ⟨-, -, rfl⟩
        · trivial
        · trivial
        · trivial
        · rfl
      · split at hmessage'
        · obtain rfl := List.mem_singleton.mp hmessage'
          trivial
        · cases hmessage'
  | tick t value values =>
      obtain rfl := List.mem_singleton.mp he
      trivial
  | start t s =>
      obtain rfl := List.mem_singleton.mp he
      trivial
  | nav b =>
      obtain rfl := List.mem_singleton.mp he
      trivial
  | display borneId message =>
      obtain rfl := List.mem_singleton.mp he
      trivial
  | _ => cases he

theorem World.Shown.act {w : World} {hub : Hub} {a : Act} (h : w.Shown hub) (hw : w.Sound)
    (ha : a.Enabled w) (hthrough : a.Through hub) : (w.act a).Shown hub where
  client {id s} hs := by
    by_cases hid : a.about = some id
    · exact h.client_about hw ha hthrough hid hs
    · rw [World.act_sessions_of_ne ha hid] at hs
      rw [World.client_act_of_ne hid]
      exact h.client hs
  tasks t ht := by
    rcases World.mem_act_tasks ht with ⟨t₀, ht₀, -, -, heq⟩ | ⟨via, broadcaster, s, rfl, -, rfl⟩
    · exact heq ▸ h.tasks t₀ ht₀
    · exact hthrough
  scores e he := by
    rw [World.act_outbox] at he
    rcases List.mem_append.mp he with he | he
    · exact h.scores e he
    · exact showsScore_sent ha e he

/-! ## Runs -/

/-- In every run whose requests all broadcast to `hub`, without a relayed score,
the screens connected to `hub` show what is stored, and every `game:over` the
score stored when it was sent. -/
theorem client_shows_stored (borneId : String) (hub : Hub) (db : Database) (evs : List Event)
    (h : Runs.Along (step borneId)
      (fun w e => e.Fresh w ∧ e.Through hub ∧ NoRelayedScore w e) { db } evs) :
    (∀ id s, (evs.foldl (step borneId) { db }).sessions id = some s →
        (evs.foldl (step borneId) { db }).client hub id = s.client) ∧
      ∀ e ∈ (evs.foldl (step borneId) { db }).outbox, e.ShowsScore := by
  have hinit : World.Shown { db } hub :=
    { client := fun hs => by cases hs
      tasks := fun t ht => by cases ht
      scores := fun e he => by cases he }
  have hrun := (run_invariant (P := Act.Through hub)
    (D := fun w e => e.Through hub ∧ NoRelayedScore w e)
    (fun w a hw hI ha hP => World.Shown.act hI hw ha hP)
    (fun w e he a ha => through_of_mem_acts he.1 he.2 ha) (World.Sound.init db) hinit h).2
  exact ⟨fun id s hs => hrun.client hs, hrun.scores⟩

/-- A game with a bumper hit, a ball lost and a pause. -/
theorem client_shows_stored_played :
    let w := (gameStart [.session, .borne] "s" ++
      [sensorEvent [.session, .borne] topicBumperHit "s" 100,
        sensorEvent [.session, .borne] topicBallLost "s" 0,
        { request := .sessionCommand [.session, .borne] .pause "s" }]).foldl (step "b") {}
    ∃ s, w.sessions "s" = some s ∧ w.client .session "s" = s.client ∧
      s.client = { status := .paused, score := .int 100, combo := 0, lives := 2 } := by
  intro w
  have hclient : (w.sessions "s").map Session.client =
      some { status := .paused, score := .int 100, combo := 0, lives := 2 } := by decide +kernel
  obtain ⟨s, hs, hclient⟩ := Option.map_eq_some_iff.mp hclient
  exact ⟨s, hs, (client_shows_stored "b" .session {} _ (by decide +kernel)).1 "s" s hs, hclient⟩

end FlipperBack
