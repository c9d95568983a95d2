import FlipperBack.System.Invariants

/-!
# A session is the replay of its buffer

As long as no score is relayed, the three counters of a stored session are what
replaying its event buffer gives: the points of the bumpers and bonuses, the
lives left by the lost balls, and the bumpers hit since the last of these.
-/

namespace FlipperBack

open Effects Python

/-! ## Replaying a buffer -/

/-- The topic of a buffered event. -/
def bufferedTopic (ev : Dict) : String :=
  match ev.get "topic" with
  | some (.str topic) => topic
  | _ => ""

/-- The payload of a buffered event. -/
def bufferedPayload (ev : Dict) : Dict :=
  match ev.get "payload" with
  | some (.obj fields) => fields
  | _ => []

/-- The integer points of an event, 0 where they cannot be read. -/
def pointsOf (payload : Dict) : Int :=
  match eventPoints payload with
  | .ok points => points
  | .error _ => 0

/-- Whether the points of a topic count. -/
def scores (topic : String) : Bool :=
  topic == topicBumperHit || topic == topicBonus

/-- Whether `str` writes the counters that an event of the game leaves. -/
def Session.keeps (s : Session) (e : MqttEvent) : Bool :=
  (!scores e.topic || fitsStr (s.score.val + pointsOf e.payload)) &&
    (e.topic != topicBumperHit || fitsStr (s.combo + 1))

/-- The points of the bumpers and bonuses of a buffer. -/
def totalPoints (evs : List Dict) : Int :=
  ((evs.filter fun ev => scores (bufferedTopic ev)).map fun ev => pointsOf (bufferedPayload ev)).sum

/-- The balls lost in a buffer. -/
def ballsLost (evs : List Dict) : ℕ :=
  evs.countP fun ev => bufferedTopic ev == topicBallLost

/-- The bumpers hit after the last ball lost. -/
def hitsSinceBall (evs : List Dict) : ℕ :=
  (evs.reverse.takeWhile fun ev => bufferedTopic ev != topicBallLost).countP fun ev =>
    bufferedTopic ev == topicBumperHit

/-- The counters of `s` are those of the replay of `evs`. -/
structure Session.Replays (s : Session) (evs : List Dict) : Prop where
  score : s.score = .int (totalPoints evs)
  lives : s.lives = max 0 (defaultLives - ballsLost evs)
  combo : s.combo = hitsSinceBall evs

@[simp] theorem bufferedTopic_bufferedEvent (e : MqttEvent) (now : DateTime) :
    bufferedTopic (bufferedEvent e now) = e.topic := rfl

@[simp] theorem bufferedPayload_bufferedEvent (e : MqttEvent) (now : DateTime) :
    bufferedPayload (bufferedEvent e now) = e.payload := rfl

/-- A session is written after an event where it keeps it. -/
theorem writable_applied {e : MqttEvent} {s s' : Session} {message : SessionMessage}
    (hs : s.writable) (h : applyEvent e s = .ok (some (message, s'))) :
    s'.writable = s.keeps e := by
  obtain ⟨⟨hscore, hlives⟩, hcombo⟩ : (s.score.fitsStr ∧ fitsStr s.lives) ∧ fitsStr s.combo := by
    simpa [Session.writable] using hs
  rcases applyEvent_cases h with
    ⟨htopic, points, hpoints, rfl, -⟩ | ⟨htopic, points, hpoints, rfl, -⟩ | ⟨htopic, rfl, -⟩ |
      ⟨htopic, rfl, -⟩
  · have hscores : scores topicBumperHit = true := by decide
    simp [Session.writable, Session.keeps, htopic, hscores, pointsOf, hpoints, hlives, PyInt.add]
  · have hscores : scores topicBonus = true := by decide
    have hbonus : topicBonus ≠ topicBumperHit := by decide
    simp [Session.writable, Session.keeps, htopic, hscores, hbonus, pointsOf, hpoints, hlives,
      hcombo, PyInt.add]
  · have hscores : scores topicBallLost = false := by decide
    have hball : topicBallLost ≠ topicBumperHit := by decide
    have hzero : fitsStr 0 = true := by decide
    have hless : fitsStr (max 0 (s.lives - 1)) = true := fitsStr_of_le (by omega) hlives
    simp [Session.writable, Session.keeps, htopic, hscores, hball, hscore, hless, hzero]
  · have hscores : scores topicGameOver = false := by decide
    have hover : topicGameOver ≠ topicBumperHit := by decide
    simp [Session.writable, Session.keeps, htopic, hscores, hover, hscore, hlives, hcombo]

theorem totalPoints_append (evs : List Dict) (e : MqttEvent) (now : DateTime) :
    totalPoints (evs ++ [bufferedEvent e now]) =
      totalPoints evs + if scores e.topic then pointsOf e.payload else 0 := by
  unfold totalPoints
  rw [List.filter_append, List.map_append, List.sum_append]
  by_cases h : scores e.topic <;> simp [h]

theorem ballsLost_append (evs : List Dict) (e : MqttEvent) (now : DateTime) :
    ballsLost (evs ++ [bufferedEvent e now]) =
      ballsLost evs + if e.topic = topicBallLost then 1 else 0 := by
  unfold ballsLost
  rw [List.countP_append]
  by_cases h : e.topic = topicBallLost <;> simp [h]

theorem hitsSinceBall_append (evs : List Dict) (e : MqttEvent) (now : DateTime) :
    hitsSinceBall (evs ++ [bufferedEvent e now]) =
      if e.topic = topicBallLost then 0
      else hitsSinceBall evs + if e.topic = topicBumperHit then 1 else 0 := by
  unfold hitsSinceBall
  rw [List.reverse_append, List.reverse_singleton, List.singleton_append, List.takeWhile_cons]
  by_cases h : e.topic = topicBallLost
  · simp [h]
  · simp only [bufferedTopic_bufferedEvent, bne_iff_ne, ne_eq, h, not_false_eq_true, if_true,
      if_false, List.countP_cons, beq_iff_eq]

theorem Session.replays_nil {s : Session} (hscore : s.score = .int 0) (hlives : s.lives = defaultLives)
    (hcombo : s.combo = 0) : s.Replays [] where
  score := hscore
  lives := hlives
  combo := hcombo

/-- An event that is applied and buffered keeps the session the replay of its
buffer. -/
theorem Session.Replays.event {s s' : Session} {evs : List Dict} {e : MqttEvent}
    {message : SessionMessage} (h : s.Replays evs)
    (happly : applyEvent e s = .ok (some (message, s'))) (now : DateTime) :
    s'.Replays (evs ++ [bufferedEvent e now]) := by
  have hbonus : topicBonus ≠ topicBallLost ∧ topicBonus ≠ topicBumperHit := by decide
  have hball : topicBallLost ≠ topicBumperHit := by decide
  have hover : topicGameOver ≠ topicBallLost ∧ topicGameOver ≠ topicBumperHit := by decide
  rcases applyEvent_cases happly with
    ⟨htopic, points, hpoints, rfl, -⟩ | ⟨htopic, points, hpoints, rfl, -⟩ | ⟨htopic, rfl, -⟩ |
      ⟨htopic, rfl, -⟩
  · exact
      { score := by
          rw [totalPoints_append, htopic, if_pos (by decide), pointsOf, hpoints, h.score]
          rfl
        lives := by
          rw [ballsLost_append, htopic, if_neg hball.symm]
          exact h.lives
        combo := by
          rw [hitsSinceBall_append, htopic, if_neg hball.symm, if_pos rfl]
          simp [h.combo] }
  · exact
      { score := by
          rw [totalPoints_append, htopic, if_pos (by decide), pointsOf, hpoints, h.score]
          rfl
        lives := by
          rw [ballsLost_append, htopic, if_neg hbonus.1]
          exact h.lives
        combo := by
          rw [hitsSinceBall_append, htopic, if_neg hbonus.1, if_neg hbonus.2]
          exact h.combo }
  · exact
      { score := by
          rw [totalPoints_append, htopic, if_neg (by decide), add_zero]
          exact h.score
        lives := by
          rw [ballsLost_append, htopic, if_pos rfl, h.lives]
          push_cast
          omega
        combo := by
          rw [hitsSinceBall_append, htopic, if_pos rfl]
          rfl }
  · exact
      { score := by
          rw [totalPoints_append, htopic, if_neg (by decide), add_zero]
          exact h.score
        lives := by
          rw [ballsLost_append, htopic, if_neg hover.1]
          exact h.lives
        combo := by
          rw [hitsSinceBall_append, htopic, if_neg hover.1, if_neg hover.2]
          exact h.combo }

/-! ## The invariant -/

/-- Every stored session is the replay of its buffer. -/
def World.Replays (w : World) : Prop :=
  ∀ {id s}, w.sessions id = some s → s.Replays (w.buffers id)

/-- What is seen of a session replays the same buffer as what is stored of it. -/
theorem World.Replays.seen {w : World} (h : w.Replays) {id : String} {s : Session}
    (hs : w.seen id = some s) : s.Replays (w.buffers id) := by
  obtain ⟨s₀, hs₀, -, rfl⟩ := World.seen_eq_some.mp hs
  exact ⟨(h hs₀).score, (h hs₀).lives, (h hs₀).combo⟩

/-- No score is relayed. -/
def NoRelayedScore (_ : World) (e : Event) : Prop :=
  match e.request with
  | .relay event => relayedScore event = none
  | _ => True

instance (w : World) : (e : Event) → Decidable (NoRelayedScore w e)
  | { request := .relay event, .. } => inferInstanceAs (Decidable (relayedScore event = none))
  | { request := .createSession _ _ _, .. } => isTrue trivial
  | { request := .readyUp _ _, .. } => isTrue trivial
  | { request := .sessionCommand _ _ _, .. } => isTrue trivial
  | { request := .mqtt _ _ _, .. } => isTrue trivial
  | { request := .finish _, .. } => isTrue trivial
  | { request := .intent _ _, .. } => isTrue trivial
  | { request := .matchCommand _, .. } => isTrue trivial
  | { request := .countdown _, .. } => isTrue trivial

/-- An act that writes no relayed score keeps every session the replay of its
buffer. -/
theorem replays_act {w : World} {a : Act} (hw : w.Sound) (h : w.Replays) (ha : a.Enabled w)
    (hscore : ∀ s n, a ≠ .score s n) : (w.act a).Replays := by
  intro id s hs
  by_cases hid : a.about = some id
  · rw [World.act_sessions_about ha hid] at hs
    rw [World.act_buffers]
    cases a with
    | create s₀ =>
        obtain rfl := Option.some.inj hs
        obtain rfl := Option.some.inj hid
        dsimp only
        rw [hw.buffers_issued ha.2.1]
        exact Session.replays_nil ha.2.2.1 ha.2.2.2.1 ha.2.2.2.2.1
    | switch via broadcaster s₀ =>
        obtain rfl := Option.some.inj hs
        obtain rfl := Option.some.inj hid
        exact ⟨(h.seen ha.1).score, (h.seen ha.1).lives, (h.seen ha.1).combo⟩
    | event broadcaster now e s₀ s' message =>
        obtain rfl := Option.some.inj hs
        obtain rfl := Option.some.inj hid
        dsimp only
        rw [Function.update_self]
        exact (h.seen ha.1).event ha.2.2.2.1 now
    | score s₀ n => exact absurd rfl (hscore s₀ n)
    | flush pg clock s₀ ids db => cases hs
    | start t s₀ =>
        obtain rfl := Option.some.inj hs
        obtain rfl := Option.some.inj hid
        exact ⟨(h.seen ha.2.2.1).score, (h.seen ha.2.2.1).lives, (h.seen ha.2.2.1).combo⟩
    | _ => exact h hs
  · rw [World.act_sessions_of_ne ha hid] at hs
    rw [World.act_buffers_of_ne hid]
    exact h hs

/-- Only a relayed score leads to an act that writes one. -/
theorem score_of_mem_acts {borneId : String} {w : World} {e : Event} {s : Session} {n : PyInt}
    (ha : .score s n ∈ e.acts borneId w) :
    ∃ event, e.request = .relay event ∧ relayedScore event = some n := by
  have hyields := acts_yields ha
  obtain ⟨request, clock, uuid, pg⟩ := e
  cases request with
  | relay event => exact ⟨event, rfl, hyields.1⟩
  | mqtt broadcaster topic payload => exact hyields.elim fun _ h => h.elim
  | _ => exact hyields.elim

/-- As long as no score is relayed, no act writes one. -/
theorem no_score_of_noRelayedScore {borneId : String} {w : World} {e : Event}
    (h : NoRelayedScore w e) {a : Act} (ha : a ∈ e.acts borneId w) (s : Session) (n : PyInt) :
    a ≠ .score s n := by
  rintro rfl
  obtain ⟨event, hrequest, hscore⟩ := score_of_mem_acts ha
  have hnone : relayedScore event = none := by simpa [NoRelayedScore, hrequest] using h
  rw [hscore] at hnone
  cases hnone

theorem replays_run {borneId : String} {db : Database} {evs : List Event}
    (h : Runs.Along (step borneId) (fun w e => e.Fresh w ∧ NoRelayedScore w e) { db } evs) :
    (evs.foldl (step borneId) { db }).Replays := by
  have hrun := run_invariant (I := World.Replays) (P := fun a => ∀ s n, a ≠ .score s n)
    (fun w a hw hI ha hP => replays_act hw hI ha hP)
    (fun w e he a ha => no_score_of_noRelayedScore he ha) (World.Sound.init db)
    (fun h => by cases h) h
  exact fun {_ _} hs => hrun.2 hs

/-- In every run without a relayed score, every stored session is the replay of
its buffer. -/
theorem session_replays_buffer (borneId : String) (db : Database) (evs : List Event)
    (h : Runs.Along (step borneId) (fun w e => e.Fresh w ∧ NoRelayedScore w e) { db } evs)
    (id : String) (s : Session) (hs : (evs.foldl (step borneId) { db }).sessions id = some s) :
    s.Replays ((evs.foldl (step borneId) { db }).buffers id) :=
  replays_run h hs

/-- A bumper hit and a ball lost. -/
theorem session_replays_buffer_played :
    let w := (gameStart [.session] "s" ++
      [sensorEvent [.session] topicBumperHit "s" 100, sensorEvent [.session] topicBallLost "s" 0]).foldl
        (step "b") {}
    ∃ s, w.sessions "s" = some s ∧ s.score = .int 100 ∧ s.Replays (w.buffers "s") := by
  intro w
  have hscore : (w.sessions "s").map Session.score = some (.int 100) := by decide +kernel
  obtain ⟨s, hs, hscore⟩ := Option.map_eq_some_iff.mp hscore
  exact ⟨s, hs, hscore, session_replays_buffer "b" {} _ (by decide +kernel) "s" s hs⟩

end FlipperBack
