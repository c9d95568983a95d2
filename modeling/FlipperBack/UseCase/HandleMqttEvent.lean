import FlipperBack.Domain.Ports

/-!
# MQTT events

An event of the hardware is applied to the session it names while that session
is played, then kept in the buffer of the session and broadcast. `applyEvent` is
`HandleMqttEventUseCase._apply`: the message to broadcast and the session it
leaves, nothing for an unknown topic, an exception where the points cannot be
read.
-/

namespace FlipperBack

open Effects Python

structure MqttEvent where
  topic : String
  payload : Dict

def topicBumperHit : String := "flipper/bumper/hit"
def topicBonus : String := "flipper/bonus"
def topicBallLost : String := "flipper/ball/lost"
def topicGameOver : String := "flipper/game/over"

/-- `int(payload.get("points", 0))`. -/
def eventPoints (payload : Dict) : Except PyError Int :=
  ((payload.get "points").getD (.int 0)).toInt

/-- `HandleMqttEventUseCase._apply`. -/
def applyEvent (event : MqttEvent) (session : Session) :
    Except PyError (Option (SessionMessage × Session)) :=
  if event.topic = topicBumperHit then do
    let points ← eventPoints event.payload
    let session :=
      { session with score := session.score.add points, combo := session.combo + 1 }
    return some (.scoreUpdate session.score session.combo
      ("bumperId", event.payload.get "bumperId"), session)
  else if event.topic = topicBonus then do
    let points ← eventPoints event.payload
    let session := { session with score := session.score.add points }
    return some (.scoreUpdate session.score session.combo
      ("bonusType", event.payload.get "type"), session)
  else if event.topic = topicBallLost then
    let session := { session with lives := max 0 (session.lives - 1), combo := 0 }
    return some (.ballLost session.lives, session)
  else if event.topic = topicGameOver then
    let session := { session with status := .over }
    return some (.gameOver session.score, session)
  else
    return none

/-- What each topic does to the session: the first two add points, the others
do not look at them. -/
theorem applyEvent_cases {e : MqttEvent} {s s' : Session} {message : SessionMessage}
    (h : applyEvent e s = .ok (some (message, s'))) :
    (e.topic = topicBumperHit ∧ ∃ points, eventPoints e.payload = .ok points ∧
        s' = { s with score := s.score.add points, combo := s.combo + 1 } ∧
        message = .scoreUpdate s'.score s'.combo ("bumperId", e.payload.get "bumperId")) ∨
      (e.topic = topicBonus ∧ ∃ points, eventPoints e.payload = .ok points ∧
        s' = { s with score := s.score.add points } ∧
        message = .scoreUpdate s'.score s'.combo ("bonusType", e.payload.get "type")) ∨
      (e.topic = topicBallLost ∧ s' = { s with lives := max 0 (s.lives - 1), combo := 0 } ∧
        message = .ballLost s'.lives) ∨
      (e.topic = topicGameOver ∧ s' = { s with status := .over } ∧
        message = .gameOver s'.score) := by
  unfold applyEvent at h
  split at h
  · next htopic =>
      cases hpoints : eventPoints e.payload with
      | error err =>
          rw [hpoints] at h
          cases h
      | ok points =>
          rw [hpoints] at h
          obtain ⟨rfl, rfl⟩ := Prod.mk.inj (Option.some.inj (Except.ok.inj h))
          exact Or.inl ⟨htopic, points, rfl, rfl, rfl⟩
  · split at h
    · next htopic =>
        cases hpoints : eventPoints e.payload with
        | error err =>
            rw [hpoints] at h
            cases h
        | ok points =>
            rw [hpoints] at h
            obtain ⟨rfl, rfl⟩ := Prod.mk.inj (Option.some.inj (Except.ok.inj h))
            exact Or.inr (Or.inl ⟨htopic, points, rfl, rfl, rfl⟩)
    · split at h
      · next htopic =>
          obtain ⟨rfl, rfl⟩ := Prod.mk.inj (Option.some.inj (Except.ok.inj h))
          exact Or.inr (Or.inr (Or.inl ⟨htopic, rfl, rfl⟩))
      · split at h
        · next htopic =>
            obtain ⟨rfl, rfl⟩ := Prod.mk.inj (Option.some.inj (Except.ok.inj h))
            exact Or.inr (Or.inr (Or.inr ⟨htopic, rfl, rfl⟩))
        · cases h

theorem applyEvent_gameOver {e : MqttEvent} {s s' : Session} {message : SessionMessage}
    (h : applyEvent e s = .ok (some (message, s'))) (htopic : e.topic = topicGameOver) :
    s'.status = .over := by
  have hne : topicGameOver ≠ topicBumperHit ∧ topicGameOver ≠ topicBonus ∧
      topicGameOver ≠ topicBallLost := by decide
  rcases applyEvent_cases h with ⟨heq, -⟩ | ⟨heq, -⟩ | ⟨heq, -⟩ | ⟨-, rfl, -⟩
  · exact absurd (htopic.symm.trans heq) hne.1
  · exact absurd (htopic.symm.trans heq) hne.2.1
  · exact absurd (htopic.symm.trans heq) hne.2.2
  · rfl

theorem applyEvent_sessionId {e : MqttEvent} {s s' : Session} {message : SessionMessage}
    (h : applyEvent e s = .ok (some (message, s'))) : s'.sessionId = s.sessionId := by
  rcases applyEvent_cases h with
    ⟨-, points, -, rfl, -⟩ | ⟨-, points, -, rfl, -⟩ | ⟨-, rfl, -⟩ | ⟨-, rfl, -⟩ <;> rfl

/-- The session an event names: a string that is not empty. -/
def MqttEvent.sessionId? (event : MqttEvent) : Option String :=
  match event.payload.get "sessionId" with
  | some (.str sessionId) => if sessionId = "" then none else some sessionId
  | _ => none

/-- What is pushed to the buffer for an event received at `now`. -/
def bufferedEvent (event : MqttEvent) (now : DateTime) : Dict :=
  [("topic", .str event.topic), ("payload", .obj event.payload),
    ("occured_at", .str (isoformat now))]

/-- `HandleMqttEventUseCase.execute`. -/
def handleMqttEvent (broadcaster : Broadcaster)
    (onGameOver : Option (String → UseCase Unit)) (now : DateTime) (event : MqttEvent) :
    UseCase Unit := do
  match event.sessionId? with
  | none => return
  | some sessionId =>
      match ← await (.sessionGet sessionId) with
      | none => return
      | some session =>
          if session.status = .playing then
            match ← Prog.ofExcept (liftPy (applyEvent event session)) with
            | none => return
            | some (message, session) =>
                await (.sessionUpdate session)
                await (.bufferPush sessionId (bufferedEvent event now))
                await (.broadcastToSession broadcaster sessionId message)
                if event.topic = topicGameOver then
                  await (.broadcastToSession broadcaster sessionId
                    (.matchState session.status sessionId))
                  match onGameOver with
                  | some callback => callback sessionId
                  | none => return
                else
                  return
          else
            return

end FlipperBack
