import FlipperBack.Domain.Ports
import FlipperBack.Domain.Pseudo

/-!
# Use cases of a session

Creation, ready, countdown, pause, resume and abandon. The last four read the
session, leave it alone where its status does not allow the switch, and
otherwise write it back with the new status and broadcast it; they are one
program, `switchStatus`, with their own guard, target and follow-up. `readyUp`
has no guard on the status and raises on an unknown session, so it has a program
of its own.
-/

namespace FlipperBack

open Effects Python

/-- `CreateSessionUseCase.execute`, with the id drawn by `uuid4` and the date. -/
def createSession (uuid : String) (now : DateTime) (pseudo : String) (mode : GameMode)
    (roomCode : Option String) : UseCase Session := do
  let pseudo ← Prog.ofExcept (normalizeAndValidate pseudo)
  let session : Session :=
    { sessionId := uuid, pseudo, score := .int 0, status := .waiting, mode, roomCode,
      createdAt := now }
  await (.sessionCreate session)
  return session

/-- Launch the countdown passed as a callback, if there is one. -/
def launch (startCountdown : Option Broadcaster) (sessionId : String) : UseCase Unit :=
  match startCountdown with
  | some broadcaster => await (.createTask broadcaster sessionId)
  | none => return

/-- `ReadyUpUseCase.execute`. -/
def readyUp (broadcaster : Broadcaster) (onReady : Option Broadcaster) (sessionId : String) :
    UseCase Session := do
  match ← await (.sessionGet sessionId) with
  | none => throw (.sessionNotFound s!"Session {sessionId} not found")
  | some session =>
      let session := { session with status := .ready }
      await (.sessionUpdate session)
      await (.broadcastToSession broadcaster sessionId (.matchState session.status sessionId))
      launch onReady sessionId
      return session

/-- Switch the status of a session to `target` where `allowed` accepts the
current one, broadcast it and go on with `after`. -/
def switchStatus (allowed : SessionStatus → Bool) (target : SessionStatus)
    (after : UseCase Unit) (broadcaster : Broadcaster) (sessionId : String) :
    UseCase Unit := do
  match ← await (.sessionGet sessionId) with
  | none => return
  | some session =>
      if allowed session.status then
        let session := { session with status := target }
        await (.sessionUpdate session)
        await (.broadcastToSession broadcaster sessionId (.matchState session.status sessionId))
        after
      else
        return

/-- `PauseSessionUseCase.execute`. -/
def pauseSession (broadcaster : Broadcaster) (sessionId : String) : UseCase Unit :=
  switchStatus (· == .playing) .paused (return) broadcaster sessionId

/-- `ResumeSessionUseCase.execute`. -/
def resumeSession (broadcaster : Broadcaster) (startCountdown : Option Broadcaster)
    (sessionId : String) : UseCase Unit :=
  switchStatus (· == .paused) .ready (launch startCountdown sessionId) broadcaster sessionId

/-- `_TERMINATABLE_STATES`. -/
def terminatableStates : List SessionStatus := [.playing, .paused]

/-- `AbandonSessionUseCase.execute`. -/
def abandonSession (broadcaster : Broadcaster) (sessionId : String) : UseCase Unit :=
  switchStatus (terminatableStates.contains ·) .over (return) broadcaster sessionId

/-- What `StartCountdownUseCase.execute` does after its last tick. -/
def finishCountdown (broadcaster : Broadcaster) (sessionId : String) : UseCase Unit :=
  switchStatus (· == .ready) .playing (return) broadcaster sessionId

/-- The loop of `StartCountdownUseCase.execute` over the values still to come. -/
def countdownFrom (broadcaster : Broadcaster) (sessionId : String) : List ℕ → UseCase Unit
  | [] => finishCountdown broadcaster sessionId
  | value :: values => do
      await (.broadcastToSession broadcaster sessionId (.countdownTick value))
      await .sleep
      countdownFrom broadcaster sessionId values

end FlipperBack
