import FlipperBack.Domain.Ports

/-!
# The flush of a finished session

`finishAndPersist` writes the session and its event buffer to the database and
then deletes both. In solo mode it also compares the score with the best one
the player had before.
-/

namespace FlipperBack

open Effects Python

structure FinishAndPersistResult where
  playerId : ℕ
  gameId : ℕ
  finalScore : PyInt
  eventCount : ℕ
  improved : Option Bool
  previousBest : Option Int

/-- `_previous_best_for`. -/
def previousBestFor (pseudo : String) (mode : GameMode) : UseCase (Option Int) := do
  if mode = .solo then
    match ← await (.playerGetByPseudo pseudo) with
    | none => return none
    | some player => await (.gameGetBestSoloScore player.id)
  else
    return none

/-- The calls of the lookup of the best score so far. -/
def Op.isLookup : Op → Bool
  | playerGetByPseudo _ => true
  | gameGetBestSoloScore _ => true
  | _ => false

theorem previousBestFor_isLookup (pseudo : String) (mode : GameMode) :
    (previousBestFor pseudo mode).All fun op => op.isLookup = true := by
  unfold previousBestFor
  split
  · refine Prog.All.bind ((Prog.all_perform _ _).mpr rfl) fun player => ?_
    cases player with
    | none => trivial
    | some player => exact (Prog.all_perform _ _).mpr rfl
  · trivial

/-- `_compute_improved`. -/
def computeImproved (mode : GameMode) (newScore : PyInt) (previousBest : Option Int) :
    Option Bool :=
  if mode = .solo then
    match previousBest with
    | none => some true
    | some best => some (best < newScore.val)
  else
    none

/-- What a session and its events are persisted as. -/
def Session.finished (session : Session) (clock : Clock) (events : List Dict) :
    FinishedSession :=
  { pseudo := session.pseudo, mode := session.mode, score := session.score,
    startedAt := session.createdAt, finishedAt := clock.finishedAt, events }

/-- `FinishAndPersistUseCase.execute`. -/
def finishAndPersist (clock : Clock) (sessionId : String) : UseCase FinishAndPersistResult := do
  match ← await (.sessionGet sessionId) with
  | none => throw (.sessionNotFound s!"Session {sessionId} not found")
  | some session =>
      let events ← await (.bufferReadAll sessionId)
      let previousBest ← previousBestFor session.pseudo session.mode
      let (playerId, gameId, eventCount) ←
        await (.gamePersistFinishedSession sessionId clock.utcnow (session.finished clock events))
      let improved := computeImproved session.mode session.score previousBest
      await (.bufferClear sessionId)
      await (.sessionDelete sessionId)
      return { playerId, gameId, finalScore := session.score, eventCount, improved, previousBest }

end FlipperBack
