import FlipperBack.Python.Datetime
import FlipperBack.Python.Number

/-!
# Domain entities

The entities of the domain layer, field by field, with the texts their
enumerations take in Redis and in the database. `Session.score` has the type of
the values Python lets stand for an `int`: the field is assigned without
validation, so a boolean can be stored in it.
-/

namespace FlipperBack

open Python

/-! ## Enumerations -/

inductive GameMode
  | solo
  | oneVOne
  deriving DecidableEq, Repr

inductive GameStatus
  | playing
  | finished
  deriving DecidableEq, Repr

inductive GameEventType
  | gameStarted
  | bumperHit
  | ballLost
  | bonus
  | flipperHit
  | gameOver
  | gameFinished
  deriving DecidableEq, Repr

/-- The life cycle of a session: created and waiting for the ready, counting
down, played, paused, over and waiting for its flush. -/
inductive SessionStatus
  | waiting
  | ready
  | playing
  | paused
  | over
  deriving DecidableEq, Repr

/-- The navigation phase that the three screens of a borne share. -/
inductive BorneNavState
  | splash
  | menu
  | identification
  | boutique
  | settings
  | leaderboard
  | inGame
  | gameOver
  deriving DecidableEq, Repr

namespace GameMode

def value : GameMode → String
  | solo => "solo"
  | oneVOne => "1v1"

/-- `GameMode(text)`, `none` where it raises `ValueError`. -/
def ofValue (text : String) : Option GameMode :=
  [solo, oneVOne].find? fun m => m.value == text

@[simp] theorem ofValue_value (m : GameMode) : ofValue m.value = some m := by
  cases m <;> decide

end GameMode

namespace SessionStatus

def value : SessionStatus → String
  | .waiting => "waiting"
  | .ready => "ready"
  | .playing => "playing"
  | .paused => "paused"
  | .over => "over"

/-- `SessionStatus(text)`, `none` where it raises `ValueError`. -/
def ofValue (text : String) : Option SessionStatus :=
  [.waiting, .ready, .playing, .paused, .over].find? fun s => s.value == text

@[simp] theorem ofValue_value (s : SessionStatus) : ofValue s.value = some s := by
  cases s <;> decide

end SessionStatus

namespace BorneNavState

def value : BorneNavState → String
  | splash => "splash"
  | menu => "menu"
  | identification => "identification"
  | boutique => "boutique"
  | settings => "settings"
  | leaderboard => "leaderboard"
  | inGame => "in_game"
  | gameOver => "game_over"

/-- `BorneNavState(text)`, `none` where it raises `ValueError`. -/
def ofValue (text : String) : Option BorneNavState :=
  [splash, menu, identification, boutique, settings, leaderboard, inGame, gameOver].find?
    fun n => n.value == text

@[simp] theorem ofValue_value (n : BorneNavState) : ofValue n.value = some n := by
  cases n <;> decide

end BorneNavState

/-! ## Entities -/

/-- `DEFAULT_LIVES`. -/
def defaultLives : Int := 3

structure Session where
  sessionId : String
  pseudo : String
  score : PyInt := .int 0
  lives : Int := defaultLives
  combo : Int := 0
  status : SessionStatus := .waiting
  mode : GameMode := .solo
  roomCode : Option String := none
  createdAt : DateTime
  deriving DecidableEq, Repr

structure Borne where
  borneId : String
  nav : BorneNavState := .splash
  activeSessionId : Option String := none
  deriving DecidableEq, Repr

structure Player where
  id : ℕ
  pseudo : String
  deriving DecidableEq, Repr

/-! ## Exceptions -/

/-- Why a pseudo is refused. -/
inductive InvalidPseudo
  | empty
  | badFormat (raw : String)
  deriving DecidableEq, Repr

/-- What a coroutine of the program can raise: a built-in exception, a domain
error, an error of the database driver, or the failure of a call to Redis,
Postgres or the broker. -/
inductive Exc
  | python (e : PyError)
  | sessionNotFound (message : String)
  | playerNotFound (message : String)
  | playerAlreadyExists (message : String)
  | roomNotFound (message : String)
  | gameNotFound (message : String)
  | gameNotPlayable (message : String)
  | gameAlreadyFinished (message : String)
  | invalidPseudo (reason : InvalidPseudo)
  | uniqueViolation
  | foreignKeyViolation
  | dataError
  | callFailed
  deriving DecidableEq, Repr

/-- A conversion of the standard library inside the program. -/
def liftPy {α : Type} : Except PyError α → Except Exc α
  | .ok a => .ok a
  | .error e => .error (.python e)

@[simp] theorem liftPy_ok {α : Type} (a : α) : liftPy (.ok a) = .ok a := rfl

@[simp] theorem liftPy_error {α : Type} (e : PyError) :
    liftPy (.error e : Except PyError α) = .error (.python e) := rfl

theorem liftPy_eq_ok {α : Type} {x : Except PyError α} {a : α} :
    liftPy x = .ok a ↔ x = .ok a := by
  cases x <;> simp [liftPy]

end FlipperBack
