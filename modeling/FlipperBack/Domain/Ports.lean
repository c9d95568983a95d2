import FlipperBack.Infrastructure.GameRepository

/-!
# Ports

The calls a use case can await, one constructor for each method of the ports it
is given, and the messages it can broadcast. A use case is a program over these
calls, so that one text of it is run to completion, interleaved with others or
run with calls that fail.

A broadcaster is the list of hubs it writes to: the session hubs, the borne hubs
or, for MQTT events, both.
-/

namespace FlipperBack

open Effects Python

/-! ## Messages -/

inductive Hub
  | session
  | borne
  deriving DecidableEq, Repr

/-- `CompositeBroadcaster`, with one hub manager or several. -/
abbrev Broadcaster : Type := List Hub

/-- What is broadcast about a session. The last field of a `score:update` is
`bumperId` or `bonusType`, whichever topic it answers. -/
inductive SessionMessage
  | matchState (status : SessionStatus) (sessionId : String)
  | countdownTick (value : ℕ)
  | scoreUpdate (score : PyInt) (combo : Int) (detail : String × Option Json)
  | ballLost (livesRemaining : Int)
  | gameOver (finalScore : PyInt)

/-- What is broadcast to the screens of a borne: its navigation, a physical
input, or an event pushed by the playfield. -/
inductive BorneMessage
  | navState (nav : BorneNavState) (sessionId : Option String)
  | controlNav (button : String)
  | controlFlipper (side action : String)
  | controlPlunger (action : String)
  | relayed (event : Dict)

/-! ## Calls -/

inductive Op
  | sessionCreate (session : Session)
  | sessionGet (sessionId : String)
  | sessionUpdate (session : Session)
  | sessionDelete (sessionId : String)
  | bufferPush (sessionId : String) (event : Dict)
  | bufferReadAll (sessionId : String)
  | bufferClear (sessionId : String)
  | borneGetOrCreate (borneId : String)
  | borneUpdate (borne : Borne)
  | broadcastToSession (broadcaster : Broadcaster) (sessionId : String)
      (message : SessionMessage)
  | broadcastToBorne (borneId : String) (message : BorneMessage)
  | playerGetByPseudo (pseudo : String)
  | gameGetBestSoloScore (playerId : ℕ)
  /-- The session id is no argument of the method: it says in the record of the
  calls which session the rows are those of. -/
  | gamePersistFinishedSession (sessionId : String) (utcnow : DateTime)
      (finished : FinishedSession)
  /-- `asyncio.create_task(countdown.execute(session_id))`. -/
  | createTask (broadcaster : Broadcaster) (sessionId : String)
  | sleep

@[reducible] def Op.Res : Op → Type
  | sessionGet _ => Option Session
  | bufferReadAll _ => List Dict
  | borneGetOrCreate _ => Borne
  | playerGetByPseudo _ => Option Player
  | gameGetBestSoloScore _ => Option Int
  | gamePersistFinishedSession _ _ _ => ℕ × ℕ × ℕ
  | _ => Unit

/-- A call that pushes an event to the buffer of the session. -/
def Op.pushes (id : String) : Op → Bool
  | bufferPush sessionId _ => sessionId == id
  | _ => false

/-- A coroutine of the application. -/
abbrev UseCase (α : Type) : Type := Prog Exc Op.Res α

/-- Await one call. -/
abbrev await (op : Op) : UseCase op.Res := Prog.perform op

/-- The readings of the clock by one request: the first `datetime.now`, the date
of the end of the game, and the date given to events that have none. -/
structure Clock where
  now : DateTime
  finishedAt : DateTime
  utcnow : DateTime
  deriving DecidableEq, Repr, Inhabited

end FlipperBack
