import FlipperBack.Infrastructure.Postgres

/-!
# The repositories on Postgres

The calls of the repositories, one statement each, and the unit of work that
runs several of them in one transaction. A repository on the pool makes every
call on a connection of its own, where it commits by itself; each execution has
one connection here, which is in a transaction only inside a unit of work or
inside `persist_finished_session`.
-/

namespace FlipperBack

open Effects Python

/-! ## The calls -/

/-- What `StartGameUseCase.execute` returns. -/
structure Started where
  player : Player
  room : RoomRow
  game : GameRow
  event : GameEventRow
  deriving DecidableEq, Repr

/-- How an execution ended. -/
inductive Response
  | player (r : Except Exc Player)
  | started (r : Except Exc Started)
  | added (r : Except Exc (GameRow × GameEventRow))
  | finished (r : Except Exc (GameRow × GameEventRow))
  | persisted (r : Except Exc (ℕ × ℕ × ℕ))
  deriving DecidableEq

inductive PgCall
  /-- A statement of `persist_finished_session`, or one it shares. -/
  | stmt (s : Stmt)
  | selectPlayer (pseudo : String)
  | selectRoom (code : String)
  | insertRoom (code : String) (mode : GameMode) (status : RoomStatus)
  | selectGame (gameId : ℤ)
  | insertGame (playerId : ℕ) (roomId : Option ℕ) (mode : GameMode) (score : ℤ)
      (status : GameStatus)
  | insertGameEvent (gameId : ℤ) (type : GameEventType) (points : ℤ)
  | addPoints (gameId points : ℤ)
  | finishGame (gameId : ℤ)
  /-- The execution ends. -/
  | respond (response : Response)

@[reducible] def PgCall.Res : PgCall → Type
  | stmt s => s.Res
  | selectPlayer _ => Option Player
  | selectRoom _ => Option RoomRow
  | insertRoom _ _ _ => RoomRow
  | selectGame _ => Option GameRow
  | insertGame _ _ _ _ _ => GameRow
  | insertGameEvent _ _ _ => GameEventRow
  | addPoints _ _ => GameRow
  | finishGame _ => GameRow
  | respond _ => Unit

/-- The database and the responses given so far, each with the connection of its
execution. -/
structure Server where
  pg : Postgres
  responses : List (ℕ × Response) := []

namespace Server

/-- A statement that writes takes effect where it succeeds. -/
def write {α : Type} (v : Server) (r : Except Exc (α × Postgres)) : Except Exc α × Server :=
  match r with
  | .ok (a, pg) => (.ok a, { v with pg })
  | .error e => (.error e, v)

/-- What holds of the database holds after a statement where it does whenever the
statement succeeds. -/
theorem write_pg {α : Type} {P : Postgres → Prop} {v : Server} (h : P v.pg)
    {r : Except Exc (α × Postgres)} (hr : ∀ a s, r = .ok (a, s) → P s) : P (v.write r).2.pg := by
  rcases r with e | ⟨a, s⟩
  · exact h
  · exact hr a s rfl

end Server

theorem exists_of_map_ok {ε α β : Type} {x : Except ε α} {f : α → β} {b : β}
    (h : x.map f = .ok b) : ∃ a, x = .ok a ∧ f a = b := by
  cases x with
  | error e => cases h
  | ok a => exact ⟨a, rfl, Except.ok.inj h⟩

/-- `row_to_player`. -/
def PlayerRow.toPlayer (p : PlayerRow) : Player :=
  { id := p.id, pseudo := p.pseudo }

/-- What each call of the connection `c` answers and does. -/
def serve (c : ℕ) : Handler Exc PgCall.Res Server
  | .stmt .acquire, v => (.ok (), v)
  | .stmt .release, v => (.ok (), { v with pg := v.pg.rollback c })
  | .stmt .start, v => (.ok (), { v with pg := v.pg.start c })
  | .stmt .commit, v => (.ok (), { v with pg := v.pg.commit c })
  | .stmt .rollback, v => (.ok (), { v with pg := v.pg.rollback c })
  | .stmt (.selectPlayerId pseudo), v => ((v.pg.selectPlayer c pseudo).map (·.map PlayerRow.id), v)
  | .stmt (.insertPlayer pseudo), v => v.write (v.pg.insertPlayer c pseudo)
  | .stmt (.insertGame g), v => v.write ((v.pg.insertGame c g).map fun r => (r.1.id, r.2))
  | .stmt (.insertGameEvents gameId rows), v =>
      v.write ((v.pg.insertGameEvents c gameId rows).map fun pg => ((), pg))
  | .selectPlayer pseudo, v => ((v.pg.selectPlayer c pseudo).map (·.map PlayerRow.toPlayer), v)
  | .selectRoom code, v => (v.pg.selectRoom c code, v)
  | .insertRoom code mode status, v => v.write (v.pg.insertRoom c code mode status)
  | .selectGame gameId, v => (v.pg.selectGame c gameId, v)
  | .insertGame playerId roomId mode score status, v =>
      v.write (v.pg.tick.insertGame c
        { playerId, roomId, mode, score, status, startedAt := v.pg.now, finishedAt := none })
  | .insertGameEvent gameId type points, v =>
      v.write (v.pg.tick.insertGameEvent c gameId { type, points, occuredAt := v.pg.now })
  | .addPoints gameId points, v => v.write (v.pg.addPoints gameId points)
  | .finishGame gameId, v => v.write (v.pg.tick.finishGame gameId v.pg.now)
  | .respond response, v => (.ok (), { v with responses := v.responses ++ [(c, response)] })

/-- Whether a call of the connection `c` waits for the end of the transaction of
another one, which has inserted the same value in a unique column. -/
def waits (c : ℕ) (call : PgCall) (v : Server) : Bool :=
  match call with
  | .stmt (.insertPlayer pseudo) =>
      v.pg.players.rows.any fun x => x.2.pseudo = varchar 50 pseudo ∧ x.1 ≠ none ∧ x.1 ≠ some c
  | .insertRoom code _ _ =>
      v.pg.rooms.rows.any fun x => x.2.code = code ∧ x.1 ≠ none ∧ x.1 ≠ some c
  | _ => false

/-- A coroutine on the database. -/
abbrev PgProg (α : Type) : Type := Prog Exc PgCall.Res α

/-- Await one call. -/
abbrev pg (call : PgCall) : PgProg call.Res := Prog.perform call

/-! ## The repositories -/

namespace PgPlayerRepository

/-- `PgPlayerRepository.create`, which returns the pseudo as it is stored. -/
def create (pseudo : String) : PgProg Player :=
  tryCatch (do
    let id ← pg (.stmt (.insertPlayer pseudo))
    return { id, pseudo := varchar 50 pseudo }) fun e =>
      match e with
      | .uniqueViolation =>
          throw (.playerAlreadyExists s!"Le pseudo '{pseudo}' est déjà utilisé")
      | e => throw e

/-- `PgPlayerRepository.get_by_pseudo`. -/
def getByPseudo (pseudo : String) : PgProg (Option Player) :=
  pg (.selectPlayer pseudo)

end PgPlayerRepository

namespace PgRoomRepository

/-- `PgRoomRepository.create`, with the digits of its `uuid4`. -/
def create (hex : String) (mode : GameMode) : PgProg RoomRow :=
  pg (.insertRoom (upper (String.ofList (hex.toList.take 6))) mode .waiting)

/-- `PgRoomRepository.get_by_code`. -/
def getByCode (code : String) : PgProg (Option RoomRow) :=
  pg (.selectRoom code)

end PgRoomRepository

namespace PgGameRepository

/-- `PgGameRepository.create`. -/
def create (playerId : ℕ) (roomId : Option ℕ) (mode : GameMode) : PgProg GameRow :=
  pg (.insertGame playerId roomId mode 0 .playing)

/-- `PgGameRepository.get_by_id`. -/
def getById (gameId : ℤ) : PgProg (Option GameRow) :=
  pg (.selectGame gameId)

/-- `PgGameRepository.add_points`. -/
def addPoints (gameId points : ℤ) : PgProg GameRow :=
  pg (.addPoints gameId points)

/-- `PgGameRepository.finish`. -/
def finish (gameId : ℤ) : PgProg GameRow :=
  pg (.finishGame gameId)

end PgGameRepository

namespace PgGameEventRepository

/-- `PgGameEventRepository.create`. -/
def create (gameId : ℤ) (type : GameEventType) (points : ℤ) : PgProg GameEventRow :=
  pg (.insertGameEvent gameId type points)

end PgGameEventRepository

/-- `async with PgUnitOfWork(pool)`: commit where the body returns, roll back
where it raises, and release the connection either way. -/
def unitOfWork {α : Type} (body : PgProg α) : PgProg α := do
  pg (.stmt .acquire)
  pg (.stmt .start)
  let r ← body.attempt
  let ended ← Prog.attempt <| match r with
    | .ok _ => pg (.stmt .commit)
    | .error _ => pg (.stmt .rollback)
  pg (.stmt .release)
  match ended with
  | .ok _ => Prog.ofExcept r
  | .error e => throw e

end FlipperBack
