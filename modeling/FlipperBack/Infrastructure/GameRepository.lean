import FlipperBack.Effects.Prog
import FlipperBack.Infrastructure.Database

/-!
# Writing a finished session

`PgGameRepository.persist_finished_session` as a program over SQL statements on
one connection. The event rows are built before the connection is acquired; the
player, the game and the events are written in one transaction, committed when
its body returns and rolled back when it raises. `persist` is the whole method
run against a database, with a plan of the statements that fail.
-/

namespace FlipperBack

open Effects Python

/-! ## Event rows -/

/-- `_TOPIC_TO_EVENT_TYPE`. -/
def topicToEventType : List (String × GameEventType) :=
  [("flipper/bumper/hit", .bumperHit), ("flipper/bonus", .bonus),
    ("flipper/ball/lost", .ballLost), ("flipper/flipper/hit", .flipperHit),
    ("flipper/game/over", .gameOver)]

/-- `ev.get("payload") or {}`, which the loop then uses as a dict. -/
def eventPayload (ev : Dict) : Except PyError Dict :=
  match ev.get "payload" with
  | none => .ok []
  | some payload =>
      if payload.truthy then
        match payload with
        | .obj fields => .ok fields
        | _ => .error .attributeError
      else
        .ok []

/-- Points that cannot be read count for 0; an overflow is not caught. -/
def tolerantPoints (payload : Dict) : Except PyError Int :=
  match ((payload.get "points").getD (.int 0)).toInt with
  | .ok points => .ok points
  | .error .typeError => .ok 0
  | .error .valueError => .ok 0
  | .error e => .error e

/-- The date of an event, or the current one where it has none, without time
zone. -/
def eventDate (utcnow : DateTime) (ev : Dict) : DateTime :=
  match ev.get "occured_at" with
  | some (.str text) => ((fromisoformat text).getD utcnow).naive
  | _ => utcnow.naive

/-- One turn of the loop of `_build_event_rows`; `none` where the topic has no
event type. -/
def buildEventRow (utcnow : DateTime) (ev : Dict) : Except PyError (Option EventRow) :=
  match ev.get "topic" with
  | some (.str topic) =>
      match topicToEventType.lookup topic with
      | none => .ok none
      | some type => do
          let payload ← eventPayload ev
          let points ← tolerantPoints payload
          return some { type, points, occuredAt := eventDate utcnow ev }
  | _ => .ok none

/-- `_build_event_rows`. -/
def buildEventRows (utcnow : DateTime) : List Dict → Except PyError (List EventRow)
  | [] => .ok []
  | ev :: evs => do
      let row ← buildEventRow utcnow ev
      let rows ← buildEventRows utcnow evs
      return row.toList ++ rows

/-! ## Statements on a connection -/

inductive Stmt
  | acquire
  | release
  | start
  | commit
  | rollback
  | selectPlayerId (pseudo : String)
  | insertPlayer (pseudo : String)
  | insertGame (g : NewGame)
  | insertGameEvents (gameId : ℕ) (rows : List EventRow)

@[reducible] def Stmt.Res : Stmt → Type
  | selectPlayerId _ => Option ℕ
  | insertPlayer _ => ℕ
  | insertGame _ => ℕ
  | _ => Unit

/-- The committed database, and what the open transaction has made of it. -/
structure Conn where
  db : Database
  tx : Option Database := none

namespace Conn

/-- What the next statement reads. -/
def current (c : Conn) : Database :=
  c.tx.getD c.db

/-- Where the next statement writes. -/
def write (c : Conn) (db : Database) : Conn :=
  match c.tx with
  | some _ => { c with tx := some db }
  | none => { c with db }

/-- An `INSERT` takes effect where it succeeds. -/
def insert {α : Type} (c : Conn) (r : Except Exc (α × Database)) : Except Exc α × Conn :=
  match r with
  | .ok (a, db) => (.ok a, c.write db)
  | .error e => (.error e, c)

end Conn

/-- What a statement answers and does. -/
def sql : Handler Exc Stmt.Res Conn
  | .acquire, c => (.ok (), c)
  | .release, c => (.ok (), { c with tx := none })
  | .start, c => (.ok (), { c with tx := some c.db })
  | .commit, c => (.ok (), { db := c.current })
  | .rollback, c => (.ok (), { db := c.db.rolledBack c.current })
  | .selectPlayerId pseudo, c => (.ok (c.current.selectPlayerId pseudo), c)
  | .insertPlayer pseudo, c => c.insert (c.current.insertPlayer pseudo)
  | .insertGame g, c => c.insert (c.current.insertGame g)
  | .insertGameEvents gameId rows, c =>
      c.insert ((c.current.insertGameEvents gameId rows).map fun db => ((), db))

/-- A coroutine on a connection. -/
abbrev SqlProg (α : Type) : Type := Prog Exc Stmt.Res α

/-- Await one statement. -/
abbrev query (stmt : Stmt) : SqlProg stmt.Res := Prog.perform stmt

/-- `async with acquire(executor) as conn`: the connection is released whatever
the body does. -/
def withConnection {α : Type} (body : SqlProg α) : SqlProg α := do
  query .acquire
  let r ← body.attempt
  query .release
  Prog.ofExcept r

/-- `async with conn.transaction()`. -/
def transaction {α : Type} (body : SqlProg α) : SqlProg α := do
  query .start
  match ← body.attempt with
  | .ok a =>
      query .commit
      return a
  | .error e =>
      query .rollback
      throw e

/-- `_upsert_player`. -/
def upsertPlayer (pseudo : String) : SqlProg ℕ := do
  match ← query (.selectPlayerId pseudo) with
  | some id => return id
  | none => query (.insertPlayer pseudo)

/-- `_insert_finished_game`. -/
def insertFinishedGame (playerId : ℕ) (mode : GameMode) (score : PyInt)
    (startedAt finishedAt : DateTime) : SqlProg ℕ :=
  query (.insertGame
    { playerId, roomId := none, mode, score := score.val, status := .finished,
      startedAt := startedAt.naive, finishedAt := some finishedAt.naive })

/-- `_insert_event_rows`. -/
def insertEventRows (gameId : ℕ) (rows : List EventRow) : SqlProg ℕ := do
  if rows.isEmpty then
    return 0
  else
    query (.insertGameEvents gameId rows)
    return rows.length

/-- The arguments of `persist_finished_session`. -/
structure FinishedSession where
  pseudo : String
  mode : GameMode
  score : PyInt
  startedAt : DateTime
  finishedAt : DateTime
  events : List Dict

/-- What the transaction of a flush does. -/
def writeFinishedSession (s : FinishedSession) (rows : List EventRow) :
    SqlProg (ℕ × ℕ × ℕ) := do
  let playerId ← upsertPlayer s.pseudo
  let gameId ← insertFinishedGame playerId s.mode s.score s.startedAt s.finishedAt
  let count ← insertEventRows gameId rows
  return (playerId, gameId, count)

/-- `PgGameRepository.persist_finished_session`. -/
def persistFinishedSession (utcnow : DateTime) (s : FinishedSession) :
    SqlProg (ℕ × ℕ × ℕ) := do
  let rows ← Prog.ofExcept (liftPy (buildEventRows utcnow s.events))
  withConnection (transaction (writeFinishedSession s rows))

/-- The whole method on a database, with the statements of the plan `pg`
failing. -/
def persist (pg : List (Option Bool)) (utcnow : DateTime) (s : FinishedSession)
    (db : Database) : Except Exc (ℕ × ℕ × ℕ) × Database :=
  let out := (persistFinishedSession utcnow s).run (Prog.faulty sql .callFailed) (pg, { db })
  (out.1, out.2.2.db)

end FlipperBack
