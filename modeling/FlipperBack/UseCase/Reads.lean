import FlipperBack.UseCase.History

/-!
# Use cases that read

The listings, the states of rooms and games, and the players of the REST flow. Each
query is a statement on a connection of its own, outside transactions: it reads
the rows that are committed at that moment. Between two queries of one use case
other executions go on. A query without a total order returns its rows in one that
SQL leaves open (`RowOrder`).
-/

namespace FlipperBack

open Effects Python Query

/-- The order of the rows of a query that leaves it open. -/
structure RowOrder where
  rows : {ρ : Type} → List ρ → List ρ
  perm : ∀ {ρ : Type} (xs : List ρ), (rows xs).Perm xs

/-- What the database has beside the rows of `Postgres`: the order of the rows,
and the column `created_at` of `rooms`, by key. -/
structure RestTables where
  order : RowOrder
  createdAt : ℕ → DateTime

namespace GameStatus

def value : GameStatus → String
  | playing => "playing"
  | finished => "finished"

/-- The statuses in the order of the enumeration. -/
def all : List GameStatus := [playing, finished]

/-- `GameStatus(text)`, `none` where it raises `ValueError`. -/
def ofValue (text : String) : Option GameStatus :=
  all.find? fun s => s.value == text

end GameStatus

namespace RoomStatus

def value : RoomStatus → String
  | waiting => "waiting"
  | playing => "playing"
  | finished => "finished"

/-- The statuses in the order of the enumeration. -/
def all : List RoomStatus := [waiting, playing, finished]

/-- `RoomStatus(text)`, `none` where it raises `ValueError`. -/
def ofValue (text : String) : Option RoomStatus :=
  all.find? fun s => s.value == text

end RoomStatus

/-! ## The queries -/

/-- `ORDER BY occured_at DESC, id DESC`. -/
def occuredAfter (e e' : GameEventRow) : Bool :=
  timestamp e'.occuredAt < timestamp e.occuredAt ||
    (timestamp e.occuredAt = timestamp e'.occuredAt && e'.id ≤ e.id)

namespace Postgres

variable (tables : RestTables) (s : Postgres)

/-- `SELECT id, pseudo FROM players WHERE id = $1`. -/
def selectPlayerById (id : ℤ) : Except Exc (Option Player) :=
  if !fitsInteger id then .error .dataError
  else .ok ((s.players.committed.find? fun p => (p.id : ℤ) = id).map PlayerRow.toPlayer)

/-- `SELECT ... FROM games WHERE room_id = $1 AND status = 'playing'`. -/
def activeGames (roomId : ℕ) : List GameRow :=
  tables.order.rows (s.games.committed.filter fun g => g.roomId = some roomId ∧ g.status = .playing)

/-- `SELECT ... FROM games WHERE status = $1 ORDER BY started_at DESC`. -/
def gamesOf (status : GameStatus) : List GameRow :=
  (tables.order.rows (s.games.committed.filter fun g => g.status = status)).mergeSort
    fun g g' => !(timestamp g.startedAt < timestamp g'.startedAt : Bool)

/-- `SELECT ... FROM rooms WHERE status = $1 ORDER BY created_at DESC`. -/
def roomsOf (status : RoomStatus) : List RoomRow :=
  (tables.order.rows (s.rooms.committed.filter fun r => r.status = status)).mergeSort
    fun r r' => !(timestamp (tables.createdAt r.id) < timestamp (tables.createdAt r'.id) : Bool)

/-- `SELECT ... FROM game_events WHERE game_id = $1 ORDER BY occured_at DESC, id DESC
LIMIT $2`. -/
def lastEvents (gameId : ℤ) (limit : ℕ) : Except Exc (List GameEventRow) :=
  if !fitsInteger gameId then .error .dataError
  else .ok (top occuredAfter limit (s.eventsOf gameId))

end Postgres

/-! ## The calls -/

/-- What an execution that reads returns. -/
inductive View
  | created (r : Except Exc RoomRow)
  | rooms (r : Except Exc (List RoomRow))
  | games (r : Except Exc (List GameRow))
  | joined (r : Except Exc (RoomRow × List GameRow))
  | roomState (r : Except Exc (RoomRow × List (GameRow × List GameEventRow)))
  | gameState (r : Except Exc (GameRow × List GameEventRow))
  | player (r : Except Exc Player)
  | history (r : Except Exc (Player × List PlayerHistoryItem))
  | leaderboard (r : Except Exc (List LeaderboardEntry))
  deriving DecidableEq

inductive RestOp
  | pg (call : PgCall)
  | selectPlayerById (id : ℤ)
  | selectActiveGames (roomId : ℕ)
  | selectGames (status : GameStatus)
  | selectRooms (status : RoomStatus)
  | selectEvents (gameId : ℤ) (limit : ℕ)
  | selectFinishedGames (playerId : ℤ) (mode : Option GameMode) (limit : ℕ)
  | selectBestSoloScore (playerId : ℕ)
  | selectLeaderboard (mode : Option GameMode) (limit : ℕ)
  /-- The execution ends. -/
  | view (view : View)

@[reducible] def RestOp.Res : RestOp → Type
  | pg call => call.Res
  | selectPlayerById _ => Option Player
  | selectActiveGames _ => List GameRow
  | selectGames _ => List GameRow
  | selectRooms _ => List RoomRow
  | selectEvents _ _ => List GameEventRow
  | selectFinishedGames _ _ _ => List GameRow
  | selectBestSoloScore _ => Option ℤ
  | selectLeaderboard _ _ => List LeaderboardEntry
  | view _ => Unit

/-- The server, what the executions that read have returned, and the executions that
have a connection of the pool. -/
structure Rest where
  server : Server
  views : List (ℕ × View) := []
  holders : List ℕ := []

/-- The executions that have a connection after a call of `c`, which can be to acquire or to
release its own. -/
def PgCall.holders (c : ℕ) (held : List ℕ) : PgCall → List ℕ
  | stmt .acquire => c :: held
  | stmt .release => held.erase c
  | _ => held

/-- What each call of the connection `c` answers and does. -/
def serveRest (tables : RestTables) (c : ℕ) : Handler Exc RestOp.Res Rest
  | .pg call, v =>
      ((serve c call v.server).1,
        { v with server := (serve c call v.server).2, holders := call.holders c v.holders })
  | .selectPlayerById id, v => (v.server.pg.selectPlayerById id, v)
  | .selectActiveGames roomId, v => (.ok (v.server.pg.activeGames tables roomId), v)
  | .selectGames status, v => (.ok (v.server.pg.gamesOf tables status), v)
  | .selectRooms status, v => (.ok (v.server.pg.roomsOf tables status), v)
  | .selectEvents gameId limit, v => (v.server.pg.lastEvents gameId limit, v)
  | .selectFinishedGames playerId mode limit, v =>
      (.ok (v.server.pg.database.finishedGamesByPlayer playerId mode limit), v)
  | .selectBestSoloScore playerId, v => (.ok (v.server.pg.database.bestSoloScore playerId), v)
  | .selectLeaderboard mode limit, v => (.ok (v.server.pg.database.leaderboard mode limit), v)
  | .view view, v => (.ok (), { v with views := v.views ++ [(c, view)] })

/-- A coroutine of the REST flow. -/
abbrev RestProg (α : Type) : Type := Prog Exc RestOp.Res α

/-- Await one call. -/
abbrev rest (op : RestOp) : RestProg op.Res := Prog.perform op

/-- A coroutine that only makes calls of the repositories that write. -/
abbrev onPg {α : Type} (p : PgProg α) : RestProg α := p.embed .pg fun _ r => r

/-! ## The use cases -/

/-- `CreateRoomUseCase.execute`, with the digits of the `uuid4` of the room. -/
def CreateRoom.execute (hex : String) (mode : GameMode) : RestProg RoomRow :=
  onPg (PgRoomRepository.create hex mode)

/-- The rooms of one status after those of the others. -/
def roomsOfEach : List RoomStatus → RestProg (List RoomRow)
  | [] => return []
  | status :: statuses => do
      let rooms ← rest (.selectRooms status)
      let others ← roomsOfEach statuses
      return rooms ++ others

/-- `ListRoomsUseCase.execute`, of the status in lower case. -/
def ListRooms.execute (status : Option String) : RestProg (List RoomRow) :=
  let text := status.getD ""
  if text = "" then roomsOfEach RoomStatus.all
  else
    match RoomStatus.ofValue text with
    | some status => rest (.selectRooms status)
    | none => throw (.python .valueError)

/-- The games of one status after those of the others. -/
def gamesOfEach : List GameStatus → RestProg (List GameRow)
  | [] => return []
  | status :: statuses => do
      let games ← rest (.selectGames status)
      let others ← gamesOfEach statuses
      return games ++ others

/-- `ListGamesUseCase.execute`, of the status in lower case. -/
def ListGames.execute (status : Option String) : RestProg (List GameRow) :=
  let text := status.getD ""
  if text = "" then gamesOfEach GameStatus.all
  else
    match GameStatus.ofValue text with
    | some status => rest (.selectGames status)
    | none => throw (.python .valueError)

/-- `JoinRoomUseCase.execute`. -/
def JoinRoom.execute (roomCode : String) : RestProg (RoomRow × List GameRow) := do
  match ← onPg (PgRoomRepository.getByCode roomCode) with
  | none => throw (.roomNotFound s!"Room {roomCode} not found")
  | some room => do
      let games ← rest (.selectActiveGames room.id)
      return (room, games)

/-- The last events of each of the games. -/
def eventsOfEach (limit : ℕ) : List GameRow → RestProg (List (GameRow × List GameEventRow))
  | [] => return []
  | game :: games => do
      let events ← rest (.selectEvents game.id limit)
      let others ← eventsOfEach limit games
      return (game, events) :: others

/-- `GetRoomStateUseCase.execute`. -/
def GetRoomState.execute (roomCode : String) (eventsLimit : ℕ) :
    RestProg (RoomRow × List (GameRow × List GameEventRow)) := do
  match ← onPg (PgRoomRepository.getByCode roomCode) with
  | none => throw (.roomNotFound s!"Room avec code '{roomCode}' n'existe pas")
  | some room => do
      let games ← rest (.selectActiveGames room.id)
      let gamesWithEvents ← eventsOfEach eventsLimit games
      return (room, gamesWithEvents)

/-- `GetGameStateUseCase.execute`. -/
def GetGameState.execute (gameId : ℤ) (eventsLimit : ℕ) :
    RestProg (GameRow × List GameEventRow) := do
  match ← onPg (PgGameRepository.getById gameId) with
  | none => throw (.gameNotFound s!"Game avec ID '{gameId}' n'existe pas")
  | some game => do
      let events ← rest (.selectEvents gameId eventsLimit)
      return (game, events)

namespace GetPlayer

/-- `GetPlayerUseCase.execute_by_id`. -/
def executeById (playerId : ℤ) : RestProg Player := do
  match ← rest (.selectPlayerById playerId) with
  | none => throw (.playerNotFound s!"Player with id {playerId} not found")
  | some player => return player

/-- `GetPlayerUseCase.execute_by_pseudo`; a normal pseudo has no character that its
`repr` escapes. -/
def executeByPseudo (rawPseudo : String) : RestProg Player := do
  let pseudo ← Prog.ofExcept (normalizeAndValidate rawPseudo)
  match ← onPg (PgPlayerRepository.getByPseudo pseudo) with
  | none => throw (.playerNotFound s!"Player '{pseudo}' not found")
  | some player => return player

end GetPlayer

/-- `GetPlayerHistoryUseCase.execute`, one query after the other. -/
def GetPlayerHistory.executeOnPool (playerId : ℤ) (mode : Option GameMode) (limit : ℕ) :
    RestProg (Player × List PlayerHistoryItem) := do
  match ← rest (.selectPlayerById playerId) with
  | none => throw (.playerNotFound s!"Player with id {playerId} not found")
  | some player => do
      let games ← rest (.selectFinishedGames playerId mode limit)
      let bestSoloScore ← rest (.selectBestSoloScore player.id)
      return (player, games.map (flag · bestSoloScore))

/-- `GetLeaderboardUseCase.execute`. -/
def GetLeaderboard.execute (mode : Option GameMode) (limit : ℕ) : RestProg (List LeaderboardEntry) :=
  rest (.selectLeaderboard mode limit)

end FlipperBack
