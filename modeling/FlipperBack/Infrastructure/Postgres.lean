import FlipperBack.Effects.TxTable
import FlipperBack.Infrastructure.GameRepository

/-!
# The database under transactions

`Postgres` is the database that many connections use at once: the four tables,
each row committed or of the transaction that inserted it, and the connections
that are in a transaction. The constraints of the schema are fields. A unique
index counts the rows of open transactions: an `INSERT` of a value that another
transaction has inserted waits for its end (`waits`), one of a value that is
committed raises. Games are updated outside transactions only. `serve` is what
each statement of a connection answers and does.
-/

namespace FlipperBack

open Effects Python

inductive RoomStatus
  | waiting
  | playing
  | finished
  deriving DecidableEq, Repr

structure RoomRow where
  id : ℕ
  code : String
  mode : GameMode
  status : RoomStatus
  deriving DecidableEq, Repr

/-- Whether a text can be the value of a parameter. -/
def fitsText (text : String) : Bool :=
  text.toList.all (· ≠ '\x00')

/-- Whether a text is a value of a `VARCHAR(n)` column. -/
def isVarchar (n : ℕ) (text : String) : Bool :=
  fitsText text && text.toList.length ≤ n

/-- Whether a text can be inserted in a `VARCHAR(n)` column: what it has beyond `n`
characters must be spaces. -/
def fitsVarchar (n : ℕ) (text : String) : Bool :=
  fitsText text && (text.toList.drop n).all (· = ' ')

/-- What is stored in a `VARCHAR(n)` column of a text that fits: the spaces in excess
are cut. -/
def varchar (n : ℕ) (text : String) : String :=
  String.ofList (text.toList.take n)

/-- A text is stored as it is where it has no more characters than the column. -/
theorem varchar_eq_iff {n : ℕ} {text : String} :
    varchar n text = text ↔ text.toList.length ≤ n := by
  rw [varchar, ← String.toList_inj, String.toList_ofList, List.take_eq_self_iff]

theorem varchar_of_isVarchar {n : ℕ} {text : String} (h : isVarchar n text) :
    varchar n text = text :=
  varchar_eq_iff.mpr (of_decide_eq_true ((Bool.and_eq_true _ _).mp h).2)

/-- Nothing is cut of the text where it is inserted in a `VARCHAR(n)` column. -/
def Uncut (n : ℕ) (text : String) : Prop :=
  fitsVarchar n text → text.toList.length ≤ n

theorem Uncut.varchar_eq {n : ℕ} {text : String} (h : Uncut n text) (hfits : fitsVarchar n text) :
    varchar n text = text :=
  varchar_eq_iff.mpr (h hfits)

theorem Uncut.of_isVarchar {n : ℕ} {text : String} (h : isVarchar n text) : Uncut n text :=
  fun _ => of_decide_eq_true ((Bool.and_eq_true _ _).mp h).2

theorem fitsVarchar_of_isVarchar {n : ℕ} {text : String} (h : isVarchar n text) :
    fitsVarchar n text := by
  obtain ⟨htext, hlength⟩ := (Bool.and_eq_true _ _).mp h
  rw [fitsVarchar, htext, List.drop_of_length_le (of_decide_eq_true hlength)]
  rfl

structure Postgres where
  players : TxTable ℕ PlayerRow.id := {}
  rooms : TxTable ℕ RoomRow.id := {}
  games : TxTable ℕ GameRow.id := {}
  gameEvents : TxTable ℕ GameEventRow.id := {}
  inTransaction : ℕ → Bool := fun _ => false
  /-- The readings of the clock to come. -/
  clock : ℕ → DateTime
  players_pseudo : (players.rows.map fun x => x.2.pseudo).Nodup := by simp
  rooms_code : (rooms.rows.map fun x => x.2.code).Nodup := by simp
  games_player : players.Refers games fun g => some g.playerId := by simp [TxTable.Refers]
  games_room : rooms.Refers games GameRow.roomId := by simp [TxTable.Refers]
  events_game : games.Refers gameEvents fun e => some e.gameId := by simp [TxTable.Refers]

namespace Postgres

/-- Whose transaction a row that the connection `c` inserts belongs to. -/
def owner (s : Postgres) (c : ℕ) : Option ℕ :=
  if s.inTransaction c then some c else none

/-- `CURRENT_TIMESTAMP`. -/
def now (s : Postgres) : DateTime :=
  s.clock 0

def tick (s : Postgres) : Postgres :=
  { s with clock := fun n => s.clock (n + 1) }

/-! ## Transactions -/

def start (s : Postgres) (c : ℕ) : Postgres :=
  { s with inTransaction := Function.update s.inTransaction c true }

def commit (s : Postgres) (c : ℕ) : Postgres where
  players := s.players.commit c
  rooms := s.rooms.commit c
  games := s.games.commit c
  gameEvents := s.gameEvents.commit c
  inTransaction := Function.update s.inTransaction c false
  clock := s.clock
  players_pseudo := TxTable.nodup_column_commit s.players_pseudo
  rooms_code := TxTable.nodup_column_commit s.rooms_code
  games_player := s.games_player.commit c
  games_room := s.games_room.commit c
  events_game := s.events_game.commit c

def rollback (s : Postgres) (c : ℕ) : Postgres where
  players := s.players.rollback c
  rooms := s.rooms.rollback c
  games := s.games.rollback c
  gameEvents := s.gameEvents.rollback c
  inTransaction := Function.update s.inTransaction c false
  clock := s.clock
  players_pseudo := TxTable.nodup_column_rollback s.players_pseudo
  rooms_code := TxTable.nodup_column_rollback s.rooms_code
  games_player := s.games_player.rollback c
  games_room := s.games_room.rollback c
  events_game := s.events_game.rollback c

/-! ## What is read -/

/-- `SELECT id, pseudo FROM players WHERE pseudo = $1`. -/
def selectPlayer (s : Postgres) (c : ℕ) (pseudo : String) : Except Exc (Option PlayerRow) :=
  if !fitsText pseudo then .error .dataError
  else .ok ((s.players.visible (s.owner c)).find? fun p => p.pseudo = pseudo)

/-- `SELECT id, code, mode, status FROM rooms WHERE code = $1`. -/
def selectRoom (s : Postgres) (c : ℕ) (code : String) : Except Exc (Option RoomRow) :=
  if !fitsText code then .error .dataError
  else .ok ((s.rooms.visible (s.owner c)).find? fun r => r.code = code)

/-- `SELECT ... FROM games WHERE id = $1`. -/
def selectGame (s : Postgres) (c : ℕ) (gameId : ℤ) : Except Exc (Option GameRow) :=
  if !fitsInteger gameId then .error .dataError
  else .ok ((s.games.visible (s.owner c)).find? fun g => (g.id : ℤ) = gameId)

/-! ## What is inserted -/

/-- `INSERT INTO players (pseudo) VALUES ($1) RETURNING id`. -/
def insertPlayer (s : Postgres) (c : ℕ) (pseudo : String) : Except Exc (ℕ × Postgres) :=
  if !fitsVarchar 50 pseudo then .error .dataError
  else if h : varchar 50 pseudo ∈ s.players.rows.map fun x => x.2.pseudo then
    .error .uniqueViolation
  else
    .ok (s.players.seq + 1,
      { s with
        players := s.players.insert (s.owner c)
          ⟨{ id := s.players.seq + 1, pseudo := varchar 50 pseudo }, rfl⟩
        players_pseudo := TxTable.nodup_column_insert s.players_pseudo h
        games_player := s.games_player.insert_target _ _ })

/-- `INSERT INTO rooms (code, mode, status) VALUES ($1, $2, $3) RETURNING ...`; the codes
are hexadecimal digits, which have no space to cut. -/
def insertRoom (s : Postgres) (c : ℕ) (code : String) (mode : GameMode) (status : RoomStatus) :
    Except Exc (RoomRow × Postgres) :=
  if !isVarchar 10 code then .error .dataError
  else if h : code ∈ s.rooms.rows.map fun x => x.2.code then .error .uniqueViolation
  else
    .ok ({ id := s.rooms.seq + 1, code, mode, status },
      { s with
        rooms := s.rooms.insert (s.owner c) ⟨{ id := s.rooms.seq + 1, code, mode, status }, rfl⟩
        rooms_code := TxTable.nodup_column_insert s.rooms_code h
        games_room := s.games_room.insert_target _ _ })

/-- The row of an `INSERT INTO games`. -/
def newGame (s : Postgres) (g : NewGame) : { r : GameRow // r.id = s.games.seq + 1 } :=
  ⟨{ id := s.games.seq + 1, playerId := g.playerId, roomId := g.roomId, mode := g.mode,
     score := g.score, status := g.status, startedAt := g.startedAt,
     finishedAt := g.finishedAt }, rfl⟩

/-- `INSERT INTO games (...) VALUES (...) RETURNING ...`. -/
def insertGame (s : Postgres) (c : ℕ) (g : NewGame) : Except Exc (GameRow × Postgres) :=
  if !fitsInteger g.score then .error .dataError
  else if h : s.players.Has (s.owner c) g.playerId ∧
      ∀ k ∈ g.roomId, s.rooms.Has (s.owner c) k then
    .ok ((s.newGame g).val,
      { s with
        games := s.games.insert (s.owner c) (s.newGame g)
        games_player := s.games_player.insert_source fun k hk => by
          obtain rfl := Option.some.inj hk
          exact h.1
        games_room := s.games_room.insert_source h.2
        events_game := s.events_game.insert_target _ _ })
  else .error .foreignKeyViolation

/-- `INSERT INTO game_events (...) VALUES (...) RETURNING ...`. -/
def insertGameEvent (s : Postgres) (c : ℕ) (gameId : ℤ) (row : EventRow) :
    Except Exc (GameEventRow × Postgres) :=
  if !fitsInteger gameId || !fitsInteger row.points then .error .dataError
  else if h : 0 ≤ gameId ∧ s.games.Has (s.owner c) gameId.toNat then
    .ok ({ id := s.gameEvents.seq + 1, gameId := gameId.toNat, type := row.type,
           points := row.points, occuredAt := row.occuredAt },
      { s with
        gameEvents := s.gameEvents.insert (s.owner c)
          ⟨{ id := s.gameEvents.seq + 1, gameId := gameId.toNat, type := row.type,
             points := row.points, occuredAt := row.occuredAt }, rfl⟩
        events_game := s.events_game.insert_source fun k hk => by
          obtain rfl := Option.some.inj hk
          exact h.2 })
  else .error .foreignKeyViolation

/-- The same statement for every row in turn, all or nothing (`executemany`). -/
def insertGameEvents (c : ℕ) (gameId : ℕ) : Postgres → List EventRow → Except Exc Postgres
  | s, [] => .ok s
  | s, row :: rows =>
      match s.insertGameEvent c gameId row with
      | .ok (_, s') => insertGameEvents c gameId s' rows
      | .error e => .error e

/-! ## What is updated -/

/-- A change of a game that leaves its keys alone. -/
structure GameChange where
  apply : GameRow → GameRow
  id : ∀ g, (apply g).id = g.id
  playerId : ∀ g, (apply g).playerId = g.playerId
  roomId : ∀ g, (apply g).roomId = g.roomId

/-- `UPDATE games SET ... WHERE id = $1`. -/
def updateGame (s : Postgres) (gameId : ℤ) (f : GameChange) : Postgres :=
  { s with
    games := s.games.update (fun g => if (g.id : ℤ) = gameId then f.apply g else g) fun g => by
      split
      · exact f.id g
      · rfl
    games_player := s.games_player.update_source fun g => by
      split
      · rw [f.playerId]
      · rfl
    games_room := s.games_room.update_source fun g => by
      split
      · exact f.roomId g
      · rfl
    events_game := s.events_game.update_target }

/-- The committed row of a game. -/
def game (s : Postgres) (gameId : ℤ) : Option GameRow :=
  s.games.committed.find? fun g => (g.id : ℤ) = gameId

def addPointsChange (points : ℤ) : GameChange where
  apply g := { g with score := g.score + points }
  id _ := rfl
  playerId _ := rfl
  roomId _ := rfl

def finishChange (now : DateTime) : GameChange where
  apply g := { g with status := .finished, finishedAt := some now }
  id _ := rfl
  playerId _ := rfl
  roomId _ := rfl

/-- `UPDATE games SET score = score + $1 WHERE id = $2 RETURNING ...`; the mapper
cannot read the row of a game that does not exist. -/
def addPoints (s : Postgres) (gameId points : ℤ) : Except Exc (GameRow × Postgres) :=
  if !fitsInteger gameId || !fitsInteger points then .error .dataError
  else
    match s.game gameId with
    | none => .error (.python .typeError)
    | some g =>
        if !fitsInteger (g.score + points) then .error .dataError
        else .ok ((addPointsChange points).apply g, s.updateGame gameId (addPointsChange points))

/-- `UPDATE games SET status = 'finished', finished_at = NOW() WHERE id = $2
RETURNING ...`. -/
def finishGame (s : Postgres) (gameId : ℤ) (now : DateTime) : Except Exc (GameRow × Postgres) :=
  if !fitsInteger gameId then .error .dataError
  else
    match s.game gameId with
    | none => .error (.python .typeError)
    | some g => .ok ((finishChange now).apply g, s.updateGame gameId (finishChange now))

/-! ## What a statement that succeeds does -/

/-- The rows of the four tables. -/
def tables (s : Postgres) : List (Option ℕ × PlayerRow) × List (Option ℕ × RoomRow) ×
    List (Option ℕ × GameRow) × List (Option ℕ × GameEventRow) :=
  (s.players.rows, s.rooms.rows, s.games.rows, s.gameEvents.rows)

theorem insertPlayer_ok {s s' : Postgres} {c id : ℕ} {pseudo : String}
    (h : s.insertPlayer c pseudo = .ok (id, s')) :
    id = s.players.seq + 1 ∧ s'.tables =
      (s.players.rows ++ [(s.owner c, { id := id, pseudo := varchar 50 pseudo })], s.rooms.rows,
        s.games.rows, s.gameEvents.rows) ∧ s'.inTransaction = s.inTransaction := by
  unfold insertPlayer at h
  split at h
  · cases h
  · split at h
    · cases h
    · obtain ⟨rfl, rfl⟩ := Prod.mk.inj (Except.ok.inj h)
      exact ⟨rfl, rfl, rfl⟩

/-- A player is inserted where the pseudo fits its column. -/
theorem insertPlayer_fits {s s' : Postgres} {c id : ℕ} {pseudo : String}
    (h : s.insertPlayer c pseudo = .ok (id, s')) : fitsVarchar 50 pseudo := by
  unfold insertPlayer at h
  split at h
  · cases h
  · next hfits => simpa using hfits

/-- A player is inserted where what is stored of the pseudo is in no row. -/
theorem insertPlayer_absent {s s' : Postgres} {c id : ℕ} {pseudo : String}
    (h : s.insertPlayer c pseudo = .ok (id, s')) :
    ∀ x ∈ s.players.rows, x.2.pseudo ≠ varchar 50 pseudo := by
  unfold insertPlayer at h
  split at h
  · cases h
  · split at h
    · cases h
    · next habsent => exact fun x hx heq => habsent (List.mem_map.mpr ⟨x, hx, heq⟩)

theorem insertRoom_ok {s s' : Postgres} {c : ℕ} {code : String} {mode : GameMode}
    {status : RoomStatus} {room : RoomRow}
    (h : s.insertRoom c code mode status = .ok (room, s')) :
    room = { id := s.rooms.seq + 1, code, mode, status } ∧ s'.tables =
      (s.players.rows, s.rooms.rows ++ [(s.owner c, room)], s.games.rows, s.gameEvents.rows) ∧
      s'.inTransaction = s.inTransaction := by
  unfold insertRoom at h
  split at h
  · cases h
  · split at h
    · cases h
    · obtain ⟨rfl, rfl⟩ := Prod.mk.inj (Except.ok.inj h)
      exact ⟨rfl, rfl, rfl⟩

theorem insertGame_ok {s s' : Postgres} {c : ℕ} {g : NewGame} {row : GameRow}
    (h : s.insertGame c g = .ok (row, s')) :
    row = (s.newGame g).val ∧ s'.tables =
      (s.players.rows, s.rooms.rows, s.games.rows ++ [(s.owner c, row)], s.gameEvents.rows) ∧
      s'.inTransaction = s.inTransaction := by
  unfold insertGame at h
  split at h
  · cases h
  · split at h
    · obtain ⟨rfl, rfl⟩ := Prod.mk.inj (Except.ok.inj h)
      exact ⟨rfl, rfl, rfl⟩
    · cases h

theorem insertGameEvent_ok {s s' : Postgres} {c : ℕ} {gameId : ℤ} {row : EventRow}
    {e : GameEventRow} (h : s.insertGameEvent c gameId row = .ok (e, s')) :
    (e.gameId : ℤ) = gameId ∧ e.row = row ∧ s.games.Has (s.owner c) e.gameId ∧ s'.tables =
      (s.players.rows, s.rooms.rows, s.games.rows, s.gameEvents.rows ++ [(s.owner c, e)]) ∧
      s'.inTransaction = s.inTransaction := by
  unfold insertGameEvent at h
  split at h
  · cases h
  · split at h
    · next hgame =>
        obtain ⟨rfl, rfl⟩ := Prod.mk.inj (Except.ok.inj h)
        exact ⟨Int.toNat_of_nonneg hgame.1, rfl, hgame.2, rfl, rfl⟩
    · cases h

theorem id_of_insertGameEvent {s s' : Postgres} {c : ℕ} {gameId : ℤ} {row : EventRow}
    {e : GameEventRow} (h : s.insertGameEvent c gameId row = .ok (e, s')) :
    e.id = s.gameEvents.seq + 1 := by
  unfold insertGameEvent at h
  split at h
  · cases h
  · split at h
    · obtain ⟨rfl, -⟩ := Prod.mk.inj (Except.ok.inj h)
      rfl
    · cases h

theorem addPoints_ok {s s' : Postgres} {gameId points : ℤ} {g' : GameRow}
    (h : s.addPoints gameId points = .ok (g', s')) :
    ∃ g, s.game gameId = some g ∧ fitsInteger (g.score + points) ∧
      g' = (addPointsChange points).apply g ∧
      s' = s.updateGame gameId (addPointsChange points) := by
  unfold addPoints at h
  split at h
  · cases h
  · split at h
    · cases h
    · next g hg =>
        split at h
        · cases h
        · next hfits =>
            obtain ⟨rfl, rfl⟩ := Prod.mk.inj (Except.ok.inj h)
            exact ⟨g, hg, by simpa using hfits, rfl, rfl⟩

theorem finishGame_ok {s s' : Postgres} {gameId : ℤ} {now : DateTime} {g' : GameRow}
    (h : s.finishGame gameId now = .ok (g', s')) :
    ∃ g, s.game gameId = some g ∧ g' = (finishChange now).apply g ∧
      s' = s.updateGame gameId (finishChange now) := by
  unfold finishGame at h
  split at h
  · cases h
  · split at h
    · cases h
    · next g hg =>
        obtain ⟨rfl, rfl⟩ := Prod.mk.inj (Except.ok.inj h)
        exact ⟨g, hg, rfl, rfl⟩

/-- Events are inserted and nothing else. -/
theorem insertGameEvents_ok {c gameId : ℕ} {rows : List EventRow} {s s' : Postgres}
    (h : s.insertGameEvents c gameId rows = .ok s') :
    s'.players.rows = s.players.rows ∧ s'.games.rows = s.games.rows ∧
      s'.inTransaction = s.inTransaction := by
  induction rows generalizing s with
  | nil =>
      obtain rfl := Except.ok.inj h
      exact ⟨rfl, rfl, rfl⟩
  | cons row rows ih =>
      unfold insertGameEvents at h
      split at h
      · next e s₁ hinsert =>
          obtain ⟨-, -, -, htables, htx⟩ := insertGameEvent_ok hinsert
          simp only [tables, Prod.mk.injEq] at htables
          obtain ⟨hplayers, -, hgames, -⟩ := htables
          obtain ⟨hplayers', hgames', htx'⟩ := ih h
          exact ⟨hplayers'.trans hplayers, hgames'.trans hgames, htx'.trans htx⟩
      · cases h

/-! ## When a statement succeeds -/

theorem owner_of_not {s : Postgres} {c : ℕ} (hc : s.inTransaction c = false) :
    s.owner c = none := by
  simp [owner, hc]

theorem owner_of_inTransaction {s : Postgres} {c : ℕ} (hc : s.inTransaction c = true) :
    s.owner c = some c := by
  simp [owner, hc]

/-- Outside a transaction a game is read as it is committed. -/
theorem selectGame_of_not {s : Postgres} {c : ℕ} (hc : s.inTransaction c = false) {gameId : ℤ}
    (hfits : fitsInteger gameId) : s.selectGame c gameId = .ok (s.game gameId) := by
  rw [selectGame, if_neg (by simp [hfits]), owner_of_not hc, TxTable.visible_none]
  rfl

theorem game_eq_some {s : Postgres} {gameId : ℤ} {g : GameRow} :
    s.game gameId = some g ↔ (none, g) ∈ s.games.rows ∧ (g.id : ℤ) = gameId := by
  constructor
  · intro h
    exact ⟨TxTable.mem_committed.mp (List.mem_of_find?_eq_some h),
      by simpa using List.find?_some h⟩
  · rintro ⟨hg, hid⟩
    rw [game]
    cases hfind : s.games.committed.find? fun g => (g.id : ℤ) = gameId with
    | none =>
        have hnone := List.find?_eq_none.mp hfind g (TxTable.mem_committed.mpr hg)
        exact absurd hid (by simpa using hnone)
    | some g' =>
        have hg' := TxTable.mem_committed.mp (List.mem_of_find?_eq_some hfind)
        have hid' : (g'.id : ℤ) = gameId := by simpa using List.find?_some hfind
        have heq := TxTable.eq_of_key (x := (none, g')) (y := (none, g)) hg' hg
          (by simp only; omega)
        rw [(Prod.mk.inj heq).2]

/-- An event of a game that is seen is inserted where its points fit. -/
theorem insertGameEvent_of_has {s : Postgres} {c gameId : ℕ}
    (hgame : s.games.Has (s.owner c) gameId) (hid : fitsInteger gameId) {row : EventRow}
    (hpoints : fitsInteger row.points) :
    ∃ e s', s.insertGameEvent c gameId row = .ok (e, s') := by
  have hhas : 0 ≤ (gameId : ℤ) ∧ s.games.Has (s.owner c) (gameId : ℤ).toNat :=
    ⟨Int.natCast_nonneg _, hgame⟩
  rw [insertGameEvent, if_neg (by simp [hid, hpoints]), dif_pos hhas]
  exact ⟨_, _, rfl⟩

/-- Events of a game that is seen are inserted where their points fit. -/
theorem insertGameEvents_of_has {c gameId : ℕ} (hid : fitsInteger gameId) {rows : List EventRow}
    {s : Postgres} (hgame : s.games.Has (s.owner c) gameId)
    (hpoints : ∀ row ∈ rows, fitsInteger row.points) :
    ∃ s', s.insertGameEvents c gameId rows = .ok s' := by
  induction rows generalizing s with
  | nil => exact ⟨s, rfl⟩
  | cons row rows ih =>
      obtain ⟨e, s', hinsert⟩ :=
        insertGameEvent_of_has hgame hid (hpoints row List.mem_cons_self)
      obtain ⟨-, -, -, htables, htx⟩ := insertGameEvent_ok hinsert
      simp only [tables, Prod.mk.injEq] at htables
      have hgame' : s'.games.Has (s'.owner c) gameId := by
        rw [owner, htx]
        obtain ⟨y, hy, hkey, hown⟩ := hgame
        exact ⟨y, htables.2.2.1 ▸ hy, hkey, hown⟩
      rw [insertGameEvents, hinsert]
      exact ih hgame' fun row hrow => hpoints row (List.mem_cons_of_mem _ hrow)

/-- An event of a committed game is inserted where its points fit. -/
theorem insertGameEvent_of_game {s : Postgres} {c : ℕ} {gameId : ℤ} {g : GameRow}
    (hgame : s.game gameId = some g) (hid : fitsInteger gameId) {row : EventRow}
    (hpoints : fitsInteger row.points) :
    ∃ e s', s.insertGameEvent c gameId row = .ok (e, s') := by
  obtain ⟨hg, rfl⟩ := game_eq_some.mp hgame
  exact insertGameEvent_of_has ⟨_, hg, rfl, Or.inl rfl⟩ hid hpoints

/-- An update changes the committed row of its game. -/
theorem mem_updateGame {s : Postgres} {gameId : ℤ} {f : GameChange} {x : Option ℕ × GameRow} :
    x ∈ (s.updateGame gameId f).games.rows ↔
      (∃ g, (none, g) ∈ s.games.rows ∧
        x = (none, if (g.id : ℤ) = gameId then f.apply g else g)) ∨
      x ∈ s.games.rows ∧ x.1 ≠ none :=
  TxTable.mem_update

/-- No game is gone after an update. -/
theorem committed_updateGame {s : Postgres} {gameId : ℤ} {f : GameChange} {g : GameRow}
    (hg : (none, g) ∈ s.games.rows) :
    ∃ g', (none, g') ∈ (s.updateGame gameId f).games.rows ∧ g'.id = g.id := by
  refine ⟨_, mem_updateGame.mpr (Or.inl ⟨g, hg, rfl⟩), ?_⟩
  split
  · exact f.id g
  · rfl

/-- An update changes the game that it is about, if any. -/
theorem game_updateGame_eq (s : Postgres) (gameId gameId' : ℤ) (f : GameChange) :
    (s.updateGame gameId f).game gameId' =
      (s.game gameId').map fun g => if (g.id : ℤ) = gameId then f.apply g else g := by
  rw [game, updateGame, TxTable.committed_update, List.find?_map, game]
  congr 2
  funext g
  simp only [Function.comp]
  split
  · rw [f.id]
  · rfl

theorem game_updateGame {s : Postgres} {gameId : ℤ} {g : GameRow}
    (hgame : s.game gameId = some g) (f : GameChange) :
    (s.updateGame gameId f).game gameId = some (f.apply g) := by
  rw [game_updateGame_eq, hgame, Option.map_some, if_pos (game_eq_some.mp hgame).2]

theorem game_updateGame_of_ne {s : Postgres} {gameId gameId' : ℤ} (hne : gameId' ≠ gameId)
    (f : GameChange) : (s.updateGame gameId f).game gameId' = s.game gameId' := by
  rw [game_updateGame_eq]
  cases hgame : s.game gameId' with
  | none => rfl
  | some g => rw [Option.map_some, if_neg (by rw [(game_eq_some.mp hgame).2]; exact hne)]

/-! ## The events of a game -/

/-- The committed events of a game. -/
def eventsOf (s : Postgres) (gameId : ℤ) : List GameEventRow :=
  s.gameEvents.committed.filter fun e => (e.gameId : ℤ) = gameId

/-- Outside a transaction an event is committed as it is inserted. -/
theorem insertGameEvent_outside {s s' : Postgres} {c : ℕ} (hc : s.inTransaction c = false)
    {gameId : ℤ} {row : EventRow} {e : GameEventRow}
    (hinsert : s.insertGameEvent c gameId row = .ok (e, s')) (gameId' : ℤ) :
    s'.inTransaction = s.inTransaction ∧ s'.game gameId' = s.game gameId' ∧
      s'.eventsOf gameId' = s.eventsOf gameId' ++ if gameId = gameId' then [e] else [] := by
  obtain ⟨hgame, -, -, htables, htx⟩ := insertGameEvent_ok hinsert
  rw [owner_of_not hc] at htables
  simp only [tables, Prod.mk.injEq] at htables
  obtain ⟨-, -, hgames, hevents⟩ := htables
  refine ⟨htx, ?_, ?_⟩
  · rw [game, game, TxTable.committed, TxTable.committed, hgames]
  · rw [eventsOf, eventsOf, TxTable.committed, TxTable.committed, hevents, List.filter_append,
      List.map_append, List.filter_append]
    by_cases heq : gameId = gameId'
    · simp [heq, hgame]
    · simp [heq, hgame]

end Postgres

end FlipperBack
