import FlipperBack.Domain.Entities

/-!
# The database

The tables `players`, `games` and `game_events` with the sequences of their
`SERIAL` keys. The constraints of the schema are fields of `Database`: keys are
unique and below their sequence, a pseudo is unique, and the foreign keys point
to rows that exist. An `INSERT` that would break one of them raises instead, and
so does a value outside the range of an `INTEGER` column.
-/

namespace FlipperBack

open Python

structure PlayerRow where
  id : ℕ
  pseudo : String
  deriving DecidableEq, Repr

structure GameRow where
  id : ℕ
  playerId : ℕ
  roomId : Option ℕ
  mode : GameMode
  score : Int
  status : GameStatus
  startedAt : DateTime
  finishedAt : Option DateTime
  deriving DecidableEq, Repr

structure GameEventRow where
  id : ℕ
  gameId : ℕ
  type : GameEventType
  points : Int
  occuredAt : DateTime
  deriving DecidableEq, Repr

/-- The values of an `INSERT INTO games`. -/
structure NewGame where
  playerId : ℕ
  roomId : Option ℕ
  mode : GameMode
  score : Int
  status : GameStatus
  startedAt : DateTime
  finishedAt : Option DateTime
  deriving DecidableEq, Repr

/-- The values of an `INSERT INTO game_events`, the game apart. -/
structure EventRow where
  type : GameEventType
  points : Int
  occuredAt : DateTime
  deriving DecidableEq, Repr

/-- The values of a stored event. -/
def GameEventRow.row (e : GameEventRow) : EventRow :=
  { type := e.type, points := e.points, occuredAt := e.occuredAt }

/-- Whether a value fits a signed 32-bit `INTEGER` column. -/
def fitsInteger (n : Int) : Bool :=
  -2147483648 ≤ n && n ≤ 2147483647

/-- What fits an `INTEGER` column has few digits. -/
theorem fitsStr_of_fitsInteger {x : PyInt} (h : fitsInteger x.val) : x.fitsStr := by
  cases x with
  | int n =>
      obtain ⟨hlow, hhigh⟩ := (Bool.and_eq_true _ _).mp h
      have hlow : -2147483648 ≤ n := of_decide_eq_true hlow
      have hhigh : n ≤ 2147483647 := of_decide_eq_true hhigh
      have hlarge : Python.fitsStr 2147483648 = true := by decide
      exact Python.fitsStr_of_le (by omega) hlarge
  | bool b => rfl

structure Database where
  players : List PlayerRow := []
  games : List GameRow := []
  gameEvents : List GameEventRow := []
  playerSeq : ℕ := 0
  gameSeq : ℕ := 0
  gameEventSeq : ℕ := 0
  players_seq : ∀ p ∈ players, p.id ≤ playerSeq := by simp
  players_id : (players.map PlayerRow.id).Nodup := by simp
  players_pseudo : (players.map PlayerRow.pseudo).Nodup := by simp
  games_seq : ∀ g ∈ games, g.id ≤ gameSeq := by simp
  games_id : (games.map GameRow.id).Nodup := by simp
  games_player : ∀ g ∈ games, ∃ p ∈ players, p.id = g.playerId := by simp
  events_seq : ∀ e ∈ gameEvents, e.id ≤ gameEventSeq := by simp
  events_id : (gameEvents.map GameEventRow.id).Nodup := by simp
  events_game : ∀ e ∈ gameEvents, ∃ g ∈ games, g.id = e.gameId := by simp

namespace Database

/-- The rows of the three tables. -/
def rows (db : Database) : List PlayerRow × List GameRow × List GameEventRow :=
  (db.players, db.games, db.gameEvents)

/-- A key above its sequence is not in use. -/
theorem nodup_map_append {α : Type} {key : α → ℕ} {xs : List α} {seq : ℕ} {x : α}
    (hseq : ∀ y ∈ xs, key y ≤ seq) (hxs : (xs.map key).Nodup) (hx : key x = seq + 1) :
    ((xs ++ [x]).map key).Nodup := by
  rw [List.map_append, List.nodup_append]
  refine ⟨hxs, by simp, ?_⟩
  intro a ha b hb hab
  obtain ⟨y, hy, rfl⟩ := List.mem_map.mp ha
  have hb : b = key x := by simpa using hb
  have := hseq y hy
  omega

theorem le_seq_append {α : Type} {key : α → ℕ} {xs : List α} {seq : ℕ} {x : α}
    (hseq : ∀ y ∈ xs, key y ≤ seq) (hx : key x = seq + 1) :
    ∀ y ∈ xs ++ [x], key y ≤ seq + 1 := by
  intro y hy
  rcases List.mem_append.mp hy with hy | hy
  · exact (hseq y hy).trans (Nat.le_succ seq)
  · obtain rfl := List.mem_singleton.mp hy
    exact hx.le

/-- `SELECT id FROM players WHERE pseudo = $1`. -/
def selectPlayerId (db : Database) (pseudo : String) : Option ℕ :=
  (db.players.find? fun p => p.pseudo == pseudo).map PlayerRow.id

/-- `INSERT INTO players (pseudo) VALUES ($1) RETURNING id`. The pseudo is that of a
session, three alphanumeric characters, so the length of the column is no matter here. -/
def insertPlayer (db : Database) (pseudo : String) : Except Exc (ℕ × Database) :=
  if h : pseudo ∈ db.players.map PlayerRow.pseudo then
    .error .uniqueViolation
  else
    .ok (db.playerSeq + 1,
      { db with
        players := db.players ++ [{ id := db.playerSeq + 1, pseudo }]
        playerSeq := db.playerSeq + 1
        players_seq := le_seq_append db.players_seq rfl
        players_id := nodup_map_append db.players_seq db.players_id rfl
        players_pseudo := by
          rw [List.map_append, List.nodup_append]
          refine ⟨db.players_pseudo, by simp, ?_⟩
          rintro a ha b hb rfl
          have heq : a = pseudo := by simpa using hb
          exact h (heq ▸ ha)
        games_player := fun g hg => by
          obtain ⟨p, hp, hid⟩ := db.games_player g hg
          exact ⟨p, List.mem_append_left _ hp, hid⟩ })

/-- `INSERT INTO games (...) VALUES (...) RETURNING id`. -/
def insertGame (db : Database) (g : NewGame) : Except Exc (ℕ × Database) :=
  if !fitsInteger g.score then
    .error .dataError
  else if h : ∃ p ∈ db.players, p.id = g.playerId then
    .ok (db.gameSeq + 1,
      { db with
        games := db.games ++
          [{ id := db.gameSeq + 1, playerId := g.playerId, roomId := g.roomId, mode := g.mode,
             score := g.score, status := g.status, startedAt := g.startedAt,
             finishedAt := g.finishedAt }]
        gameSeq := db.gameSeq + 1
        games_seq := le_seq_append db.games_seq rfl
        games_id := nodup_map_append db.games_seq db.games_id rfl
        games_player := by
          intro g' hg'
          rcases List.mem_append.mp hg' with hg' | hg'
          · exact db.games_player g' hg'
          · obtain rfl := List.mem_singleton.mp hg'
            exact h
        events_game := fun e he => by
          obtain ⟨g', hg', hid⟩ := db.events_game e he
          exact ⟨g', List.mem_append_left _ hg', hid⟩ })
  else
    .error .foreignKeyViolation

/-- `INSERT INTO game_events (...) VALUES (...)`. -/
def insertGameEvent (gameId : ℕ) (db : Database) (row : EventRow) : Except Exc Database :=
  if !fitsInteger row.points then
    .error .dataError
  else if h : ∃ g ∈ db.games, g.id = gameId then
    .ok { db with
      gameEvents := db.gameEvents ++
        [{ id := db.gameEventSeq + 1, gameId, type := row.type, points := row.points,
           occuredAt := row.occuredAt }]
      gameEventSeq := db.gameEventSeq + 1
      events_seq := le_seq_append db.events_seq rfl
      events_id := nodup_map_append db.events_seq db.events_id rfl
      events_game := by
        intro e he
        rcases List.mem_append.mp he with he | he
        · exact db.events_game e he
        · obtain rfl := List.mem_singleton.mp he
          exact h }
  else
    .error .foreignKeyViolation

/-- The same statement for every row in turn, all or nothing (`executemany`). -/
def insertGameEvents (gameId : ℕ) : Database → List EventRow → Except Exc Database
  | db, [] => .ok db
  | db, row :: rows =>
      match db.insertGameEvent gameId row with
      | .ok db' => insertGameEvents gameId db' rows
      | .error e => .error e

/-- `SELECT MAX(score) FROM games WHERE player_id = $1 AND mode = 'solo' AND
status = 'finished'`. -/
def bestSoloScore (db : Database) (playerId : ℕ) : Option Int :=
  ((db.games.filter fun g =>
    g.playerId == playerId && g.mode == .solo && g.status == .finished).map GameRow.score).max?

/-! ## What a successful `INSERT` adds -/

theorem insertPlayer_ok {db db' : Database} {pseudo : String} {id : ℕ}
    (h : db.insertPlayer pseudo = .ok (id, db')) :
    db'.players = db.players ++ [{ id := id, pseudo := pseudo }] ∧ db'.games = db.games ∧
      db'.gameEvents = db.gameEvents ∧ db'.gameSeq = db.gameSeq := by
  unfold insertPlayer at h
  split at h
  · cases h
  · obtain ⟨rfl, rfl⟩ := Prod.mk.inj (Except.ok.inj h)
    exact ⟨rfl, rfl, rfl, rfl⟩

theorem insertGame_ok {db db' : Database} {g : NewGame} {id : ℕ}
    (h : db.insertGame g = .ok (id, db')) :
    id = db.gameSeq + 1 ∧ db'.players = db.players ∧ db'.gameEvents = db.gameEvents ∧
      db'.games = db.games ++
        [{ id := id, playerId := g.playerId, roomId := g.roomId, mode := g.mode,
           score := g.score, status := g.status, startedAt := g.startedAt,
           finishedAt := g.finishedAt }] := by
  unfold insertGame at h
  split at h
  · cases h
  · split at h
    · obtain ⟨rfl, rfl⟩ := Prod.mk.inj (Except.ok.inj h)
      exact ⟨rfl, rfl, rfl, rfl⟩
    · cases h

theorem insertGameEvent_ok {db db' : Database} {gameId : ℕ} {row : EventRow}
    (h : db.insertGameEvent gameId row = .ok db') :
    db'.players = db.players ∧ db'.games = db.games ∧
      db'.gameEvents = db.gameEvents ++
        [{ id := db.gameEventSeq + 1, gameId, type := row.type, points := row.points,
           occuredAt := row.occuredAt }] := by
  unfold insertGameEvent at h
  split at h
  · cases h
  · split at h
    · obtain rfl := Except.ok.inj h
      exact ⟨rfl, rfl, rfl⟩
    · cases h

/-- A batch adds its rows to the game in order, and nothing else. -/
theorem insertGameEvents_ok {gameId : ℕ} {rows : List EventRow} {db db' : Database}
    (h : insertGameEvents gameId db rows = .ok db') :
    db'.players = db.players ∧ db'.games = db.games ∧
      ∃ added : List GameEventRow, db'.gameEvents = db.gameEvents ++ added ∧
        added.map GameEventRow.row = rows ∧ ∀ e ∈ added, e.gameId = gameId := by
  induction rows generalizing db with
  | nil =>
      obtain rfl := Except.ok.inj h
      exact ⟨rfl, rfl, [], by simp, rfl, by simp⟩
  | cons row rows ih =>
      unfold insertGameEvents at h
      split at h
      · next db₁ h₁ =>
          obtain ⟨hplayers₁, hgames₁, hevents₁⟩ := insertGameEvent_ok h₁
          obtain ⟨hplayers, hgames, added, hevents, hrows, hgame⟩ := ih h
          refine ⟨hplayers.trans hplayers₁, hgames.trans hgames₁,
            { id := db.gameEventSeq + 1, gameId, type := row.type, points := row.points,
              occuredAt := row.occuredAt } :: added, ?_, ?_, ?_⟩
          · rw [hevents, hevents₁, List.append_assoc, List.singleton_append]
          · rw [List.map_cons, hrows]
            rfl
          · intro e he
            rcases List.mem_cons.mp he with rfl | he
            · rfl
            · exact hgame e he
      · cases h

/-! ## When an `INSERT` succeeds -/

theorem fits_of_insertGame {db db' : Database} {g : NewGame} {id : ℕ}
    (h : db.insertGame g = .ok (id, db')) : fitsInteger g.score := by
  unfold insertGame at h
  split at h
  · cases h
  · next hfits => simpa using hfits

theorem fits_of_insertGameEvents {gameId : ℕ} {rows : List EventRow} {db db' : Database}
    (h : insertGameEvents gameId db rows = .ok db') : ∀ row ∈ rows, fitsInteger row.points := by
  induction rows generalizing db with
  | nil => simp
  | cons row rows ih =>
      unfold insertGameEvents at h
      split at h
      · next db₁ h₁ =>
          unfold insertGameEvent at h₁
          split at h₁
          · cases h₁
          · next hfits => exact List.forall_mem_cons.mpr ⟨by simpa using hfits, ih h⟩
      · cases h

theorem insertPlayer_of_select {db : Database} {pseudo : String}
    (h : db.selectPlayerId pseudo = none) :
    ∃ id db', db.insertPlayer pseudo = .ok (id, db') := by
  have hnew : pseudo ∉ db.players.map PlayerRow.pseudo := by
    intro hmem
    obtain ⟨p, hp, hpseudo⟩ := List.mem_map.mp hmem
    have hnone := List.find?_eq_none.mp (Option.map_eq_none_iff.mp h) p hp
    simp [hpseudo] at hnone
  rw [insertPlayer, dif_neg hnew]
  exact ⟨_, _, rfl⟩

theorem insertGame_of_fits {db : Database} {g : NewGame} (hscore : fitsInteger g.score)
    (hplayer : ∃ p ∈ db.players, p.id = g.playerId) :
    ∃ id db', db.insertGame g = .ok (id, db') := by
  rw [insertGame, if_neg (by simp [hscore]), dif_pos hplayer]
  exact ⟨_, _, rfl⟩

theorem insertGameEvent_of_fits {gameId : ℕ} {row : EventRow} {db : Database}
    (hrow : fitsInteger row.points) (hgame : ∃ g ∈ db.games, g.id = gameId) :
    ∃ db', db.insertGameEvent gameId row = .ok db' := by
  rw [insertGameEvent, if_neg (by simp [hrow]), dif_pos hgame]
  exact ⟨_, rfl⟩

theorem insertGameEvents_of_fits {gameId : ℕ} {rows : List EventRow} {db : Database}
    (hrows : ∀ row ∈ rows, fitsInteger row.points) (hgame : ∃ g ∈ db.games, g.id = gameId) :
    ∃ db', insertGameEvents gameId db rows = .ok db' := by
  induction rows generalizing db with
  | nil => exact ⟨db, rfl⟩
  | cons row rows ih =>
      obtain ⟨db₁, hinsert⟩ := insertGameEvent_of_fits (hrows row List.mem_cons_self) hgame
      rw [insertGameEvents, hinsert]
      refine ih (fun row' hrow' => hrows row' (List.mem_cons_of_mem _ hrow')) ?_
      rwa [(insertGameEvent_ok hinsert).2.1]

/-- A rolled back transaction leaves the rows, and the sequences where it took
them. -/
def rolledBack (db tx : Database) : Database :=
  { db with
    playerSeq := max db.playerSeq tx.playerSeq
    gameSeq := max db.gameSeq tx.gameSeq
    gameEventSeq := max db.gameEventSeq tx.gameEventSeq
    players_seq := fun p hp => (db.players_seq p hp).trans (le_max_left _ _)
    games_seq := fun g hg => (db.games_seq g hg).trans (le_max_left _ _)
    events_seq := fun e he => (db.events_seq e he).trans (le_max_left _ _) }

@[simp] theorem rows_rolledBack (db tx : Database) : (db.rolledBack tx).rows = db.rows := rfl

end Database

end FlipperBack
