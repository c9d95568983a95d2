import FlipperBack.Infrastructure.Queries
import FlipperBack.UseCase.Games

/-!
# Finished games of a player

`GetPlayerHistoryUseCase` and `FinishGameUseCase` on a database that nothing else
uses meanwhile. `FinishGame.run_database` says that the second one is what the
program of the REST flow does to the committed rows of Postgres.
-/

namespace FlipperBack

open Effects Python

/-- A game of the history of a player. -/
structure PlayerHistoryItem where
  game : GameRow
  isBest : Bool
  deriving DecidableEq, Repr

namespace GetPlayerHistory

/-- `GetPlayerHistoryUseCase._flag`. -/
def flag (game : GameRow) (bestSoloScore : Option ℤ) : PlayerHistoryItem :=
  { game, isBest := game.mode = .solo ∧ bestSoloScore = some game.score }

/-- `GetPlayerHistoryUseCase.execute`. -/
def execute (db : Database) (playerId : ℤ) (mode : Option GameMode) (limit : ℕ) :
    Except Exc (Player × List PlayerHistoryItem) := do
  match ← db.selectPlayer playerId with
  | none => throw (.playerNotFound s!"Player with id {playerId} not found")
  | some player =>
      let games := db.finishedGamesByPlayer playerId mode limit
      let bestSoloScore := db.bestSoloScore player.id
      return ({ id := player.id, pseudo := player.pseudo }, games.map (flag · bestSoloScore))

end GetPlayerHistory

namespace FinishGame

/-- The end of a game that is being played. -/
def closeOnDatabase (db : Database) (gameId : ℤ) (now last : DateTime) :
    Except Exc GameRow × Database :=
  match db.finishGame gameId now with
  | .error e => (.error e, db)
  | .ok (game, db) =>
      match db.insertGameEvent game.id { type := .gameOver, points := 0, occuredAt := last } with
      | .error e => (.error e, db)
      | .ok db => (.ok game, db)

/-- `FinishGameUseCase.execute`, whose statements are executed at `now` and then at
`last`. -/
def onDatabase (db : Database) (gameId : ℤ) (now last : DateTime) :
    Except Exc GameRow × Database :=
  match db.selectGame gameId with
  | .error e => (.error e, db)
  | .ok none => (.error (.gameNotFound s!"Game avec ID '{gameId}' n'existe pas"), db)
  | .ok (some game) =>
      if game.status ≠ .playing then
        (.error (.gameAlreadyFinished
          s!"Impossible de finir une game en état {game.status.text}"), db)
      else closeOnDatabase db gameId now last

end FinishGame

/-! ## The committed rows -/

namespace Postgres

/-- The database of the committed rows. -/
def database (s : Postgres) : Database where
  players := s.players.committed
  games := s.games.committed
  gameEvents := s.gameEvents.committed
  playerSeq := s.players.seq
  gameSeq := s.games.seq
  gameEventSeq := s.gameEvents.seq
  players_seq _ hp := s.players.le_seq _ (TxTable.mem_committed.mp hp)
  players_id := s.players.nodup_committed s.players.nodup
  players_pseudo := s.players.nodup_committed s.players_pseudo
  games_seq _ hg := s.games.le_seq _ (TxTable.mem_committed.mp hg)
  games_id := s.games.nodup_committed s.games.nodup
  games_player _ hg := TxTable.committed_of_has (s.games_player _ (TxTable.mem_committed.mp hg) _ rfl)
  events_seq _ he := s.gameEvents.le_seq _ (TxTable.mem_committed.mp he)
  events_id := s.gameEvents.nodup_committed s.gameEvents.nodup
  events_game _ he := TxTable.committed_of_has (s.events_game _ (TxTable.mem_committed.mp he) _ rfl)

end Postgres

namespace FinishGame

/-- The rows after the end of the game `g`. -/
def closedRows (db : Database) (g : GameRow) (now last : DateTime) :
    List PlayerRow × List GameRow × List GameEventRow :=
  (db.players, db.games.map fun g' => if (g'.id : ℤ) = g.id then Database.finished g' now else g',
    db.gameEvents ++ [{ id := db.gameEventSeq + 1, gameId := g.id, type := .gameOver, points := 0,
                        occuredAt := last }])

theorem closeOnDatabase_eq {db : Database} {g : GameRow} (hfits : fitsInteger g.id)
    (hgame : db.games.find? (fun g' => (g'.id : ℤ) = g.id) = some g) (now last : DateTime) :
    ∃ db', closeOnDatabase db g.id now last = (.ok (Database.finished g now), db') ∧
      db'.rows = closedRows db g now last := by
  obtain ⟨db₁, hfinish, hplayers, hgames, hevents, hseq⟩ :=
    Database.finishGame_of_find hfits hgame now
  have hexists : ∃ g' ∈ db₁.games, g'.id = g.id :=
    ⟨_, hgames ▸ List.mem_map.mpr ⟨g, List.mem_of_find?_eq_some hgame, rfl⟩,
      by rw [if_pos rfl]; rfl⟩
  have hpoints : fitsInteger (EventRow.points ⟨.gameOver, 0, last⟩) := by simp [fitsInteger]
  obtain ⟨db₂, hinsert⟩ := Database.insertGameEvent_of_fits hpoints hexists
  obtain ⟨hplayers', hgames', hevents'⟩ := Database.insertGameEvent_ok hinsert
  refine ⟨db₂, ?_, ?_⟩
  · rw [closeOnDatabase, hfinish]
    dsimp only [Database.finished]
    rw [hinsert]
  · rw [Database.rows, closedRows, hplayers', hgames', hevents', hplayers, hgames, hevents, hseq]

/-- The statements of the same end on tables that connections use. -/
theorem finish_playing {s : Postgres} {c : ℕ} (hc : s.inTransaction c = false) {g : GameRow}
    (hfits : fitsInteger g.id) (hgame : s.game g.id = some g) :
    ∃ e s₁ s₂, s.tick.finishGame g.id s.now = .ok (Database.finished g s.now, s₁) ∧
      s₁.tick.insertGameEvent c g.id
        { type := .gameOver, points := 0, occuredAt := s₁.now } = .ok (e, s₂) ∧
      s₂.database.rows = closedRows s.database g (s.clock 0) (s.clock 1) := by
  have hgame' : s.tick.game g.id = some g := hgame
  have hfinish : s.tick.finishGame g.id s.now =
      .ok (Database.finished g s.now, s.tick.updateGame g.id (Postgres.finishChange s.now)) := by
    rw [Postgres.finishGame, if_neg (by simp [hfits]), hgame']
    rfl
  have hpoints : fitsInteger (EventRow.points ⟨.gameOver, 0, s.clock 1⟩) := by simp [fitsInteger]
  obtain ⟨e, s₂, hinsert⟩ := Postgres.insertGameEvent_of_game
    (s := (s.tick.updateGame g.id (Postgres.finishChange s.now)).tick) (c := c)
    (Postgres.game_updateGame hgame' (Postgres.finishChange s.now)) hfits hpoints
  refine ⟨e, _, s₂, hfinish, hinsert, ?_⟩
  obtain ⟨hgameId, hrow, -, htables, -⟩ := Postgres.insertGameEvent_ok hinsert
  have he : e = { id := s.gameEvents.seq + 1, gameId := g.id, type := .gameOver, points := 0,
                  occuredAt := s.clock 1 } := by
    have hid := Postgres.id_of_insertGameEvent hinsert
    obtain ⟨id, gameId, type, points, occuredAt⟩ := e
    obtain rfl : gameId = g.id := Int.ofNat.inj hgameId
    cases hrow
    rw [GameEventRow.mk.injEq]
    exact ⟨hid, rfl, rfl, rfl, rfl⟩
  simp only [Postgres.tables, Prod.mk.injEq] at htables
  obtain ⟨hplayers, -, hgames, hevents⟩ := htables
  have hown : (s.tick.updateGame g.id (Postgres.finishChange s.now)).tick.owner c = none :=
    Postgres.owner_of_not hc
  rw [hown, he] at hevents
  rw [Database.rows, closedRows, Prod.mk.injEq, Prod.mk.injEq]
  refine ⟨?_, ?_, ?_⟩
  · change s₂.players.committed = s.players.committed
    rw [TxTable.committed, hplayers]
    rfl
  · change s₂.games.committed = _
    rw [TxTable.committed, hgames]
    exact TxTable.committed_update
  · change s₂.gameEvents.committed = s.gameEvents.committed ++ _
    rw [TxTable.committed, hevents, List.filter_append, List.map_append]
    rfl

end FinishGame

/-- Outside transactions the program does to the committed rows what it does to a
database of its own. -/
theorem FinishGame.run_database {s : Postgres} {c : ℕ} (hc : s.inTransaction c = false)
    (gameId : ℤ) :
    let r := (FinishGame.execute gameId).run (serve c) { pg := s }
    let r' := FinishGame.onDatabase s.database gameId (s.clock 0) (s.clock 1)
    r.1.map Prod.fst = r'.1 ∧ r.2.pg.database.rows = r'.2.rows := by
  intro r r'
  have hr : r = (FinishGame.execute gameId).run (serve c) { pg := s } := rfl
  have hr' : r' = FinishGame.onDatabase s.database gameId (s.clock 0) (s.clock 1) := rfl
  rw [FinishGame.execute, Prog.run_bind, PgGameRepository.getById, Prog.run_perform, serve] at hr
  rw [FinishGame.onDatabase, Database.selectGame] at hr'
  by_cases hfits : fitsInteger gameId
  · rw [Postgres.selectGame_of_not hc hfits] at hr
    rw [if_neg (by simp [hfits]), show s.database.games.find? (fun g => (g.id : ℤ) = gameId) =
      s.game gameId from rfl] at hr'
    cases hgame : s.game gameId with
    | none =>
        rw [hgame] at hr hr'
        rw [hr, hr']
        exact ⟨rfl, rfl⟩
    | some g =>
        rw [hgame] at hr hr'
        dsimp only at hr hr'
        by_cases hplaying : g.status = .playing
        · rw [if_neg (by simp [hplaying])] at hr hr'
          obtain ⟨-, rfl⟩ := Postgres.game_eq_some.mp hgame
          obtain ⟨e, s₁, s₂, hfinish, hinsert, hrows⟩ := finish_playing hc hfits hgame
          have hfind : s.database.games.find? (fun g' => (g'.id : ℤ) = g.id) = some g := hgame
          obtain ⟨db', hclose, hrows'⟩ :=
            closeOnDatabase_eq hfits hfind (s.clock 0) (s.clock 1)
          rw [Prog.run_bind, PgGameRepository.finish, Prog.run_perform, serve, hfinish] at hr
          dsimp only [Server.write] at hr
          rw [Prog.run_bind, PgGameEventRepository.create, Prog.run_perform, serve, hinsert] at hr
          rw [hclose] at hr'
          rw [hr, hr']
          exact ⟨rfl, hrows.trans hrows'.symm⟩
        · rw [if_pos hplaying] at hr hr'
          rw [hr, hr']
          exact ⟨rfl, rfl⟩
  · rw [Postgres.selectGame, if_pos (by simp [hfits])] at hr
    rw [if_pos (by simp [hfits])] at hr'
    rw [hr, hr']
    exact ⟨rfl, rfl⟩

end FlipperBack
