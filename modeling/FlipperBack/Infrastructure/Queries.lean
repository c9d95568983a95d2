import FlipperBack.Infrastructure.GameRepository
import FlipperBack.Query.GroupMax
import FlipperBack.Query.Top

/-!
# Queries on finished games

The leaderboard, the finished games of a player and the end of a game, as statements
on a database that nothing else uses meanwhile. A limit is not negative: the routes
check it.
-/

namespace FlipperBack

open Python Query

/-- The fields of a `TIMESTAMP`, the most significant first. -/
def timestamp (d : DateTime) : List ℕ :=
  [d.year, d.month, d.day, d.hour, d.minute, d.second, d.microsecond]

structure LeaderboardEntry where
  rank : ℕ
  playerId : ℕ
  pseudo : String
  score : ℤ
  deriving DecidableEq, Repr

namespace Database

/-! ## What is read -/

/-- `SELECT id, pseudo FROM players WHERE id = $1`. -/
def selectPlayer (db : Database) (playerId : ℤ) : Except Exc (Option PlayerRow) :=
  if !fitsInteger playerId then .error .dataError
  else .ok (db.players.find? fun p => (p.id : ℤ) = playerId)

/-- `SELECT ... FROM games WHERE id = $1`. -/
def selectGame (db : Database) (gameId : ℤ) : Except Exc (Option GameRow) :=
  if !fitsInteger gameId then .error .dataError
  else .ok (db.games.find? fun g => (g.id : ℤ) = gameId)

/-- `FROM games g JOIN players p ON g.player_id = p.id WHERE g.status = 'finished'
[AND g.mode = $2]`, the player and the score of each row. -/
def finishedScores (db : Database) (mode : Option GameMode) : List (PlayerRow × ℤ) :=
  (db.games.filter fun g => g.status = .finished ∧ ∀ m ∈ mode, g.mode = m).flatMap fun g =>
    (db.players.filter fun p => p.id = g.playerId).map fun p => (p, g.score)

/-- `ORDER BY score DESC, p.id ASC`. -/
def ranksBefore (r r' : PlayerRow × ℤ) : Bool :=
  r'.2 < r.2 || (r.2 = r'.2 && r.1.id ≤ r'.1.id)

/-- `PgGameRepository.leaderboard`. -/
def leaderboard (db : Database) (mode : Option GameMode) (limit : ℕ) : List LeaderboardEntry :=
  (top ranksBefore limit (groupMax (db.finishedScores mode))).mapIdx fun index r =>
    { rank := index + 1, playerId := r.1.id, pseudo := r.1.pseudo, score := r.2 }

/-- `ORDER BY finished_at DESC, id DESC`: a row without a date comes first. -/
def finishedAfter (g g' : GameRow) : Bool :=
  match g.finishedAt, g'.finishedAt with
  | none, none => g'.id ≤ g.id
  | none, some _ => true
  | some _, none => false
  | some d, some d' => timestamp d' < timestamp d || (timestamp d = timestamp d' && g'.id ≤ g.id)

/-- `PgGameRepository.get_finished_games_by_player`. -/
def finishedGamesByPlayer (db : Database) (playerId : ℤ) (mode : Option GameMode) (limit : ℕ) :
    List GameRow :=
  top finishedAfter limit (db.games.filter fun g =>
    (g.playerId : ℤ) = playerId ∧ g.status = .finished ∧ ∀ m ∈ mode, g.mode = m)

/-! ## What is written -/

/-- A game as its end leaves it. -/
def finished (g : GameRow) (now : DateTime) : GameRow :=
  { g with status := .finished, finishedAt := some now }

/-- `UPDATE games SET status = 'finished', finished_at = NOW() WHERE id = $2
RETURNING ...`; the mapper cannot read the row of a game that does not exist. -/
def finishGame (db : Database) (gameId : ℤ) (now : DateTime) : Except Exc (GameRow × Database) :=
  if !fitsInteger gameId then .error .dataError
  else
    match db.games.find? fun g => (g.id : ℤ) = gameId with
    | none => .error (.python .typeError)
    | some g =>
        .ok (finished g now,
          { db with
            games := db.games.map fun g => if (g.id : ℤ) = gameId then finished g now else g
            games_seq := by
              intro g' hg'
              obtain ⟨g, hg, rfl⟩ := List.mem_map.mp hg'
              split <;> exact db.games_seq g hg
            games_id := by
              rw [List.map_map]
              refine (List.map_congr_left fun g _ => ?_) ▸ db.games_id
              simp only [Function.comp]
              split <;> rfl
            games_player := by
              intro g' hg'
              obtain ⟨g, hg, rfl⟩ := List.mem_map.mp hg'
              split <;> exact db.games_player g hg
            events_game := by
              intro e he
              obtain ⟨g, hg, hid⟩ := db.events_game e he
              refine ⟨_, List.mem_map.mpr ⟨g, hg, rfl⟩, ?_⟩
              split <;> exact hid })

/-- A game that exists ends, and nothing else happens. -/
theorem finishGame_of_find {db : Database} {gameId : ℤ} {g : GameRow} (hfits : fitsInteger gameId)
    (hgame : db.games.find? (fun g' => (g'.id : ℤ) = gameId) = some g) (now : DateTime) :
    ∃ db', db.finishGame gameId now = .ok (finished g now, db') ∧ db'.players = db.players ∧
      (db'.games = db.games.map fun g' => if (g'.id : ℤ) = gameId then finished g' now else g') ∧
      db'.gameEvents = db.gameEvents ∧ db'.gameEventSeq = db.gameEventSeq := by
  rw [finishGame, if_neg (by simp [hfits]), hgame]
  exact ⟨_, rfl, rfl, rfl, rfl, rfl⟩

end Database

end FlipperBack
