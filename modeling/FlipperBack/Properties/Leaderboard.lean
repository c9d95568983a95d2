import FlipperBack.Infrastructure.Queries

/-!
# The leaderboard

The leaderboard of a mode is the true top `n`: the players with a finished game in
the mode, each with its best score, in the order of the scores and then of the ids
(`leaderboard_top`).
-/

namespace FlipperBack

open Python Query

/-- The best score of a player among the finished games of the filter. -/
def Database.bestScore (db : Database) (mode : Option GameMode) (playerId : ℕ) : Option ℤ :=
  ((db.games.filter fun g => g.playerId = playerId ∧ g.status = .finished ∧
    ∀ m ∈ mode, g.mode = m).map GameRow.score).max?

/-- The order of the leaderboard, on scores and player ids. -/
def Above (r r' : ℤ × ℕ) : Prop :=
  r'.1 < r.1 ∨ r.1 = r'.1 ∧ r.2 < r'.2

/-- The score and the player of an entry. -/
def LeaderboardEntry.key (e : LeaderboardEntry) : ℤ × ℕ :=
  (e.score, e.playerId)

/-- The board is the top `n` of the players with a finished game in the filter. -/
structure IsTop (db : Database) (mode : Option GameMode) (n : ℕ) (board : List LeaderboardEntry) :
    Prop where
  entries : ∀ e ∈ board, ∃ p ∈ db.players, p.id = e.playerId ∧ p.pseudo = e.pseudo ∧
    db.bestScore mode p.id = some e.score
  nodup : (board.map LeaderboardEntry.playerId).Nodup
  ordered : (board.map LeaderboardEntry.key).Pairwise Above
  ranks : board.map LeaderboardEntry.rank = List.range' 1 board.length
  length : board.length =
    min n (db.players.filter fun p => (db.bestScore mode p.id).isSome).length
  rest : ∀ p ∈ db.players, ∀ score, db.bestScore mode p.id = some score →
    p.id ∉ board.map LeaderboardEntry.playerId → ∀ e ∈ board, Above e.key (score, p.id)

/-! ## The groups of the query -/

namespace Database

variable {db : Database} {mode : Option GameMode} {n : ℕ}

theorem mem_finishedScores {p : PlayerRow} {score : ℤ} :
    (p, score) ∈ db.finishedScores mode ↔ p ∈ db.players ∧ ∃ g ∈ db.games, g.playerId = p.id ∧
      g.status = .finished ∧ (∀ m ∈ mode, g.mode = m) ∧ g.score = score := by
  rw [finishedScores, List.mem_flatMap]
  constructor
  · rintro ⟨g, hg, hp⟩
    obtain ⟨hg, hfinished, hmode⟩ := by simpa using List.mem_filter.mp hg
    obtain ⟨p', hp', heq⟩ := List.mem_map.mp hp
    obtain ⟨rfl, rfl⟩ := Prod.mk.inj heq
    obtain ⟨hp', hid⟩ := List.mem_filter.mp hp'
    exact ⟨hp', g, hg, (of_decide_eq_true hid).symm, hfinished, hmode, rfl⟩
  · rintro ⟨hp, g, hg, hid, hfinished, hmode, rfl⟩
    refine ⟨g, List.mem_filter.mpr ⟨hg, ?_⟩, List.mem_map.mpr ⟨p, ?_, rfl⟩⟩
    · exact decide_eq_true ⟨hfinished, hmode⟩
    · exact List.mem_filter.mpr ⟨hp, decide_eq_true hid.symm⟩

/-- The maximum of the group of a player is its best score. -/
theorem max?_group_finishedScores {p : PlayerRow} (hp : p ∈ db.players) :
    (group (db.finishedScores mode) p).max? = db.bestScore mode p.id := by
  refine max?_congr fun score => ?_
  rw [mem_group, mem_finishedScores, List.mem_map]
  constructor
  · rintro ⟨-, g, hg, hid, hfinished, hmode, rfl⟩
    exact ⟨g, List.mem_filter.mpr ⟨hg, decide_eq_true ⟨hid, hfinished, hmode⟩⟩, rfl⟩
  · rintro ⟨g, hg, rfl⟩
    obtain ⟨hg, hid, hfinished, hmode⟩ := by simpa using List.mem_filter.mp hg
    exact ⟨hp, g, hg, hid, hfinished, hmode, rfl⟩

/-- The rows of the query before they are ordered: the players that have a best
score, each with it. -/
theorem mem_groupMax_finishedScores {p : PlayerRow} {score : ℤ} :
    (p, score) ∈ groupMax (db.finishedScores mode) ↔
      p ∈ db.players ∧ db.bestScore mode p.id = some score := by
  rw [mem_groupMax]
  constructor
  · intro hmax
    have hp := (mem_finishedScores.mp (mem_group.mp (List.max?_mem hmax))).1
    exact ⟨hp, by rw [← max?_group_finishedScores hp, hmax]⟩
  · rintro ⟨hp, hbest⟩
    rw [max?_group_finishedScores hp, hbest]

theorem nodup_groupMax_finishedScores :
    ((groupMax (db.finishedScores mode)).map fun r => r.1.id).Nodup := by
  have hplayers : ((groupMax (db.finishedScores mode)).map Prod.fst).Nodup := by
    rw [map_fst_groupMax]
    exact List.nodup_dedup _
  rw [show (fun r : PlayerRow × ℤ => r.1.id) = PlayerRow.id ∘ Prod.fst from rfl, ← List.map_map]
  refine List.Nodup.map_on (fun p hp p' hp' hid => ?_) hplayers
  obtain ⟨r, hr, rfl⟩ := List.mem_map.mp hp
  obtain ⟨r', hr', rfl⟩ := List.mem_map.mp hp'
  exact List.inj_on_of_nodup_map db.players_id (mem_groupMax_finishedScores.mp hr).1
    (mem_groupMax_finishedScores.mp hr').1 hid

theorem length_groupMax_finishedScores :
    (groupMax (db.finishedScores mode)).length =
      (db.players.filter fun p => (db.bestScore mode p.id).isSome).length := by
  rw [← List.length_map (f := Prod.fst)]
  refine List.Perm.length_eq ((List.perm_ext_iff_of_nodup ?_ ?_).mpr fun p => ?_)
  · rw [map_fst_groupMax]
    exact List.nodup_dedup _
  · exact (db.players_id.of_map).filter _
  · rw [List.mem_map, List.mem_filter, Option.isSome_iff_exists]
    constructor
    · rintro ⟨⟨p, score⟩, hr, rfl⟩
      obtain ⟨hp, hbest⟩ := mem_groupMax_finishedScores.mp hr
      exact ⟨hp, score, hbest⟩
    · rintro ⟨hp, score, hbest⟩
      exact ⟨(p, score), mem_groupMax_finishedScores.mpr ⟨hp, hbest⟩, rfl⟩

/-! ## Their order -/

theorem ranksBefore_trans (a b c : PlayerRow × ℤ) (hab : ranksBefore a b)
    (hbc : ranksBefore b c) : ranksBefore a c := by
  simp only [ranksBefore, Bool.or_eq_true, Bool.and_eq_true, decide_eq_true_eq] at *
  omega

theorem ranksBefore_total (a b : PlayerRow × ℤ) : ranksBefore a b || ranksBefore b a := by
  simp only [ranksBefore, Bool.or_eq_true, Bool.and_eq_true, decide_eq_true_eq]
  omega

/-- Two players are never at the same place. -/
theorem above_of_ranksBefore {a b : PlayerRow × ℤ} (h : ranksBefore a b) (hne : a.1.id ≠ b.1.id) :
    Above (a.2, a.1.id) (b.2, b.1.id) := by
  simp only [ranksBefore, Bool.or_eq_true, Bool.and_eq_true, decide_eq_true_eq] at h
  simp only [Above]
  omega

/-- The rows that the leaderboard numbers. -/
def leaderboardRows (db : Database) (mode : Option GameMode) (n : ℕ) : List (PlayerRow × ℤ) :=
  top ranksBefore n (groupMax (db.finishedScores mode))

theorem mem_leaderboardRows {p : PlayerRow} {score : ℤ}
    (h : (p, score) ∈ db.leaderboardRows mode n) :
    p ∈ db.players ∧ db.bestScore mode p.id = some score :=
  mem_groupMax_finishedScores.mp (mem_of_mem_top h)

theorem leaderboard_eq (db : Database) (mode : Option GameMode) (n : ℕ) :
    db.leaderboard mode n = (db.leaderboardRows mode n).mapIdx fun index r =>
      { rank := index + 1, playerId := r.1.id, pseudo := r.1.pseudo, score := r.2 } := rfl

/-- Numbering the rows leaves what they hold as it is. -/
theorem map_leaderboard {β : Type} (f : LeaderboardEntry → β) (f' : PlayerRow × ℤ → β)
    (h : ∀ rank r, f { rank, playerId := r.1.id, pseudo := r.1.pseudo, score := r.2 } = f' r) :
    (db.leaderboard mode n).map f = (db.leaderboardRows mode n).map f' := by
  rw [leaderboard_eq]
  refine List.ext_getElem (by simp) fun i hi hi' => ?_
  simp [h]

theorem pairwise_leaderboardRows :
    (db.leaderboardRows mode n).Pairwise fun r r' => Above (r.2, r.1.id) (r'.2, r'.1.id) := by
  have hnodup : ((db.leaderboardRows mode n).map fun r => r.1.id).Nodup :=
    nodup_top nodup_groupMax_finishedScores
  refine List.Pairwise.imp₂ (fun _ _ => above_of_ranksBefore) ?_ (List.pairwise_map.mp hnodup)
  exact pairwise_top ranksBefore_trans ranksBefore_total

theorem leaderboard_prefix {m : ℕ} (h : m ≤ n) :
    db.leaderboard mode m <+: db.leaderboard mode n := by
  obtain ⟨rest, hrest⟩ : db.leaderboardRows mode m <+: db.leaderboardRows mode n := top_prefix h
  rw [leaderboard_eq, leaderboard_eq, ← hrest, List.mapIdx_append]
  exact List.prefix_append _ _

end Database

/-- The leaderboard is the top `n`, and one with a lower limit is the start of it. -/
theorem leaderboard_top (db : Database) (mode : Option GameMode) (n : ℕ) :
    IsTop db mode n (db.leaderboard mode n) ∧
      ∀ m ≤ n, db.leaderboard mode m <+: db.leaderboard mode n := by
  have hids : (db.leaderboard mode n).map LeaderboardEntry.playerId =
      (db.leaderboardRows mode n).map fun r => r.1.id :=
    Database.map_leaderboard _ _ fun _ _ => rfl
  have hkeys : (db.leaderboard mode n).map LeaderboardEntry.key =
      (db.leaderboardRows mode n).map fun r => (r.2, r.1.id) :=
    Database.map_leaderboard _ _ fun _ _ => rfl
  have hlength : (db.leaderboard mode n).length = (db.leaderboardRows mode n).length :=
    List.length_mapIdx
  have hrow : ∀ e ∈ db.leaderboard mode n, ∃ r ∈ db.leaderboardRows mode n,
      r.1.id = e.playerId ∧ r.1.pseudo = e.pseudo ∧ r.2 = e.score := by
    intro e he
    rw [Database.leaderboard_eq, List.mem_mapIdx] at he
    obtain ⟨i, hi, rfl⟩ := he
    exact ⟨_, List.getElem_mem hi, rfl, rfl, rfl⟩
  refine ⟨?_, fun m hm => Database.leaderboard_prefix hm⟩
  constructor
  case entries =>
    intro e he
    obtain ⟨r, hr, hid, hpseudo, hscore⟩ := hrow e he
    obtain ⟨hp, hbest⟩ := Database.mem_leaderboardRows hr
    exact ⟨r.1, hp, hid, hpseudo, hscore ▸ hbest⟩
  case nodup =>
    rw [hids]
    exact nodup_top Database.nodup_groupMax_finishedScores
  case ordered =>
    rw [hkeys]
    exact List.pairwise_map.mpr Database.pairwise_leaderboardRows
  case ranks =>
    rw [hlength, Database.leaderboard_eq]
    refine List.ext_getElem (by simp) fun i hi hi' => ?_
    simp [Nat.add_comm]
  case length =>
    rw [hlength, Database.leaderboardRows, length_top, Database.length_groupMax_finishedScores]
  case rest =>
    intro p hp score hbest hout e he
    rw [hids, List.mem_map] at hout
    obtain ⟨r, hr, hid, -, hscore⟩ := hrow e he
    have hmem := Database.mem_groupMax_finishedScores.mpr ⟨hp, hbest⟩
    have hleft : (p, score) ∉ db.leaderboardRows mode n := fun h => hout ⟨_, h, rfl⟩
    have hbefore := le_of_not_mem_top Database.ranksBefore_trans Database.ranksBefore_total hmem
      hleft hr
    rw [LeaderboardEntry.key, ← hid, ← hscore]
    exact Database.above_of_ranksBefore hbefore fun heq => hout ⟨r, hr, heq⟩

end FlipperBack
