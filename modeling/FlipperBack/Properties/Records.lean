import FlipperBack.Properties.FlushContent
import FlipperBack.Properties.Leaderboard
import FlipperBack.UseCase.History

/-!
# The record of a player

The best solo score of a player is computed in four places: before a flush, by the
query of the repository, in the leaderboard and in the history. After any sequence
of flushes and of ends of games over HTTP they all are the maximum of the solo
scores that the player has finished (`records_agree`).
-/

namespace FlipperBack

open Effects Python Query

/-! ## The views of one database -/

namespace Database

/-- The scores of the finished solo games of a player. -/
def soloScores (db : Database) (pseudo : String) : List ℤ :=
  (db.games.filter fun g => g.mode = .solo ∧ g.status = .finished ∧
    ∃ p ∈ db.players, p.id = g.playerId ∧ p.pseudo = pseudo).map GameRow.score

variable {db : Database}

theorem mem_soloScores {pseudo : String} {score : ℤ} :
    score ∈ db.soloScores pseudo ↔ ∃ g ∈ db.games, g.mode = .solo ∧ g.status = .finished ∧
      g.score = score ∧ ∃ p ∈ db.players, p.id = g.playerId ∧ p.pseudo = pseudo := by
  rw [soloScores, List.mem_map]
  constructor
  · rintro ⟨g, hg, rfl⟩
    obtain ⟨hg, hsolo⟩ := List.mem_filter.mp hg
    obtain ⟨hmode, hstatus, hplayer⟩ := of_decide_eq_true hsolo
    exact ⟨g, hg, hmode, hstatus, rfl, hplayer⟩
  · rintro ⟨g, hg, hmode, hstatus, rfl, hplayer⟩
    exact ⟨g, List.mem_filter.mpr ⟨hg, decide_eq_true ⟨hmode, hstatus, hplayer⟩⟩, rfl⟩

theorem bestSoloScore_eq (playerId : ℕ) :
    db.bestSoloScore playerId = db.bestScore (some .solo) playerId := by
  rw [bestSoloScore, bestScore]
  congr 2
  refine List.filter_congr fun g _ => Bool.eq_iff_iff.mpr ?_
  simp [and_assoc, and_comm (a := g.mode = _)]

theorem bestSoloScore_eq_some {playerId : ℕ} {score : ℤ} :
    db.bestSoloScore playerId = some score ↔
      (∃ g ∈ db.games, g.playerId = playerId ∧ g.mode = .solo ∧ g.status = .finished ∧
        g.score = score) ∧
      ∀ g ∈ db.games, g.playerId = playerId → g.mode = .solo → g.status = .finished →
        g.score ≤ score := by
  have hmem : ∀ x, x ∈ (db.games.filter fun g => g.playerId == playerId && g.mode == .solo &&
      g.status == .finished).map GameRow.score ↔ ∃ g ∈ db.games, g.playerId = playerId ∧
        g.mode = .solo ∧ g.status = .finished ∧ g.score = x := by
    simp [and_assoc]
  rw [bestSoloScore, List.max?_eq_some_iff, hmem]
  refine and_congr_right fun _ => ⟨fun hle g hg hid hmode hstatus => ?_, fun hle x hx => ?_⟩
  · exact hle _ ((hmem _).mpr ⟨g, hg, hid, hmode, hstatus, rfl⟩)
  · obtain ⟨g, hg, hid, hmode, hstatus, rfl⟩ := (hmem x).mp hx
    exact hle g hg hid hmode hstatus

theorem bestSoloScore_of_mem {p : PlayerRow} (hp : p ∈ db.players) :
    db.bestSoloScore p.id = (db.soloScores p.pseudo).max? := by
  rw [bestSoloScore_eq]
  refine max?_congr fun score => ?_
  rw [mem_soloScores, List.mem_map]
  constructor
  · rintro ⟨g, hg, rfl⟩
    obtain ⟨hg, hid, hstatus, hmode⟩ := by simpa using List.mem_filter.mp hg
    exact ⟨g, hg, hmode, hstatus, rfl, p, hp, hid.symm, rfl⟩
  · rintro ⟨g, hg, hmode, hstatus, rfl, p', hp', hid, hpseudo⟩
    obtain rfl : p' = p := List.inj_on_of_nodup_map db.players_pseudo hp' hp hpseudo
    exact ⟨g, List.mem_filter.mpr ⟨hg, by simp [hid, hstatus, hmode]⟩, rfl⟩

/-- The query and the leaderboard both show `best` for the player. -/
structure Shows (db : Database) (playerId : ℕ) (best : Option ℤ) : Prop where
  query : db.bestSoloScore playerId = best
  listed : ∀ limit, ∀ e ∈ db.leaderboard (some .solo) limit, e.playerId = playerId →
    best = some e.score
  reached : best.isSome → ∃ n, ∀ limit ≥ n, ∃ e ∈ db.leaderboard (some .solo) limit,
    e.playerId = playerId

theorem shows {p : PlayerRow} (hp : p ∈ db.players) :
    db.Shows p.id (db.soloScores p.pseudo).max? where
  query := bestSoloScore_of_mem hp
  listed := by
    intro limit e he hid
    obtain ⟨p', hp', hid', -, hbest⟩ := (leaderboard_top db (some .solo) limit).1.entries e he
    rw [← bestSoloScore_of_mem hp, bestSoloScore_eq, ← hid, ← hid', hbest]
  reached := by
    intro hbest
    obtain ⟨best, hbest⟩ := Option.isSome_iff_exists.mp hbest
    rw [← bestSoloScore_of_mem hp, bestSoloScore_eq] at hbest
    refine ⟨(groupMax (db.finishedScores (some .solo))).length, fun limit hlimit => ?_⟩
    have hrow : (p, best) ∈ db.leaderboardRows (some .solo) limit :=
      mem_top_of_length_le (mem_groupMax_finishedScores.mpr ⟨hp, hbest⟩) hlimit
    have hmem : p.id ∈ (db.leaderboard (some .solo) limit).map LeaderboardEntry.playerId := by
      rw [map_leaderboard _ (fun r => r.1.id) fun _ _ => rfl]
      exact List.mem_map.mpr ⟨_, hrow, rfl⟩
    obtain ⟨e, he, hid⟩ := List.mem_map.mp hmem
    exact ⟨e, he, hid⟩

end Database

/-- An item of a history is the best one where it is of a solo game that no finished
solo game of the player beats. -/
theorem history_isBest {db : Database} {playerId : ℤ} {mode : Option GameMode} {limit : ℕ}
    {player : Player} {items : List PlayerHistoryItem}
    (h : GetPlayerHistory.execute db playerId mode limit = .ok (player, items)) :
    ∀ item ∈ items, item.isBest = true ↔ item.game.mode = .solo ∧
      ∀ g ∈ db.games, g.playerId = player.id → g.mode = .solo → g.status = .finished →
        g.score ≤ item.game.score := by
  rw [GetPlayerHistory.execute] at h
  cases hselect : db.selectPlayer playerId with
  | error e =>
      rw [hselect] at h
      cases h
  | ok found =>
      rw [hselect] at h
      cases found with
      | none => cases h
      | some row =>
          obtain ⟨rfl, rfl⟩ := Prod.mk.inj (Except.ok.inj h)
          unfold Database.selectPlayer at hselect
          split at hselect
          · cases hselect
          · have hid : (row.id : ℤ) = playerId := by
              simpa using List.find?_some (Except.ok.inj hselect)
            subst hid
            intro item hitem
            obtain ⟨g, hg, rfl⟩ := List.mem_map.mp hitem
            obtain ⟨hgame, hplayer, hstatus, -⟩ := by
              simpa using List.mem_filter.mp (mem_of_mem_top hg)
            rw [GetPlayerHistory.flag, decide_eq_true_iff]
            refine and_congr_right fun hmode => Database.bestSoloScore_eq_some.trans ?_
            exact ⟨And.right, fun hle => ⟨⟨g, hgame, hplayer, hmode, hstatus, rfl⟩, hle⟩⟩

/-! ## What a flush enters -/

/-- A flush that is stored enters its score, where it is of a solo session. -/
theorem Written.mem_soloScores {db db' : Database} {s : FinishedSession} {rows : List EventRow}
    {playerId gameId : ℕ} (h : Written db db' s rows playerId gameId) (pseudo : String) (x : ℤ) :
    x ∈ db'.soloScores pseudo ↔
      x ∈ db.soloScores pseudo ∨ s.mode = .solo ∧ s.pseudo = pseudo ∧ s.score.val = x := by
  have hplayers : ∀ p ∈ db.players, p ∈ db'.players := by
    intro p hp
    rcases h.players with hsame | hadded
    · rwa [hsame]
    · rw [hadded]
      exact List.mem_append_left _ hp
  rw [Database.mem_soloScores, Database.mem_soloScores, h.games]
  constructor
  · rintro ⟨g, hg, hmode, hstatus, rfl, p, hp, hid, hpseudo⟩
    rcases List.mem_append.mp hg with hg | hg
    · -- The player of an old game was there before.
      obtain ⟨p', hp', hid'⟩ := db.games_player g hg
      obtain rfl : p' = p :=
        List.inj_on_of_nodup_map db'.players_id (hplayers p' hp') hp (hid'.trans hid.symm)
      exact Or.inl ⟨g, hg, hmode, hstatus, rfl, p', hp', hid, hpseudo⟩
    · obtain rfl := List.mem_singleton.mp hg
      obtain ⟨p', hp', hid', hpseudo'⟩ := h.player
      obtain rfl : p' = p :=
        List.inj_on_of_nodup_map db'.players_id hp' hp (hid'.trans hid.symm)
      exact Or.inr ⟨hmode, hpseudo'.symm.trans hpseudo, rfl⟩
  · rintro (⟨g, hg, hmode, hstatus, rfl, p, hp, hid, hpseudo⟩ | ⟨hmode, rfl, rfl⟩)
    · exact ⟨g, List.mem_append_left _ hg, hmode, hstatus, rfl, p, hplayers p hp, hid, hpseudo⟩
    · obtain ⟨p, hp, hid, hpseudo⟩ := h.player
      exact ⟨_, List.mem_append_right _ (List.mem_singleton_self _), hmode, rfl, rfl, p, hp, hid,
        hpseudo⟩

/-- A flush that is not of a solo session leaves the leaderboard of solo games alone. -/
theorem Written.finishedScores_solo {db db' : Database} {s : FinishedSession}
    {rows : List EventRow} {playerId gameId : ℕ} (h : Written db db' s rows playerId gameId)
    (hmode : s.mode ≠ .solo) :
    db'.finishedScores (some .solo) = db.finishedScores (some .solo) := by
  have hplayers : ∀ g ∈ db.games, (db'.players.filter fun p => p.id = g.playerId) =
      db.players.filter fun p => p.id = g.playerId := by
    intro g hg
    rcases h.players with hsame | hadded
    · rw [hsame]
    · -- The id of a new player is not one that a game has.
      obtain ⟨p, hp, hid⟩ := db.games_player g hg
      have hnodup := db'.players_id
      rw [hadded, List.map_append, List.nodup_append] at hnodup
      have hne : p.id ≠ playerId :=
        hnodup.2.2 _ (List.mem_map_of_mem hp) _ (List.mem_singleton_self _)
      rw [hadded, List.filter_append, List.filter_singleton]
      simp [← hid, hne.symm]
  rw [Database.finishedScores, Database.finishedScores, h.games, List.filter_append,
    List.filter_singleton]
  simp only [Option.mem_def, Option.some.injEq, forall_eq', hmode, and_false, decide_false,
    cond_false, List.append_nil]
  refine List.flatMap_congr fun g hg => ?_
  rw [hplayers g (List.mem_of_mem_filter hg)]

theorem run_previousBestFor_eq (ctx : Context) (w : World) (pseudo : String) (mode : GameMode) :
    (previousBestFor pseudo mode).run (handle ctx) w =
      (.ok (if mode = .solo then (w.db.soloScores pseudo).max? else none), w) := by
  unfold previousBestFor
  split
  · rw [Prog.run_bind, Prog.run_perform, handle]
    dsimp only
    cases hfind : w.db.players.find? fun p => p.pseudo == pseudo with
    | none =>
        have hnone : w.db.soloScores pseudo = [] := by
          refine List.eq_nil_iff_forall_not_mem.mpr fun x hx => ?_
          obtain ⟨-, -, -, -, -, p, hp, -, hpseudo⟩ := Database.mem_soloScores.mp hx
          exact List.find?_eq_none.mp hfind p hp (beq_iff_eq.mpr hpseudo)
        rw [World.player, hfind, hnone]
        rfl
    | some row =>
        have hpseudo : row.pseudo = pseudo := by simpa using List.find?_some hfind
        have hbest := Database.bestSoloScore_of_mem (List.mem_of_find?_eq_some hfind)
        rw [hpseudo] at hbest
        rw [World.player, hfind, ← hbest]
        rfl
  · rfl

/-- A flush that returns has entered its score, and compares it with what was there. -/
theorem finishAndPersist_record {ctx : Context} {clock : Clock} {sessionId : String} {w w' : World}
    {res : FinishAndPersistResult}
    (h : (finishAndPersist clock sessionId).run (handle ctx) w = (.ok res, w')) :
    ∃ s events rows, w.seen sessionId = some s ∧
      res.previousBest = (if s.mode = .solo then (w.db.soloScores s.pseudo).max? else none) ∧
      res.improved = computeImproved s.mode s.score res.previousBest ∧
      Written w.db w'.db (s.finished clock events) rows res.playerId res.gameId := by
  rw [finishAndPersist] at h
  obtain ⟨found, w₁, hget, h⟩ := Prog.run_bind_ok h
  rw [Prog.run_perform, handle] at hget
  obtain ⟨hread, rfl⟩ := Prod.mk.inj hget
  have hseen : w.seen sessionId = found := by rw [World.seen, hread]
  cases found with
  | none => cases (Prod.mk.inj h).1
  | some s =>
      obtain ⟨events, w₁, hevents, h⟩ := Prog.run_bind_ok h
      rw [Prog.run_perform, handle] at hevents
      obtain ⟨-, rfl⟩ := Prod.mk.inj hevents
      rw [Prog.run_bind, run_previousBestFor_eq] at h
      obtain ⟨⟨playerId, gameId, eventCount⟩, w₁, hpersist, h⟩ := Prog.run_bind_ok h
      rw [Prog.run_perform, handle] at hpersist
      obtain ⟨hresult, rfl⟩ := Prod.mk.inj hpersist
      obtain ⟨hres, rfl⟩ := Prod.mk.inj h
      obtain rfl := Except.ok.inj hres
      obtain ⟨rows, -, -, hwritten⟩ := persist_ok (Prod.ext hresult rfl)
      exact ⟨s, events, rows, hseen, rfl, rfl, hwritten⟩

/-! ## Sequences of games that end -/

/-- What ends a game: a flush on the stores of a world, or the end over HTTP. -/
inductive GameEnding
  | flush (w : World) (ctx : Context) (clock : Clock) (sessionId : String)
  | finish (gameId : ℤ) (now last : DateTime)

namespace GameEnding

/-- A flush of a session of the stores of `w`, on the database `db`. -/
def flushed (w : World) (ctx : Context) (clock : Clock) (sessionId : String) (db : Database) :
    Except Exc FinishAndPersistResult × World :=
  (finishAndPersist clock sessionId).run (handle ctx) { w with db }

/-- The database after an ending. -/
def step (db : Database) : GameEnding → Database
  | flush w ctx clock sessionId => (flushed w ctx clock sessionId db).2.db
  | finish gameId now last => (FinishGame.onDatabase db gameId now last).2

/-- A flush has returned. -/
def Completed (db : Database) : GameEnding → Prop
  | flush w ctx clock sessionId => (flushed w ctx clock sessionId db).1.isOk
  | finish _ _ _ => True

instance (db : Database) : (e : GameEnding) → Decidable (e.Completed db)
  | flush w ctx clock sessionId =>
      inferInstanceAs (Decidable ((flushed w ctx clock sessionId db).1.isOk = true))
  | finish _ _ _ => inferInstanceAs (Decidable True)

/-- The player and the score of the solo game that has ended. -/
def entry (db : Database) : GameEnding → Option (String × ℤ)
  | flush w _ _ sessionId =>
      match w.seen sessionId with
      | some s => if s.mode = .solo then some (s.pseudo, s.score.val) else none
      | none => none
  | finish gameId _ _ =>
      match db.selectGame gameId with
      | .ok (some g) =>
          if g.mode = .solo ∧ g.status = .playing then
            (db.players.find? fun p => p.id = g.playerId).map fun p => (p.pseudo, g.score)
          else none
      | _ => none

/-- The database after a sequence of endings. -/
def run (db : Database) (es : List GameEnding) : Database :=
  es.foldl step db

/-- Every flush of a sequence has returned. -/
def Complete : Database → List GameEnding → Prop
  | _, [] => True
  | db, e :: es => e.Completed db ∧ Complete (e.step db) es

/-- The solo games that have ended in a sequence. -/
def entries : Database → List GameEnding → List (String × ℤ)
  | _, [] => []
  | db, e :: es => (e.entry db).toList ++ entries (e.step db) es

/-- The solo scores of a player, first those of `db` and then those entered. -/
def scores (db : Database) (es : List GameEnding) (pseudo : String) : List ℤ :=
  db.soloScores pseudo ++ ((entries db es).filter fun r => r.1 = pseudo).map Prod.snd

end GameEnding

/-- A game that ends enters its score, where it is a solo game. -/
theorem FinishGame.mem_soloScores_closed {db db' : Database} {g : GameRow} (hg : g ∈ db.games)
    (hplaying : g.status = .playing) {now last : DateTime}
    (hrows : db'.rows = closedRows db g now last) (pseudo : String) (x : ℤ) :
    x ∈ db'.soloScores pseudo ↔ x ∈ db.soloScores pseudo ∨ g.mode = .solo ∧ g.score = x ∧
      ∃ p ∈ db.players, p.id = g.playerId ∧ p.pseudo = pseudo := by
  rw [Database.rows, closedRows, Prod.mk.injEq, Prod.mk.injEq] at hrows
  obtain ⟨hplayers, hgames, -⟩ := hrows
  rw [Database.mem_soloScores, Database.mem_soloScores, hplayers, hgames]
  constructor
  · rintro ⟨g₁, hg₁, hmode, hstatus, rfl, hplayer⟩
    obtain ⟨g₀, hg₀, rfl⟩ := List.mem_map.mp hg₁
    by_cases hid : (g₀.id : ℤ) = g.id
    · obtain rfl : g₀ = g := List.inj_on_of_nodup_map db.games_id hg₀ hg (Int.ofNat.inj hid)
      rw [if_pos hid] at hmode hplayer ⊢
      exact Or.inr ⟨hmode, rfl, hplayer⟩
    · rw [if_neg hid] at hmode hstatus hplayer ⊢
      exact Or.inl ⟨g₀, hg₀, hmode, hstatus, rfl, hplayer⟩
  · rintro (⟨g₀, hg₀, hmode, hstatus, rfl, hplayer⟩ | ⟨hmode, rfl, hplayer⟩)
    · -- What is finished is another game.
      have hid : ¬ (g₀.id : ℤ) = g.id := by
        intro hid
        obtain rfl : g₀ = g := List.inj_on_of_nodup_map db.games_id hg₀ hg (Int.ofNat.inj hid)
        exact absurd (hstatus.symm.trans hplaying) (by decide)
      exact ⟨g₀, List.mem_map.mpr ⟨g₀, hg₀, if_neg hid⟩, hmode, hstatus, rfl, hplayer⟩
    · exact ⟨Database.finished g now, List.mem_map.mpr ⟨g, hg, if_pos rfl⟩, hmode, rfl, rfl,
        hplayer⟩

/-- The player of a row is found by its id. -/
theorem Database.find?_player_eq_some {db : Database} {id : ℕ} {p : PlayerRow} :
    db.players.find? (fun p => p.id = id) = some p ↔ p ∈ db.players ∧ p.id = id := by
  constructor
  · intro h
    exact ⟨List.mem_of_find?_eq_some h, by simpa using List.find?_some h⟩
  · rintro ⟨hp, rfl⟩
    cases hfind : db.players.find? fun p' => p'.id = p.id with
    | none => exact absurd (List.find?_eq_none.mp hfind p hp) (by simp)
    | some p' =>
        have hid : p'.id = p.id := by simpa using List.find?_some hfind
        rw [List.inj_on_of_nodup_map db.players_id (List.mem_of_find?_eq_some hfind) hp hid]

/-- The end of a game over HTTP enters its score, where it is a solo game that is
being played. -/
theorem FinishGame.mem_soloScores {db : Database} {gameId : ℤ} {now last : DateTime}
    (pseudo : String) (x : ℤ) :
    x ∈ (FinishGame.onDatabase db gameId now last).2.soloScores pseudo ↔
      x ∈ db.soloScores pseudo ∨
        (GameEnding.finish gameId now last).entry db = some (pseudo, x) := by
  rw [FinishGame.onDatabase, GameEnding.entry]
  have hselect : db.selectGame gameId = db.selectGame gameId := rfl
  conv at hselect => rhs; unfold Database.selectGame
  split at hselect
  · rw [hselect]
    simp
  · next hfits =>
      replace hfits : fitsInteger gameId := by simpa using hfits
      rw [hselect]
      cases hgame : db.games.find? fun g => (g.id : ℤ) = gameId with
      | none => simp
      | some g =>
          obtain rfl : (g.id : ℤ) = gameId := by simpa using List.find?_some hgame
          dsimp only
          by_cases hplaying : g.status = .playing
          · obtain ⟨db', hclose, hrows⟩ := closeOnDatabase_eq hfits hgame now last
            rw [if_neg (not_not.mpr hplaying), hclose,
              mem_soloScores_closed (List.mem_of_find?_eq_some hgame) hplaying hrows]
            refine or_congr_right ?_
            split
            · next hsolo =>
                rw [Option.map_eq_some_iff]
                simp only [Database.find?_player_eq_some, Prod.mk.injEq]
                constructor
                · rintro ⟨-, rfl, p, hp, hid, rfl⟩
                  exact ⟨p, ⟨hp, hid⟩, rfl, rfl⟩
                · rintro ⟨p, ⟨hp, hid⟩, rfl, rfl⟩
                  exact ⟨hsolo.1, rfl, p, hp, hid, rfl⟩
            · next hsolo => simp [show g.mode ≠ .solo from fun hmode => hsolo ⟨hmode, hplaying⟩]
          · rw [if_pos hplaying, if_neg fun h => hplaying h.2]
            simp

theorem GameEnding.mem_soloScores_step {db : Database} {e : GameEnding} (h : e.Completed db)
    (pseudo : String) (x : ℤ) :
    x ∈ (e.step db).soloScores pseudo ↔
      x ∈ db.soloScores pseudo ∨ e.entry db = some (pseudo, x) := by
  cases e with
  | finish gameId now last => exact FinishGame.mem_soloScores pseudo x
  | flush w ctx clock sessionId =>
      rw [step, entry]
      rcases hrun : flushed w ctx clock sessionId db with ⟨r, w'⟩
      rw [Completed, hrun] at h
      cases r with
      | error e => cases h
      | ok res =>
          obtain ⟨s, events, rows, hseen, -, -, hwritten⟩ := finishAndPersist_record hrun
          have hseen' : w.seen sessionId = some s := hseen
          rw [hwritten.mem_soloScores, hseen']
          dsimp only
          split
          · next hmode => simp [hmode, Session.finished]
          · next hmode => simp [hmode, Session.finished]

theorem GameEnding.mem_soloScores_run {db : Database} {es : List GameEnding} (h : Complete db es)
    (pseudo : String) (x : ℤ) :
    x ∈ (run db es).soloScores pseudo ↔ x ∈ scores db es pseudo := by
  induction es generalizing db with
  | nil => simp [run, scores, entries]
  | cons e es ih =>
      have hstep := mem_soloScores_step h.1 pseudo x
      have hrun := ih h.2
      rw [scores, List.mem_append, hstep] at hrun
      rw [run, List.foldl_cons, ← run, hrun, scores, entries]
      simp [or_assoc]

/-! ## What a flush answers -/

/-- A solo flush with the score `x`, where `scores` have been entered before. -/
structure SoloFlush (scores : List ℤ) (x : ℤ) (res : FinishAndPersistResult) (db' : Database) :
    Prop where
  previousBest : res.previousBest = scores.max?
  improved : ∃ improved, res.improved = some improved ∧
    (improved = true ↔ ∀ best ∈ scores.max?, best < x)
  shows : db'.Shows res.playerId (some (scores.max?.elim x (max x)))

/-- A flush of another mode. -/
structure OtherFlush (db : Database) (res : FinishAndPersistResult) (db' : Database) : Prop where
  previousBest : res.previousBest = none
  improved : res.improved = none
  query : ∀ playerId, db'.bestSoloScore playerId = db.bestSoloScore playerId
  leaderboard : ∀ limit, db'.leaderboard (some .solo) limit = db.leaderboard (some .solo) limit

theorem SoloFlush.of_written {db db' : Database} {s : FinishedSession} {rows : List EventRow}
    {res : FinishAndPersistResult} {scores : List ℤ}
    (hscores : ∀ x, x ∈ db.soloScores s.pseudo ↔ x ∈ scores) (hmode : s.mode = .solo)
    (hwritten : Written db db' s rows res.playerId res.gameId)
    (hprevious : res.previousBest = (db.soloScores s.pseudo).max?)
    (himproved : res.improved = computeImproved s.mode s.score res.previousBest) :
    SoloFlush scores s.score.val res db' := by
  have hmax : (db.soloScores s.pseudo).max? = scores.max? := max?_congr hscores
  rw [hmax] at hprevious
  refine ⟨hprevious, ?_, ?_⟩
  · rw [himproved, hprevious]
    unfold computeImproved
    rw [if_pos hmode]
    cases scores.max? with
    | none => exact ⟨true, rfl, by simp⟩
    | some best => exact ⟨_, rfl, by simp⟩
  · obtain ⟨p, hp, hid, hpseudo⟩ := hwritten.player
    have hshows := db'.shows hp
    have hafter : (db'.soloScores p.pseudo).max? = (s.score.val :: scores).max? := by
      refine max?_congr fun x => ?_
      rw [hwritten.mem_soloScores, hpseudo, hscores, List.mem_cons, or_comm]
      simp [hmode, eq_comm]
    rw [hafter, List.max?_cons, hid] at hshows
    exact hshows

theorem OtherFlush.of_written {db db' : Database} {s : FinishedSession} {rows : List EventRow}
    {res : FinishAndPersistResult} (hmode : s.mode ≠ .solo)
    (hwritten : Written db db' s rows res.playerId res.gameId)
    (hprevious : res.previousBest = none)
    (himproved : res.improved = computeImproved s.mode s.score res.previousBest) :
    OtherFlush db res db' := by
  refine ⟨hprevious, ?_, fun playerId => ?_, fun limit => ?_⟩
  · rw [himproved]
    unfold computeImproved
    exact if_neg hmode
  · have hother : (s.mode == GameMode.solo) = false := beq_eq_false_iff_ne.mpr hmode
    rw [Database.bestSoloScore, Database.bestSoloScore, hwritten.games, List.filter_append,
      List.filter_singleton, hother, Bool.and_false, Bool.false_and, cond_false, List.append_nil]
  · rw [Database.leaderboard, Database.leaderboard, hwritten.finishedScores_solo hmode]

/-- What the flush of a session answers after a sequence of endings. -/
structure FlushAgrees (db : Database) (es : List GameEnding) (s : Session)
    (res : FinishAndPersistResult) (db' : Database) : Prop where
  solo : s.mode = .solo → SoloFlush (GameEnding.scores db es s.pseudo) s.score.val res db'
  other : s.mode ≠ .solo → OtherFlush (GameEnding.run db es) res db'

/-- After any sequence of flushes and of ends of games over HTTP, the query, the
leaderboard, the history and the next flush agree on the solo record of a player: the
maximum of the scores that were there and of those entered since. -/
theorem records_agree (db : Database) (es : List GameEnding) (h : GameEnding.Complete db es) :
    (∀ p ∈ (GameEnding.run db es).players,
      (GameEnding.run db es).Shows p.id (GameEnding.scores db es p.pseudo).max?) ∧
    (∀ playerId mode limit player items, GetPlayerHistory.execute (GameEnding.run db es) playerId
        mode limit = .ok (player, items) →
      ∀ item ∈ items, item.isBest = true ↔ item.game.mode = .solo ∧
        ∀ g ∈ (GameEnding.run db es).games, g.playerId = player.id → g.mode = .solo →
          g.status = .finished → g.score ≤ item.game.score) ∧
    ∀ w ctx clock sessionId res w',
      GameEnding.flushed w ctx clock sessionId (GameEnding.run db es) = (.ok res, w') →
      ∃ s, w.seen sessionId = some s ∧ FlushAgrees db es s res w'.db := by
  refine ⟨fun p hp => ?_, fun _ _ _ _ _ => history_isBest, ?_⟩
  · have hshows := Database.shows hp
    rwa [max?_congr (GameEnding.mem_soloScores_run h p.pseudo)] at hshows
  · intro w ctx clock sessionId res w' hflush
    obtain ⟨s, events, rows, hseen, hprevious, himproved, hwritten⟩ :=
      finishAndPersist_record hflush
    refine ⟨s, hseen, fun hmode => ?_, fun hmode => ?_⟩
    · rw [if_pos hmode] at hprevious
      exact .of_written (s := s.finished clock events)
        (GameEnding.mem_soloScores_run h s.pseudo) hmode hwritten hprevious himproved
    · rw [if_neg hmode] at hprevious
      exact .of_written (s := s.finished clock events) hmode hwritten hprevious himproved

/-- A solo session in the stores of `w`. -/
def soloSession (w : World) (score : ℤ) : World :=
  w.putSession { sessionId := "s", pseudo := "ABC", score := .int score, createdAt := default }

/-- Two solo games of a player, the second one with the lower score. -/
def twoSoloGames (w : World) : List GameEnding :=
  [.flush (soloSession w 70) {} default "s", .flush (soloSession w 50) {} default "s"]

theorem records_agree_twoSoloGames :
    GameEnding.Complete {} (twoSoloGames {}) ∧
      (GameEnding.run {} (twoSoloGames {})).Shows 1 (some 70) ∧
      ∃ res w', GameEnding.flushed (soloSession {} 90) {} default "s"
          (GameEnding.run {} (twoSoloGames {})) = (.ok res, w') ∧
        SoloFlush [70, 50] 90 res w'.db := by
  have hcomplete : GameEnding.Complete {} (twoSoloGames {}) :=
    ⟨by decide +kernel, by decide +kernel, trivial⟩
  obtain ⟨hshows, -, hflush⟩ := records_agree {} (twoSoloGames {}) hcomplete
  have hscores : GameEnding.scores {} (twoSoloGames {}) "ABC" = [70, 50] := by decide +kernel
  refine ⟨hcomplete, ?_, ?_⟩
  · have hplayer : ⟨1, "ABC"⟩ ∈ (GameEnding.run {} (twoSoloGames {})).players := by decide +kernel
    have hbest := hshows _ hplayer
    dsimp only at hbest
    rwa [hscores] at hbest
  · have hok : (GameEnding.flushed (soloSession {} 90) {} default "s"
        (GameEnding.run {} (twoSoloGames {}))).1.isOk := by decide +kernel
    rcases hrun : GameEnding.flushed (soloSession {} 90) {} default "s"
      (GameEnding.run {} (twoSoloGames {})) with ⟨e | res, w'⟩
    · rw [hrun] at hok
      cases hok
    · obtain ⟨s, hseen, hagrees⟩ := hflush _ _ _ _ _ _ hrun
      have hs : (soloSession {} 90).seen "s" = some
          { sessionId := "s", pseudo := "ABC", score := .int 90, createdAt := default } := by
        decide +kernel
      obtain rfl := Option.some.inj (hs.symm.trans hseen)
      have hsolo := hagrees.solo rfl
      dsimp only at hsolo
      rw [hscores] at hsolo
      exact ⟨res, w', rfl, hsolo⟩

end FlipperBack
