import FlipperBack.Infrastructure.UnitOfWork
import FlipperBack.UseCase.Games

/-!
# Calls that fail while a game starts

`StartGame` writes up to four tables in a unit of work. Whatever calls fail in it,
and wherever it raises by itself, it leaves the tables as they were; where it
returns, it has added a game and its first event, the player and the room where
they were missing, and nothing else. The pseudo is inserted as it is given, and
its column cuts the spaces that it has beyond fifty characters: the game is of
the player of the pseudo exactly for the pseudos that leave none to cut
(`startGame_allOrNothing`).
-/

namespace FlipperBack

open Effects Python

/-- The tables of `s'` are those of `s` and what `StartGame` adds, for the
transaction `o`: one game that has just started, of the player of the pseudo and
in the room of the code or in a new one, and one event. -/
structure StartedIn (o : Option ℕ) (s s' : Postgres) (pseudo : String) (mode : GameMode)
    (roomCode : Option String) (st : Started) : Prop where
  playerPseudo : st.player.pseudo = pseudo
  player : ((none, { id := st.player.id, pseudo := pseudo }) ∈ s.players.rows ∧
      s'.players.rows = s.players.rows) ∨
    ((∀ x ∈ s.players.rows, x.2.pseudo ≠ pseudo) ∧
      s'.players.rows = s.players.rows ++ [(o, { id := st.player.id, pseudo := pseudo })])
  room : (roomCode = some st.room.code ∧ (none, st.room) ∈ s.rooms.rows ∧
      s'.rooms.rows = s.rooms.rows) ∨
    (roomCode.getD "" = "" ∧ st.room.mode = mode ∧
      s'.rooms.rows = s.rooms.rows ++ [(o, st.room)])
  games : s'.games.rows = s.games.rows ++ [(o, st.game)]
  game : st.game.playerId = st.player.id ∧ st.game.roomId = some st.room.id ∧
    st.game.mode = mode ∧ st.game.status = .playing ∧ st.game.score = 0 ∧
    st.game.finishedAt = none
  gameEvents : s'.gameEvents.rows = s.gameEvents.rows ++ [(o, st.event)]
  event : st.event.gameId = st.game.id ∧ st.event.type = .gameStarted ∧ st.event.points = 0

section Body

variable {c : ℕ} {plan plan' : List Bool} {v v' : Server}

/-- A call that answers under failures went through. -/
theorem run_pg_ok {call : PgCall} {a : call.Res}
    (h : (pg call).run (failingUow c) (plan, v) = (.ok a, plan', v')) :
    serve c call v = (.ok a, v') := by
  rw [Prog.run_perform] at h
  obtain ⟨plan₁, hcase | hcase⟩ := failingUow_cases (c := c) call plan v
  · rw [hcase] at h
    obtain ⟨ha, hv⟩ := Prod.mk.inj h
    rw [← ha, ← (Prod.mk.inj hv).2]
  · rw [hcase] at h
    cases (Prod.mk.inj h).1

/-- A statement that writes and answers took effect. -/
theorem Server.write_ok {α : Type} {r : Except Exc (α × Postgres)} {a : α}
    (h : v.write r = (.ok a, v')) : ∃ s, r = .ok (a, s) ∧ v' = { v with pg := s } := by
  rcases r with e | ⟨a', s⟩
  · cases (Prod.mk.inj h).1
  · obtain ⟨ha, rfl⟩ := Prod.mk.inj h
    exact ⟨s, by rw [Except.ok.inj ha], rfl⟩

/-- A row that the transaction of `c` sees is committed, where none is of it. -/
theorem NoneOf.mem_of_visible {ρ : Type} {key : ρ → ℕ} {t : TxTable ℕ key} {r : ρ}
    (h : NoneOf c t.rows) (hr : r ∈ t.visible (some c)) : (none, r) ∈ t.rows := by
  obtain ⟨x, hx, rfl, hnone | hc⟩ := TxTable.mem_visible.mp hr
  · rw [← hnone]
    exact hx
  · exact absurd hc (h x hx)

/-- A player that is created has been inserted. -/
theorem create_ok {pseudo : String} {player : Player}
    (h : (PgPlayerRepository.create pseudo).run (failingUow c) (plan, v) =
      (.ok player, plan', v')) :
    player.pseudo = varchar 50 pseudo ∧ ∃ s, v.pg.insertPlayer c pseudo = .ok (player.id, s) ∧
      v' = { v with pg := s } := by
  change (Prog.tryCatch _ _).run _ _ = _ at h
  rw [Prog.run_tryCatch] at h
  split at h
  · next a s' hrun =>
      obtain ⟨hplayer, rfl⟩ := Prod.mk.inj h
      obtain rfl := Except.ok.inj hplayer
      obtain ⟨id, ⟨plan₁, v₁⟩, hinsert, hrun⟩ := Prog.run_bind_ok hrun
      have hserve := run_pg_ok hinsert
      rw [serve] at hserve
      obtain ⟨ha, hs⟩ := Prod.mk.inj hrun
      obtain rfl := Except.ok.inj ha
      obtain ⟨-, rfl⟩ := Prod.mk.inj hs
      exact ⟨rfl, Server.write_ok hserve⟩
  · next e s' hrun =>
      split at h <;> cases (Prod.mk.inj h).1

theorem selectPlayer_ok {pseudo : String} {found : Option Player}
    (htx : v.pg.inTransaction c = true)
    (h : serve c (.selectPlayer pseudo) v = (.ok found, v')) :
    v' = v ∧ ∀ player ∈ found, player.pseudo = pseudo ∧
      { id := player.id, pseudo := pseudo } ∈ v.pg.players.visible (some c) := by
  obtain ⟨hfound, rfl⟩ := Prod.mk.inj h
  refine ⟨rfl, fun player hplayer => ?_⟩
  unfold Postgres.selectPlayer at hfound
  split at hfound
  · cases hfound
  · obtain rfl := Except.ok.inj hfound
    obtain ⟨p, hp, rfl⟩ := Option.map_eq_some_iff.mp hplayer
    have hpseudo : p.pseudo = pseudo := by simpa using List.find?_some hp
    have hmem := List.mem_of_find?_eq_some hp
    rw [Postgres.owner_of_inTransaction htx] at hmem
    exact ⟨hpseudo, hpseudo ▸ hmem⟩

theorem selectRoom_ok {code : String} {found : Option RoomRow}
    (htx : v.pg.inTransaction c = true)
    (h : serve c (.selectRoom code) v = (.ok found, v')) :
    v' = v ∧ ∀ room ∈ found, room.code = code ∧ room ∈ v.pg.rooms.visible (some c) := by
  obtain ⟨hfound, rfl⟩ := Prod.mk.inj h
  refine ⟨rfl, fun room hroom => ?_⟩
  unfold Postgres.selectRoom at hfound
  split at hfound
  · cases hfound
  · obtain rfl := Except.ok.inj hfound
    have hmem := List.mem_of_find?_eq_some hroom
    rw [Postgres.owner_of_inTransaction htx] at hmem
    exact ⟨by simpa using List.find?_some hroom, hmem⟩

/-- The player of a new game, where one is had: its row is there and committed,
or it has been added. -/
theorem startPlayer_ok {pseudo : String} {player : Player} (hpseudo : Uncut 50 pseudo)
    (htx : v.pg.inTransaction c = true)
    (hnone : NoneOf c v.pg.players.rows)
    (h : (startPlayer pseudo).run (failingUow c) (plan, v) = (.ok player, plan', v')) :
    player.pseudo = pseudo ∧ v'.pg.inTransaction c = true ∧
      v'.pg.rooms.rows = v.pg.rooms.rows ∧ v'.pg.games.rows = v.pg.games.rows ∧
      v'.pg.gameEvents.rows = v.pg.gameEvents.rows ∧
      (((none, { id := player.id, pseudo := pseudo }) ∈ v.pg.players.rows ∧
          v'.pg.players.rows = v.pg.players.rows) ∨
        ((∀ x ∈ v.pg.players.rows, x.2.pseudo ≠ pseudo) ∧ v'.pg.players.rows =
          v.pg.players.rows ++ [(some c, { id := player.id, pseudo := pseudo })])) := by
  obtain ⟨found, ⟨plan₁, v₁⟩, hselect, h⟩ := Prog.run_bind_ok h
  obtain ⟨rfl, hfound⟩ := selectPlayer_ok htx (run_pg_ok hselect)
  cases found with
  | some player' =>
      obtain ⟨hplayer, hv⟩ := Prod.mk.inj h
      obtain rfl := Except.ok.inj hplayer
      obtain ⟨-, rfl⟩ := Prod.mk.inj hv
      obtain ⟨hplayer, hvisible⟩ := hfound player' rfl
      exact ⟨hplayer, htx, rfl, rfl, rfl, Or.inl ⟨hnone.mem_of_visible hvisible, rfl⟩⟩
  | none =>
      obtain ⟨hplayer, s, hinsert, rfl⟩ := create_ok h
      obtain ⟨-, htables, htx'⟩ := Postgres.insertPlayer_ok hinsert
      have habsent := Postgres.insertPlayer_absent hinsert
      rw [hpseudo.varchar_eq (Postgres.insertPlayer_fits hinsert)] at hplayer htables habsent
      rw [Postgres.owner_of_inTransaction htx] at htables
      simp only [Postgres.tables, Prod.mk.injEq] at htables
      obtain ⟨hplayers, hrooms, hgames, hevents⟩ := htables
      exact ⟨hplayer, htx' ▸ htx, hrooms, hgames, hevents, Or.inr ⟨habsent, hplayers⟩⟩

/-- The room of a new game, where one is had: its row is there and committed, or
it has been added. -/
theorem startRoom_ok {hex : String} {mode : GameMode} {roomCode : Option String} {room : RoomRow}
    (htx : v.pg.inTransaction c = true) (hnone : NoneOf c v.pg.rooms.rows)
    (h : (startRoom hex mode roomCode).run (failingUow c) (plan, v) = (.ok room, plan', v')) :
    v'.pg.inTransaction c = true ∧ v'.pg.players.rows = v.pg.players.rows ∧
      v'.pg.games.rows = v.pg.games.rows ∧ v'.pg.gameEvents.rows = v.pg.gameEvents.rows ∧
      ((roomCode = some room.code ∧ (none, room) ∈ v.pg.rooms.rows ∧
          v'.pg.rooms.rows = v.pg.rooms.rows) ∨
        (roomCode.getD "" = "" ∧ room.mode = mode ∧
          v'.pg.rooms.rows = v.pg.rooms.rows ++ [(some c, room)])) := by
  unfold startRoom at h
  dsimp only at h
  split at h
  · next hcode =>
      unfold PgRoomRepository.create at h
      have hserve := run_pg_ok h
      rw [serve] at hserve
      obtain ⟨s, hinsert, rfl⟩ := Server.write_ok hserve
      obtain ⟨hroom, htables, htx'⟩ := Postgres.insertRoom_ok hinsert
      rw [Postgres.owner_of_inTransaction htx] at htables
      simp only [Postgres.tables, Prod.mk.injEq] at htables
      obtain ⟨hplayers, hrooms, hgames, hevents⟩ := htables
      exact ⟨htx' ▸ htx, hplayers, hgames, hevents, Or.inr ⟨hcode, by rw [hroom], hrooms⟩⟩
  · next hcode =>
      obtain ⟨found, ⟨plan₁, v₁⟩, hselect, h⟩ := Prog.run_bind_ok h
      obtain ⟨rfl, hfound⟩ := selectRoom_ok htx (run_pg_ok hselect)
      cases found with
      | some room' =>
          obtain ⟨hroom, hv⟩ := Prod.mk.inj h
          obtain rfl := Except.ok.inj hroom
          obtain ⟨-, rfl⟩ := Prod.mk.inj hv
          obtain ⟨hcode', hvisible⟩ := hfound room' rfl
          refine ⟨htx, rfl, rfl, rfl, Or.inl ⟨?_, hnone.mem_of_visible hvisible, rfl⟩⟩
          cases roomCode with
          | none => exact absurd rfl hcode
          | some code => rw [hcode', Option.getD_some]
      | none => cases (Prod.mk.inj h).1

/-- A game that is created has just started. -/
theorem createGame_ok {playerId : ℕ} {roomId : Option ℕ} {mode : GameMode} {game : GameRow}
    (htx : v.pg.inTransaction c = true)
    (h : (PgGameRepository.create playerId roomId mode).run (failingUow c) (plan, v) =
      (.ok game, plan', v')) :
    v'.pg.inTransaction c = true ∧ v'.pg.tables = (v.pg.players.rows, v.pg.rooms.rows,
        v.pg.games.rows ++ [(some c, game)], v.pg.gameEvents.rows) ∧
      game.playerId = playerId ∧ game.roomId = roomId ∧ game.mode = mode ∧
      game.status = .playing ∧ game.score = 0 ∧ game.finishedAt = none := by
  have hserve := run_pg_ok h
  rw [serve] at hserve
  obtain ⟨s, hinsert, rfl⟩ := Server.write_ok hserve
  obtain ⟨rfl, htables, htx'⟩ := Postgres.insertGame_ok hinsert
  rw [Postgres.owner_of_inTransaction (s := v.pg.tick) htx] at htables
  exact ⟨by rw [htx']; exact htx, htables, rfl, rfl, rfl, rfl, rfl, rfl⟩

theorem createEvent_ok {gameId : ℕ} {type : GameEventType} {points : ℤ} {event : GameEventRow}
    (htx : v.pg.inTransaction c = true)
    (h : (PgGameEventRepository.create gameId type points).run (failingUow c) (plan, v) =
      (.ok event, plan', v')) :
    v'.pg.tables = (v.pg.players.rows, v.pg.rooms.rows, v.pg.games.rows,
        v.pg.gameEvents.rows ++ [(some c, event)]) ∧
      event.gameId = gameId ∧ event.type = type ∧ event.points = points := by
  have hserve := run_pg_ok h
  rw [serve] at hserve
  obtain ⟨s, hinsert, rfl⟩ := Server.write_ok hserve
  obtain ⟨hgame, hrow, -, htables, -⟩ := Postgres.insertGameEvent_ok hinsert
  rw [Postgres.owner_of_inTransaction (s := v.pg.tick) htx] at htables
  exact ⟨htables, Int.ofNat.inj hgame, congrArg EventRow.type hrow, congrArg EventRow.points hrow⟩

/-- The calls of the body read or insert one row. -/
theorem startBody_inBody (hex pseudo : String) (mode : GameMode) (roomCode : Option String) :
    (startBody hex pseudo mode roomCode).All PgCall.InBody :=
  (startBody_calls hex pseudo mode roomCode).mono fun call hcall => by
    rcases call with s | _ | _ | _ | _ | _ | _ | _ | _ | _
    · cases s <;> trivial
    all_goals trivial

/-- The body of the unit of work, where it returns. -/
theorem startBody_ok {hex pseudo : String} {mode : GameMode} {roomCode : Option String}
    {st : Started} (hpseudo : Uncut 50 pseudo) (htx : v.pg.inTransaction c = true)
    (hplayers : NoneOf c v.pg.players.rows) (hrooms : NoneOf c v.pg.rooms.rows)
    (h : (startBody hex pseudo mode roomCode).run (failingUow c) (plan, v) =
      (.ok st, plan', v')) : StartedIn (some c) v.pg v'.pg pseudo mode roomCode st := by
  obtain ⟨player, ⟨plan₁, v₁⟩, hplayer, h⟩ := Prog.run_bind_ok h
  obtain ⟨room, ⟨plan₂, v₂⟩, hroom, h⟩ := Prog.run_bind_ok h
  obtain ⟨game, ⟨plan₃, v₃⟩, hgame, h⟩ := Prog.run_bind_ok h
  obtain ⟨event, ⟨plan₄, v₄⟩, hevent, h⟩ := Prog.run_bind_ok h
  obtain ⟨hst, hv⟩ := Prod.mk.inj h
  obtain rfl := Except.ok.inj hst
  obtain ⟨-, rfl⟩ := Prod.mk.inj hv
  obtain ⟨hplayerPseudo, htx₁, hrooms₁, hgames₁, hevents₁, hplayer⟩ :=
    startPlayer_ok hpseudo htx hplayers hplayer
  obtain ⟨htx₂, hplayers₂, hgames₂, hevents₂, hroom⟩ :=
    startRoom_ok htx₁ (hrooms₁ ▸ hrooms) hroom
  obtain ⟨htx₃, htables₃, hgame⟩ := createGame_ok htx₂ hgame
  obtain ⟨htables₄, hevent⟩ := createEvent_ok htx₃ hevent
  simp only [Postgres.tables, Prod.mk.injEq] at htables₃ htables₄
  obtain ⟨hplayers₃, hrooms₃, hgames₃, hevents₃⟩ := htables₃
  obtain ⟨hplayers₄, hrooms₄, hgames₄, hevents₄⟩ := htables₄
  have hplayers' : v₄.pg.players.rows = v₁.pg.players.rows := by
    rw [hplayers₄, hplayers₃, hplayers₂]
  have hrooms' : v₄.pg.rooms.rows = v₂.pg.rooms.rows := by rw [hrooms₄, hrooms₃]
  exact
    { playerPseudo := hplayerPseudo
      player := hplayers' ▸ hplayer
      room := by
        rw [hrooms', ← hrooms₁]
        exact hroom
      games := by rw [hgames₄, hgames₃, hgames₂, hgames₁]
      game := hgame
      gameEvents := by rw [hevents₄, hevents₃, hevents₂, hevents₁]
      event := hevent }

end Body

/-! ## After the commit -/

/-- What the transaction of `c` has added is there for good once it is
committed. -/
theorem StartedIn.commit {c : ℕ} {s s' : Postgres} {pseudo : String} {mode : GameMode}
    {roomCode : Option String} {st : Started} (hidle : s.Idle c)
    (h : StartedIn (some c) s s' pseudo mode roomCode st) :
    StartedIn none s ((s'.commit c).rollback c) pseudo mode roomCode st where
  playerPseudo := h.playerPseudo
  player := h.player.imp
    (fun ⟨hfound, hrows⟩ => ⟨hfound, hidle.players.commit_of_eq (t := s'.players) hrows⟩)
    fun ⟨habsent, hrows⟩ => ⟨habsent, hidle.players.commit (t := s'.players) [_] hrows⟩
  room := h.room.imp
    (fun ⟨hcode, hfound, hrows⟩ =>
      ⟨hcode, hfound, hidle.rooms.commit_of_eq (t := s'.rooms) hrows⟩)
    fun ⟨hcode, hmode, hrows⟩ =>
      ⟨hcode, hmode, hidle.rooms.commit (t := s'.rooms) [_] hrows⟩
  games := hidle.games.commit (t := s'.games) [_] h.games
  game := h.game
  gameEvents := hidle.gameEvents.commit (t := s'.gameEvents) [_] h.gameEvents
  event := h.event

/-- However the calls of its unit of work fail, `StartGame` leaves the tables as they
were where it raises, and where it returns it has added what it returns and nothing
else. -/
def StartsWhole (v : Server) (c : ℕ) (plan : List Bool) (hex pseudo : String) (mode : GameMode)
    (roomCode : Option String) : Prop :=
  let out := (StartGame.execute hex pseudo mode roomCode).run (failingUow c) (plan, v)
  (∀ e, out.1 = .error e → out.2.2.pg.tables = v.pg.tables) ∧
    ∀ st, out.1 = .ok st → StartedIn none v.pg out.2.2.pg pseudo mode roomCode st

/-- A pseudo of which nothing is cut leads to a whole start. -/
theorem startsWhole_of_uncut {pseudo : String} (hpseudo : Uncut 50 pseudo) {v : Server} {c : ℕ}
    (hidle : v.pg.Idle c) (plan : List Bool) (hex : String) (mode : GameMode)
    (roomCode : Option String) : StartsWhole v c plan hex pseudo mode roomCode := by
  unfold StartsWhole
  intro out
  rcases unitOfWork_cases (startBody_inBody hex pseudo mode roomCode) plan hidle with
    ⟨⟨e, he⟩, htables⟩ | ⟨st, plan₁, plan₂, v', hbody, -, hst, hpg⟩
  · refine ⟨fun _ _ => htables, fun st hst => ?_⟩
    cases he.symm.trans hst
  · refine ⟨fun e he => ?_, fun st' hst' => ?_⟩
    · cases hst.symm.trans he
    · obtain rfl := Except.ok.inj (hst.symm.trans hst')
      have hstarted := startBody_ok (v := { v with pg := v.pg.start c }) hpseudo
        (Function.update_self ..) hidle.players hidle.rooms hbody
      have hcommitted := StartedIn.commit (s := v.pg) hidle { hstarted with }
      rw [← hpg] at hcommitted
      exact hcommitted

/-- A database without a row. -/
def noRows : Postgres where
  clock _ := default

theorem idle_noRows (c : ℕ) : noRows.Idle c :=
  ⟨rfl, List.forall_mem_nil _, List.forall_mem_nil _, List.forall_mem_nil _,
    List.forall_mem_nil _⟩

/-- The player that the transaction of a start inserts there. -/
def firstPlayer (pseudo : String) : Postgres :=
  { noRows.start 0 with
    players := (noRows.start 0).players.insert (some 0) ⟨{ id := 1, pseudo }, rfl⟩
    players_pseudo := List.nodup_singleton _
    games_player := (noRows.start 0).games_player.insert_target _ _ }

theorem insertPlayer_noRows {pseudo : String} (hfits : fitsVarchar 50 pseudo) :
    (noRows.start 0).insertPlayer 0 pseudo = .ok (1, firstPlayer (varchar 50 pseudo)) := by
  have habsent : varchar 50 pseudo ∉ (noRows.start 0).players.rows.map fun x => x.2.pseudo :=
    List.not_mem_nil
  rw [Postgres.insertPlayer, if_neg (by simp [hfits]), dif_neg habsent]
  rfl

theorem startPlayer_noRows {pseudo : String} (hfits : fitsVarchar 50 pseudo) :
    (startPlayer pseudo).run (failingUow 0) ([], { pg := noRows.start 0 }) =
      (.ok { id := 1, pseudo := varchar 50 pseudo }, [],
        { pg := firstPlayer (varchar 50 pseudo) }) := by
  have htext : fitsText pseudo = true := ((Bool.and_eq_true _ _).mp hfits).1
  have hselect : failingUow 0 (.selectPlayer pseudo) ([], { pg := noRows.start 0 }) =
      (.ok none, [], { pg := noRows.start 0 }) := by
    change (((noRows.start 0).selectPlayer 0 pseudo).map _, _) = _
    rw [Postgres.selectPlayer, htext]
    rfl
  have hinsert : failingUow 0 (.stmt (.insertPlayer pseudo)) ([], { pg := noRows.start 0 }) =
      (.ok 1, [], { pg := firstPlayer (varchar 50 pseudo) }) := by
    change ((Server.write _ ((noRows.start 0).insertPlayer 0 pseudo)).1, [],
      (Server.write _ ((noRows.start 0).insertPlayer 0 pseudo)).2) = _
    rw [insertPlayer_noRows hfits]
    rfl
  rw [startPlayer, Prog.run_bind, PgPlayerRepository.getByPseudo, Prog.run_perform, hselect]
  change (Prog.tryCatch _ _).run _ _ = _
  rw [Prog.run_tryCatch, Prog.run_bind, Prog.run_perform, hinsert]
  rfl

theorem startBody_noRows {pseudo : String} (hfits : fitsVarchar 50 pseudo) :
    ∃ st s, (startBody "1f2e3d4c" pseudo .solo none).run (failingUow 0)
      ([], { pg := noRows.start 0 }) = (.ok st, [], { pg := s }) ∧
        st.player.pseudo = varchar 50 pseudo := by
  have hplayer := startPlayer_noRows hfits
  generalize varchar 50 pseudo = stored at hplayer ⊢
  obtain ⟨room, s₁, s₂, hroom, hgame, hhas⟩ : ∃ room s₁ s₂,
      (startRoom "1f2e3d4c" .solo none).run (failingUow 0) ([], { pg := firstPlayer stored }) =
        (.ok room, [], { pg := s₁ }) ∧
      (PgGameRepository.create 1 (some room.id) .solo).run (failingUow 0) ([], { pg := s₁ }) =
        (.ok { id := 1, playerId := 1, roomId := some 1, mode := .solo, score := 0,
               status := .playing, startedAt := default, finishedAt := none }, [], { pg := s₂ }) ∧
      s₂.games.Has (s₂.owner 0) 1 :=
    ⟨_, _, _, rfl, rfl, _, List.mem_singleton_self _, rfl, Or.inr rfl⟩
  obtain ⟨event, s₃, hinsert⟩ : ∃ event s₃, s₂.tick.insertGameEvent 0 (1 : ℕ)
      { type := .gameStarted, points := 0, occuredAt := s₂.now } = .ok (event, s₃) :=
    Postgres.insertGameEvent_of_has (s := s₂.tick) hhas (by decide) (of_decide_eq_true rfl)
  have hevent : (PgGameEventRepository.create (1 : ℕ) .gameStarted 0).run (failingUow 0)
      ([], { pg := s₂ }) = (.ok event, [], { pg := s₃ }) := by
    rw [PgGameEventRepository.create, Prog.run_perform]
    change ((Server.write _ (s₂.tick.insertGameEvent 0 _ _)).1, [],
      (Server.write _ (s₂.tick.insertGameEvent 0 _ _)).2) = _
    rw [hinsert]
    rfl
  rw [startBody, Prog.run_bind, hplayer]
  dsimp only
  rw [Prog.run_bind, hroom]
  dsimp only
  rw [Prog.run_bind, hgame]
  dsimp only
  rw [Prog.run_bind, hevent]
  exact ⟨_, s₃, rfl, rfl⟩

/-- Without a row, a game starts for every pseudo that can be inserted, and its player
has what is stored of the pseudo. -/
theorem startGame_noRows {pseudo : String} (hfits : fitsVarchar 50 pseudo) :
    ∃ st, ((StartGame.execute "1f2e3d4c" pseudo .solo none).run (failingUow 0)
      ([], { pg := noRows })).1 = .ok st ∧ st.player.pseudo = varchar 50 pseudo := by
  obtain ⟨st, s, hbody, hstored⟩ := startBody_noRows hfits
  refine ⟨st, ?_, hstored⟩
  change (Prog.run (failingUow 0) ((startBody "1f2e3d4c" pseudo .solo none).attempt >>= fun _ => _)
    ([], { pg := noRows.start 0 })).1 = _
  rw [Prog.run_bind, Prog.run_attempt, hbody]
  rfl

/-- Whatever calls of its unit of work fail, `StartGame` on an idle connection is all
or nothing for the pseudos that their column refuses or stores uncut, and for no other
ones. -/
theorem startGame_allOrNothing (pseudo : String) :
    (∀ v c, v.pg.Idle c → ∀ plan hex mode roomCode,
        StartsWhole v c plan hex pseudo mode roomCode) ↔ Uncut 50 pseudo := by
  constructor
  · intro h hfits
    obtain ⟨st, hst, hplayer⟩ := startGame_noRows hfits
    have hwhole := h { pg := noRows } 0 (idle_noRows 0) [] "1f2e3d4c" .solo none
    exact varchar_eq_iff.mp (hplayer.symm.trans (hwhole.2 st hst).playerPseudo)
  · intro h v c hidle plan hex mode roomCode
    exact startsWhole_of_uncut h hidle plan hex mode roomCode

/-- The player of a game is not of the pseudo that the game is started with. -/
theorem startGame_cutPseudo :
    let pseudo := String.ofList (List.replicate 50 'A' ++ [' '])
    let out := (StartGame.execute "1f2e3d4c" pseudo .solo none).run (failingUow 0)
      ([], { pg := noRows })
    ∃ st, out.1 = .ok st ∧ st.player.pseudo = String.ofList (List.replicate 50 'A') ∧
      ¬ StartsWhole { pg := noRows } 0 [] "1f2e3d4c" pseudo .solo none := by
  intro pseudo out
  obtain ⟨st, hst, hplayer⟩ := @startGame_noRows pseudo (by decide)
  have hcut : varchar 50 pseudo = String.ofList (List.replicate 50 'A') := by decide
  refine ⟨st, hst, hplayer.trans hcut, fun h => ?_⟩
  have hpseudo := (h.2 st hst).playerPseudo
  rw [hplayer, hcut] at hpseudo
  exact absurd hpseudo (by decide)

end FlipperBack
