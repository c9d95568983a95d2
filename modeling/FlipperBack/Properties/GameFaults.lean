import FlipperBack.UseCase.Games

/-!
# Calls that fail in the REST flow

A use case that raises should leave the tables as they were. `AddGameEvent` and
`FinishGame` write twice outside any transaction: they do so in every case but the
one where the first write has gone through and the second one fails
(`writes_allOrNothing_iff`).
-/

namespace FlipperBack

open Effects Python

/-- Run a program on the connection `c`, where the calls of the plan fail with no
effect. -/
def runFailing {α : Type} (plan : List Bool) (c : ℕ) (p : PgProg α) (v : Server) :
    Except Exc α × Server :=
  let out := p.run (Prog.failing (fun _ => true) (serve c) .callFailed) (plan, v)
  (out.1, out.2.2)

/-- If the program raises, the tables are as before. -/
def AllOrNothing {α : Type} (plan : List Bool) (c : ℕ) (p : PgProg α) (v : Server) : Prop :=
  ∀ e, (runFailing plan c p v).1 = .error e → (runFailing plan c p v).2.pg.tables = v.pg.tables

section Running

variable {α : Type} {plan : List Bool} {c : ℕ} {v : Server}

@[simp] theorem runFailing_pure (a : α) : runFailing plan c (pure a) v = (.ok a, v) := rfl

@[simp] theorem runFailing_throw (e : Exc) :
    runFailing plan c (throw e : PgProg α) v = (.error e, v) := rfl

theorem runFailing_bind_failed (hplan : plan.headD false = true) (call : PgCall)
    (f : call.Res → PgProg α) : runFailing plan c (pg call >>= f) v = (.error .callFailed, v) := by
  have hcall : Prog.failing (fun _ => true) (serve c) .callFailed call (plan, v) =
      (.error .callFailed, plan.tail, v) := if_pos (by rw [hplan]; rfl)
  rw [runFailing, Prog.run_bind, Prog.run_perform, hcall]

theorem runFailing_bind (hplan : plan.headD false = false) (call : PgCall)
    (f : call.Res → PgProg α) :
    runFailing plan c (pg call >>= f) v =
      match serve c call v with
      | (.ok a, v') => runFailing plan.tail c (f a) v'
      | (.error e, v') => (.error e, v') := by
  have hcall : Prog.failing (fun _ => true) (serve c) .callFailed call (plan, v) =
      ((serve c call v).1, plan.tail, (serve c call v).2) := if_neg (by rw [hplan]; simp)
  rw [runFailing, Prog.run_bind, Prog.run_perform, hcall]
  rcases serve c call v with ⟨r | r, v'⟩ <;> rfl

end Running

/-! ## The first write without the second -/

/-- The game can be read and is playing. -/
def Readable (plan : List Bool) (gameId : ℤ) (v : Server) (g : GameRow) : Prop :=
  plan.headD false = false ∧ fitsInteger gameId ∧ v.pg.game gameId = some g ∧ g.status = .playing

/-- The event is stored and its points cannot be added: they are to be, and the
call fails or the score would leave its column. -/
def EventWithoutPoints (plan : List Bool) (gameId points : ℤ) (v : Server) : Prop :=
  ∃ g, Readable plan gameId v g ∧ plan.tail.headD false = false ∧ fitsInteger points ∧
    0 < points ∧ (plan.tail.tail.headD false = true ∨ ¬ fitsInteger (g.score + points))

/-- The game is finished and its last event is not stored: the call fails. -/
def FinishedWithoutEvent (plan : List Bool) (gameId : ℤ) (v : Server) : Prop :=
  ∃ g, Readable plan gameId v g ∧ plan.tail.headD false = false ∧
    plan.tail.tail.headD false = true

/-- How a use case ends: it returns, or it raises with the tables as before, or
it raises with the first write done. -/
def Ends {α : Type} (torn : Prop) (v : Server) (out : Except Exc α × Server) : Prop :=
  (∃ a, out.1 = .ok a) ∧ ¬ torn ∨ (∃ e, out.1 = .error e) ∧ out.2.pg.tables = v.pg.tables ∧ ¬ torn ∨
    (∃ e, out.1 = .error e) ∧ out.2.pg.tables ≠ v.pg.tables ∧ torn

theorem Ends.allOrNothing_iff {α : Type} {torn : Prop} {plan : List Bool} {c : ℕ} {p : PgProg α}
    {v : Server} (h : Ends torn v (runFailing plan c p v)) :
    AllOrNothing plan c p v ↔ ¬ torn := by
  rcases h with ⟨⟨a, ha⟩, hkept⟩ | ⟨-, htables, hkept⟩ | ⟨⟨e, he⟩, htables, htorn⟩
  · refine iff_of_true (fun e he => ?_) hkept
    rw [ha] at he
    cases he
  · exact iff_of_true (fun _ _ => htables) hkept
  · exact iff_of_false (fun hall => htables (hall e he)) (not_not.mpr htorn)

section Writes

variable {plan : List Bool} {c : ℕ} {v : Server}

/-- The insertion of an event of a committed game, where the call goes through. -/
theorem serve_insertGameEvent {gameId : ℤ} {g : GameRow} (hgame : v.pg.game gameId = some g)
    (hid : fitsInteger gameId) (type : GameEventType) {points : ℤ} (hpoints : fitsInteger points) :
    ∃ e v', serve c (.insertGameEvent gameId type points) v = (.ok e, v') ∧
      v'.pg.tables ≠ v.pg.tables ∧ v'.pg.game gameId = some g := by
  let row : EventRow := { type, points, occuredAt := v.pg.now }
  have hrow : fitsInteger row.points := hpoints
  obtain ⟨e, s', hinsert⟩ :=
    Postgres.insertGameEvent_of_game (s := v.pg.tick) (c := c) hgame hid hrow
  obtain ⟨-, -, -, htables, -⟩ := Postgres.insertGameEvent_ok hinsert
  simp only [Postgres.tables, Prod.mk.injEq] at htables
  obtain ⟨-, -, hgames, hevents⟩ := htables
  refine ⟨e, { v with pg := s' }, ?_, ?_, ?_⟩
  · rw [serve, hinsert, Server.write]
  · intro heq
    have hrows : s'.gameEvents.rows = v.pg.gameEvents.rows :=
      congrArg (fun t => t.2.2.2) heq
    rw [hevents] at hrows
    simpa [Postgres.tick] using congrArg List.length hrows
  · obtain ⟨hg, hid⟩ := Postgres.game_eq_some.mp hgame
    refine Postgres.game_eq_some.mpr ⟨?_, hid⟩
    rw [hgames]
    exact hg

/-- The addition of points to a committed game, where the call goes through. -/
theorem serve_addPoints {gameId points : ℤ} {g : GameRow} (hgame : v.pg.game gameId = some g)
    (hid : fitsInteger gameId) (hpoints : fitsInteger points) :
    if fitsInteger (g.score + points) then
      ∃ g' v', serve c (.addPoints gameId points) v = (.ok g', v')
    else serve c (.addPoints gameId points) v = (.error .dataError, v) := by
  have hargs : ¬(!fitsInteger gameId || !fitsInteger points) = true := by simp [hid, hpoints]
  split
  · next hscore =>
      have hadd : v.pg.addPoints gameId points = .ok ((Postgres.addPointsChange points).apply g,
          v.pg.updateGame gameId (Postgres.addPointsChange points)) := by
        rw [Postgres.addPoints, if_neg hargs, hgame]
        simp [hscore]
      exact ⟨_, _, by rw [serve, hadd, Server.write]⟩
  · next hscore =>
      have hadd : v.pg.addPoints gameId points = .error .dataError := by
        rw [Postgres.addPoints, if_neg hargs, hgame]
        simp [hscore]
      rw [serve, hadd, Server.write]

/-- What `AddGameEvent` does once it has read its game. -/
def addTo (gameId : ℤ) (type : GameEventType) (points : ℤ) (game : GameRow) :
    PgProg (GameRow × GameEventRow) := do
  let event ← PgGameEventRepository.create gameId type points
  if 0 < points then
    let game ← PgGameRepository.addPoints gameId points
    return (game, event)
  else
    return (game, event)

theorem addTo_ends {gameId : ℤ} {g : GameRow} (hread : Readable plan gameId v g)
    (type : GameEventType) (points : ℤ) :
    Ends (EventWithoutPoints plan gameId points v) v
      (runFailing plan.tail c (addTo gameId type points g) v) := by
  obtain ⟨hplan, hid, hgame, hplaying⟩ := hread
  have htorn : EventWithoutPoints plan gameId points v ↔ plan.tail.headD false = false ∧
      fitsInteger points ∧ 0 < points ∧
      (plan.tail.tail.headD false = true ∨ ¬ fitsInteger (g.score + points)) := by
    constructor
    · rintro ⟨g', ⟨-, -, hgame', -⟩, htorn⟩
      obtain rfl : g = g' := Option.some.inj (hgame.symm.trans hgame')
      exact htorn
    · exact fun htorn => ⟨g, ⟨hplan, hid, hgame, hplaying⟩, htorn⟩
  rw [htorn, addTo, PgGameEventRepository.create]
  cases hinsert : plan.tail.headD false with
  | true =>
      rw [runFailing_bind_failed hinsert]
      exact Or.inr (Or.inl ⟨⟨_, rfl⟩, rfl, by simp⟩)
  | false =>
      rw [runFailing_bind hinsert]
      by_cases hpoints : fitsInteger points
      · obtain ⟨e, v', hserve, hchanged, hgame'⟩ :=
          serve_insertGameEvent (c := c) hgame hid type hpoints
        rw [hserve]
        dsimp only
        by_cases hpos : 0 < points
        · rw [if_pos hpos, PgGameRepository.addPoints]
          cases hadd : plan.tail.tail.headD false with
          | true =>
              rw [runFailing_bind_failed hadd]
              exact Or.inr (Or.inr ⟨⟨_, rfl⟩, hchanged, rfl, hpoints, hpos, Or.inl rfl⟩)
          | false =>
              have hanswer := serve_addPoints (c := c) hgame' hid hpoints
              rw [runFailing_bind hadd]
              split at hanswer
              · next hscore =>
                  obtain ⟨g', v'', hserve'⟩ := hanswer
                  rw [hserve']
                  exact Or.inl ⟨⟨_, rfl⟩, fun h => h.2.2.2.elim (by simp) (absurd hscore)⟩
              · next hscore =>
                  rw [hanswer]
                  exact Or.inr (Or.inr ⟨⟨_, rfl⟩, hchanged, rfl, hpoints, hpos, Or.inr hscore⟩)
        · rw [if_neg hpos]
          exact Or.inl ⟨⟨_, rfl⟩, fun h => hpos h.2.2.1⟩
      · have hserve : serve c (.insertGameEvent gameId type points) v = (.error .dataError, v) := by
          rw [serve, Postgres.insertGameEvent, if_pos (by simp [hpoints])]
          rfl
        rw [hserve]
        exact Or.inr (Or.inl ⟨⟨_, rfl⟩, rfl, fun h => hpoints h.2.1⟩)

/-- The end of a committed game that was playing, where the call goes through. -/
theorem serve_finishGame {gameId : ℤ} {g : GameRow} (hgame : v.pg.game gameId = some g)
    (hid : fitsInteger gameId) (hplaying : g.status = .playing) :
    ∃ g' v', serve c (.finishGame gameId) v = (.ok g', v') ∧
      v'.pg.tables ≠ v.pg.tables ∧ v'.pg.game gameId = some g' := by
  have hfinish : v.pg.tick.finishGame gameId v.pg.now =
      .ok ((Postgres.finishChange v.pg.now).apply g,
        v.pg.tick.updateGame gameId (Postgres.finishChange v.pg.now)) := by
    have hgame' : v.pg.tick.game gameId = some g := hgame
    rw [Postgres.finishGame, if_neg (by simp [hid]), hgame']
  have hupdated := Postgres.game_updateGame (s := v.pg.tick) hgame
    (Postgres.finishChange v.pg.now)
  refine ⟨_, { v with pg := v.pg.tick.updateGame gameId (Postgres.finishChange v.pg.now) },
    by rw [serve, hfinish, Server.write], ?_, hupdated⟩
  intro heq
  have hrows : (v.pg.tick.updateGame gameId (Postgres.finishChange v.pg.now)).games.rows =
      v.pg.games.rows := congrArg (fun t => t.2.2.1) heq
  obtain ⟨hmem, -⟩ := Postgres.game_eq_some.mp hupdated
  rw [hrows] at hmem
  obtain ⟨hg, -⟩ := Postgres.game_eq_some.mp hgame
  have hsame := TxTable.eq_of_key hmem hg rfl
  have hstatus := congrArg (fun x => x.2.status) hsame
  rw [hplaying] at hstatus
  cases hstatus

/-- What `FinishGame` does once it has read its game. -/
def finishRead (gameId : ℤ) : PgProg (GameRow × GameEventRow) := do
  let game ← PgGameRepository.finish gameId
  let event ← PgGameEventRepository.create gameId .gameOver 0
  return (game, event)

theorem finishRead_ends {gameId : ℤ} {g : GameRow} (hread : Readable plan gameId v g) :
    Ends (FinishedWithoutEvent plan gameId v) v
      (runFailing plan.tail c (finishRead gameId) v) := by
  obtain ⟨hplan, hid, hgame, hplaying⟩ := hread
  have htorn : FinishedWithoutEvent plan gameId v ↔ plan.tail.headD false = false ∧
      plan.tail.tail.headD false = true :=
    ⟨fun ⟨_, _, htorn⟩ => htorn, fun htorn => ⟨g, ⟨hplan, hid, hgame, hplaying⟩, htorn⟩⟩
  rw [htorn, finishRead, PgGameRepository.finish]
  cases hfinish : plan.tail.headD false with
  | true =>
      rw [runFailing_bind_failed hfinish]
      exact Or.inr (Or.inl ⟨⟨_, rfl⟩, rfl, by simp⟩)
  | false =>
      obtain ⟨g', v', hserve, hchanged, hgame'⟩ := serve_finishGame (c := c) hgame hid hplaying
      rw [runFailing_bind hfinish, hserve, PgGameEventRepository.create]
      dsimp only
      cases hinsert : plan.tail.tail.headD false with
      | true =>
          rw [runFailing_bind_failed hinsert]
          exact Or.inr (Or.inr ⟨⟨_, rfl⟩, hchanged, rfl, rfl⟩)
      | false =>
          obtain ⟨e, v'', hserve', -, -⟩ :=
            serve_insertGameEvent (c := c) hgame' hid .gameOver (by decide : fitsInteger 0)
          rw [runFailing_bind hinsert, hserve']
          exact Or.inl ⟨⟨_, rfl⟩, by simp⟩

variable (hc : v.pg.inTransaction c = false)

include hc

/-- A use case that starts by reading its game goes on where the game can be read
and is playing, and raises otherwise. -/
theorem runFailing_getById {α : Type} (gameId : ℤ) (f : Option GameRow → PgProg α) :
    runFailing plan c (PgGameRepository.getById gameId >>= f) v =
      if plan.headD false = false ∧ fitsInteger gameId then
        runFailing plan.tail c (f (v.pg.game gameId)) v
      else (.error (if plan.headD false then .callFailed else .dataError), v) := by
  cases hplan : plan.headD false with
  | true =>
      rw [PgGameRepository.getById, runFailing_bind_failed hplan]
      simp
  | false =>
      rw [PgGameRepository.getById, runFailing_bind hplan]
      by_cases hfits : fitsInteger gameId
      · have hread : serve c (.selectGame gameId) v = (.ok (v.pg.game gameId), v) := by
          rw [serve, Postgres.selectGame_of_not hc hfits]
        simp [hread, hfits]
      · have hread : serve c (.selectGame gameId) v = (.error .dataError, v) := by
          rw [serve, Postgres.selectGame, if_pos (by simp [hfits])]
        simp [hread, hfits]

/-- A use case that goes on with its game where it is playing, and raises
otherwise, ends as what it goes on with. -/
theorem ends_of_read {α : Type} {torn : Prop} (gameId : ℤ) (missing : Exc) (ended : GameRow → Exc)
    (body : GameRow → PgProg α) (htorn : torn → ∃ g, Readable plan gameId v g)
    (hbody : ∀ g, Readable plan gameId v g → Ends torn v (runFailing plan.tail c (body g) v)) :
    Ends torn v (runFailing plan c (PgGameRepository.getById gameId >>= fun found =>
      match found with
      | none => throw missing
      | some game => if game.status ≠ .playing then throw (ended game) else body game) v) := by
  rw [runFailing_getById hc]
  split
  · next hread =>
      obtain ⟨hplan, hfits⟩ := hread
      cases hgame : v.pg.game gameId with
      | none =>
          refine Or.inr (Or.inl ⟨⟨_, rfl⟩, rfl, fun h => ?_⟩)
          obtain ⟨g, -, -, hg, -⟩ := htorn h
          rw [hgame] at hg
          cases hg
      | some g =>
          by_cases hplaying : g.status = .playing
          · simp only [ne_eq, hplaying, not_true_eq_false, if_false]
            exact hbody g ⟨hplan, hfits, hgame, hplaying⟩
          · simp only [ne_eq, hplaying, not_false_eq_true, if_true]
            refine Or.inr (Or.inl ⟨⟨_, rfl⟩, rfl, fun h => ?_⟩)
            obtain ⟨g', -, -, hg, hplaying'⟩ := htorn h
            obtain rfl : g = g' := Option.some.inj (hgame.symm.trans hg)
            exact hplaying hplaying'
  · next hread =>
      refine Or.inr (Or.inl ⟨⟨_, rfl⟩, rfl, fun h => ?_⟩)
      obtain ⟨g, hplan, hfits, -⟩ := htorn h
      exact hread ⟨hplan, hfits⟩

theorem addGameEvent_ends (gameId : ℤ) (type : GameEventType) (points : ℤ) :
    Ends (EventWithoutPoints plan gameId points v) v
      (runFailing plan c (AddGameEvent.execute gameId type points) v) :=
  ends_of_read hc gameId _ _ (addTo gameId type points) (fun ⟨g, hread, _⟩ => ⟨g, hread⟩)
    fun _ hread => addTo_ends hread type points

theorem finishGame_ends (gameId : ℤ) :
    Ends (FinishedWithoutEvent plan gameId v) v (runFailing plan c (FinishGame.execute gameId) v) :=
  ends_of_read hc gameId _ _ (fun _ => finishRead gameId) (fun ⟨g, hread, _⟩ => ⟨g, hread⟩)
    fun _ hread => finishRead_ends hread

end Writes

/-- On a connection of the pool, which is in no transaction, the two use cases
leave the tables as they were whenever they raise, but where the first write goes
through and the second one fails. -/
theorem writes_allOrNothing_iff {v : Server} {c : ℕ} (hc : v.pg.inTransaction c = false)
    (plan : List Bool) (gameId : ℤ) (type : GameEventType) (points : ℤ) :
    (AllOrNothing plan c (AddGameEvent.execute gameId type points) v ↔
      ¬ EventWithoutPoints plan gameId points v) ∧
    (AllOrNothing plan c (FinishGame.execute gameId) v ↔ ¬ FinishedWithoutEvent plan gameId v) :=
  ⟨(addGameEvent_ends hc gameId type points).allOrNothing_iff,
    (finishGame_ends hc gameId).allOrNothing_iff⟩

/-- A game whose last event cannot be inserted: it is finished all the same, while
an event with points that fit its score is stored with them. -/
theorem writes_allOrNothing_last_event :
    let v : Server :=
      { pg :=
          { players := { rows := [(none, { id := 1, pseudo := "ABC" })], seq := 1 }
            games := { rows := [(none, { id := 1, playerId := 1, roomId := none, mode := .solo,
                                         score := 0, status := .playing, startedAt := default,
                                         finishedAt := none })], seq := 1 }
            clock := fun _ => default
            games_player := by simp [TxTable.Refers, TxTable.Has]
            games_room := by simp [TxTable.Refers] } }
    AllOrNothing [] 0 (AddGameEvent.execute 1 .bumperHit 5) v ∧
      ¬ AllOrNothing [false, false, true] 0 (FinishGame.execute 1) v := by
  intro v
  have hadd : ¬ EventWithoutPoints [] 1 5 v := by
    rintro ⟨g, ⟨-, -, hg, -⟩, -, -, -, hfails | hfull⟩
    · cases hfails
    · obtain rfl := Option.some.inj hg
      exact hfull (by decide)
  have hfinish : FinishedWithoutEvent [false, false, true] 1 v :=
    ⟨_, ⟨rfl, by decide, rfl, rfl⟩, rfl, rfl⟩
  exact ⟨(writes_allOrNothing_iff rfl [] 1 .bumperHit 5).1.mpr hadd,
    fun h => (writes_allOrNothing_iff rfl [false, false, true] 1 .bumperHit 5).2.mp h hfinish⟩

/-- A point more than the column of the score can hold: the event is stored, the
score is not changed, and the use case raises. -/
theorem writes_not_allOrNothing :
    ¬ ∀ (v : Server) (c : ℕ) (plan : List Bool) (gameId : ℤ) (type : GameEventType) (points : ℤ),
      v.pg.inTransaction c = false →
        AllOrNothing plan c (AddGameEvent.execute gameId type points) v ∧
          AllOrNothing plan c (FinishGame.execute gameId) v := by
  intro h
  let v : Server :=
    { pg :=
        { players := { rows := [(none, { id := 1, pseudo := "ABC" })], seq := 1 }
          games := { rows := [(none, { id := 1, playerId := 1, roomId := none, mode := .solo,
                                       score := 2147483647, status := .playing,
                                       startedAt := default, finishedAt := none })], seq := 1 }
          clock := fun _ => default
          games_player := by simp [TxTable.Refers, TxTable.Has]
          games_room := by simp [TxTable.Refers] } }
  have hends : Ends (EventWithoutPoints [] 1 1 v) v
      (runFailing [] 0 (AddGameEvent.execute 1 .bumperHit 1) v) :=
    addGameEvent_ends rfl 1 .bumperHit 1
  have hkept := hends.allOrNothing_iff.mp (h v 0 [] 1 .bumperHit 1 rfl).1
  exact hkept ⟨_, ⟨rfl, by decide, rfl, rfl⟩, rfl, by decide, by decide, Or.inr (by decide)⟩

end FlipperBack
