import FlipperBack.Infrastructure.GameRepository

/-!
# What a flush writes

`Written` says what a committed flush has added to the database: one finished
game, the events of the session under that game, and the player where the pseudo
had none. `persist_cases` are the outcomes of `persist_finished_session` whatever
statements fail, `persist_of_fits` says when it succeeds on a healthy database.
-/

namespace FlipperBack

open Effects Python

/-- `db'` is `db` with the finished session `s` stored in it. -/
structure Written (db db' : Database) (s : FinishedSession) (rows : List EventRow)
    (playerId gameId : ℕ) : Prop where
  game_id : gameId = db.gameSeq + 1
  player : ∃ p ∈ db'.players, p.id = playerId ∧ p.pseudo = s.pseudo
  players : db'.players = db.players ∨
    db'.players = db.players ++ [{ id := playerId, pseudo := s.pseudo }]
  games : db'.games = db.games ++
    [{ id := gameId, playerId, roomId := none, mode := s.mode, score := s.score.val,
       status := .finished, startedAt := s.startedAt.naive, finishedAt := some s.finishedAt.naive }]
  events : ∃ added : List GameEventRow, db'.gameEvents = db.gameEvents ++ added ∧
    added.map GameEventRow.row = rows ∧ ∀ e ∈ added, e.gameId = gameId

section Faults

/-- Statements on a connection, with failures. -/
abbrev faultySql : Handler Exc Stmt.Res (List (Option Bool) × Conn) :=
  Prog.faulty sql .callFailed

/-- The statements of the body of a transaction. -/
def Stmt.InBody : Stmt → Prop
  | selectPlayerId _ => True
  | insertPlayer _ => True
  | insertGame _ => True
  | insertGameEvents _ _ => True
  | _ => False

/-- Inside a transaction `db` is what is committed. -/
def InTransaction (db : Database) (s : List (Option Bool) × Conn) : Prop :=
  s.2.db = db ∧ s.2.tx.isSome

theorem Conn.insert_inTransaction {α : Type} {db : Database} {c : Conn} (hdb : c.db = db)
    (htx : c.tx.isSome) (r : Except Exc (α × Database)) :
    (c.insert r).2.db = db ∧ (c.insert r).2.tx.isSome := by
  obtain ⟨d, hd⟩ := Option.isSome_iff_exists.mp htx
  rcases r with e | ⟨a, db₁⟩
  · exact ⟨hdb, htx⟩
  · simp [Conn.insert, Conn.write, hd, hdb]

theorem sql_inTransaction {db : Database} {op : Stmt} {c : Conn} (hop : op.InBody)
    (hdb : c.db = db) (htx : c.tx.isSome) :
    (sql op c).2.db = db ∧ (sql op c).2.tx.isSome := by
  cases op with
  | selectPlayerId pseudo => exact ⟨hdb, htx⟩
  | insertPlayer pseudo => exact c.insert_inTransaction hdb htx _
  | insertGame g => exact c.insert_inTransaction hdb htx _
  | insertGameEvents gameId rows => exact c.insert_inTransaction hdb htx _
  | acquire => exact hop.elim
  | release => exact hop.elim
  | start => exact hop.elim
  | commit => exact hop.elim
  | rollback => exact hop.elim

theorem faultySql_inTransaction {db : Database} (op : Stmt) (s : List (Option Bool) × Conn)
    (hop : op.InBody) (hs : InTransaction db s) : InTransaction db (faultySql op s).2 := by
  unfold InTransaction
  rcases Prog.faulty_snd sql .callFailed op s with h | h
  · rw [h]
    exact sql_inTransaction hop hs.1 hs.2
  · rw [h]
    exact hs

theorem writeFinishedSession_all {C : Stmt → Prop} {s : FinishedSession}
    (hselect : C (.selectPlayerId s.pseudo)) (hinsert : C (.insertPlayer s.pseudo))
    (hgame : ∀ g, C (.insertGame g)) (hevents : ∀ gameId rows, C (.insertGameEvents gameId rows))
    (rows : List EventRow) : (writeFinishedSession s rows).All C := by
  have hplayer : (upsertPlayer s.pseudo).All C := by
    refine Prog.All.bind ((Prog.all_perform _ _).mpr hselect) fun id => ?_
    cases id with
    | none => exact (Prog.all_perform _ _).mpr hinsert
    | some id => trivial
  refine hplayer.bind fun playerId => ?_
  refine Prog.All.bind ((Prog.all_perform _ _).mpr (hgame _)) fun gameId => ?_
  refine Prog.All.bind ?_ fun count => trivial
  unfold insertEventRows
  split
  · trivial
  · exact Prog.All.bind ((Prog.all_perform _ _).mpr (hevents _ _)) fun _ => trivial

theorem writeFinishedSession_inBody (s : FinishedSession) (rows : List EventRow) :
    (writeFinishedSession s rows).All Stmt.InBody :=
  writeFinishedSession_all trivial trivial (fun _ => trivial) (fun _ _ => trivial) rows

/-- An `INSERT` that answers has been written to the open transaction. -/
theorem Conn.insert_ok {α : Type} {c c' : Conn} {d : Database} (htx : c.tx = some d)
    {r : Except Exc (α × Database)} {a : α} (h : c.insert r = (.ok a, c')) :
    ∃ d', r = .ok (a, d') ∧ c' = { c with tx := some d' } := by
  rcases r with e | ⟨a', d'⟩
  · cases h
  · obtain ⟨ha, hc⟩ := Prod.mk.inj h
    obtain rfl := Except.ok.inj ha
    exact ⟨d', rfl, by rw [← hc, Conn.write, htx]⟩

/-- A statement that answers under failures went through. -/
theorem query_ok {plan plan' : List (Option Bool)} {c c' : Conn} (stmt : Stmt) {r : stmt.Res}
    (h : (query stmt).run faultySql (plan, c) = (.ok r, plan', c')) :
    sql stmt c = (.ok r, c') := by
  rw [query, Prog.run_perform] at h
  exact Prog.faulty_ok h

theorem sql_selectPlayerId (pseudo : String) (c : Conn) :
    sql (.selectPlayerId pseudo) c = (.ok (c.current.selectPlayerId pseudo), c) := rfl

theorem sql_insertPlayer (pseudo : String) (c : Conn) :
    sql (.insertPlayer pseudo) c = c.insert (c.current.insertPlayer pseudo) := rfl

theorem sql_insertGame (g : NewGame) (c : Conn) :
    sql (.insertGame g) c = c.insert (c.current.insertGame g) := rfl

theorem sql_insertGameEvents (gameId : ℕ) (rows : List EventRow) (c : Conn) :
    sql (.insertGameEvents gameId rows) c =
      c.insert ((c.current.insertGameEvents gameId rows).map fun db => ((), db)) := rfl

theorem upsertPlayer_ok {plan plan' : List (Option Bool)} {c c' : Conn} {d : Database}
    {pseudo : String} {id : ℕ} (htx : c.tx = some d)
    (h : (upsertPlayer pseudo).run faultySql (plan, c) = (.ok id, plan', c')) :
    ∃ d', c'.tx = some d' ∧ (∃ p ∈ d'.players, p.id = id ∧ p.pseudo = pseudo) ∧
      (d'.players = d.players ∨ d'.players = d.players ++ [{ id := id, pseudo := pseudo }]) ∧
      d'.games = d.games ∧ d'.gameEvents = d.gameEvents ∧ d'.gameSeq = d.gameSeq := by
  obtain ⟨found, ⟨plan₁, c₁⟩, hselect, hrest⟩ := Prog.run_bind_ok h
  have hcur : c.current = d := by simp [Conn.current, htx]
  have hselect := query_ok _ hselect
  rw [sql_selectPlayerId, hcur] at hselect
  obtain ⟨hfound, rfl⟩ := Prod.mk.inj hselect
  have hfound := Except.ok.inj hfound
  cases found with
  | some id' =>
      obtain ⟨hid, hc'⟩ := Prod.mk.inj hrest
      obtain rfl := Except.ok.inj hid
      obtain ⟨-, rfl⟩ := Prod.mk.inj hc'
      obtain ⟨p, hp, rfl⟩ := Option.map_eq_some_iff.mp hfound
      have hpseudo : p.pseudo = pseudo := by simpa using List.find?_some hp
      exact ⟨d, htx, ⟨p, List.mem_of_find?_eq_some hp, rfl, hpseudo⟩, Or.inl rfl, rfl, rfl, rfl⟩
  | none =>
      obtain ⟨d', hd', rfl⟩ := Conn.insert_ok htx (query_ok (.insertPlayer pseudo) hrest)
      rw [hcur] at hd'
      obtain ⟨hplayers, hgames, hevents, hseq⟩ := Database.insertPlayer_ok hd'
      exact ⟨d', rfl, ⟨{ id := id, pseudo := pseudo }, by simp [hplayers], rfl, rfl⟩,
        Or.inr hplayers, hgames, hevents, hseq⟩

theorem insertEventRows_ok {plan plan' : List (Option Bool)} {c c' : Conn} {d : Database}
    {gameId count : ℕ} {rows : List EventRow} (htx : c.tx = some d)
    (h : (insertEventRows gameId rows).run faultySql (plan, c) = (.ok count, plan', c')) :
    count = rows.length ∧ ∃ d', c'.tx = some d' ∧ d'.players = d.players ∧ d'.games = d.games ∧
      ∃ added : List GameEventRow, d'.gameEvents = d.gameEvents ++ added ∧
        added.map GameEventRow.row = rows ∧ ∀ e ∈ added, e.gameId = gameId := by
  cases rows with
  | nil =>
      obtain ⟨hcount, hc'⟩ := Prod.mk.inj h
      obtain ⟨-, rfl⟩ := Prod.mk.inj hc'
      exact ⟨(Except.ok.inj hcount).symm, d, htx, rfl, rfl, [], by simp, rfl, by simp⟩
  | cons row rows =>
      obtain ⟨_, ⟨plan₁, c₁⟩, hinsert, hrest⟩ := Prog.run_bind_ok h
      obtain ⟨d', hd', rfl⟩ := Conn.insert_ok htx (query_ok _ hinsert)
      obtain ⟨hcount, hc'⟩ := Prod.mk.inj hrest
      obtain ⟨-, rfl⟩ := Prod.mk.inj hc'
      have hd' : Database.insertGameEvents gameId d (row :: rows) = .ok d' := by
        have hcur : c.current = d := by simp [Conn.current, htx]
        rw [hcur] at hd'
        cases hins : Database.insertGameEvents gameId d (row :: rows) with
        | ok d₁ =>
            rw [hins] at hd'
            rw [(Prod.mk.inj (Except.ok.inj hd')).2]
        | error e =>
            rw [hins] at hd'
            cases hd'
      obtain ⟨hplayers, hgames, hevents⟩ := Database.insertGameEvents_ok hd'
      exact ⟨(Except.ok.inj hcount).symm, d', rfl, hplayers, hgames, hevents⟩

/-- The body of the transaction, where it returns. -/
theorem writeFinishedSession_ok {plan plan' : List (Option Bool)} {c c' : Conn} {d : Database}
    {s : FinishedSession} {rows : List EventRow} {playerId gameId count : ℕ}
    (htx : c.tx = some d)
    (h : (writeFinishedSession s rows).run faultySql (plan, c) =
      (.ok (playerId, gameId, count), plan', c')) :
    count = rows.length ∧ ∃ d', c'.tx = some d' ∧ Written d d' s rows playerId gameId := by
  obtain ⟨playerId', ⟨plan₁, c₁⟩, hplayer, h⟩ := Prog.run_bind_ok h
  obtain ⟨gameId', ⟨plan₂, c₂⟩, hgame, h⟩ := Prog.run_bind_ok h
  obtain ⟨count', ⟨plan₃, c₃⟩, hevents, h⟩ := Prog.run_bind_ok h
  obtain ⟨hids, hc'⟩ := Prod.mk.inj h
  obtain ⟨-, rfl⟩ := Prod.mk.inj hc'
  obtain ⟨rfl, rfl, rfl⟩ : playerId' = playerId ∧ gameId' = gameId ∧ count' = count := by
    simpa using hids
  obtain ⟨d₁, htx₁, hfound, hplayers₁, hgames₁, hevents₁, hseq₁⟩ := upsertPlayer_ok htx hplayer
  obtain ⟨d₂, hd₂, rfl⟩ := Conn.insert_ok htx₁ (query_ok _ hgame)
  have hcur : c₁.current = d₁ := by simp [Conn.current, htx₁]
  rw [hcur] at hd₂
  obtain ⟨hid, hplayers₂, hevents₂, hgames₂⟩ := Database.insertGame_ok hd₂
  obtain ⟨hcount, d₃, htx₃, hplayers₃, hgames₃, added, hadded, hrows, hgame_id⟩ :=
    insertEventRows_ok (d := d₂) rfl hevents
  have hplayers : d₃.players = d₁.players := hplayers₃.trans hplayers₂
  refine ⟨hcount, d₃, htx₃, ?_⟩
  exact
    { game_id := by rw [hid, hseq₁]
      player := hplayers ▸ hfound
      players := hplayers ▸ hplayers₁
      games := by rw [hgames₃, hgames₂, hgames₁]
      events := ⟨added, by rw [hadded, hevents₂, hevents₁], hrows, hgame_id⟩ }

/-! ## The transaction -/

/-- A transaction raises and leaves the rows, or its body has returned and what
it wrote is committed, even where the commit then raises. -/
theorem transaction_cases {α : Type} {body : SqlProg α} (hbody : body.All Stmt.InBody)
    {plan plan' : List (Option Bool)} {c c' : Conn} {r : Except Exc α}
    (h : (transaction body).run faultySql (plan, c) = (r, plan', c')) :
    (c'.db.rows = c.db.rows ∧ ∃ e, r = .error e) ∨
      ∃ plan₁ plan₂ c₁ a,
        body.run faultySql (plan₁, { c with tx := some c.db }) = (.ok a, plan₂, c₁) ∧
          c'.db = c₁.current ∧ (r = .ok a ∨ ∃ e, r = .error e) := by
  rcases Prog.run_faulty_cases h with ⟨-, plan₁, -, h⟩ | ⟨he, hc' | hc'⟩
  · rw [Prog.run_bind, Prog.run_attempt] at h
    have hin : InTransaction c.db
        (body.run faultySql (plan₁, { c with tx := some c.db })).2 :=
      Prog.run_invariant (P := Stmt.InBody) faultySql_inTransaction hbody ⟨rfl, rfl⟩
    obtain ⟨⟨r₁, plan₂, c₁⟩, hb⟩ :
        ∃ out, body.run faultySql (plan₁, { c with tx := some c.db }) = out := ⟨_, rfl⟩
    rw [show sql .start c = (.ok (), { c with tx := some c.db }) from rfl, hb] at h
    rw [hb] at hin
    cases r₁ with
    | ok a =>
        rcases Prog.run_faulty_cases h with ⟨-, plan₃, -, h⟩ | ⟨he, hc' | hc'⟩
        · obtain ⟨hr, hc'⟩ := Prod.mk.inj h
          exact Or.inr ⟨plan₁, plan₂, c₁, a, hb, by rw [← (Prod.mk.inj hc').2]; rfl, Or.inl hr.symm⟩
        · exact Or.inr ⟨plan₁, plan₂, c₁, a, hb, by rw [hc']; rfl, Or.inr he⟩
        · exact Or.inl ⟨by rw [hc', hin.1], he⟩
    | error e =>
        refine Or.inl ?_
        rcases Prog.run_faulty_cases h with ⟨-, plan₃, -, h⟩ | ⟨he, hc' | hc'⟩
        · obtain ⟨hr, hc'⟩ := Prod.mk.inj h
          exact ⟨by rw [← (Prod.mk.inj hc').2, ← hin.1]; rfl, e, hr.symm⟩
        · exact ⟨by rw [hc', ← hin.1]; rfl, he⟩
        · exact ⟨by rw [hc', hin.1], he⟩
  · exact Or.inl ⟨by rw [hc']; rfl, he⟩
  · exact Or.inl ⟨by rw [hc'], he⟩

/-- Acquiring and releasing the connection leaves the database to the body. -/
theorem withConnection_cases {α : Type} {body : SqlProg α} {plan plan' : List (Option Bool)}
    {c c' : Conn} {r : Except Exc α}
    (h : (withConnection body).run faultySql (plan, c) = (r, plan', c')) :
    (c'.db = c.db ∧ ∃ e, r = .error e) ∨
      ∃ plan₁ plan₂ c₁ r₁, body.run faultySql (plan₁, c) = (r₁, plan₂, c₁) ∧
        c'.db = c₁.db ∧ (r = r₁ ∨ ∃ e, r = .error e) := by
  rcases Prog.run_faulty_cases h with ⟨-, plan₁, -, h⟩ | ⟨he, hc' | hc'⟩
  · rw [Prog.run_bind, Prog.run_attempt] at h
    obtain ⟨⟨r₁, plan₂, c₁⟩, hb⟩ : ∃ out, body.run faultySql (plan₁, c) = out := ⟨_, rfl⟩
    rw [show sql .acquire c = (.ok (), c) from rfl, hb] at h
    refine Or.inr ⟨plan₁, plan₂, c₁, r₁, hb, ?_⟩
    rcases Prog.run_faulty_cases h with ⟨-, plan₃, -, h⟩ | ⟨he, hc' | hc'⟩
    · rw [Prog.run_ofExcept] at h
      obtain ⟨hr, hc'⟩ := Prod.mk.inj h
      exact ⟨by rw [← (Prod.mk.inj hc').2]; rfl, Or.inl hr.symm⟩
    · exact ⟨by rw [hc']; rfl, Or.inr he⟩
    · exact ⟨by rw [hc'], Or.inr he⟩
  · exact Or.inl ⟨by rw [hc']; rfl, he⟩
  · exact Or.inl ⟨by rw [hc'], he⟩

/-- Whatever statements fail, a flush raises and leaves the rows, or it has
written the whole session, even where it raises after that. -/
theorem persist_cases (pg : List (Option Bool)) (utcnow : DateTime) (s : FinishedSession)
    (db : Database) :
    ((persist pg utcnow s db).2.rows = db.rows ∧
        ∃ e, (persist pg utcnow s db).1 = .error e) ∨
      ∃ rows playerId gameId, buildEventRows utcnow s.events = .ok rows ∧
        Written db (persist pg utcnow s db).2 s rows playerId gameId ∧
        ((persist pg utcnow s db).1 = .ok (playerId, gameId, rows.length) ∨
          ∃ e, (persist pg utcnow s db).1 = .error e) := by
  obtain ⟨⟨r, plan', c'⟩, h⟩ :
      ∃ out, (persistFinishedSession utcnow s).run faultySql (pg, { db }) = out := ⟨_, rfl⟩
  have hpersist : persist pg utcnow s db = (r, c'.db) := by
    unfold persist
    rw [h]
  rw [hpersist]
  rw [persistFinishedSession, Prog.run_bind, Prog.run_ofExcept] at h
  cases hrows : liftPy (buildEventRows utcnow s.events) with
  | error e =>
      rw [hrows] at h
      obtain ⟨hr, hc'⟩ := Prod.mk.inj h
      exact Or.inl ⟨by rw [← (Prod.mk.inj hc').2], e, hr.symm⟩
  | ok rows =>
      rw [hrows] at h
      rcases withConnection_cases h with ⟨hdb, he⟩ | ⟨plan₁, plan₂, c₁, r₁, h₁, hdb, hr⟩
      · exact Or.inl ⟨by rw [hdb], he⟩
      · rcases transaction_cases (writeFinishedSession_inBody s rows) h₁ with
          ⟨hc₁, he₁⟩ | ⟨plan₃, plan₄, c₂, ⟨playerId, gameId, count⟩, hb, hcurrent, hr₁⟩
        · refine Or.inl ⟨by rw [hdb, hc₁], ?_⟩
          rcases hr with rfl | he
          · exact he₁
          · exact he
        · obtain ⟨rfl, d, hd, hwritten⟩ := writeFinishedSession_ok rfl hb
          refine Or.inr ⟨rows, playerId, gameId, liftPy_eq_ok.mp hrows, ?_, ?_⟩
          · rw [hdb, hcurrent, Conn.current, hd]
            exact hwritten
          · rcases hr with rfl | he
            · exact hr₁
            · exact Or.inr he

/-- A flush that returns has written the whole session. -/
theorem persist_ok {pg : List (Option Bool)} {utcnow : DateTime} {s : FinishedSession}
    {db db' : Database} {playerId gameId count : ℕ}
    (h : persist pg utcnow s db = (.ok (playerId, gameId, count), db')) :
    ∃ rows, buildEventRows utcnow s.events = .ok rows ∧ count = rows.length ∧
      Written db db' s rows playerId gameId := by
  rcases persist_cases pg utcnow s db with
    ⟨-, e, he⟩ | ⟨rows, playerId', gameId', hrows, hwritten, hok | ⟨e, he⟩⟩
  · rw [h] at he
    cases he
  · rw [h] at hok hwritten
    obtain ⟨rfl, rfl, rfl⟩ : playerId = playerId' ∧ gameId = gameId' ∧ count = rows.length := by
      simpa using hok
    exact ⟨rows, hrows, rfl, hwritten⟩
  · rw [h] at he
    cases he

theorem fits_of_insertEventRows {plan plan' : List (Option Bool)} {c c' : Conn} {gameId count : ℕ}
    {rows : List EventRow}
    (h : (insertEventRows gameId rows).run faultySql (plan, c) = (.ok count, plan', c')) :
    ∀ row ∈ rows, fitsInteger row.points := by
  cases rows with
  | nil => simp
  | cons row rows =>
      obtain ⟨_, ⟨plan₁, c₁⟩, hinsert, -⟩ := Prog.run_bind_ok h
      have hinsert := query_ok _ hinsert
      rw [sql_insertGameEvents] at hinsert
      cases hins : c.current.insertGameEvents gameId (row :: rows) with
      | ok db => exact Database.fits_of_insertGameEvents hins
      | error e =>
          rw [hins] at hinsert
          cases hinsert

theorem fits_of_insertGame {plan plan' : List (Option Bool)} {c c' : Conn} {g : NewGame} {id : ℕ}
    (h : (query (.insertGame g)).run faultySql (plan, c) = (.ok id, plan', c')) :
    fitsInteger g.score := by
  have hinsert := query_ok _ h
  rw [sql_insertGame] at hinsert
  cases hins : c.current.insertGame g with
  | ok out => exact Database.fits_of_insertGame hins
  | error e =>
      rw [hins] at hinsert
      cases hinsert

theorem fits_of_writeFinishedSession {plan plan' : List (Option Bool)} {c c' : Conn}
    {s : FinishedSession} {rows : List EventRow} {ids : ℕ × ℕ × ℕ}
    (h : (writeFinishedSession s rows).run faultySql (plan, c) = (.ok ids, plan', c')) :
    fitsInteger s.score.val ∧ ∀ row ∈ rows, fitsInteger row.points := by
  obtain ⟨playerId, ⟨plan₁, c₁⟩, -, h⟩ := Prog.run_bind_ok h
  obtain ⟨gameId, ⟨plan₂, c₂⟩, hgame, h⟩ := Prog.run_bind_ok h
  obtain ⟨count, ⟨plan₃, c₃⟩, hevents, -⟩ := Prog.run_bind_ok h
  exact ⟨fits_of_insertGame hgame, fits_of_insertEventRows hevents⟩

/-- A flush that returns had values that fit their columns. -/
theorem fits_of_persist {pg : List (Option Bool)} {utcnow : DateTime} {s : FinishedSession}
    {db db' : Database} {ids : ℕ × ℕ × ℕ} (h : persist pg utcnow s db = (.ok ids, db')) :
    fitsInteger s.score.val ∧ ∃ rows, buildEventRows utcnow s.events = .ok rows ∧
      ∀ row ∈ rows, fitsInteger row.points := by
  obtain ⟨⟨r, plan', c'⟩, hrun⟩ :
      ∃ out, (persistFinishedSession utcnow s).run faultySql (pg, { db }) = out := ⟨_, rfl⟩
  obtain rfl : r = .ok ids := by
    rw [persist, hrun] at h
    exact (Prod.mk.inj h).1
  rw [persistFinishedSession, Prog.run_bind, Prog.run_ofExcept] at hrun
  cases hrows : liftPy (buildEventRows utcnow s.events) with
  | error e =>
      rw [hrows] at hrun
      cases (Prod.mk.inj hrun).1
  | ok rows =>
      rw [hrows] at hrun
      rcases withConnection_cases hrun with ⟨-, e, he⟩ | ⟨plan₁, plan₂, c₁, r₁, h₁, -, hr₁⟩
      · cases he
      · obtain rfl : .ok ids = r₁ := hr₁.resolve_right fun he => by
          obtain ⟨e, he⟩ := he
          cases he
        rcases transaction_cases (writeFinishedSession_inBody s rows) h₁ with
          ⟨-, e, he⟩ | ⟨plan₃, plan₄, c₂, ids', hb, -, -⟩
        · cases he
        · obtain ⟨hscore, hpoints⟩ := fits_of_writeFinishedSession hb
          exact ⟨hscore, rows, liftPy_eq_ok.mp hrows, hpoints⟩

end Faults

section Healthy

/-- In a transaction, on a healthy connection, a player can always be had. -/
theorem upsertPlayer_of_healthy (db d : Database) (pseudo : String) :
    ∃ id d', (upsertPlayer pseudo).run sql { db, tx := some d } =
        (.ok id, { db, tx := some d' }) ∧ ∃ p ∈ d'.players, p.id = id := by
  rw [upsertPlayer, Prog.run_bind, query, Prog.run_perform, sql_selectPlayerId]
  cases hfound : Conn.current { db, tx := some d } |>.selectPlayerId pseudo with
  | some id =>
      obtain ⟨p, hp, hid⟩ := Option.map_eq_some_iff.mp hfound
      exact ⟨id, d, rfl, p, List.mem_of_find?_eq_some hp, hid⟩
  | none =>
      obtain ⟨id, d', hd'⟩ := Database.insertPlayer_of_select hfound
      refine ⟨id, d', ?_, ⟨id, pseudo⟩, ?_, rfl⟩
      · change Prog.run sql (query (.insertPlayer pseudo)) _ = _
        rw [query, Prog.run_perform, sql_insertPlayer, hd']
        rfl
      · rw [(Database.insertPlayer_ok hd').1]
        simp

/-- In a transaction, on a healthy connection, a session whose values fit their
columns is written. -/
theorem writeFinishedSession_of_fits (db d : Database) {s : FinishedSession}
    {rows : List EventRow} (hscore : fitsInteger s.score.val)
    (hrows : ∀ row ∈ rows, fitsInteger row.points) :
    ∃ ids d', (writeFinishedSession s rows).run sql { db, tx := some d } =
      (.ok ids, { db, tx := some d' }) := by
  obtain ⟨playerId, d₁, hplayer, hfound⟩ := upsertPlayer_of_healthy db d s.pseudo
  obtain ⟨gameId, d₂, hgame⟩ := Database.insertGame_of_fits
    (g := { playerId, roomId := none, mode := s.mode, score := s.score.val, status := .finished,
            startedAt := s.startedAt.naive, finishedAt := some s.finishedAt.naive }) hscore hfound
  have hmem : ∃ g ∈ d₂.games, g.id = gameId := by
    rw [(Database.insertGame_ok hgame).2.2.2]
    simp
  rw [writeFinishedSession, Prog.run_bind, hplayer]
  dsimp only
  rw [Prog.run_bind, insertFinishedGame, query, Prog.run_perform, sql_insertGame]
  rw [show Conn.current { db, tx := some d₁ } = d₁ from rfl, hgame]
  dsimp only [Conn.insert, Conn.write]
  rw [Prog.run_bind]
  cases rows with
  | nil => exact ⟨_, d₂, rfl⟩
  | cons row rows =>
      obtain ⟨d₃, hevents⟩ := Database.insertGameEvents_of_fits hrows hmem
      refine ⟨(playerId, gameId, (row :: rows).length), d₃, ?_⟩
      rw [insertEventRows, if_neg (by simp), Prog.run_bind, query, Prog.run_perform,
        sql_insertGameEvents, show Conn.current { db, tx := some d₂ } = d₂ from rfl, hevents]
      rfl

theorem transaction_fst {α : Type} (body : SqlProg α) (c : Conn) :
    ((transaction body).run sql c).1 = (body.run sql { c with tx := some c.db }).1 := by
  rw [transaction, Prog.run_bind, query, Prog.run_perform]
  dsimp only [sql]
  rw [Prog.run_bind, Prog.run_attempt]
  rcases body.run sql { c with tx := some c.db } with ⟨_ | _, c'⟩ <;> rfl

theorem withConnection_fst {α : Type} (body : SqlProg α) (c : Conn) :
    ((withConnection body).run sql c).1 = (body.run sql c).1 := by
  rw [withConnection, Prog.run_bind, query, Prog.run_perform]
  dsimp only [sql]
  rw [Prog.run_bind, Prog.run_attempt]
  rcases body.run sql c with ⟨_ | _, c'⟩ <;> rfl

/-- What a flush answers where no statement fails. -/
theorem persist_fst_of_healthy {pg : List (Option Bool)} (hpg : ∀ x ∈ pg, x = none)
    (utcnow : DateTime) (s : FinishedSession) (db : Database) :
    (persist pg utcnow s db).1 =
      match liftPy (buildEventRows utcnow s.events) with
      | .ok rows => ((writeFinishedSession s rows).run sql { db, tx := some db }).1
      | .error e => .error e := by
  unfold persist
  dsimp only
  rw [(Prog.run_faulty_of_healthy sql .callFailed _ pg hpg _).1, persistFinishedSession,
    Prog.run_bind, Prog.run_ofExcept]
  cases liftPy (buildEventRows utcnow s.events) with
  | error e => rfl
  | ok rows => exact (withConnection_fst _ _).trans (transaction_fst _ _)

/-- A flush of values that fit their columns returns where no statement fails. -/
theorem persist_of_fits {pg : List (Option Bool)} (hpg : ∀ x ∈ pg, x = none)
    {utcnow : DateTime} {s : FinishedSession} {rows : List EventRow}
    (hbuild : buildEventRows utcnow s.events = .ok rows) (hscore : fitsInteger s.score.val)
    (hrows : ∀ row ∈ rows, fitsInteger row.points) (db : Database) :
    ∃ ids, (persist pg utcnow s db).1 = .ok ids := by
  obtain ⟨ids, d', hwrite⟩ := writeFinishedSession_of_fits db db hscore hrows
  refine ⟨ids, ?_⟩
  rw [persist_fst_of_healthy hpg, hbuild, liftPy_ok]
  exact congrArg Prod.fst hwrite

/-- Whether an exception says that a session does not exist. -/
def Exc.isNotFound : Exc → Bool
  | sessionNotFound _ => true
  | _ => false

theorem insertGameEvents_isNotFound {gameId : ℕ} {rows : List EventRow} {db : Database} {e : Exc}
    (h : Database.insertGameEvents gameId db rows = .error e) : e.isNotFound = false := by
  induction rows generalizing db with
  | nil => cases h
  | cons row rows ih =>
      unfold Database.insertGameEvents at h
      split at h
      · exact ih h
      · next e' he' =>
          obtain rfl := Except.error.inj h
          unfold Database.insertGameEvent at he'
          split at he'
          · exact Except.error.inj he' ▸ rfl
          · split at he'
            · cases he'
            · exact Except.error.inj he' ▸ rfl

theorem sql_isNotFound {op : Stmt} {c : Conn} {e : Exc} (h : (sql op c).1 = .error e) :
    e.isNotFound = false := by
  have hinsert {α : Type} {r : Except Exc (α × Database)}
      (hr : ∀ e, r = .error e → e.isNotFound = false) (h : (c.insert r).1 = .error e) :
      e.isNotFound = false := by
    cases r with
    | ok out => cases h
    | error e' => exact Except.error.inj h ▸ hr e' rfl
  cases op with
  | insertPlayer pseudo =>
      refine hinsert (fun e' he' => ?_) h
      unfold Database.insertPlayer at he'
      split at he'
      · exact Except.error.inj he' ▸ rfl
      · cases he'
  | insertGame g =>
      refine hinsert (fun e' he' => ?_) h
      unfold Database.insertGame at he'
      split at he'
      · exact Except.error.inj he' ▸ rfl
      · split at he'
        · cases he'
        · exact Except.error.inj he' ▸ rfl
  | insertGameEvents gameId rows =>
      refine hinsert (fun e' he' => ?_) h
      cases hins : c.current.insertGameEvents gameId rows with
      | ok db =>
          rw [hins] at he'
          cases he'
      | error e'' =>
          rw [hins] at he'
          exact Except.error.inj he' ▸ insertGameEvents_isNotFound hins
  | _ => cases h

theorem writeFinishedSession_isNotFound (s : FinishedSession) (rows : List EventRow) :
    (writeFinishedSession s rows).Raises fun e => e.isNotFound = false := by
  have hplayer : (upsertPlayer s.pseudo).Raises fun e => e.isNotFound = false := by
    refine (Prog.raises_perform _).bind fun id => ?_
    cases id with
    | none => exact Prog.raises_perform _
    | some id => trivial
  refine hplayer.bind fun playerId => ?_
  refine Prog.Raises.bind (Prog.raises_perform _) fun gameId => ?_
  refine Prog.Raises.bind ?_ fun count => trivial
  unfold insertEventRows
  split
  · trivial
  · exact (Prog.raises_perform _).bind fun _ => trivial

/-- On a healthy database, no flush raises that the session does not exist. -/
theorem persist_isNotFound {pg : List (Option Bool)} (hpg : ∀ x ∈ pg, x = none)
    {utcnow : DateTime} {s : FinishedSession} {db : Database} {e : Exc}
    (h : (persist pg utcnow s db).1 = .error e) : e.isNotFound = false := by
  rw [persist_fst_of_healthy hpg] at h
  cases hbuild : buildEventRows utcnow s.events with
  | ok rows =>
      rw [hbuild] at h
      exact (writeFinishedSession_isNotFound s rows).run (h := sql)
        (fun op c e he => sql_isNotFound he) h
  | error e' =>
      rw [hbuild] at h
      exact Except.error.inj h ▸ rfl

theorem transaction_error {α : Type} {body : SqlProg α} {c c' : Conn} {e : Exc}
    (h : body.run sql { c with tx := some c.db } = (.error e, c')) :
    (transaction body).run sql c = (.error e, { db := c'.db.rolledBack c'.current }) := by
  rw [transaction, Prog.run_bind, query, Prog.run_perform]
  dsimp only [sql]
  rw [Prog.run_bind, Prog.run_attempt, h]
  rfl

theorem withConnection_snd {α : Type} (body : SqlProg α) (c : Conn) :
    ((withConnection body).run sql c).2 = { (body.run sql c).2 with tx := none } := by
  rw [withConnection, Prog.run_bind, query, Prog.run_perform]
  dsimp only [sql]
  rw [Prog.run_bind, Prog.run_attempt]
  dsimp only
  rw [Prog.run_bind, query, Prog.run_perform]
  dsimp only [sql]
  rw [Prog.run_ofExcept]

/-- On a healthy database, a flush that raises leaves the rows. -/
theorem persist_rows_of_error {pg : List (Option Bool)} (hpg : ∀ x ∈ pg, x = none)
    {utcnow : DateTime} {s : FinishedSession} {db : Database} {e : Exc}
    (h : (persist pg utcnow s db).1 = .error e) : (persist pg utcnow s db).2.rows = db.rows := by
  obtain ⟨hresult, hconn⟩ := Prog.run_faulty_of_healthy sql .callFailed
    (persistFinishedSession utcnow s) pg hpg { db }
  rw [persist, hresult] at h
  rw [persist]
  dsimp only
  rw [hconn, persistFinishedSession, Prog.run_bind, Prog.run_ofExcept]
  rw [persistFinishedSession, Prog.run_bind, Prog.run_ofExcept] at h
  cases hrows : liftPy (buildEventRows utcnow s.events) with
  | error e' => rfl
  | ok rows =>
      rw [hrows] at h
      dsimp only at h ⊢
      obtain ⟨⟨r, c⟩, hbody⟩ : ∃ out, (writeFinishedSession s rows).run sql { db, tx := some db } =
        out := ⟨_, rfl⟩
      have hin := Prog.run_invariant (h := sql) (I := fun c : Conn => c.db = db ∧ c.tx.isSome)
        (fun op c hop hc => sql_inTransaction hop hc.1 hc.2) (writeFinishedSession_inBody s rows)
        (s := { db, tx := some db }) ⟨rfl, rfl⟩
      rw [hbody] at hin
      cases r with
      | ok ids =>
          rw [withConnection_fst, transaction_fst, hbody] at h
          cases h
      | error e' =>
          rw [withConnection_snd, transaction_error (c := { db }) hbody]
          exact (Database.rows_rolledBack _ _).trans (congrArg Database.rows hin.1)

end Healthy

end FlipperBack
