import FlipperBack.System.Facts

/-!
# What is written at once

A `Work` is what becomes visible to everyone in one step: the rows of a transaction that
commits or of a statement outside transactions, or an update of a game. `Content` is
what is stored for everyone, in no order; the works apply to it. Events stand
in both up to their ids, which an `INSERT` of many rows does not return.
-/

namespace FlipperBack

open Effects Python

/-- An event up to its id. -/
def GameEventRow.note (e : GameEventRow) : ℕ × EventRow :=
  (e.gameId, e.row)

/-- Rows of the four tables. -/
structure Rows where
  players : List PlayerRow := []
  rooms : List RoomRow := []
  games : List GameRow := []
  events : List (ℕ × EventRow) := []

namespace Rows

/-- No rows. -/
def empty : Rows :=
  { players := [], rooms := [], games := [], events := [] }

def isEmpty (r : Rows) : Bool :=
  r.players.isEmpty && r.rooms.isEmpty && r.games.isEmpty && r.events.isEmpty

def append (r r' : Rows) : Rows where
  players := r.players ++ r'.players
  rooms := r.rooms ++ r'.rooms
  games := r.games ++ r'.games
  events := r.events ++ r'.events

theorem empty_append (r : Rows) : empty.append r = r := rfl

theorem append_empty (r : Rows) : r.append empty = r := by
  simp [append, empty]

theorem eq_empty_of_isEmpty {r : Rows} (h : r.isEmpty = true) : r = empty := by
  obtain ⟨players, rooms, games, events⟩ := r
  simp only [isEmpty, Bool.and_eq_true, List.isEmpty_iff] at h
  obtain ⟨⟨⟨rfl, rfl⟩, rfl⟩, rfl⟩ := h
  rfl

end Rows

inductive Work
  | insert (rows : Rows)
  | addPoints (gameId points : ℤ)
  | finish (gameId : ℤ) (finishedAt : Option DateTime)

/-- Rows that are inserted together, if there are any. -/
def Rows.works (r : Rows) : List Work :=
  if r.isEmpty then [] else [.insert r]

/-- What is stored for everyone. -/
structure Content where
  players : List PlayerRow
  rooms : List RoomRow
  games : List GameRow
  events : List (ℕ × EventRow)

namespace Content

/-- The games after a change of one of them. -/
def change (s : Content) (gameId : ℤ) (f : Postgres.GameChange) : Content :=
  { s with games := s.games.map fun g => if (g.id : ℤ) = gameId then f.apply g else g }

def finishedAtChange (finishedAt : Option DateTime) : Postgres.GameChange where
  apply g := { g with status := .finished, finishedAt }
  id _ := rfl
  playerId _ := rfl
  roomId _ := rfl

def apply (s : Content) : Work → Content
  | .insert rows =>
      { players := s.players ++ rows.players, rooms := s.rooms ++ rows.rooms,
        games := s.games ++ rows.games, events := s.events ++ rows.events }
  | .addPoints gameId points => s.change gameId (Postgres.addPointsChange points)
  | .finish gameId finishedAt => s.change gameId (finishedAtChange finishedAt)

/-- The same rows, in any order. -/
structure Same (s s' : Content) : Prop where
  players : s.players.Perm s'.players
  rooms : s.rooms.Perm s'.rooms
  games : s.games.Perm s'.games
  events : s.events.Perm s'.events

namespace Same

variable {s s' s'' : Content}

theorem refl (s : Content) : Same s s :=
  ⟨.refl _, .refl _, .refl _, .refl _⟩

theorem trans (h : Same s s') (h' : Same s' s'') : Same s s'' :=
  ⟨h.players.trans h'.players, h.rooms.trans h'.rooms, h.games.trans h'.games,
    h.events.trans h'.events⟩

theorem apply (h : Same s s') (w : Work) : Same (s.apply w) (s'.apply w) := by
  cases w with
  | insert rows =>
      exact ⟨h.players.append_right _, h.rooms.append_right _, h.games.append_right _,
        h.events.append_right _⟩
  | addPoints gameId points => exact ⟨h.players, h.rooms, h.games.map _, h.events⟩
  | finish gameId finishedAt => exact ⟨h.players, h.rooms, h.games.map _, h.events⟩

theorem foldl (h : Same s s') (ws : List Work) :
    Same (ws.foldl Content.apply s) (ws.foldl Content.apply s') := by
  induction ws generalizing s s' with
  | nil => exact h
  | cons w ws ih => exact ih (h.apply w)

end Same

theorem apply_empty (s : Content) : s.apply (.insert Rows.empty) = s := by
  simp [apply, Rows.empty]

/-- Rows that are none are no work. -/
theorem foldl_works (s : Content) (r : Rows) :
    r.works.foldl apply s = s.apply (.insert r) := by
  unfold Rows.works
  split
  · next hempty => rw [Rows.eq_empty_of_isEmpty hempty, apply_empty, List.foldl_nil]
  · rfl

end Content

/-! ## The rows of everyone, and those of a transaction -/

namespace Postgres

def content (s : Postgres) : Content where
  players := s.players.committed
  rooms := s.rooms.committed
  games := s.games.committed
  events := s.gameEvents.committed.map GameEventRow.note

/-- What the transaction of `c` has inserted. -/
def pending (s : Postgres) (c : ℕ) : Rows where
  players := s.players.pending c
  rooms := s.rooms.pending c
  games := s.games.pending c
  events := (s.gameEvents.pending c).map GameEventRow.note

/-- The rows are inserted, for the transaction of `owner` or for good. -/
def Inserts (owner : Option ℕ) (s s' : Postgres) (rows : Rows) : Prop :=
  ∃ events : List GameEventRow, events.map GameEventRow.note = rows.events ∧
    s'.tables = (s.players.rows ++ rows.players.map fun p => (owner, p),
      s.rooms.rows ++ rows.rooms.map fun r => (owner, r),
      s.games.rows ++ rows.games.map fun g => (owner, g),
      s.gameEvents.rows ++ events.map fun e => (owner, e))

section Inserts

variable {s s' : Postgres} {rows : Rows} {c : ℕ}

theorem inserts_empty {owner : Option ℕ} (h : s'.tables = s.tables) :
    Inserts owner s s' Rows.empty :=
  ⟨[], rfl, by simpa [Rows.empty, tables] using h⟩

/-- Rows that are inserted outside transactions are there for everyone. -/
theorem Inserts.content_none (h : Inserts none s s' rows) :
    s'.content = s.content.apply (.insert rows) := by
  obtain ⟨events, hnotes, htables⟩ := h
  simp only [tables, Prod.mk.injEq] at htables
  obtain ⟨hplayers, hrooms, hgames, hevents⟩ := htables
  simp [content, Content.apply, TxTable.committed_append_none hplayers,
    TxTable.committed_append_none hrooms, TxTable.committed_append_none hgames,
    TxTable.committed_append_none hevents, hnotes]

theorem Inserts.pending_none (h : Inserts none s s' rows) : s'.pending c = s.pending c := by
  obtain ⟨events, hnotes, htables⟩ := h
  simp only [tables, Prod.mk.injEq] at htables
  obtain ⟨hplayers, hrooms, hgames, hevents⟩ := htables
  simp [pending, TxTable.pending_append_none hplayers, TxTable.pending_append_none hrooms,
    TxTable.pending_append_none hgames, TxTable.pending_append_none hevents]

/-- Rows that a transaction inserts are there for itself. -/
theorem Inserts.content_some (h : Inserts (some c) s s' rows) : s'.content = s.content := by
  obtain ⟨events, hnotes, htables⟩ := h
  simp only [tables, Prod.mk.injEq] at htables
  obtain ⟨hplayers, hrooms, hgames, hevents⟩ := htables
  simp [content, TxTable.committed_append_some hplayers, TxTable.committed_append_some hrooms,
    TxTable.committed_append_some hgames, TxTable.committed_append_some hevents]

theorem Inserts.pending_self (h : Inserts (some c) s s' rows) :
    s'.pending c = (s.pending c).append rows := by
  obtain ⟨events, hnotes, htables⟩ := h
  simp only [tables, Prod.mk.injEq] at htables
  obtain ⟨hplayers, hrooms, hgames, hevents⟩ := htables
  simp [pending, Rows.append, TxTable.pending_append_self hplayers,
    TxTable.pending_append_self hrooms, TxTable.pending_append_self hgames,
    TxTable.pending_append_self hevents, hnotes]

theorem Inserts.pending_of_ne {d : ℕ} (hd : d ≠ c) (h : Inserts (some c) s s' rows) :
    s'.pending d = s.pending d := by
  obtain ⟨events, hnotes, htables⟩ := h
  simp only [tables, Prod.mk.injEq] at htables
  obtain ⟨hplayers, hrooms, hgames, hevents⟩ := htables
  simp [pending, TxTable.pending_append_of_ne hd hplayers, TxTable.pending_append_of_ne hd hrooms,
    TxTable.pending_append_of_ne hd hgames, TxTable.pending_append_of_ne hd hevents]

end Inserts

section Ends

variable (s : Postgres) (c : ℕ)

/-- A transaction that commits is there for everyone. -/
theorem content_commit : Content.Same (s.commit c).content
    (s.content.apply (.insert (s.pending c))) := by
  refine ⟨TxTable.committed_commit _ c, TxTable.committed_commit _ c,
    TxTable.committed_commit _ c, ?_⟩
  have hevents := (TxTable.committed_commit s.gameEvents c).map GameEventRow.note
  rwa [List.map_append] at hevents

theorem pending_commit_self : (s.commit c).pending c = Rows.empty := by
  simp [pending, commit, TxTable.pending_commit_self, Rows.empty]

theorem pending_commit_of_ne {d : ℕ} (hd : d ≠ c) : (s.commit c).pending d = s.pending d := by
  simp [pending, commit, TxTable.pending_commit_of_ne hd]

theorem content_rollback : (s.rollback c).content = s.content := by
  simp [content, rollback, TxTable.committed_rollback]

theorem pending_rollback_self : (s.rollback c).pending c = Rows.empty := by
  simp [pending, rollback, TxTable.pending_rollback_self, Rows.empty]

theorem pending_rollback_of_ne {d : ℕ} (hd : d ≠ c) :
    (s.rollback c).pending d = s.pending d := by
  simp [pending, rollback, TxTable.pending_rollback_of_ne hd]

theorem content_updateGame (gameId : ℤ) (f : GameChange) :
    (s.updateGame gameId f).content = s.content.change gameId f := by
  simp only [content, updateGame, Content.change, TxTable.committed_update]

theorem pending_updateGame (gameId : ℤ) (f : GameChange) :
    (s.updateGame gameId f).pending c = s.pending c := by
  simp only [pending, updateGame, TxTable.pending_update]

end Ends

end Postgres

/-! ## What a call writes -/

/-- The row of a game whose key is returned. -/
def NewGame.row (g : NewGame) (id : ℕ) : GameRow where
  id := id
  playerId := g.playerId
  roomId := g.roomId
  mode := g.mode
  score := g.score
  status := g.status
  startedAt := g.startedAt
  finishedAt := g.finishedAt

/-- The rows that a call has inserted, of its answer. -/
def PgCall.inserts : (call : PgCall) → Except Exc call.Res → Rows
  | stmt (.insertPlayer pseudo), .ok id =>
      { Rows.empty with players := [{ id, pseudo := varchar 50 pseudo }] }
  | stmt (.insertGame g), .ok id => { Rows.empty with games := [g.row id] }
  | stmt (.insertGameEvents gameId rows), .ok () =>
      { Rows.empty with events := rows.map fun row => (gameId, row) }
  | insertRoom _ _ _, .ok r => { Rows.empty with rooms := [r] }
  | insertGame _ _ _ _ _, .ok g => { Rows.empty with games := [g] }
  | insertGameEvent _ _ _, .ok e => { Rows.empty with events := [e.note] }
  | _, _ => Rows.empty

/-- The updates of a call, of its answer. -/
def PgCall.updates : (call : PgCall) → Except Exc call.Res → List Work
  | addPoints gameId points, .ok _ => [.addPoints gameId points]
  | finishGame gameId, .ok g => [.finish gameId g.finishedAt]
  | _, _ => []

/-- The call updates a game. -/
def PgCall.Updates : PgCall → Prop
  | addPoints _ _ => True
  | finishGame _ => True
  | _ => False

/-- The call starts a transaction or ends it. -/
def PgCall.Bounds : PgCall → Prop
  | stmt .start => True
  | stmt .commit => True
  | stmt .rollback => True
  | stmt .release => True
  | _ => False

section Serve

variable {c : ℕ} {v : Server}

/-- A statement that inserts does so where it succeeds. -/
theorem write_inserts {call : PgCall} {r : Except Exc (call.Res × Postgres)} {owner : Option ℕ}
    (hok : ∀ a s, r = .ok (a, s) → v.pg.Inserts owner s (call.inserts (.ok a)))
    (herror : ∀ e, call.inserts (.error e) = Rows.empty) :
    v.pg.Inserts owner (v.write r).2.pg (call.inserts (v.write r).1) := by
  rcases r with e | ⟨a, s⟩
  · change v.pg.Inserts owner v.pg (call.inserts (.error e))
    rw [herror e]
    exact Postgres.inserts_empty rfl
  · exact hok a s rfl

theorem inserts_insertGameEvents {gameId : ℕ} {rows : List EventRow} {s s' : Postgres}
    (h : s.insertGameEvents c gameId rows = .ok s') :
    s.Inserts (s.owner c) s' { Rows.empty with events := rows.map fun row => (gameId, row) } := by
  induction rows generalizing s with
  | nil =>
      obtain rfl := Except.ok.inj h
      exact Postgres.inserts_empty rfl
  | cons row rows ih =>
      unfold Postgres.insertGameEvents at h
      split at h
      · next e s₁ hinsert =>
          obtain ⟨hgame, hrow, -, htables, htx⟩ := Postgres.insertGameEvent_ok hinsert
          obtain ⟨events, hnotes, htables'⟩ := ih h
          simp only [Postgres.tables, Prod.mk.injEq] at htables htables'
          obtain ⟨hplayers, hrooms, hgames, hevents⟩ := htables
          obtain ⟨hplayers', hrooms', hgames', hevents'⟩ := htables'
          have howner : s₁.owner c = s.owner c := by rw [Postgres.owner, Postgres.owner, htx]
          have hnote : e.note = (gameId, row) := by
            rw [GameEventRow.note, hrow, Int.natCast_inj.mp hgame]
          refine ⟨e :: events, by rw [List.map_cons, hnotes, hnote, List.map_cons], ?_⟩
          simp only [Postgres.tables, Prod.mk.injEq]
          rw [hplayers', hrooms', hgames', hevents', hplayers, hrooms, hgames, hevents, howner]
          exact ⟨rfl, rfl, rfl, by simp⟩
      · cases h

/-- What a call that updates no game and ends no transaction does to the rows. -/
theorem serve_inserts (c : ℕ) {call : PgCall} (hupdates : ¬ call.Updates) (hbounds : ¬ call.Bounds)
    (v : Server) :
    v.pg.Inserts (v.pg.owner c) (serve c call v).2.pg (call.inserts (serve c call v).1) := by
  cases call with
  | stmt s =>
      cases s with
      | acquire => exact Postgres.inserts_empty rfl
      | start => exact (hbounds trivial).elim
      | commit => exact (hbounds trivial).elim
      | rollback => exact (hbounds trivial).elim
      | release => exact (hbounds trivial).elim
      | selectPlayerId pseudo => exact Postgres.inserts_empty rfl
      | insertPlayer pseudo =>
          refine write_inserts (fun id s hinsert => ⟨[], rfl, ?_⟩) fun _ => rfl
          obtain ⟨-, htables, -⟩ := Postgres.insertPlayer_ok hinsert
          simpa [PgCall.inserts, Rows.empty] using htables
      | insertGame g =>
          refine write_inserts (fun id s hinsert => ⟨[], rfl, ?_⟩) fun _ => rfl
          obtain ⟨⟨row, s'⟩, hrow, heq⟩ := exists_of_map_ok hinsert
          obtain ⟨rfl, rfl⟩ := Prod.mk.inj heq
          obtain ⟨rfl, htables, -⟩ := Postgres.insertGame_ok hrow
          simpa [PgCall.inserts, Rows.empty, NewGame.row, Postgres.newGame] using htables
      | insertGameEvents gameId rows =>
          refine write_inserts (fun a s hinsert => ?_) fun _ => rfl
          obtain ⟨s', hrows, heq⟩ := exists_of_map_ok hinsert
          obtain ⟨-, rfl⟩ := Prod.mk.inj heq
          exact inserts_insertGameEvents hrows
  | selectPlayer pseudo => exact Postgres.inserts_empty rfl
  | selectRoom code => exact Postgres.inserts_empty rfl
  | insertRoom code mode status =>
      refine write_inserts (fun room s hinsert => ⟨[], rfl, ?_⟩) fun _ => rfl
      obtain ⟨-, htables, -⟩ := Postgres.insertRoom_ok hinsert
      simpa [PgCall.inserts, Rows.empty] using htables
  | selectGame gameId => exact Postgres.inserts_empty rfl
  | insertGame playerId roomId mode score status =>
      refine write_inserts (fun row s hinsert => ⟨[], rfl, ?_⟩) fun _ => rfl
      obtain ⟨-, htables, -⟩ := Postgres.insertGame_ok hinsert
      have htables : s.tables = (v.pg.players.rows, v.pg.rooms.rows,
        v.pg.games.rows ++ [(v.pg.owner c, row)], v.pg.gameEvents.rows) := htables
      simpa [PgCall.inserts, Rows.empty] using htables
  | insertGameEvent gameId type points =>
      refine write_inserts (fun e s hinsert => ⟨[e], rfl, ?_⟩) fun _ => rfl
      obtain ⟨-, -, -, htables, -⟩ := Postgres.insertGameEvent_ok hinsert
      have htables : s.tables = (v.pg.players.rows, v.pg.rooms.rows, v.pg.games.rows,
        v.pg.gameEvents.rows ++ [(v.pg.owner c, e)]) := htables
      simpa [PgCall.inserts, Rows.empty] using htables
  | addPoints gameId points => exact (hupdates trivial).elim
  | finishGame gameId => exact (hupdates trivial).elim
  | respond response => exact Postgres.inserts_empty rfl

/-- What an update does to the rows. -/
theorem serve_updates (c : ℕ) {call : PgCall} (hupdates : call.Updates) (v : Server) :
    (serve c call v).2.pg.content = (call.updates (serve c call v).1).foldl Content.apply
        v.pg.content ∧
      ∀ d, (serve c call v).2.pg.pending d = v.pg.pending d := by
  cases call with
  | addPoints gameId points =>
      obtain ⟨r, hr⟩ : ∃ r, v.pg.addPoints gameId points = r := ⟨_, rfl⟩
      simp only [serve, hr]
      rcases r with e | ⟨g, s⟩
      · exact ⟨rfl, fun _ => rfl⟩
      · obtain ⟨-, -, -, -, rfl⟩ := Postgres.addPoints_ok hr
        exact ⟨Postgres.content_updateGame _ _ _, fun d => Postgres.pending_updateGame _ d _ _⟩
  | finishGame gameId =>
      obtain ⟨r, hr⟩ : ∃ r, v.pg.tick.finishGame gameId v.pg.now = r := ⟨_, rfl⟩
      simp only [serve, hr]
      rcases r with e | ⟨g, s⟩
      · exact ⟨rfl, fun _ => rfl⟩
      · obtain ⟨g₀, -, rfl, rfl⟩ := Postgres.finishGame_ok hr
        exact ⟨Postgres.content_updateGame _ _ _, fun d => Postgres.pending_updateGame _ d _ _⟩
  | stmt s => exact hupdates.elim
  | _ => exact hupdates.elim

end Serve

end FlipperBack
