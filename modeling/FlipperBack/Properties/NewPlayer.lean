import FlipperBack.Infrastructure.UnitOfWork
import FlipperBack.Properties.FitsColumns
import FlipperBack.UseCase.Executions

/-!
# Runs of a new player

Any number of `persist_finished_session` and of `CreateOrGetPlayer` run at once for
one pseudo. The games that are stored are of the one player of the pseudo, and a run
whose values fit is stored where no row of the pseudo has been committed between the
`SELECT` and the `INSERT` of its transaction (`persistFinishedSession_stored`). Where
one has, the run is lost: the transaction has no second look at the players
(`persistFinishedSession_lost`).
-/

namespace FlipperBack

open Effects Python

/-! ## The games of the pseudo -/

/-- The games that `s` does not have are of the player of the pseudo. -/
def Postgres.GamesOf (s : Postgres) (pseudo : String) (s' : Postgres) : Prop :=
  ∀ x ∈ s'.games.rows, x ∈ s.games.rows ∨
    { id := x.2.playerId, pseudo := pseudo } ∈ s'.players.rows.map Prod.snd

namespace Postgres.GamesOf

variable {s s₁ s₂ : Postgres} {pseudo : String} {c : ℕ}

theorem of_players (h : s.GamesOf pseudo s₁) (hgames : s₂.games.rows = s₁.games.rows)
    (hplayers : ∀ row ∈ s₁.players.rows.map Prod.snd, row ∈ s₂.players.rows.map Prod.snd) :
    s.GamesOf pseudo s₂ := by
  intro x hx
  rw [hgames] at hx
  exact (h x hx).imp id (hplayers _)

/-- A game that is inserted is of the player of the pseudo. -/
theorem insertGame (h : s.GamesOf pseudo s₁) {g : NewGame} {row : GameRow}
    (hplayer : { id := g.playerId, pseudo := pseudo } ∈ s₁.players.visible (some c))
    (hinsert : s₁.insertGame c g = .ok (row, s₂)) : s.GamesOf pseudo s₂ := by
  obtain ⟨rfl, htables, -⟩ := insertGame_ok hinsert
  simp only [tables, Prod.mk.injEq] at htables
  obtain ⟨hplayers, -, hgames, -⟩ := htables
  intro x hx
  rw [hplayers]
  rcases List.mem_append.mp (hgames ▸ hx) with hx | hx
  · exact h x hx
  · rw [List.mem_singleton.mp hx]
    obtain ⟨y, hy, hrow, -⟩ := TxTable.mem_visible.mp hplayer
    exact Or.inr (List.mem_map.mpr ⟨y, hy, hrow⟩)

theorem commit (h : s.GamesOf pseudo s₁) (hs : ∀ x ∈ s.games.rows, x.1 = none) (c : ℕ) :
    s.GamesOf pseudo (s₁.commit c) := by
  intro x hx
  have hplayers : (s₁.commit c).players.rows.map Prod.snd = s₁.players.rows.map Prod.snd :=
    TxTable.column_commit id
  rw [hplayers]
  rcases TxTable.mem_commit.mp hx with ⟨hx, -⟩ | ⟨-, hx⟩
  · exact h x hx
  · -- A game of the transaction is not one of `s`.
    refine Or.inr ((h _ hx).resolve_left fun hold => ?_)
    cases hs _ hold

/-- A game that outlives a transaction is not of a player that goes with it. -/
theorem rollback (h : s.GamesOf pseudo s₁) (c : ℕ) : s.GamesOf pseudo (s₁.rollback c) := by
  intro x hx
  refine (h x (TxTable.mem_rollback.mp hx).1).imp id fun hplayer => ?_
  obtain ⟨y, hy, hkey, -⟩ := (s₁.rollback c).games_player x hx _ rfl
  obtain ⟨y', hy', hrow⟩ := List.mem_map.mp hplayer
  have heq : y = y' := TxTable.eq_of_key (TxTable.mem_rollback.mp hy).1 hy'
    (hkey.trans (congrArg PlayerRow.id hrow).symm)
  exact List.mem_map.mpr ⟨y, hy, heq ▸ hrow⟩

end Postgres.GamesOf

/-! ## What the other executions leave alone -/

/-- What the transaction of `c` sees is still there, and so are the responses. -/
structure Server.Keeps (c : ℕ) (v v' : Server) : Prop where
  inTransaction : v'.pg.inTransaction c = v.pg.inTransaction c
  players : ∀ r ∈ v.pg.players.visible (some c), r ∈ v'.pg.players.visible (some c)
  games : ∀ r ∈ v.pg.games.visible (some c), r ∈ v'.pg.games.visible (some c)
  responses : ∀ x ∈ v.responses, x ∈ v'.responses

namespace Server.Keeps

variable {c c' : ℕ} {v v' : Server}

theorem refl (c : ℕ) (v : Server) : v.Keeps c v :=
  ⟨rfl, fun _ => id, fun _ => id, fun _ => id⟩

theorem of_write {α : Type} {r : Except Exc (α × Postgres)}
    (h : ∀ a s, r = .ok (a, s) → v.Keeps c { v with pg := s }) : v.Keeps c (v.write r).2 := by
  rcases r with e | ⟨a, s⟩
  · exact refl c v
  · exact h a s rfl

/-- Rows that are added are seen beside those that were. -/
theorem of_append {s : Postgres} {players : List (Option ℕ × PlayerRow)}
    {games : List (Option ℕ × GameRow)} (hplayers : s.players.rows = v.pg.players.rows ++ players)
    (hgames : s.games.rows = v.pg.games.rows ++ games)
    (htx : s.inTransaction = v.pg.inTransaction) : v.Keeps c { v with pg := s } := by
  refine ⟨by rw [htx], fun r hr => ?_, fun r hr => ?_, fun _ => id⟩
  · obtain ⟨x, hx, hrow, hown⟩ := TxTable.mem_visible.mp hr
    exact TxTable.mem_visible.mpr ⟨x, by rw [hplayers]; exact List.mem_append_left _ hx, hrow, hown⟩
  · obtain ⟨x, hx, hrow, hown⟩ := TxTable.mem_visible.mp hr
    exact TxTable.mem_visible.mpr ⟨x, by rw [hgames]; exact List.mem_append_left _ hx, hrow, hown⟩

theorem start (hc : c ≠ c') (v : Server) : v.Keeps c { v with pg := v.pg.start c' } :=
  ⟨Function.update_of_ne hc _ _, fun _ => id, fun _ => id, fun _ => id⟩

theorem commit (hc : c ≠ c') (v : Server) : v.Keeps c { v with pg := v.pg.commit c' } :=
  have hown : some c ≠ some c' := fun h => hc (Option.some.inj h)
  ⟨Function.update_of_ne hc _ _, fun _ => TxTable.visible_commit hown,
    fun _ => TxTable.visible_commit hown, fun _ => id⟩

theorem rollback (hc : c ≠ c') (v : Server) : v.Keeps c { v with pg := v.pg.rollback c' } :=
  have hown : some c ≠ some c' := fun h => hc (Option.some.inj h)
  ⟨Function.update_of_ne hc _ _, fun _ => TxTable.visible_rollback hown,
    fun _ => TxTable.visible_rollback hown, fun _ => id⟩

end Server.Keeps

/-- The calls of executions that store players. -/
def PgCall.OfPlayers : PgCall → Prop
  | stmt _ => True
  | selectPlayer _ => True
  | respond _ => True
  | _ => False

theorem serve_keeps {c c' : ℕ} (hc : c ≠ c') {call : PgCall} (hcall : call.OfPlayers) (v : Server) :
    v.Keeps c (serve c' call v).2 := by
  cases call with
  | stmt s =>
      cases s with
      | acquire => exact .refl c v
      | release => exact .rollback hc v
      | start => exact .start hc v
      | commit => exact .commit hc v
      | rollback => exact .rollback hc v
      | selectPlayerId pseudo => exact .refl c v
      | insertPlayer pseudo =>
          refine .of_write fun id s hinsert => ?_
          obtain ⟨-, htables, htx⟩ := Postgres.insertPlayer_ok hinsert
          simp only [Postgres.tables, Prod.mk.injEq] at htables
          exact .of_append htables.1 (htables.2.2.1.trans (List.append_nil _).symm) htx
      | insertGame g =>
          refine .of_write fun id s h => ?_
          obtain ⟨⟨row, s'⟩, hinsert, heq⟩ := exists_of_map_ok h
          obtain ⟨rfl, rfl⟩ := Prod.mk.inj heq
          obtain ⟨-, htables, htx⟩ := Postgres.insertGame_ok hinsert
          simp only [Postgres.tables, Prod.mk.injEq] at htables
          exact .of_append (htables.1.trans (List.append_nil _).symm) htables.2.2.1 htx
      | insertGameEvents gameId rows =>
          refine .of_write fun u s h => ?_
          obtain ⟨s', hinsert, heq⟩ := exists_of_map_ok h
          obtain ⟨-, rfl⟩ := Prod.mk.inj heq
          obtain ⟨hplayers, hgames, htx⟩ := Postgres.insertGameEvents_ok hinsert
          exact .of_append (hplayers.trans (List.append_nil _).symm)
            (hgames.trans (List.append_nil _).symm) htx
  | selectPlayer pseudo => exact .refl c v
  | respond response =>
      exact ⟨rfl, fun _ => id, fun _ => id, fun x hx => List.mem_append_left _ hx⟩
  | _ => exact hcall.elim

/-! ## The statements of a transaction -/

/-- Where the storing of a session is; `ok` says whether its transaction has gone
through. -/
inductive StoreStage
  | acquiring
  | starting
  | selecting
  | missing
  | found (playerId : ℕ)
  | logging (gameId : ℕ)
  | committing
  | failing
  | releasing (ok : Bool)
  | answering (ok : Bool)
  | responded (ok : Bool)

namespace StoreStage

/-- The statement of each stage. -/
def Allows (utcnow : DateTime) (s : FinishedSession) : StoreStage → PgCall → Prop
  | acquiring, call => call = .stmt .acquire
  | starting, call => call = .stmt .start
  | selecting, call => call = .stmt (.selectPlayerId s.pseudo)
  | missing, call => call = .stmt (.insertPlayer s.pseudo)
  | found playerId, call => ∃ g, call = .stmt (.insertGame g) ∧ g.playerId = playerId ∧
      g.roomId = none ∧ g.score = s.score.val
  | logging gameId, call => ∃ rows, buildEventRows utcnow s.events = .ok rows ∧
      call = .stmt (.insertGameEvents gameId rows)
  | committing, call => call = .stmt .commit
  | failing, call => call = .stmt .rollback
  | releasing _, call => call = .stmt .release
  | answering ok, call => ∃ r, call = .respond (.persisted r) ∧ r.isOk = ok
  | responded _, _ => False

/-- The stages that an answer leads to. -/
def Next : StoreStage → (call : PgCall) → Except Exc call.Res → StoreStage → Prop
  | acquiring, _, _, q => q = starting
  | starting, _, _, q => q = selecting
  | selecting, .stmt (.selectPlayerId _), .ok (some id), q => q = found id
  | selecting, .stmt (.selectPlayerId _), .ok none, q => q = missing
  | missing, .stmt (.insertPlayer _), .ok id, q => q = found id
  | found _, .stmt (.insertGame _), .ok gameId, q => q = logging gameId ∨ q = committing
  | logging _, _, .ok _, q => q = committing
  | committing, _, _, q => q = releasing true
  | failing, _, _, q => q = releasing false
  | releasing ok, _, _, q => q = answering ok
  | answering ok, _, _, q => q = responded ok
  | _, _, _, q => q = failing

end StoreStage

/-- An execution for one pseudo: of `CreateOrGetPlayer`, or of
`persist_finished_session` in one of its stages. -/
inductive StorePhase
  | lookup
  | storing (utcnow : DateTime) (s : FinishedSession) (stage : StoreStage)

namespace StorePhase

def Allows (pseudo : String) : StorePhase → PgCall → Prop
  | lookup, .selectPlayer _ => True
  | lookup, .stmt (.insertPlayer pseudo') => pseudo' = pseudo
  | lookup, .respond (.player _) => True
  | lookup, _ => False
  | storing utcnow s stage, call => stage.Allows utcnow s call

def Next : StorePhase → (call : PgCall) → Except Exc call.Res → StorePhase → Prop
  | lookup, _, _, q => q = lookup
  | storing utcnow s stage, call, r, q => ∃ stage', q = storing utcnow s stage' ∧
      stage.Next call r stage'

def Ended : StorePhase → Prop
  | lookup => True
  | storing _ _ (.responded _) => True
  | storing _ _ _ => False

/-- The execution of a phase. -/
def Of : StorePhase → Option PlayerExecution → Prop
  | lookup, exec => ∀ utcnow s, exec ≠ some (.persistFinishedSession utcnow s)
  | storing utcnow s _, exec => exec = some (.persistFinishedSession utcnow s)

end StorePhase

/-- Connections are acquired and released, and transactions ended. -/
def PgCall.Answers : (call : PgCall) → Except Exc call.Res → Prop
  | stmt .acquire, r => r = .ok ()
  | stmt .start, r => r = .ok ()
  | stmt .commit, r => r = .ok ()
  | stmt .rollback, r => r = .ok ()
  | stmt .release, r => r = .ok ()
  | _, _ => True

theorem serve_answers (c : ℕ) (call : PgCall) (v : Server) : call.Answers (serve c call v).1 := by
  cases call with
  | stmt s => cases s <;> trivial
  | _ => trivial

def storing (pseudo : String) : Protocol Exc PgCall.Res StorePhase where
  allowed := StorePhase.Allows pseudo
  answers := PgCall.Answers
  next := StorePhase.Next

/-- The protocol of the statements. -/
def storingStmts (pseudo : String) : Protocol Exc Stmt.Res StorePhase where
  allowed q stmt := (storing pseudo).allowed q (.stmt stmt)
  answers stmt r := (storing pseudo).answers (.stmt stmt) r
  next q stmt r q' := (storing pseudo).next q (.stmt stmt) r q'

section Stages

variable {pseudo : String} {utcnow : DateTime} {s : FinishedSession}

theorem storing_found {rows : List EventRow} (hrows : buildEventRows utcnow s.events = .ok rows)
    (playerId : ℕ) :
    Prog.Follows (storingStmts pseudo) (· = .storing utcnow s .committing)
      (· = .storing utcnow s .failing) (.storing utcnow s (.found playerId)) (do
        let gameId ← insertFinishedGame playerId s.mode s.score s.startedAt s.finishedAt
        let count ← insertEventRows gameId rows
        return (playerId, gameId, count)) := by
  refine ⟨⟨_, rfl, rfl, rfl, rfl⟩, fun inserted _ => ?_⟩
  rcases inserted with e | gameId
  · exact ⟨_, ⟨_, rfl, rfl⟩, rfl⟩
  · cases rows with
    | nil => exact ⟨_, ⟨_, rfl, Or.inr rfl⟩, rfl⟩
    | cons row rows =>
        refine ⟨_, ⟨_, rfl, Or.inl rfl⟩, ⟨_, hrows, rfl⟩, fun logged _ => ?_⟩
        rcases logged with e | u
        · exact ⟨_, ⟨_, rfl, rfl⟩, rfl⟩
        · exact ⟨_, ⟨_, rfl, rfl⟩, rfl⟩

theorem storing_write {rows : List EventRow} (hrows : buildEventRows utcnow s.events = .ok rows) :
    (writeFinishedSession s rows).Follows (storingStmts pseudo)
      (· = .storing utcnow s .committing) (· = .storing utcnow s .failing)
      (.storing utcnow s .selecting) := by
  refine ⟨rfl, fun looked _ => ?_⟩
  rcases looked with e | _ | playerId
  · exact ⟨_, ⟨_, rfl, rfl⟩, rfl⟩
  · refine ⟨_, ⟨_, rfl, rfl⟩, rfl, fun inserted _ => ?_⟩
    rcases inserted with e | playerId
    · exact ⟨_, ⟨_, rfl, rfl⟩, rfl⟩
    · exact ⟨_, ⟨_, rfl, rfl⟩, storing_found hrows playerId⟩
  · exact ⟨_, ⟨_, rfl, rfl⟩, storing_found hrows playerId⟩

theorem storing_transaction {α : Type} {body : SqlProg α}
    (hbody : body.Follows (storingStmts pseudo) (· = .storing utcnow s .committing)
      (· = .storing utcnow s .failing) (.storing utcnow s .selecting)) :
    (transaction body).Follows (storingStmts pseudo) (· = .storing utcnow s (.releasing true))
      (· = .storing utcnow s (.releasing false)) (.storing utcnow s .starting) := by
  refine ⟨rfl, ?_⟩
  rintro _ rfl
  refine ⟨_, ⟨_, rfl, rfl⟩, hbody.attempt_bind ?_ ?_⟩
  · rintro _ a rfl
    refine ⟨rfl, ?_⟩
    rintro _ rfl
    exact ⟨_, ⟨_, rfl, rfl⟩, rfl⟩
  · rintro _ e rfl
    refine ⟨rfl, ?_⟩
    rintro _ rfl
    exact ⟨_, ⟨_, rfl, rfl⟩, rfl⟩

theorem storing_connection {α : Type} {body : SqlProg α}
    (hbody : body.Follows (storingStmts pseudo) (· = .storing utcnow s (.releasing true))
      (· = .storing utcnow s (.releasing false)) (.storing utcnow s .starting)) :
    (withConnection body).Follows (storingStmts pseudo) (· = .storing utcnow s (.answering true))
      (· = .storing utcnow s (.answering false)) (.storing utcnow s .acquiring) := by
  refine ⟨rfl, ?_⟩
  rintro _ rfl
  refine ⟨_, ⟨_, rfl, rfl⟩, hbody.attempt_bind ?_ ?_⟩
  · rintro _ a rfl
    refine ⟨rfl, ?_⟩
    rintro _ rfl
    exact ⟨_, ⟨_, rfl, rfl⟩, rfl⟩
  · rintro _ e rfl
    refine ⟨rfl, ?_⟩
    rintro _ rfl
    exact ⟨_, ⟨_, rfl, rfl⟩, rfl⟩

/-- The stage of an execution that has made no call: the rows are built first. -/
def StoreStage.first (utcnow : DateTime) (s : FinishedSession) : StoreStage :=
  match buildEventRows utcnow s.events with
  | .ok _ => acquiring
  | .error _ => answering false

theorem storing_persist :
    (persistFinishedSession utcnow s).Follows (storingStmts pseudo)
      (· = .storing utcnow s (.answering true)) (· = .storing utcnow s (.answering false))
      (.storing utcnow s (.first utcnow s)) := by
  rw [persistFinishedSession, StoreStage.first]
  cases hrows : buildEventRows utcnow s.events with
  | error e => rfl
  | ok rows => exact storing_connection (storing_transaction (storing_write hrows))

theorem storing_prog :
    (PlayerExecution.persistFinishedSession utcnow s).prog.Follows (storing pseudo)
      StorePhase.Ended StorePhase.Ended (.storing utcnow s (.first utcnow s)) := by
  have hpersist : Prog.Follows (storingStmts pseudo) _ _ _ (persistFinishedSession utcnow s) :=
    storing_persist
  refine answering_follows (hpersist.embed (P := storingStmts pseudo) (f := PgCall.stmt)
    (fun _ _ => id) (fun _ _ => id) fun _ _ _ _ => id) ?_ ?_
  · rintro _ ids rfl
    exact ⟨⟨_, rfl, rfl⟩, fun a _ => ⟨_, ⟨_, rfl, rfl⟩, by cases a <;> trivial⟩⟩
  · rintro _ e rfl
    exact ⟨⟨_, rfl, rfl⟩, fun a _ => ⟨_, ⟨_, rfl, rfl⟩, by cases a <;> trivial⟩⟩

end Stages

/-- An execution of `CreateOrGetPlayer` looks for the player, and inserts it. -/
theorem lookup_rests {raw pseudo : String} (hraw : normalizeAndValidate raw = .ok pseudo) :
    Prog.Rests (storing pseudo) .lookup (PlayerExecution.createOrGetPlayer raw).prog := by
  refine Prog.Rests.of_all (C := StorePhase.Allows pseudo .lookup) (fun op hop => ⟨hop, fun _ _ => rfl⟩)
    (answering_all (createOrGetPlayer_all (fun _ _ => trivial) fun pseudo' hpseudo' => ?_)
      fun _ => trivial)
  exact Except.ok.inj (hpseudo'.symm.trans hraw)

/-! ## What the stages rest on -/

/-- A session whose values fit their columns. -/
def FinishedSession.Storable (s : FinishedSession) : Prop :=
  isVarchar 50 s.pseudo ∧ FitsColumns s.score s.events

/-- What holds of the database in each stage of the connection `c`: what the
transaction has found is still there, and only a session that cannot be stored
fails. -/
def StoreStage.Holds (pseudo : String) (s : FinishedSession) (c : ℕ) (v : Server) :
    StoreStage → Prop
  | selecting => v.pg.inTransaction c = true
  | missing => v.pg.inTransaction c = true
  | found playerId => v.pg.inTransaction c = true ∧
      { id := playerId, pseudo := pseudo } ∈ v.pg.players.visible (some c)
  | logging gameId => v.pg.inTransaction c = true ∧ fitsInteger gameId ∧
      ∃ g ∈ v.pg.games.visible (some c), g.id = gameId
  | failing => ¬ s.Storable
  | releasing ok => ok = true ∨ ¬ s.Storable
  | answering ok => ok = true ∨ ¬ s.Storable
  | responded ok => (ok = true ∨ ¬ s.Storable) ∧ ∃ r, (c, .persisted r) ∈ v.responses ∧ r.isOk = ok
  | _ => True

def StorePhase.Holds (pseudo : String) (c : ℕ) (v : Server) : StorePhase → Prop
  | lookup => True
  | storing _ s stage => stage.Holds pseudo s c v

theorem StorePhase.Holds.keeps {pseudo : String} {c : ℕ} {v v' : Server} {q : StorePhase}
    (h : q.Holds pseudo c v) (hv : v.Keeps c v') : q.Holds pseudo c v' := by
  cases q with
  | lookup => trivial
  | storing utcnow s stage =>
      cases stage with
      | selecting => exact hv.inTransaction.trans h
      | missing => exact hv.inTransaction.trans h
      | found playerId => exact ⟨hv.inTransaction.trans h.1, hv.players _ h.2⟩
      | logging gameId =>
          obtain ⟨htx, hfits, g, hg, hid⟩ := h
          exact ⟨hv.inTransaction.trans htx, hfits, g, hv.games _ hg, hid⟩
      | responded ok =>
          obtain ⟨hok, r, hr, hrok⟩ := h
          exact ⟨hok, r, hv.responses _ hr, hrok⟩
      | _ => exact h

/-- Where a statement of a transaction on the connection `c` is not in the way of
another execution: a `SELECT` would still find no player to be inserted, and the
sequence has an id for a game. -/
def PgCall.Unopposed (c : ℕ) (s : Postgres) : PgCall → Prop
  | stmt (.insertPlayer pseudo) => ∀ p ∈ s.players.visible (some c), p.pseudo ≠ pseudo
  | stmt (.insertGame _) => s.games.seq < 2147483647
  | _ => True

/-- The games that have been stored are of the player of the pseudo, and the
executions that have failed are of sessions that cannot be stored. -/
structure Stored (s : Postgres) (pseudo : String) (execs : List PlayerExecution) (v : Server)
    (phase : ℕ → StorePhase) : Prop where
  exec : ∀ i, (phase i).Of execs[i]?
  games : s.GamesOf pseudo v.pg
  holds : ∀ i, (phase i).Holds pseudo i v
  responses : ∀ i r, (i, .persisted r) ∈ v.responses → r.isOk = true ∨
    ∃ utcnow session, execs[i]? = some (.persistFinishedSession utcnow session) ∧
      ¬ session.Storable

/-- Games that are stored stay those of the player. -/
theorem gamesOf_serve {s : Postgres} {pseudo : String} {v : Server} {c : ℕ} {call : PgCall}
    (h : s.GamesOf pseudo v.pg) (hs : ∀ x ∈ s.games.rows, x.1 = none) (hcall : call.OfPlayers)
    (hgame : ∀ g, call = .stmt (.insertGame g) →
      { id := g.playerId, pseudo := pseudo } ∈ v.pg.players.visible (some c)) :
    s.GamesOf pseudo (serve c call v).2.pg := by
  cases call with
  | stmt stmt =>
      cases stmt with
      | acquire => exact h
      | release => exact h.rollback c
      | start => exact h.of_players rfl fun _ => id
      | commit => exact h.commit hs c
      | rollback => exact h.rollback c
      | selectPlayerId pseudo => exact h
      | insertPlayer pseudo' =>
          refine Server.write_pg h fun id s' hinsert => ?_
          obtain ⟨-, htables, -⟩ := Postgres.insertPlayer_ok hinsert
          simp only [Postgres.tables, Prod.mk.injEq] at htables
          refine h.of_players htables.2.2.1 fun row hrow => ?_
          rw [htables.1, List.map_append]
          exact List.mem_append_left _ hrow
      | insertGame g =>
          refine Server.write_pg h fun id s' hid => ?_
          obtain ⟨⟨row, s''⟩, hinsert, heq⟩ := exists_of_map_ok hid
          obtain ⟨-, rfl⟩ := Prod.mk.inj heq
          exact h.insertGame (hgame g rfl) hinsert
      | insertGameEvents gameId rows =>
          refine Server.write_pg h fun u s' hu => ?_
          obtain ⟨s'', hinsert, heq⟩ := exists_of_map_ok hu
          obtain ⟨-, rfl⟩ := Prod.mk.inj heq
          obtain ⟨hplayers, hgames, -⟩ := Postgres.insertGameEvents_ok hinsert
          exact h.of_players hgames fun row hrow => by rwa [hplayers]
  | selectPlayer pseudo => exact h
  | respond response => exact h
  | _ => exact hcall.elim

theorem responses_stmt (c : ℕ) (stmt : Stmt) (v : Server) :
    (serve c (.stmt stmt) v).2.responses = v.responses := by
  have hwrite : ∀ {α : Type} (r : Except Exc (α × Postgres)),
      (v.write r).2.responses = v.responses := by
    rintro α (e | ⟨a, s⟩) <;> rfl
  cases stmt with
  | insertPlayer pseudo => exact hwrite _
  | insertGame g => exact hwrite _
  | insertGameEvents gameId rows => exact hwrite _
  | _ => rfl

/-! ## The step of each stage -/

namespace StoreStage

variable {utcnow : DateTime} {s : FinishedSession} {c : ℕ} {v : Server} {q : StoreStage}

theorem holds_select (h : v.pg.inTransaction c = true)
    (hnext : selecting.Next (.stmt (.selectPlayerId s.pseudo))
      (serve c (.stmt (.selectPlayerId s.pseudo)) v).1 q) : q.Holds s.pseudo s c v := by
  cases hselect : v.pg.selectPlayer c s.pseudo with
  | error e =>
      rw [serve, hselect] at hnext
      obtain rfl := hnext
      rintro ⟨hfits, -⟩
      rw [isVarchar, Bool.and_eq_true] at hfits
      rw [Postgres.selectPlayer, if_neg (by simp [hfits.1])] at hselect
      cases hselect
  | ok found =>
      rw [serve, hselect] at hnext
      cases found with
      | none =>
          obtain rfl := hnext
          exact h
      | some row =>
          obtain rfl := hnext
          unfold Postgres.selectPlayer at hselect
          split at hselect
          · cases hselect
          · have hfind := Except.ok.inj hselect
            have hpseudo : row.pseudo = s.pseudo := by simpa using List.find?_some hfind
            have hmem := List.mem_of_find?_eq_some hfind
            rw [Postgres.owner_of_inTransaction h] at hmem
            refine ⟨h, ?_⟩
            rw [← hpseudo]
            exact hmem

theorem holds_insertPlayer (hcut : Uncut 50 s.pseudo) (h : v.pg.inTransaction c = true)
    (hwaits : waits c (.stmt (.insertPlayer s.pseudo)) v = false)
    (hmissing : ∀ p ∈ v.pg.players.visible (some c), p.pseudo ≠ s.pseudo)
    (hnext : missing.Next (.stmt (.insertPlayer s.pseudo))
      (serve c (.stmt (.insertPlayer s.pseudo)) v).1 q) :
    q.Holds s.pseudo s c (serve c (.stmt (.insertPlayer s.pseudo)) v).2 := by
  cases hinsert : v.pg.insertPlayer c s.pseudo with
  | error e =>
      rw [serve, hinsert] at hnext
      obtain rfl := hnext
      rintro ⟨hfits, -⟩
      have hstored : varchar 50 s.pseudo = s.pseudo := varchar_of_isVarchar hfits
      -- A row of the pseudo is seen, or it is of a transaction to wait for.
      have habsent : varchar 50 s.pseudo ∉ v.pg.players.rows.map fun x => x.2.pseudo := by
        intro hmem
        rw [hstored] at hmem
        obtain ⟨x, hx, hpseudo⟩ := List.mem_map.mp hmem
        have hother := List.any_eq_false.mp hwaits x hx
        have hown : x.1 = none ∨ x.1 = some c := by
          by_contra hown
          rw [not_or] at hown
          exact hother (by simp [hpseudo, hown, hstored])
        exact hmissing x.2 (TxTable.mem_visible.mpr ⟨x, hx, rfl, hown⟩) hpseudo
      rw [Postgres.insertPlayer, if_neg (by simp [fitsVarchar_of_isVarchar hfits]),
        dif_neg habsent] at hinsert
      cases hinsert
  | ok r =>
      obtain ⟨id, s'⟩ := r
      obtain ⟨-, htables, htx⟩ := Postgres.insertPlayer_ok hinsert
      rw [hcut.varchar_eq (Postgres.insertPlayer_fits hinsert)] at htables
      rw [Postgres.owner_of_inTransaction h] at htables
      simp only [Postgres.tables, Prod.mk.injEq] at htables
      rw [serve, hinsert] at hnext ⊢
      obtain rfl := hnext
      refine ⟨(congrFun htx c).trans h, TxTable.mem_visible.mpr
        ⟨(some c, { id := id, pseudo := s.pseudo }), ?_, rfl, Or.inr rfl⟩⟩
      change _ ∈ s'.players.rows
      rw [htables.1]
      exact List.mem_append_right _ (List.mem_singleton_self _)

theorem holds_insertGame {g : NewGame} (h : v.pg.inTransaction c = true)
    (hplayer : { id := g.playerId, pseudo := s.pseudo } ∈ v.pg.players.visible (some c))
    (hroom : g.roomId = none) (hscore : g.score = s.score.val) (hseq : v.pg.games.seq < 2147483647)
    (hnext : (found g.playerId).Next (.stmt (.insertGame g))
      (serve c (.stmt (.insertGame g)) v).1 q) :
    q.Holds s.pseudo s c (serve c (.stmt (.insertGame g)) v).2 := by
  cases hinsert : v.pg.insertGame c g with
  | error e =>
      rw [serve, hinsert] at hnext
      obtain rfl := hnext
      rintro ⟨-, hfits, -⟩
      have hrefers : v.pg.players.Has (v.pg.owner c) g.playerId ∧
          ∀ k ∈ g.roomId, v.pg.rooms.Has (v.pg.owner c) k := by
        rw [Postgres.owner_of_inTransaction h, hroom]
        exact ⟨TxTable.has_iff.mpr ⟨_, hplayer, rfl⟩, fun k hk => by cases hk⟩
      rw [Postgres.insertGame, if_neg (by simp [hscore, hfits]), dif_pos hrefers] at hinsert
      cases hinsert
  | ok r =>
      obtain ⟨row, s'⟩ := r
      obtain ⟨rfl, htables, htx⟩ := Postgres.insertGame_ok hinsert
      rw [Postgres.owner_of_inTransaction h] at htables
      simp only [Postgres.tables, Prod.mk.injEq] at htables
      rw [serve, hinsert] at hnext ⊢
      rcases hnext with rfl | rfl
      · refine ⟨(congrFun htx c).trans h, ?_, (v.pg.newGame g).val, TxTable.mem_visible.mpr
          ⟨(some c, (v.pg.newGame g).val), ?_, rfl, Or.inr rfl⟩, rfl⟩
        · change fitsInteger ((v.pg.games.seq + 1 : ℕ) : ℤ) = true
          rw [fitsInteger, Bool.and_eq_true, decide_eq_true_eq, decide_eq_true_eq]
          omega
        · change _ ∈ s'.games.rows
          rw [htables.2.2.1]
          exact List.mem_append_right _ (List.mem_singleton_self _)
      · trivial

theorem holds_insertGameEvents {gameId : ℕ} {rows : List EventRow}
    (hrows : buildEventRows utcnow s.events = .ok rows)
    (h : (logging gameId).Holds s.pseudo s c v)
    (hnext : (logging gameId).Next (.stmt (.insertGameEvents gameId rows))
      (serve c (.stmt (.insertGameEvents gameId rows)) v).1 q) :
    q.Holds s.pseudo s c (serve c (.stmt (.insertGameEvents gameId rows)) v).2 := by
  obtain ⟨htx, hid, g, hg, rfl⟩ := h
  cases hinsert : Postgres.insertGameEvents c g.id v.pg rows with
  | error e =>
      rw [serve, hinsert] at hnext
      obtain rfl := hnext
      rintro ⟨-, -, hevents⟩
      obtain ⟨rows', hrows', hpoints⟩ := hevents utcnow
      obtain rfl := Except.ok.inj (hrows.symm.trans hrows')
      have hgame : v.pg.games.Has (v.pg.owner c) g.id := by
        rw [Postgres.owner_of_inTransaction htx]
        exact TxTable.has_iff.mpr ⟨g, hg, rfl⟩
      obtain ⟨s', hok⟩ := Postgres.insertGameEvents_of_has hid hgame hpoints
      cases hinsert.symm.trans hok
  | ok s' =>
      rw [serve, hinsert] at hnext
      obtain rfl := hnext
      trivial

/-- What a statement preserves: whatever its answer, what the next stage rests on holds. -/
theorem holds_next {stage : StoreStage} {call : PgCall} (hcut : Uncut 50 s.pseudo)
    (h : stage.Holds s.pseudo s c v)
    (hallowed : stage.Allows utcnow s call) (hwaits : waits c call v = false)
    (hunopposed : call.Unopposed c v.pg) (hnext : stage.Next call (serve c call v).1 q) :
    q.Holds s.pseudo s c (serve c call v).2 := by
  cases stage with
  | acquiring =>
      obtain rfl := hallowed
      obtain rfl := hnext
      trivial
  | starting =>
      obtain rfl := hallowed
      obtain rfl := hnext
      exact Function.update_self _ _ _
  | selecting =>
      obtain rfl := hallowed
      exact holds_select h hnext
  | missing =>
      obtain rfl := hallowed
      exact holds_insertPlayer hcut h hwaits hunopposed hnext
  | found playerId =>
      obtain ⟨g, rfl, rfl, hroom, hscore⟩ := hallowed
      exact holds_insertGame h.1 h.2 hroom hscore hunopposed hnext
  | logging gameId =>
      obtain ⟨rows, hrows, rfl⟩ := hallowed
      exact holds_insertGameEvents hrows h hnext
  | committing =>
      obtain rfl := hallowed
      obtain rfl := hnext
      exact Or.inl rfl
  | failing =>
      obtain rfl := hallowed
      obtain rfl := hnext
      exact Or.inr h
  | releasing ok =>
      obtain rfl := hallowed
      obtain rfl := hnext
      exact h
  | answering ok =>
      obtain ⟨r, rfl, hr⟩ := hallowed
      obtain rfl := hnext
      exact ⟨h, r, List.mem_append_right _ (List.mem_singleton_self _), hr⟩
  | responded ok => exact hallowed.elim

theorem allows_insertGame {stage : StoreStage} {g : NewGame}
    (h : stage.Allows utcnow s (.stmt (.insertGame g))) : stage = found g.playerId := by
  cases stage with
  | found playerId =>
      obtain ⟨g', hg, rfl, -⟩ := h
      rw [Stmt.insertGame.inj (PgCall.stmt.inj hg)]
  | logging gameId =>
      obtain ⟨rows, -, hcall⟩ := h
      cases hcall
  | answering ok =>
      obtain ⟨r, hcall, -⟩ := h
      cases hcall
  | responded ok => exact h.elim
  | _ => cases h

theorem allows_persisted {stage : StoreStage} {r : Except Exc (ℕ × ℕ × ℕ)}
    (h : stage.Allows utcnow s (.respond (.persisted r))) : stage = answering r.isOk := by
  cases stage with
  | found playerId =>
      obtain ⟨g, hcall, -⟩ := h
      cases hcall
  | logging gameId =>
      obtain ⟨rows, -, hcall⟩ := h
      cases hcall
  | answering ok =>
      obtain ⟨r', hr, rfl⟩ := h
      rw [Response.persisted.inj (PgCall.respond.inj hr)]
  | responded ok => exact h.elim
  | _ => cases h

end StoreStage

theorem StorePhase.allows_ofPlayers {pseudo : String} {q : StorePhase} {call : PgCall}
    (h : q.Allows pseudo call) : call.OfPlayers := by
  cases q with
  | lookup =>
      cases call with
      | stmt stmt => trivial
      | selectPlayer pseudo => trivial
      | respond response => trivial
      | _ => exact h
  | storing utcnow s stage =>
      cases stage with
      | found playerId =>
          obtain ⟨g, rfl, -⟩ := h
          trivial
      | logging gameId =>
          obtain ⟨rows, -, rfl⟩ := h
          trivial
      | answering ok =>
          obtain ⟨r, rfl, -⟩ := h
          trivial
      | responded ok => exact h.elim
      | _ =>
          obtain rfl := h
          trivial

/-- An execution for the pseudo. -/
def PlayerExecution.For (pseudo : String) : PlayerExecution → Prop
  | createOrGetPlayer raw => normalizeAndValidate raw = .ok pseudo
  | persistFinishedSession _ s => s.pseudo = pseudo

/-- Whether an execution stores a run. -/
def PlayerExecution.persists : PlayerExecution → Bool
  | createOrGetPlayer _ => false
  | persistFinishedSession _ _ => true

namespace Stored

variable {s : Postgres} {pseudo : String} {execs : List PlayerExecution} {v : Server}
  {phase : ℕ → StorePhase} {i : ℕ} {q : StorePhase} {call : PgCall}

/-- A call of one execution leaves what the others rest on alone. -/
theorem of_call (h : Stored s pseudo execs v phase) (hs : ∀ x ∈ s.games.rows, x.1 = none)
    (hcall : call.OfPlayers) (hof : q.Of execs[i]?) (hholds : q.Holds pseudo i (serve i call v).2)
    (hgame : ∀ g, call = .stmt (.insertGame g) →
      { id := g.playerId, pseudo := pseudo } ∈ v.pg.players.visible (some i))
    (hresponses : ∀ r, call = .respond (.persisted r) → r.isOk = true ∨
      ∃ utcnow session, execs[i]? = some (.persistFinishedSession utcnow session) ∧
        ¬ session.Storable) :
    Stored s pseudo execs (serve i call v).2 (Function.update phase i q) where
  exec := (Function.forall_update_iff phase fun j p => p.Of execs[j]?).mpr
    ⟨hof, fun j _ => h.exec j⟩
  games := gamesOf_serve h.games hs hcall hgame
  holds := (Function.forall_update_iff phase fun j p => p.Holds pseudo j (serve i call v).2).mpr
    ⟨hholds, fun j hj => (h.holds j).keeps (serve_keeps hj hcall v)⟩
  responses := by
    intro j r hr
    cases call with
    | stmt stmt =>
        rw [responses_stmt] at hr
        exact h.responses j r hr
    | selectPlayer pseudo => exact h.responses j r hr
    | respond response =>
        rcases List.mem_append.mp hr with hr | hr
        · exact h.responses j r hr
        · obtain ⟨rfl, rfl⟩ := Prod.mk.inj (List.mem_singleton.mp hr)
          exact hresponses r rfl
    | _ => exact hcall.elim

/-- What a call that need not wait preserves, where no statement of a transaction
is in the way of another execution. -/
theorem step (h : Stored s pseudo execs v phase) (hcut : Uncut 50 pseudo)
    (hs : ∀ x ∈ s.games.rows, x.1 = none) (hexecs : ∀ exec ∈ execs, exec.For pseudo)
    (hallowed : (phase i).Allows pseudo call) (hwaits : waits i call v = false)
    (hunopposed : ∀ exec ∈ execs[i]?, exec.persists = true → call.Unopposed i v.pg)
    (hnext : (phase i).Next call (serve i call v).1 q) :
    Stored s pseudo execs (serve i call v).2 (Function.update phase i q) := by
  have hcall := StorePhase.allows_ofPlayers hallowed
  have hof := h.exec i
  have hholds := h.holds i
  cases hphase : phase i with
  | lookup =>
      rw [hphase] at hallowed hof hnext
      obtain rfl := hnext
      refine h.of_call hs hcall hof trivial ?_ ?_
      · rintro g rfl
        exact hallowed.elim
      · rintro r rfl
        exact hallowed.elim
  | storing utcnow session stage =>
      rw [hphase] at hallowed hof hnext hholds
      obtain ⟨stage', rfl, hnext⟩ := hnext
      have hexec : execs[i]? = some (.persistFinishedSession utcnow session) := hof
      obtain rfl : session.pseudo = pseudo := hexecs _ (List.mem_of_getElem? hexec)
      refine h.of_call hs hcall hexec
        (StoreStage.holds_next hcut hholds hallowed hwaits (hunopposed _ hexec rfl) hnext) ?_ ?_
      · rintro g rfl
        obtain rfl := StoreStage.allows_insertGame hallowed
        exact hholds.2
      · rintro r rfl
        obtain rfl := StoreStage.allows_persisted hallowed
        exact hholds.imp id fun hfails => ⟨utcnow, session, hexec, hfails⟩

end Stored

/-! ## Every interleaving -/

/-- The next statement of the execution `i`, where it stores a run and need not
wait, is not in the way of another execution. -/
def PgPool.Unopposed (execs : List PlayerExecution) (pool : PgPool) (i : ℕ) : Prop :=
  ∀ exec ∈ execs[i]?, exec.persists = true → ∀ call ∈ pool.next i,
    waits i call pool.state = false → call.Unopposed i pool.state.pg

instance (c : ℕ) (s : Postgres) (call : PgCall) : Decidable (call.Unopposed c s) := by
  unfold PgCall.Unopposed
  split <;> infer_instance

instance (execs : List PlayerExecution) (pool : PgPool) (i : ℕ) :
    Decidable (pool.Unopposed execs i) :=
  inferInstanceAs (Decidable (∀ exec ∈ execs[i]?, exec.persists = true → ∀ call ∈ pool.next i, _))

/-- The phase of an execution that has made no call. -/
def PlayerExecution.phase : PlayerExecution → StorePhase
  | createOrGetPlayer _ => .lookup
  | persistFinishedSession utcnow session => .storing utcnow session (.first utcnow session)

theorem PlayerExecution.of_phase (exec : PlayerExecution) : exec.phase.Of (some exec) := by
  cases exec with
  | createOrGetPlayer raw => exact fun utcnow session h => by cases h
  | persistFinishedSession utcnow session => rfl

/-- A session whose rows cannot be built cannot be stored. -/
theorem PlayerExecution.holds_phase (exec : PlayerExecution) {pseudo : String} {c : ℕ}
    {v : Server} : exec.phase.Holds pseudo c v := by
  cases exec with
  | createOrGetPlayer raw => trivial
  | persistFinishedSession utcnow session =>
      rw [PlayerExecution.phase, StoreStage.first]
      cases hrows : buildEventRows utcnow session.events with
      | ok rows => trivial
      | error e =>
          refine Or.inr ?_
          rintro ⟨-, -, hevents⟩
          obtain ⟨rows, hrows', -⟩ := hevents utcnow
          cases hrows.symm.trans hrows'

section Runs

variable {s : Postgres} {pseudo : String} {execs : List PlayerExecution} {pool : PgPool}

/-- The executions keep to their stages. -/
abbrev PgPool.Stores (s : Postgres) (pseudo : String) (execs : List PlayerExecution)
    (pool : PgPool) : Prop :=
  pool.Keeps (storing pseudo) StorePhase.Ended (fun i => i) execs.length (Stored s pseudo execs)

theorem stores_start (hexecs : ∀ exec ∈ execs, exec.For pseudo) :
    (PgPool.start s (execs.map PlayerExecution.prog)).Stores s pseudo execs := by
  let phase : ℕ → StorePhase := fun i => (execs[i]?.map PlayerExecution.phase).getD .lookup
  have hprog : ∀ (i : ℕ) (exec : PlayerExecution), execs[i]? = some exec →
      exec.prog.Follows (storing pseudo) StorePhase.Ended StorePhase.Ended (phase i) := by
    intro i exec hexec
    have hfor := hexecs exec (List.mem_of_getElem? hexec)
    simp only [phase, hexec, Option.map_some, Option.getD_some]
    cases exec with
    | createOrGetPlayer raw => exact (lookup_rests hfor).follows trivial trivial
    | persistFinishedSession utcnow session => exact storing_prog
  refine PgPool.keeps_start s (List.length_map _) phase (fun i p hp => ?_)
    { exec := fun i => ?_, games := fun x hx => Or.inl hx, holds := fun i => ?_
      responses := fun i r hr => by cases hr }
  · rw [List.getElem?_map] at hp
    obtain ⟨exec, hexec, rfl⟩ := Option.map_eq_some_iff.mp hp
    exact hprog i exec hexec
  · simp only [phase]
    rcases execs[i]? with _ | exec
    · exact fun utcnow session h => by cases h
    · exact exec.of_phase
  · simp only [phase]
    rcases execs[i]? with _ | exec
    · trivial
    · exact exec.holds_phase

theorem stores_run (hcut : Uncut 50 pseudo) (hidle : ∀ c, s.Idle c)
    (hexecs : ∀ exec ∈ execs, exec.For pseudo) {schedule : List ℕ}
    (hunopposed : Runs.Along PgPool.step (PgPool.Unopposed execs)
      (PgPool.start s (execs.map PlayerExecution.prog)) schedule) :
    (schedule.foldl PgPool.step (PgPool.start s (execs.map PlayerExecution.prog))).Stores s pseudo
      execs := by
  have hs : ∀ x ∈ s.games.rows, x.1 = none := by
    rintro ⟨owner, g⟩ hg
    cases owner with
    | none => rfl
    | some c => exact absurd rfl ((hidle c).games _ hg)
  refine Pool.run_keeps (C := fun i call v => ∀ exec ∈ execs[i]?, exec.persists = true →
    waits i call v = false → call.Unopposed i v.pg) serve_answers ?_ (stores_start hexecs) ?_
  · intro i call q phase v _ hstored hallowed hwaits hC hnext
    exact hstored.step hcut hs hexecs hallowed hwaits
      (fun exec hexec hpersists => hC exec hexec hpersists hwaits) hnext
  · exact hunopposed.mono fun pool i hpool call hcall exec hexec hpersists hwaits =>
      hpool exec hexec hpersists call hcall hwaits

/-- A run that can be stored is, once its execution has ended. -/
theorem stores_ended (hpool : pool.Stores s pseudo execs) {i : ℕ} {utcnow : DateTime}
    {session : FinishedSession}
    (hexec : execs[i]? = some (.persistFinishedSession utcnow session))
    (hstorable : session.Storable) (hnext : pool.next i = none) :
    ∃ ids, (i, .persisted (.ok ids)) ∈ pool.state.responses := by
  obtain ⟨hlength, -, phase, hfollow, hstored⟩ := hpool
  obtain ⟨hi, -⟩ := List.getElem?_eq_some_iff.mp hexec
  obtain ⟨⟨c, p⟩, hthread⟩ : ∃ t, pool.threads[i]? = some t :=
    ⟨_, List.getElem?_eq_getElem (hlength ▸ hi)⟩
  have hended : (phase i).Ended := by
    have hp := hfollow i c p hthread
    cases p with
    | ret u => exact hp
    | raise e => exact hp
    | call op k => simp [Pool.next, hthread] at hnext
  have hof := hstored.exec i
  have hholds := hstored.holds i
  cases hphase : phase i with
  | lookup =>
      rw [hphase] at hof
      exact absurd hexec (hof utcnow session)
  | storing utcnow' session' stage =>
      rw [hphase] at hended hof hholds
      obtain ⟨rfl, rfl⟩ :=
        PlayerExecution.persistFinishedSession.inj (Option.some.inj (hexec.symm.trans hof))
      cases stage with
      | responded ok =>
          obtain ⟨hok, r, hr, rfl⟩ := hholds
          rcases r with e | ids
          · exact absurd hstorable (hok.resolve_left (by simp [Except.isOk, Except.toBool]))
          · exact ⟨ids, hr⟩
      | _ => exact hended.elim

end Runs

/-- Whatever the executions for one pseudo and their interleaving, where no
statement of a transaction is in the way of another execution, a run that can be
stored is, and the games that are stored are of the one player of the pseudo, if
nothing is cut of it. -/
theorem persistFinishedSession_stored {s : Postgres} (hidle : ∀ c, s.Idle c) {pseudo : String}
    {execs : List PlayerExecution} (hexecs : ∀ exec ∈ execs, exec.For pseudo) (schedule : List ℕ)
    (hunopposed : Runs.Along PgPool.step (PgPool.Unopposed execs)
      (PgPool.start s (execs.map PlayerExecution.prog)) schedule) :
    let pool := schedule.foldl PgPool.step (PgPool.start s (execs.map PlayerExecution.prog))
    (∀ i utcnow session, execs[i]? = some (.persistFinishedSession utcnow session) →
      session.Storable →
        (∀ r, (i, .persisted r) ∈ pool.state.responses → r.isOk = true) ∧
        (pool.next i = none → ∃ ids, (i, .persisted (.ok ids)) ∈ pool.state.responses)) ∧
    (Uncut 50 pseudo → ∀ x ∈ pool.state.pg.games.rows, x ∈ s.games.rows ∨
      ∃ owner, (pool.state.pg.players.rows.filter fun y => y.2.pseudo = pseudo) =
        [(owner, { id := x.2.playerId, pseudo := pseudo })]) := by
  intro pool
  have hpool (hcut : Uncut 50 pseudo) : pool.Stores s pseudo execs :=
    stores_run hcut hidle hexecs hunopposed
  have hstorableCut {i : ℕ} {utcnow : DateTime} {session : FinishedSession}
      (hexec : execs[i]? = some (.persistFinishedSession utcnow session))
      (hstorable : session.Storable) : Uncut 50 pseudo := by
    obtain rfl : session.pseudo = pseudo := hexecs _ (List.mem_of_getElem? hexec)
    exact Uncut.of_isVarchar hstorable.1
  refine ⟨fun i utcnow session hexec hstorable => ⟨fun r hr => ?_,
    stores_ended (hpool (hstorableCut hexec hstorable)) hexec hstorable⟩, fun hcut x hx => ?_⟩
  · obtain ⟨-, -, phase, -, hstored⟩ := hpool (hstorableCut hexec hstorable)
    refine (hstored.responses i r hr).resolve_right ?_
    rintro ⟨utcnow', session', hexec', hfails⟩
    obtain ⟨-, rfl⟩ :=
      PlayerExecution.persistFinishedSession.inj (Option.some.inj (hexec.symm.trans hexec'))
    exact hfails hstorable
  · obtain ⟨-, -, phase, -, hstored⟩ := hpool hcut
    refine (hstored.games x hx).imp id fun hplayer => ?_
    obtain ⟨⟨owner, row⟩, hy, rfl⟩ := List.mem_map.mp hplayer
    exact ⟨owner, TxTable.filter_column pool.state.pg.players_pseudo hy⟩

/-- A run is stored while its player is looked for: the other insertion waits for
the transaction, and is refused. -/
theorem persistFinishedSession_stored_first :
    let session : FinishedSession :=
      { pseudo := "ABC", mode := .solo, score := .int 10, startedAt := default,
        finishedAt := default, events := [] }
    let execs : List PlayerExecution :=
      [.persistFinishedSession default session, .createOrGetPlayer "abc"]
    let pool := [0, 0, 0, 1, 0, 1, 0, 0, 0, 0, 1, 1, 1].foldl PgPool.step
      (PgPool.start { clock := fun _ => default } (execs.map PlayerExecution.prog))
    (∃ ids, (0, .persisted (.ok ids)) ∈ pool.state.responses) ∧
      ∀ x ∈ pool.state.pg.games.rows, ∃ owner,
        (pool.state.pg.players.rows.filter fun y => y.2.pseudo = "ABC") =
          [(owner, { id := x.2.playerId, pseudo := "ABC" })] := by
  intro session execs
  let s : Postgres := { clock := fun _ => default }
  have hidle : ∀ c, s.Idle c := Postgres.idle_empty _
  have hexecs : ∀ exec ∈ execs, exec.For "ABC" := by
    intro exec hexec
    rcases List.mem_cons.mp hexec with rfl | hexec
    · rfl
    · rw [List.mem_singleton.mp hexec]
      show normalizeAndValidate "abc" = .ok "ABC"
      decide +kernel
  have hstorable : session.Storable :=
    ⟨by decide +kernel, by decide, fun _ => ⟨[], rfl, by simp⟩⟩
  have hunopposed : Runs.Along PgPool.step (PgPool.Unopposed execs)
      (PgPool.start s (execs.map PlayerExecution.prog)) [0, 0, 0, 1, 0, 1, 0, 0, 0, 0, 1, 1, 1] := by
    decide +kernel
  have hnext : (([0, 0, 0, 1, 0, 1, 0, 0, 0, 0, 1, 1, 1].foldl PgPool.step
      (PgPool.start s (execs.map PlayerExecution.prog))).next 0).isNone = true := by
    decide +kernel
  have hstored := persistFinishedSession_stored hidle hexecs
    [0, 0, 0, 1, 0, 1, 0, 0, 0, 0, 1, 1, 1] hunopposed
  dsimp only at hstored
  generalize [0, 0, 0, 1, 0, 1, 0, 0, 0, 0, 1, 1, 1].foldl PgPool.step
    (PgPool.start s (execs.map PlayerExecution.prog)) = pool at hstored hnext ⊢
  obtain ⟨hruns, hgames⟩ := hstored
  refine ⟨(hruns 0 default session rfl hstorable).2 (Option.isNone_iff_eq_none.mp hnext),
    fun x hx => ?_⟩
  exact (hgames (Uncut.of_isVarchar hstorable.1) x hx).resolve_left (by rintro ⟨⟩)

/-- Two runs of a new player: the second transaction has found no player before
the first one commits it, and its run is lost. -/
theorem persistFinishedSession_lost :
    ¬ ∀ (s : Postgres) (pseudo : String) (execs : List PlayerExecution) (schedule : List ℕ),
      (∀ c, s.Idle c) → (∀ x ∈ s.players.rows, x.2.pseudo ≠ pseudo) →
      (∀ exec ∈ execs, exec.For pseudo) →
      let pool := schedule.foldl PgPool.step (PgPool.start s (execs.map PlayerExecution.prog))
      (∀ i utcnow session, execs[i]? = some (.persistFinishedSession utcnow session) →
        session.Storable →
          (∀ r, (i, .persisted r) ∈ pool.state.responses → r.isOk = true) ∧
          (pool.next i = none → ∃ ids, (i, .persisted (.ok ids)) ∈ pool.state.responses)) ∧
      ∀ x ∈ pool.state.pg.games.rows, x ∈ s.games.rows ∨
        ∃ owner, (pool.state.pg.players.rows.filter fun y => y.2.pseudo = pseudo) =
          [(owner, { id := x.2.playerId, pseudo := pseudo })] := by
  intro h
  let session : FinishedSession :=
    { pseudo := "ABC", mode := .solo, score := .int 10, startedAt := default,
      finishedAt := default, events := [] }
  let execs : List PlayerExecution :=
    [.persistFinishedSession default session, .persistFinishedSession default session]
  let s : Postgres := { clock := fun _ => default }
  have hidle : ∀ c, s.Idle c := Postgres.idle_empty _
  have hexecs : ∀ exec ∈ execs, exec.For "ABC" := by
    simp [execs, session, PlayerExecution.For]
  have hstorable : session.Storable :=
    ⟨by decide +kernel, by decide, fun _ => ⟨[], rfl, by simp⟩⟩
  have hfailed : (1, Response.persisted (.error .uniqueViolation)) ∈
      ([0, 0, 0, 1, 1, 1, 0, 1, 0, 0, 1, 1, 1, 1].foldl PgPool.step
        (PgPool.start s (execs.map PlayerExecution.prog))).state.responses := by
    decide +kernel
  have hstored := h s "ABC" execs [0, 0, 0, 1, 1, 1, 0, 1, 0, 0, 1, 1, 1, 1] hidle
    (by rintro x ⟨⟩) hexecs
  dsimp only at hstored
  generalize [0, 0, 0, 1, 1, 1, 0, 1, 0, 0, 1, 1, 1, 1].foldl PgPool.step
    (PgPool.start s (execs.map PlayerExecution.prog)) = pool at hstored hfailed
  cases (hstored.1 1 default session rfl hstorable).1 _ hfailed

end FlipperBack
