import FlipperBack.System.RestFlow

/-!
# What the clients of the REST flow are told

The answer of an execution shows rows of the database, or tells that a row is not
there. Its calls have read what it shows. The rows of the database stay, and a game
only goes on: `Postgres.Grows` says so of what those who see the rows of one
transaction, or of none, see before and after a call.
-/

namespace FlipperBack

open Effects Python Query

/-! ## Rows that go on -/

/-- The game `g'` is `g`, later. -/
structure GameRow.Later (g g' : GameRow) : Prop where
  id : g'.id = g.id
  playerId : g'.playerId = g.playerId
  roomId : g'.roomId = g.roomId
  mode : g'.mode = g.mode
  startedAt : g'.startedAt = g.startedAt
  score : g.score ≤ g'.score
  status : g.status = .finished → g'.status = .finished
  finishedAt : g.finishedAt.isSome → g'.finishedAt.isSome

namespace GameRow.Later

variable {g g₁ g₂ : GameRow}

theorem refl (g : GameRow) : g.Later g :=
  ⟨rfl, rfl, rfl, rfl, rfl, le_rfl, fun h => h, fun h => h⟩

theorem trans (h : g.Later g₁) (h' : g₁.Later g₂) : g.Later g₂ where
  id := h'.id.trans h.id
  playerId := h'.playerId.trans h.playerId
  roomId := h'.roomId.trans h.roomId
  mode := h'.mode.trans h.mode
  startedAt := h'.startedAt.trans h.startedAt
  score := h.score.trans h'.score
  status := h'.status ∘ h.status
  finishedAt := h'.finishedAt ∘ h.finishedAt

theorem addPoints {points : ℤ} (h : 0 < points) (g : GameRow) :
    g.Later ((Postgres.addPointsChange points).apply g) :=
  { refl g with score := le_add_of_nonneg_right h.le }

theorem finish (now : DateTime) (g : GameRow) : g.Later ((Postgres.finishChange now).apply g) :=
  { refl g with status := fun _ => rfl, finishedAt := fun _ => rfl }

end GameRow.Later

namespace Postgres

/-- What those who see the rows of `owner` see of `s`, those who see the rows of
`owner'` see of `s'`, each game as it is or later. -/
structure Grows (s : Postgres) (owner owner' : Option ℕ) (s' : Postgres) : Prop where
  players : ∀ p ∈ s.players.visible owner, p ∈ s'.players.visible owner'
  rooms : ∀ r ∈ s.rooms.visible owner, r ∈ s'.rooms.visible owner'
  games : ∀ g ∈ s.games.visible owner, ∃ g' ∈ s'.games.visible owner', g.Later g'
  gameEvents : ∀ e ∈ s.gameEvents.visible owner, e ∈ s'.gameEvents.visible owner'

namespace Grows

variable {s s' : Postgres} {owner : Option ℕ} {c : ℕ}

theorem refl (owner : Option ℕ) (s : Postgres) : Grows s owner owner s :=
  ⟨fun _ hp => hp, fun _ hr => hr, fun g hg => ⟨g, hg, .refl g⟩, fun _ he => he⟩

theorem tick (owner : Option ℕ) (s : Postgres) : Grows s owner owner s.tick :=
  ⟨fun _ hp => hp, fun _ hr => hr, fun g hg => ⟨g, hg, .refl g⟩, fun _ he => he⟩

theorem start (owner : Option ℕ) (s : Postgres) (c : ℕ) : Grows s owner owner (s.start c) :=
  ⟨fun _ hp => hp, fun _ hr => hr, fun g hg => ⟨g, hg, .refl g⟩, fun _ he => he⟩

/-- Rows that are added leave the others. -/
theorem of_append {ρ : Type} {key : ρ → ℕ} {t t' : TxTable ℕ key} {added : List (Option ℕ × ρ)}
    (h : t'.rows = t.rows ++ added) {r : ρ} (hr : r ∈ t.visible owner) : r ∈ t'.visible owner := by
  obtain ⟨x, hx, rfl, hown⟩ := TxTable.mem_visible.mp hr
  exact TxTable.mem_visible.mpr ⟨x, h ▸ List.mem_append_left _ hx, rfl, hown⟩

theorem of_tables (players : List (Option ℕ × PlayerRow)) (rooms : List (Option ℕ × RoomRow))
    (games : List (Option ℕ × GameRow)) (events : List (Option ℕ × GameEventRow))
    (h : s'.tables = (s.players.rows ++ players, s.rooms.rows ++ rooms, s.games.rows ++ games,
      s.gameEvents.rows ++ events)) : Grows s owner owner s' := by
  simp only [tables, Prod.mk.injEq] at h
  obtain ⟨hplayers, hrooms, hgames, hevents⟩ := h
  exact ⟨fun _ hp => of_append hplayers hp, fun _ hr => of_append hrooms hr,
    fun g hg => ⟨g, of_append hgames hg, .refl g⟩, fun _ he => of_append hevents he⟩

/-- An update of the committed games leaves each as it is or later. -/
theorem updateGame {gameId : ℤ} {f : GameChange} (hf : ∀ g : GameRow, g.Later (f.apply g)) :
    Grows s owner owner (s.updateGame gameId f) where
  players _ hp := hp
  rooms _ hr := hr
  games g hg := by
    obtain ⟨⟨owner', g⟩, hx, rfl, hown⟩ := TxTable.mem_visible.mp hg
    cases owner' with
    | none =>
        refine ⟨if (g.id : ℤ) = gameId then f.apply g else g,
          TxTable.mem_visible.mpr ⟨_, mem_updateGame.mpr (Or.inl ⟨g, hx, rfl⟩), rfl, Or.inl rfl⟩, ?_⟩
        split
        · exact hf g
        · exact .refl g
    | some c =>
        exact ⟨g, TxTable.mem_visible.mpr
          ⟨_, mem_updateGame.mpr (Or.inr ⟨hx, Option.some_ne_none c⟩), rfl, hown⟩, .refl g⟩
  gameEvents _ he := he

theorem commit (howner : owner ≠ some c) : Grows s owner owner (s.commit c) :=
  ⟨fun _ hp => TxTable.visible_commit howner hp, fun _ hr => TxTable.visible_commit howner hr,
    fun g hg => ⟨g, TxTable.visible_commit howner hg, .refl g⟩,
    fun _ he => TxTable.visible_commit howner he⟩

theorem rollback (howner : owner ≠ some c) : Grows s owner owner (s.rollback c) :=
  ⟨fun _ hp => TxTable.visible_rollback howner hp, fun _ hr => TxTable.visible_rollback howner hr,
    fun g hg => ⟨g, TxTable.visible_rollback howner hg, .refl g⟩,
    fun _ he => TxTable.visible_rollback howner he⟩

/-- What a transaction sees is there for all once it is committed. -/
theorem visible_commit_self {ρ : Type} {key : ρ → ℕ} {t : TxTable ℕ key} {r : ρ}
    (hr : r ∈ t.visible (some c)) : r ∈ (t.commit c).visible none := by
  obtain ⟨⟨owner, r⟩, hx, rfl, hown⟩ := TxTable.mem_visible.mp hr
  refine TxTable.mem_visible.mpr ⟨(none, r), TxTable.mem_commit.mpr ?_, rfl, Or.inl rfl⟩
  rcases hown with hnone | hown
  · have hnone : owner = none := hnone
    exact Or.inl ⟨hnone ▸ hx, (Option.some_ne_none c).symm⟩
  · have hown : owner = some c := hown
    exact Or.inr ⟨rfl, hown ▸ hx⟩

theorem commit_self (c : ℕ) (s : Postgres) : Grows s (some c) none (s.commit c) :=
  ⟨fun _ hp => visible_commit_self hp, fun _ hr => visible_commit_self hr,
    fun g hg => ⟨g, visible_commit_self hg, .refl g⟩, fun _ he => visible_commit_self he⟩

/-- A transaction sees what is committed. -/
theorem visible_of_none {ρ : Type} {key : ρ → ℕ} {t : TxTable ℕ key} {r : ρ}
    (hr : r ∈ t.visible none) (owner : Option ℕ) : r ∈ t.visible owner := by
  obtain ⟨x, hx, heq, hown⟩ := TxTable.mem_visible.mp hr
  exact TxTable.mem_visible.mpr ⟨x, hx, heq, Or.inl (hown.elim id id)⟩

theorem of_none (owner : Option ℕ) (s : Postgres) : Grows s none owner s :=
  ⟨fun _ hp => visible_of_none hp owner, fun _ hr => visible_of_none hr owner,
    fun g hg => ⟨g, visible_of_none hg owner, .refl g⟩, fun _ he => visible_of_none he owner⟩

theorem trans {s₂ : Postgres} {owner₁ owner₂ : Option ℕ} (h : Grows s owner owner₁ s')
    (h' : Grows s' owner₁ owner₂ s₂) : Grows s owner owner₂ s₂ where
  players p hp := h'.players p (h.players p hp)
  rooms r hr := h'.rooms r (h.rooms r hr)
  games g hg := by
    obtain ⟨g₁, hg₁, hlater⟩ := h.games g hg
    obtain ⟨g₂, hg₂, hlater'⟩ := h'.games g₁ hg₁
    exact ⟨g₂, hg₂, hlater.trans hlater'⟩
  gameEvents e he := h'.gameEvents e (h.gameEvents e he)

theorem insertGameEvents {gameId : ℕ} {rows : List EventRow}
    (h : s.insertGameEvents c gameId rows = .ok s') : Grows s owner owner s' := by
  induction rows generalizing s with
  | nil =>
      obtain rfl := Except.ok.inj h
      exact refl owner s
  | cons row rows ih =>
      unfold Postgres.insertGameEvents at h
      split at h
      · next e s₁ hinsert =>
          obtain ⟨-, -, -, htables, -⟩ := insertGameEvent_ok hinsert
          have hevent : Grows s owner owner s₁ := of_tables [] [] [] [(s.owner c, e)]
            (by simpa using htables)
          exact hevent.trans (ih h)
      · cases h

end Grows

end Postgres

/-- Only points above zero are added to a score. -/
def PgCall.Gains : PgCall → Prop
  | addPoints _ points => 0 < points
  | _ => True

/-- The calls that end the transaction of a connection. -/
def PgCall.Ends : PgCall → Prop
  | stmt .commit => True
  | stmt .rollback => True
  | stmt .release => True
  | _ => False

/-- What is seen stays, each game as it is or later, but for what a transaction that
ends itself has seen of its own rows. -/
theorem serve_grows (c : ℕ) {call : PgCall} (hcall : call.Gains) (v : Server) {owner : Option ℕ}
    (howner : owner ≠ some c ∨ ¬ call.Ends) :
    v.pg.Grows owner owner (serve c call v).2.pg := by
  have hsame : v.pg.Grows owner owner v.pg := .refl owner v.pg
  have hplayer {pseudo : String} {id : ℕ} {s : Postgres}
      (hinsert : v.pg.insertPlayer c pseudo = .ok (id, s)) : v.pg.Grows owner owner s := by
    obtain ⟨-, htables, -⟩ := Postgres.insertPlayer_ok hinsert
    exact .of_tables [(_, _)] [] [] [] (by simpa using htables)
  have hgame {s₀ : Postgres} {g : NewGame} {row : GameRow} {s : Postgres}
      (hinsert : s₀.insertGame c g = .ok (row, s)) : s₀.Grows owner owner s := by
    obtain ⟨-, htables, -⟩ := Postgres.insertGame_ok hinsert
    exact .of_tables [] [] [(_, _)] [] (by simpa using htables)
  have hends (h : call.Ends) : owner ≠ some c := howner.resolve_right fun hnot => hnot h
  cases call with
  | stmt s =>
      cases s with
      | acquire => exact hsame
      | release => exact .rollback (hends trivial)
      | start => exact .start owner v.pg c
      | commit => exact .commit (hends trivial)
      | rollback => exact .rollback (hends trivial)
      | selectPlayerId pseudo => exact hsame
      | insertPlayer pseudo => exact Server.write_pg hsame fun id s hinsert => hplayer hinsert
      | insertGame g =>
          refine Server.write_pg hsame fun id s hinsert => ?_
          obtain ⟨⟨row, s'⟩, hrow, heq⟩ := exists_of_map_ok hinsert
          obtain ⟨-, rfl⟩ := Prod.mk.inj heq
          exact hgame hrow
      | insertGameEvents gameId rows =>
          refine Server.write_pg hsame fun u s hinsert => ?_
          obtain ⟨s', hrows, heq⟩ := exists_of_map_ok hinsert
          obtain ⟨-, rfl⟩ := Prod.mk.inj heq
          exact .insertGameEvents hrows
  | selectPlayer pseudo => exact hsame
  | selectRoom code => exact hsame
  | insertRoom code mode status =>
      refine Server.write_pg hsame fun room s hinsert => ?_
      obtain ⟨-, htables, -⟩ := Postgres.insertRoom_ok hinsert
      exact .of_tables [] [(_, _)] [] [] (by simpa using htables)
  | selectGame gameId => exact hsame
  | insertGame playerId roomId mode score status =>
      exact Server.write_pg hsame fun row s hinsert =>
        (Postgres.Grows.tick owner v.pg).trans (hgame hinsert)
  | insertGameEvent gameId type points =>
      refine Server.write_pg hsame fun e s hinsert => ?_
      obtain ⟨-, -, -, htables, -⟩ := Postgres.insertGameEvent_ok hinsert
      have hevent : v.pg.tick.Grows owner owner s := .of_tables [] [] [] [(_, _)]
        (by simpa using htables)
      exact (Postgres.Grows.tick owner v.pg).trans hevent
  | addPoints gameId points =>
      refine Server.write_pg hsame fun g s hadd => ?_
      obtain ⟨-, -, -, -, rfl⟩ := Postgres.addPoints_ok hadd
      exact .updateGame (.addPoints hcall)
  | finishGame gameId =>
      refine Server.write_pg hsame fun g s hfinish => ?_
      obtain ⟨-, -, -, rfl⟩ := Postgres.finishGame_ok hfinish
      exact (Postgres.Grows.tick owner v.pg).trans (.updateGame (.finish v.pg.now))
  | respond response => exact hsame

/-! ## What is shown -/

/-- What a row is looked up by. -/
inductive Lookup
  | playerId (id : ℤ)
  | pseudo (pseudo : String)
  | code (code : String)
  | gameId (id : ℤ)
  deriving DecidableEq

/-- A row that is shown, a row of which the key alone is shown, or that a lookup has
found none. -/
inductive Fact
  | player (p : Player)
  | playerKey (id : ℕ)
  | room (r : RoomRow)
  | game (g : GameRow)
  | gameKey (id : ℕ)
  | event (e : GameEventRow)
  | absent (lookup : Lookup)
  deriving DecidableEq

/-- The lookup is one of the row. -/
def Lookup.Finds : Lookup → Fact → Prop
  | playerId id, .player p => (p.id : ℤ) = id
  | playerId id, .playerKey k => (k : ℤ) = id
  | pseudo text, .player p => p.pseudo = text
  | code text, .room r => r.code = text
  | gameId id, .game g => (g.id : ℤ) = id
  | gameId id, .gameKey k => (k : ℤ) = id
  | _, _ => False

namespace Fact

def isAbsent : Fact → Bool
  | absent _ => true
  | _ => false

/-- Those who see the rows of `owner` see the row, as it is or later. -/
def Stored (s : Postgres) (owner : Option ℕ) : Fact → Prop
  | player p => ∃ x ∈ s.players.visible owner, x.toPlayer = p
  | playerKey k => ∃ x ∈ s.players.visible owner, x.id = k
  | room r => r ∈ s.rooms.visible owner
  | game g => ∃ g' ∈ s.games.visible owner, g.Later g'
  | gameKey k => ∃ g ∈ s.games.visible owner, g.id = k
  | event e => e ∈ s.gameEvents.visible owner
  | absent _ => True

/-- Those who see the rows of `owner` read this. -/
def Read (s : Postgres) (owner : Option ℕ) : Fact → Prop
  | game g => g ∈ s.games.visible owner
  | absent lookup => ∀ x : Fact, x.Stored s owner → ¬ lookup.Finds x
  | x => x.Stored s owner

/-- Where the second fact is about the row of the first one, it shows this row as it
was, or later. -/
def Leads : Fact → Fact → Prop
  | player p, player p' => p.id = p'.id ∨ p.pseudo = p'.pseudo → p = p'
  | room r, room r' => r.id = r'.id ∨ r.code = r'.code → r = r'
  | game g, game g' => g.id = g'.id → g.Later g'
  | event e, event e' => e.id = e'.id → e = e'
  | x, absent lookup => ¬ lookup.Finds x
  | _, _ => True

variable {s s' : Postgres} {owner owner' : Option ℕ} {x y : Fact}

theorem Read.stored (h : x.Read s owner) : x.Stored s owner := by
  cases x with
  | game g => exact ⟨g, h, .refl g⟩
  | absent lookup => trivial
  | player p => exact h
  | playerKey k => exact h
  | room r => exact h
  | gameKey k => exact h
  | event e => exact h

theorem Stored.grows (h : x.Stored s owner) (hgrows : s.Grows owner owner' s') :
    x.Stored s' owner' := by
  cases x with
  | player p =>
      obtain ⟨row, hrow, heq⟩ := h
      exact ⟨row, hgrows.players row hrow, heq⟩
  | playerKey k =>
      obtain ⟨row, hrow, heq⟩ := h
      exact ⟨row, hgrows.players row hrow, heq⟩
  | room r => exact hgrows.rooms r h
  | game g =>
      obtain ⟨g₁, hg₁, hlater⟩ := h
      obtain ⟨g₂, hg₂, hlater'⟩ := hgrows.games g₁ hg₁
      exact ⟨g₂, hg₂, hlater.trans hlater'⟩
  | gameKey k =>
      obtain ⟨g, hg, rfl⟩ := h
      obtain ⟨g', hg', hlater⟩ := hgrows.games g hg
      exact ⟨g', hg', hlater.id⟩
  | event e => exact hgrows.gameEvents e h
  | absent lookup => trivial

/-- Rows that two see under one key are one row. -/
theorem eq_of_visible {ρ : Type} {key : ρ → ℕ} {t : TxTable ℕ key} {υ : Type} {u : ρ → υ}
    (hu : (t.rows.map fun x => u x.2).Nodup) {r r' : ρ} (hr : r ∈ t.visible owner)
    (hr' : r' ∈ t.visible owner') (heq : u r = u r') : r = r' := by
  obtain ⟨x, hx, rfl, -⟩ := TxTable.mem_visible.mp hr
  obtain ⟨x', hx', rfl, -⟩ := TxTable.mem_visible.mp hr'
  rw [List.inj_on_of_nodup_map hu hx hx' heq]

/-- What is read of a row that is stored for all shows it as it was, or later. -/
theorem Stored.leads (h : x.Stored s none) (hy : y.Read s owner) : x.Leads y := by
  cases y with
  | absent lookup =>
      have hnot := hy x (h.grows (.of_none owner s))
      cases x <;> exact hnot
  | player p' =>
      cases x with
      | player p =>
          obtain ⟨row, hrow, rfl⟩ := h
          obtain ⟨row', hrow', rfl⟩ := hy
          rintro (hid | hpseudo)
          · rw [eq_of_visible s.players.nodup hrow hrow' hid]
          · rw [eq_of_visible s.players_pseudo hrow hrow' hpseudo]
      | _ => trivial
  | room r' =>
      cases x with
      | room r =>
          rintro (hid | hcode)
          · exact eq_of_visible s.rooms.nodup h hy hid
          · exact eq_of_visible s.rooms_code h hy hcode
      | _ => trivial
  | game g' =>
      cases x with
      | game g =>
          obtain ⟨g₁, hg₁, hlater⟩ := h
          intro hid
          rwa [eq_of_visible s.games.nodup hg₁ hy (hlater.id.trans hid)] at hlater
      | _ => trivial
  | event e' =>
      cases x with
      | event e => exact fun hid => eq_of_visible s.gameEvents.nodup h hy hid
      | _ => trivial
  | playerKey k => cases x <;> trivial
  | gameKey k => cases x <;> trivial

end Fact

/-! ## What a call reads -/

/-- What a call has read, of its answer. -/
def PgCall.facts : (call : PgCall) → Except Exc call.Res → List Fact
  | stmt (.selectPlayerId pseudo), .ok (some id) => [.player { id, pseudo }, .playerKey id]
  | stmt (.insertPlayer pseudo), .ok id =>
      [.player { id, pseudo := varchar 50 pseudo }, .playerKey id]
  | stmt (.insertGame _), .ok id => [.gameKey id]
  | selectPlayer _, .ok (some p) => [.player p]
  | selectPlayer pseudo, .ok none => [.absent (.pseudo pseudo)]
  | selectRoom _, .ok (some r) => [.room r]
  | selectRoom code, .ok none => [.absent (.code code)]
  | insertRoom _ _ _, .ok r => [.room r]
  | selectGame _, .ok (some g) => [.game g]
  | selectGame gameId, .ok none => [.absent (.gameId gameId)]
  | insertGame _ _ _ _ _, .ok g => [.game g]
  | insertGameEvent _ _ _, .ok e => [.event e]
  | addPoints _ _, .ok g => [.game g]
  | finishGame _, .ok g => [.game g]
  | _, _ => []

def RestOp.facts : (op : RestOp) → Except Exc op.Res → List Fact
  | pg call, r => call.facts r
  | selectPlayerById _, .ok (some p) => [.player p]
  | selectPlayerById id, .ok none => [.absent (.playerId id)]
  | selectActiveGames _, .ok games => games.map .game
  | selectGames _, .ok games => games.map .game
  | selectRooms _, .ok rooms => rooms.map .room
  | selectEvents _ _, .ok events => events.map .event
  | selectFinishedGames _ _ _, .ok games => games.map .game
  | _, _ => []

/-- A row that a connection has inserted is seen by those who see what it has written. -/
theorem mem_visible_inserted {ρ : Type} {key : ρ → ℕ} {t t' : TxTable ℕ key} {s s' : Postgres}
    {c : ℕ} {r : ρ} (hrows : t'.rows = t.rows ++ [(s.owner c, r)])
    (htx : s'.inTransaction = s.inTransaction) : r ∈ t'.visible (s'.owner c) := by
  have howner : s'.owner c = s.owner c := by rw [Postgres.owner, Postgres.owner, htx]
  refine TxTable.mem_visible.mpr ⟨(s.owner c, r), ?_, rfl, Or.inr howner.symm⟩
  rw [hrows]
  exact List.mem_append_right _ List.mem_cons_self

/-- A query of one row that answers has looked for it. -/
theorem find_of_guard {ρ : Type} {rows : List ρ} {p : ρ → Bool} {guard : Bool} {found : Option ρ}
    (h : (if guard then .error .dataError else .ok (rows.find? p) : Except Exc (Option ρ)) =
      .ok found) : rows.find? p = found := by
  cases guard with
  | true => cases h
  | false => exact Except.ok.inj h

/-- A game that is updated is seen as it is now. -/
theorem mem_visible_updateGame {s : Postgres} {gameId : ℤ} {g : GameRow}
    (hg : s.game gameId = some g) (f : Postgres.GameChange) (owner : Option ℕ) :
    f.apply g ∈ (s.updateGame gameId f).games.visible owner := by
  have hrow := (Postgres.game_eq_some.mp (Postgres.game_updateGame hg f)).1
  exact TxTable.mem_visible.mpr ⟨_, hrow, rfl, Or.inl rfl⟩

section Read

variable (c : ℕ) (v : Server) {x : Fact}

/-- What a call reads, of its connection: what those see who see what this has written. -/
def PgCall.ReadsFrom (call : PgCall) (r : Except Exc call.Res) (s : Postgres) : Prop :=
  ∀ x ∈ call.facts r, x.Read s (s.owner c)

theorem selectPlayer_reads (pseudo : String) :
    (PgCall.selectPlayer pseudo).ReadsFrom c ((v.pg.selectPlayer c pseudo).map
      (·.map PlayerRow.toPlayer)) v.pg := by
  intro x hx
  cases hselect : v.pg.selectPlayer c pseudo with
  | error e =>
      rw [hselect] at hx
      cases hx
  | ok found =>
      have hfind := find_of_guard hselect
      rw [hselect] at hx
      cases found with
      | some p =>
          obtain rfl := List.mem_singleton.mp hx
          exact ⟨p, List.mem_of_find?_eq_some hfind, rfl⟩
      | none =>
          obtain rfl := List.mem_singleton.mp hx
          intro y hy hfinds
          cases y with
          | player p =>
              obtain ⟨row, hrow, rfl⟩ := hy
              have hne : row.pseudo ≠ pseudo := by simpa using List.find?_eq_none.mp hfind row hrow
              exact hne hfinds
          | _ => exact hfinds

theorem selectRoom_reads (code : String) :
    (PgCall.selectRoom code).ReadsFrom c (v.pg.selectRoom c code) v.pg := by
  intro x hx
  cases hselect : v.pg.selectRoom c code with
  | error e =>
      rw [hselect] at hx
      cases hx
  | ok found =>
      have hfind := find_of_guard hselect
      rw [hselect] at hx
      cases found with
      | some r =>
          obtain rfl := List.mem_singleton.mp hx
          exact List.mem_of_find?_eq_some hfind
      | none =>
          obtain rfl := List.mem_singleton.mp hx
          intro y hy hfinds
          cases y with
          | room r =>
              have hne : r.code ≠ code := by simpa using List.find?_eq_none.mp hfind r hy
              exact hne hfinds
          | _ => exact hfinds

/-- No game of a key is there where no row of that key is. -/
theorem absent_gameId {s : Postgres} {owner : Option ℕ} {gameId : ℤ}
    (h : ∀ g ∈ s.games.visible owner, (g.id : ℤ) ≠ gameId) :
    (Fact.absent (.gameId gameId)).Read s owner := by
  intro y hy hfinds
  cases y with
  | game g =>
      obtain ⟨g', hg', hlater⟩ := hy
      refine h g' hg' ?_
      rw [hlater.id]
      exact hfinds
  | gameKey k =>
      obtain ⟨g', hg', rfl⟩ := hy
      exact h g' hg' hfinds
  | _ => exact hfinds

/-- No player of an id is there where no row of that id is. -/
theorem absent_playerId {s : Postgres} {owner : Option ℕ} {id : ℤ}
    (h : ∀ p ∈ s.players.visible owner, (p.id : ℤ) ≠ id) :
    (Fact.absent (.playerId id)).Read s owner := by
  intro y hy hfinds
  cases y with
  | player p =>
      obtain ⟨row, hrow, rfl⟩ := hy
      exact h row hrow hfinds
  | playerKey k =>
      obtain ⟨row, hrow, rfl⟩ := hy
      exact h row hrow hfinds
  | _ => exact hfinds

theorem selectGame_reads (gameId : ℤ) :
    (PgCall.selectGame gameId).ReadsFrom c (v.pg.selectGame c gameId) v.pg := by
  intro x hx
  cases hselect : v.pg.selectGame c gameId with
  | error e =>
      rw [hselect] at hx
      cases hx
  | ok found =>
      have hfind := find_of_guard hselect
      rw [hselect] at hx
      cases found with
      | some g =>
          obtain rfl := List.mem_singleton.mp hx
          exact List.mem_of_find?_eq_some hfind
      | none =>
          obtain rfl := List.mem_singleton.mp hx
          exact absent_gameId fun g hg => by simpa using List.find?_eq_none.mp hfind g hg

/-- A statement that writes reads what it has written. -/
theorem write_reads {call : PgCall} {r : Except Exc (call.Res × Postgres)}
    (hok : ∀ a s, r = .ok (a, s) → call.ReadsFrom c (.ok a) s)
    (herror : ∀ e, call.facts (.error e) = []) :
    call.ReadsFrom c (v.write r).1 (v.write r).2.pg := by
  rcases r with e | ⟨a, s⟩
  · intro x hx
    rw [Server.write, herror e] at hx
    cases hx
  · exact hok a s rfl

theorem insertPlayer_reads (pseudo : String) :
    (PgCall.stmt (.insertPlayer pseudo)).ReadsFrom c (v.write (v.pg.insertPlayer c pseudo)).1
      (v.write (v.pg.insertPlayer c pseudo)).2.pg := by
  refine write_reads c v (fun id s hinsert x hx => ?_) fun e => rfl
  obtain ⟨-, htables, htx⟩ := Postgres.insertPlayer_ok hinsert
  simp only [Postgres.tables, Prod.mk.injEq] at htables
  have hrow : { id := id, pseudo := varchar 50 pseudo } ∈ s.players.visible (s.owner c) :=
    mem_visible_inserted htables.1 htx
  rcases List.mem_cons.mp hx with rfl | hx
  · exact ⟨_, hrow, rfl⟩
  · obtain rfl := List.mem_singleton.mp hx
    exact ⟨_, hrow, rfl⟩

/-- A game that is inserted is seen by those who see what the connection has written. -/
theorem mem_visible_insertGame {s₀ s : Postgres} {g : NewGame} {row : GameRow}
    (hinsert : s₀.insertGame c g = .ok (row, s)) : row ∈ s.games.visible (s.owner c) := by
  obtain ⟨-, htables, htx⟩ := Postgres.insertGame_ok hinsert
  simp only [Postgres.tables, Prod.mk.injEq] at htables
  exact mem_visible_inserted htables.2.2.1 htx

/-- What a call of the connection `c` answers is read of the database that it leaves. -/
theorem serve_reads (call : PgCall) :
    call.ReadsFrom c (serve c call v).1 (serve c call v).2.pg := by
  cases call with
  | stmt s =>
      cases s with
      | selectPlayerId pseudo =>
          intro x hx
          obtain ⟨r, hr⟩ : ∃ r, v.pg.selectPlayer c pseudo = r := ⟨_, rfl⟩
          simp only [serve, hr] at hx
          rcases r with e | found
          · cases hx
          · cases found with
            | none => cases hx
            | some p =>
                have hfind := find_of_guard hr
                have hmem : p ∈ v.pg.players.visible (v.pg.owner c) := List.mem_of_find?_eq_some hfind
                obtain rfl : p.pseudo = pseudo := by simpa using List.find?_some hfind
                rcases List.mem_cons.mp hx with rfl | hx
                · exact ⟨p, hmem, rfl⟩
                · obtain rfl := List.mem_singleton.mp hx
                  exact ⟨p, hmem, rfl⟩
      | insertPlayer pseudo => exact insertPlayer_reads c v pseudo
      | insertGame g =>
          refine write_reads c v (fun id s hinsert x hx => ?_) fun e => rfl
          obtain ⟨⟨row, s'⟩, hrow, heq⟩ := exists_of_map_ok hinsert
          obtain ⟨rfl, rfl⟩ := Prod.mk.inj heq
          obtain rfl := List.mem_singleton.mp hx
          exact ⟨row, mem_visible_insertGame c hrow, rfl⟩
      | _ => exact fun x hx => by cases hx
  | selectPlayer pseudo => exact selectPlayer_reads c v pseudo
  | selectRoom code => exact selectRoom_reads c v code
  | insertRoom code mode status =>
      refine write_reads c v (fun room s hinsert x hx => ?_) fun e => rfl
      obtain ⟨-, htables, htx⟩ := Postgres.insertRoom_ok hinsert
      simp only [Postgres.tables, Prod.mk.injEq] at htables
      obtain rfl := List.mem_singleton.mp hx
      exact mem_visible_inserted htables.2.1 htx
  | selectGame gameId => exact selectGame_reads c v gameId
  | insertGame playerId roomId mode score status =>
      refine write_reads c v (fun row s hinsert x hx => ?_) fun e => rfl
      obtain rfl := List.mem_singleton.mp hx
      exact mem_visible_insertGame c hinsert
  | insertGameEvent gameId type points =>
      refine write_reads c v (fun e s hinsert x hx => ?_) fun e => rfl
      obtain ⟨-, -, -, htables, htx⟩ := Postgres.insertGameEvent_ok hinsert
      simp only [Postgres.tables, Prod.mk.injEq] at htables
      obtain rfl := List.mem_singleton.mp hx
      exact mem_visible_inserted (s := v.pg.tick) htables.2.2.2 htx
  | addPoints gameId points =>
      refine write_reads c v (fun row s hadd x hx => ?_) fun e => rfl
      obtain ⟨g, hg, -, rfl, rfl⟩ := Postgres.addPoints_ok hadd
      obtain rfl := List.mem_singleton.mp hx
      exact mem_visible_updateGame hg _ _
  | finishGame gameId =>
      refine write_reads c v (fun row s hfinish x hx => ?_) fun e => rfl
      obtain ⟨g, hg, rfl, rfl⟩ := Postgres.finishGame_ok hfinish
      obtain rfl := List.mem_singleton.mp hx
      exact mem_visible_updateGame hg _ _
  | respond response => exact fun x hx => by cases hx

end Read

section Told

/-- The call is a statement of the repositories that write. -/
def RestOp.OnPg : RestOp → Prop
  | pg _ => True
  | _ => False

/-- A query that answers with committed rows reads them. -/
theorem reads_rows {ρ : Type} {key : ρ → ℕ} {t : TxTable ℕ key} {f : ρ → Fact} {s : Postgres}
    (hf : ∀ r ∈ t.visible none, (f r).Read s none) {c : ℕ} (hc : s.owner c = none)
    {rows : List ρ} (hrows : ∀ r ∈ rows, r ∈ t.committed) :
    ∀ x ∈ rows.map f, x.Read s (s.owner c) := by
  intro x hx
  obtain ⟨r, hr, rfl⟩ := List.mem_map.mp hx
  rw [hc]
  exact hf r (TxTable.visible_none (t := t) ▸ hrows r hr)

/-- What a call answers is read of the database that it leaves, outside transactions
where it is a query on the pool. -/
theorem serveRest_reads (tables : RestTables) (c : ℕ) (op : RestOp) (v : Rest)
    (hop : op.OnPg ∨ v.server.pg.owner c = none) :
    ∀ x ∈ op.facts (serveRest tables c op v).1,
      x.Read (serveRest tables c op v).2.server.pg ((serveRest tables c op v).2.server.pg.owner c) := by
  have hnone (h : ¬ op.OnPg) : v.server.pg.owner c = none := hop.resolve_left h
  have hgames {games : List GameRow} (hc : v.server.pg.owner c = none)
      (hmem : ∀ g ∈ games, g ∈ v.server.pg.games.committed) :
      ∀ x ∈ games.map Fact.game, x.Read v.server.pg (v.server.pg.owner c) :=
    reads_rows (t := v.server.pg.games) (f := .game) (fun g hg => hg) hc hmem
  cases op with
  | pg call => exact serve_reads c v.server call
  | selectPlayerById id =>
      intro x hx
      obtain ⟨r, hr⟩ : ∃ r, v.server.pg.selectPlayerById id = r := ⟨_, rfl⟩
      simp only [serveRest, hr] at hx ⊢
      rw [hnone fun h => h]
      unfold Postgres.selectPlayerById at hr
      split at hr
      · subst hr
        cases hx
      · subst hr
        cases hfind : v.server.pg.players.committed.find? fun p => (p.id : ℤ) = id with
        | some p =>
            rw [hfind] at hx
            obtain rfl := List.mem_singleton.mp hx
            exact ⟨p, TxTable.visible_none (t := v.server.pg.players) ▸
              List.mem_of_find?_eq_some hfind, rfl⟩
        | none =>
            rw [hfind] at hx
            obtain rfl := List.mem_singleton.mp hx
            rw [← TxTable.visible_none] at hfind
            exact absent_playerId fun p hp => by simpa using List.find?_eq_none.mp hfind p hp
  | selectActiveGames roomId =>
      refine hgames (hnone fun h => h) fun g hg => ?_
      exact (List.mem_filter.mp ((tables.order.perm _).mem_iff.mp hg)).1
  | selectGames status =>
      refine hgames (hnone fun h => h) fun g hg => ?_
      exact (List.mem_filter.mp ((tables.order.perm _).mem_iff.mp (List.mem_mergeSort.mp hg))).1
  | selectRooms status =>
      refine reads_rows (t := v.server.pg.rooms) (f := .room) (fun r hr => hr) (hnone fun h => h)
        fun r hr => ?_
      exact (List.mem_filter.mp ((tables.order.perm _).mem_iff.mp (List.mem_mergeSort.mp hr))).1
  | selectEvents gameId limit =>
      intro x hx
      obtain ⟨r, hr⟩ : ∃ r, v.server.pg.lastEvents gameId limit = r := ⟨_, rfl⟩
      simp only [serveRest, hr] at hx ⊢
      unfold Postgres.lastEvents at hr
      split at hr
      · subst hr
        cases hx
      · subst hr
        refine reads_rows (t := v.server.pg.gameEvents) (f := .event) (fun e he => he)
          (hnone fun h => h) (fun e he => ?_) x hx
        exact (List.mem_filter.mp (mem_of_mem_top he)).1
  | selectFinishedGames playerId mode limit =>
      exact hgames (hnone fun h => h) fun g hg => (List.mem_filter.mp (mem_of_mem_top hg)).1
  | selectBestSoloScore playerId => exact fun x hx => by cases hx
  | selectLeaderboard mode limit => exact fun x hx => by cases hx
  | view view => exact fun x hx => by cases hx

end Told

end FlipperBack
