import FlipperBack.Infrastructure.PgRepositories

/-!
# What a unit of work leaves

The body of a unit of work only adds rows of its own transaction. They are
committed together where it returns and the commit goes through, and they are
gone in every other case: `unitOfWork_cases` says so of any body, whatever calls
fail inside the unit of work.
-/

namespace FlipperBack

open Effects Python

/-! ## The rows of a transaction -/

section Rows

variable {ρ : Type} {c : ℕ} {rows₀ rows : List (Option ℕ × ρ)}

/-- The rows are those of before and some of the transaction of `c`. -/
def Appended (c : ℕ) (rows₀ rows : List (Option ℕ × ρ)) : Prop :=
  ∃ added : List ρ, rows = rows₀ ++ added.map fun r => (some c, r)

theorem Appended.refl (c : ℕ) (rows : List (Option ℕ × ρ)) : Appended c rows rows :=
  ⟨[], by simp⟩

theorem Appended.append (h : Appended c rows₀ rows) (r : ρ) :
    Appended c rows₀ (rows ++ [(some c, r)]) := by
  obtain ⟨added, rfl⟩ := h
  exact ⟨added ++ [r], by simp⟩

/-- No row is of the transaction of `c`. -/
def NoneOf (c : ℕ) (rows : List (Option ℕ × ρ)) : Prop :=
  ∀ x ∈ rows, x.1 ≠ some c

theorem NoneOf.rollback (h : NoneOf c rows₀) (hrows : Appended c rows₀ rows) :
    rows.filter (fun x => x.1 ≠ some c) = rows₀ := by
  obtain ⟨added, rfl⟩ := hrows
  rw [List.filter_append]
  have hkept : rows₀.filter (fun x => x.1 ≠ some c) = rows₀ := by
    rw [List.filter_eq_self]
    exact fun x hx => decide_eq_true (h x hx)
  have hgone : (added.map fun r => (some c, r)).filter (fun x => x.1 ≠ some c) = [] := by
    rw [List.filter_eq_nil_iff]
    intro x hx
    obtain ⟨r, -, rfl⟩ := List.mem_map.mp hx
    simp
  rw [hkept, hgone, List.append_nil]

end Rows

/-- What a transaction has added is there for good once it is committed, and
nothing else changes. -/
theorem NoneOf.commit {ρ : Type} {key : ρ → ℕ} {c : ℕ} {rows₀ : List (Option ℕ × ρ)}
    {t : TxTable ℕ key} (h : NoneOf c rows₀) (added : List ρ)
    (hrows : t.rows = rows₀ ++ added.map fun r => (some c, r)) :
    ((t.commit c).rollback c).rows = rows₀ ++ added.map fun r => (none, r) := by
  have hcommit : (t.commit c).rows = rows₀ ++ added.map fun r => (none, r) := by
    change (t.rows.map fun x => if x.1 = some c then (none, x.2) else x) = _
    rw [hrows, List.map_append, List.map_map]
    congr 1
    · conv_rhs => rw [← List.map_id rows₀]
      exact List.map_congr_left fun x hx => if_neg (h x hx)
    · exact List.map_congr_left fun r _ => if_pos rfl
  change (t.commit c).rows.filter (fun x => x.1 ≠ some c) = _
  rw [hcommit, List.filter_eq_self]
  intro x hx
  rcases List.mem_append.mp hx with hx | hx
  · exact decide_eq_true (h x hx)
  · obtain ⟨r, -, rfl⟩ := List.mem_map.mp hx
    exact decide_eq_true (by simp)

theorem NoneOf.commit_of_eq {ρ : Type} {key : ρ → ℕ} {c : ℕ} {rows₀ : List (Option ℕ × ρ)}
    {t : TxTable ℕ key} (h : NoneOf c rows₀) (hrows : t.rows = rows₀) :
    ((t.commit c).rollback c).rows = rows₀ := by
  rw [h.commit (t := t) [] (by simpa using hrows)]
  simp

/-- The connection `c` is in no transaction, and no row is of one of its
transactions. -/
structure Postgres.Idle (s : Postgres) (c : ℕ) : Prop where
  inTransaction : s.inTransaction c = false
  players : NoneOf c s.players.rows
  rooms : NoneOf c s.rooms.rows
  games : NoneOf c s.games.rows
  gameEvents : NoneOf c s.gameEvents.rows

theorem Postgres.idle_empty (clock : ℕ → DateTime) (c : ℕ) : Postgres.Idle { clock } c where
  inTransaction := rfl
  players := by rintro x ⟨⟩
  rooms := by rintro x ⟨⟩
  games := by rintro x ⟨⟩
  gameEvents := by rintro x ⟨⟩

/-- The connection `c` has added rows of its transaction to those of `s₀`. -/
structure Postgres.Extends (c : ℕ) (s₀ s : Postgres) : Prop where
  players : Appended c s₀.players.rows s.players.rows
  rooms : Appended c s₀.rooms.rows s.rooms.rows
  games : Appended c s₀.games.rows s.games.rows
  gameEvents : Appended c s₀.gameEvents.rows s.gameEvents.rows

namespace Postgres.Extends

variable {s₀ s s' : Postgres} {c : ℕ}

theorem refl (c : ℕ) (s : Postgres) : Extends c s s :=
  ⟨.refl c _, .refl c _, .refl c _, .refl c _⟩

theorem of_tables (h : Extends c s₀ s) (htables : s'.tables = s.tables) : Extends c s₀ s' := by
  simp only [tables, Prod.mk.injEq] at htables
  obtain ⟨hplayers, hrooms, hgames, hevents⟩ := htables
  exact ⟨hplayers ▸ h.players, hrooms ▸ h.rooms, hgames ▸ h.games, hevents ▸ h.gameEvents⟩

theorem tables_rollback (h : Extends c s₀ s) (hidle : s₀.Idle c) :
    (s.rollback c).tables = s₀.tables :=
  Prod.ext (hidle.players.rollback h.players) (Prod.ext (hidle.rooms.rollback h.rooms)
    (Prod.ext (hidle.games.rollback h.games) (hidle.gameEvents.rollback h.gameEvents)))

theorem insertPlayer (h : Extends c s₀ s) (htx : s.inTransaction c = true) {pseudo : String}
    {id : ℕ} (hinsert : s.insertPlayer c pseudo = .ok (id, s')) :
    s'.inTransaction c = true ∧ Extends c s₀ s' := by
  obtain ⟨-, htables, htx'⟩ := insertPlayer_ok hinsert
  rw [owner_of_inTransaction htx] at htables
  simp only [tables, Prod.mk.injEq] at htables
  obtain ⟨hplayers, hrooms, hgames, hevents⟩ := htables
  exact ⟨htx' ▸ htx, hplayers ▸ h.players.append _, hrooms ▸ h.rooms, hgames ▸ h.games,
    hevents ▸ h.gameEvents⟩

theorem insertRoom (h : Extends c s₀ s) (htx : s.inTransaction c = true) {code : String}
    {mode : GameMode} {status : RoomStatus} {room : RoomRow}
    (hinsert : s.insertRoom c code mode status = .ok (room, s')) :
    s'.inTransaction c = true ∧ Extends c s₀ s' := by
  obtain ⟨-, htables, htx'⟩ := insertRoom_ok hinsert
  rw [owner_of_inTransaction htx] at htables
  simp only [tables, Prod.mk.injEq] at htables
  obtain ⟨hplayers, hrooms, hgames, hevents⟩ := htables
  exact ⟨htx' ▸ htx, hplayers ▸ h.players, hrooms ▸ h.rooms.append _, hgames ▸ h.games,
    hevents ▸ h.gameEvents⟩

theorem insertGame (h : Extends c s₀ s) (htx : s.inTransaction c = true) {g : NewGame}
    {row : GameRow} (hinsert : s.insertGame c g = .ok (row, s')) :
    s'.inTransaction c = true ∧ Extends c s₀ s' := by
  obtain ⟨-, htables, htx'⟩ := insertGame_ok hinsert
  rw [owner_of_inTransaction htx] at htables
  simp only [tables, Prod.mk.injEq] at htables
  obtain ⟨hplayers, hrooms, hgames, hevents⟩ := htables
  exact ⟨htx' ▸ htx, hplayers ▸ h.players, hrooms ▸ h.rooms, hgames ▸ h.games.append _,
    hevents ▸ h.gameEvents⟩

theorem insertGameEvent (h : Extends c s₀ s) (htx : s.inTransaction c = true) {gameId : ℤ}
    {row : EventRow} {e : GameEventRow}
    (hinsert : s.insertGameEvent c gameId row = .ok (e, s')) :
    s'.inTransaction c = true ∧ Extends c s₀ s' := by
  obtain ⟨-, -, -, htables, htx'⟩ := insertGameEvent_ok hinsert
  rw [owner_of_inTransaction htx] at htables
  simp only [tables, Prod.mk.injEq] at htables
  obtain ⟨hplayers, hrooms, hgames, hevents⟩ := htables
  exact ⟨htx' ▸ htx, hplayers ▸ h.players, hrooms ▸ h.rooms, hgames ▸ h.games,
    hevents ▸ h.gameEvents.append _⟩

end Postgres.Extends

/-! ## The body of a unit of work -/

/-- The calls that read, or insert one row. -/
def PgCall.InBody : PgCall → Prop
  | stmt (.insertPlayer _) => True
  | selectPlayer _ => True
  | selectRoom _ => True
  | insertRoom _ _ _ => True
  | selectGame _ => True
  | insertGame _ _ _ _ _ => True
  | insertGameEvent _ _ _ => True
  | _ => False

/-- The connection `c` is in a transaction that has added rows to those of `s₀`. -/
def Inside (c : ℕ) (s₀ s : Postgres) : Prop :=
  s.inTransaction c = true ∧ Postgres.Extends c s₀ s

section Body

variable {c : ℕ} {s₀ : Postgres}

theorem inside_start (c : ℕ) (s : Postgres) : Inside c s (s.start c) :=
  ⟨Function.update_self .., (Postgres.Extends.refl c s).of_tables rfl⟩

/-- The calls of a body stay inside its transaction. -/
theorem serve_inside (call : PgCall) (v : Server) (hcall : call.InBody) (h : Inside c s₀ v.pg) :
    Inside c s₀ (serve c call v).2.pg := by
  cases call with
  | stmt s =>
      cases s with
      | insertPlayer pseudo => exact v.write_pg h fun _ _ hr => h.2.insertPlayer h.1 hr
      | acquire => exact hcall.elim
      | release => exact hcall.elim
      | start => exact hcall.elim
      | commit => exact hcall.elim
      | rollback => exact hcall.elim
      | selectPlayerId pseudo => exact hcall.elim
      | insertGame g => exact hcall.elim
      | insertGameEvents gameId rows => exact hcall.elim
  | selectPlayer pseudo => exact h
  | selectRoom code => exact h
  | insertRoom code mode status => exact v.write_pg h fun _ _ hr => h.2.insertRoom h.1 hr
  | selectGame gameId => exact h
  | insertGame playerId roomId mode score status =>
      have htick : Postgres.Extends c s₀ v.pg.tick := h.2.of_tables rfl
      exact v.write_pg h fun _ _ hr => htick.insertGame h.1 hr
  | insertGameEvent gameId type points =>
      have htick : Postgres.Extends c s₀ v.pg.tick := h.2.of_tables rfl
      exact v.write_pg h fun _ _ hr => htick.insertGameEvent h.1 hr
  | addPoints gameId points => exact hcall.elim
  | finishGame gameId => exact hcall.elim
  | respond response => exact hcall.elim

/-! ## How a unit of work ends -/

/-- The calls that can fail inside a unit of work: all but the release of its
connection, which comes after. -/
def PgCall.inUnitOfWork : PgCall → Bool
  | stmt .release => false
  | _ => true

/-- The calls of a connection, some of which fail with no effect. -/
abbrev failingUow (c : ℕ) : Handler Exc PgCall.Res (List Bool × Server) :=
  Prog.failing PgCall.inUnitOfWork (serve c) .callFailed

/-- A call that can fail goes through, or raises with no effect. -/
theorem failingUow_cases (call : PgCall) (plan : List Bool) (v : Server) :
    ∃ plan', failingUow c call (plan, v) = ((serve c call v).1, plan', (serve c call v).2) ∨
      failingUow c call (plan, v) = (.error .callFailed, plan', v) := by
  obtain ⟨plan', h⟩ := Prog.failing_cases PgCall.inUnitOfWork (serve c) .callFailed call plan v
  exact ⟨plan', h.imp_right And.right⟩

theorem failingUow_inside (call : PgCall) (s : List Bool × Server) (hcall : call.InBody)
    (h : Inside c s₀ s.2.pg) : Inside c s₀ (failingUow c call s).2.2.pg := by
  obtain ⟨plan', hcase | hcase⟩ := failingUow_cases (c := c) call s.1 s.2
  · rw [hcase]
    exact serve_inside call s.2 hcall h
  · rw [hcase]
    exact h

/-- The calls of a unit of work are those of its body and of its transaction. -/
theorem unitOfWork_all {α : Type} {C : PgCall → Prop} {body : PgProg α} (hbody : body.All C)
    (hacquire : C (.stmt .acquire)) (hstart : C (.stmt .start)) (hcommit : C (.stmt .commit))
    (hrollback : C (.stmt .rollback)) (hrelease : C (.stmt .release)) :
    (unitOfWork body).All C := by
  refine Prog.All.bind ((Prog.all_perform _ _).mpr hacquire) fun _ => ?_
  refine Prog.All.bind ((Prog.all_perform _ _).mpr hstart) fun _ => ?_
  refine Prog.All.bind hbody.attempt fun r => ?_
  refine Prog.All.bind (Prog.All.attempt ?_) fun ended => ?_
  · cases r
    · exact (Prog.all_perform _ _).mpr hrollback
    · exact (Prog.all_perform _ _).mpr hcommit
  · refine Prog.All.bind ((Prog.all_perform _ _).mpr hrelease) fun _ => ?_
    cases ended
    · trivial
    · exact Prog.all_ofExcept C r

/-- How a unit of work ends once its body has. -/
def endUnitOfWork {α : Type} (r : Except Exc α) : PgProg α := do
  let ended ← Prog.attempt <| match r with
    | .ok _ => pg (.stmt .commit)
    | .error _ => pg (.stmt .rollback)
  pg (.stmt .release)
  match ended with
  | .ok _ => Prog.ofExcept r
  | .error e => throw e

/-- The end of a unit of work commits what its body has added where this has
returned and the commit goes through, and drops it otherwise. -/
theorem endUnitOfWork_cases {α : Type} (r : Except Exc α) (plan : List Bool) {v v' : Server}
    (hidle : v.pg.Idle c) (hinside : Inside c v.pg v'.pg) :
    ((∃ e, ((endUnitOfWork r).run (failingUow c) (plan, v')).1 = .error e) ∧
      ((endUnitOfWork r).run (failingUow c) (plan, v')).2.2.pg.tables = v.pg.tables) ∨
    ∃ a, r = .ok a ∧ ((endUnitOfWork r).run (failingUow c) (plan, v')).1 = .ok a ∧
      ((endUnitOfWork r).run (failingUow c) (plan, v')).2.2.pg = (v'.pg.commit c).rollback c := by
  have hdropped : (v'.pg.rollback c).tables = v.pg.tables := hinside.2.tables_rollback hidle
  unfold endUnitOfWork
  rw [Prog.run_bind, Prog.run_attempt]
  cases r with
  | ok a =>
      rw [Prog.run_perform]
      obtain ⟨plan', hcommit | hcommit⟩ := failingUow_cases (c := c) (.stmt .commit) plan v'
      · rw [hcommit]
        exact Or.inr ⟨a, rfl, rfl, rfl⟩
      · rw [hcommit]
        exact Or.inl ⟨⟨_, rfl⟩, hdropped⟩
  | error e =>
      rw [Prog.run_perform]
      obtain ⟨plan', hrollback | hrollback⟩ := failingUow_cases (c := c) (.stmt .rollback) plan v'
      · rw [hrollback]
        have hagain : ((v'.pg.rollback c).rollback c).tables = v.pg.tables :=
          ((Postgres.Extends.refl c v.pg).of_tables hdropped).tables_rollback hidle
        exact Or.inl ⟨⟨_, rfl⟩, hagain⟩
      · rw [hrollback]
        exact Or.inl ⟨⟨_, rfl⟩, hdropped⟩

/-- A unit of work raises and leaves the tables as they were, or its body returns
and what it has added is committed. -/
theorem unitOfWork_cases {α : Type} {body : PgProg α} (hbody : body.All PgCall.InBody)
    (plan : List Bool) {v : Server} (hidle : v.pg.Idle c) :
    ((∃ e, ((unitOfWork body).run (failingUow c) (plan, v)).1 = .error e) ∧
      ((unitOfWork body).run (failingUow c) (plan, v)).2.2.pg.tables = v.pg.tables) ∨
    ∃ a plan₁ plan₂ v', body.run (failingUow c) (plan₁, { v with pg := v.pg.start c }) =
        (.ok a, plan₂, v') ∧ Inside c v.pg v'.pg ∧
      ((unitOfWork body).run (failingUow c) (plan, v)).1 = .ok a ∧
      ((unitOfWork body).run (failingUow c) (plan, v)).2.2.pg = (v'.pg.commit c).rollback c := by
  rw [unitOfWork, Prog.run_bind, Prog.run_perform]
  obtain ⟨plan₀, hacquire | hacquire⟩ := failingUow_cases (c := c) (.stmt .acquire) plan v
  · rw [hacquire]
    dsimp only [serve]
    rw [Prog.run_bind, Prog.run_perform]
    obtain ⟨plan₁, hstart | hstart⟩ := failingUow_cases (c := c) (.stmt .start) plan₀ v
    · rw [hstart]
      dsimp only [serve]
      rw [Prog.run_bind, Prog.run_attempt]
      obtain ⟨⟨r, plan₂, v'⟩, hout⟩ :
          ∃ out, body.run (failingUow c) (plan₁, { v with pg := v.pg.start c }) = out := ⟨_, rfl⟩
      have hinside : Inside c v.pg v'.pg := by
        have hrun := Prog.run_invariant (I := fun s : List Bool × Server => Inside c v.pg s.2.pg)
          (fun call s hcall h => failingUow_inside call s hcall h) hbody
          (s := (plan₁, { v with pg := v.pg.start c })) (inside_start c v.pg)
        rw [hout] at hrun
        exact hrun
      rw [hout]
      dsimp only
      rcases endUnitOfWork_cases r plan₂ hidle hinside with hdropped | ⟨a, rfl, hcommitted⟩
      · exact Or.inl hdropped
      · exact Or.inr ⟨a, plan₁, plan₂, v', hout, hinside, hcommitted⟩
    · rw [hstart]
      exact Or.inl ⟨⟨_, rfl⟩, rfl⟩
  · rw [hacquire]
    exact Or.inl ⟨⟨_, rfl⟩, rfl⟩

end Body

end FlipperBack
