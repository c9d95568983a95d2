import FlipperBack.System.RestFlow
import FlipperBack.Transport.ErrorHandler

/-!
# What the calls answer

What the answer of a call has to do with its arguments, and that no call raises a
domain error: the use cases raise these, so that an execution that is refused has
decided so itself.
-/

namespace FlipperBack

open Effects Python

/-! ## The errors of the database -/

/-- An error of a call is not a domain error. -/
def Unrefused {α : Type} (r : Except Exc α) : Prop :=
  ∀ e, r = .error e → e.domainError = none

namespace Unrefused

variable {α β : Type}

theorem ok (a : α) : Unrefused (.ok a : Except Exc α) := fun _ h => by cases h

theorem error {e : Exc} (h : e.domainError = none) : Unrefused (.error e : Except Exc α) := by
  rintro _ ⟨rfl⟩
  exact h

theorem map {r : Except Exc α} (h : Unrefused r) (f : α → β) : Unrefused (r.map f) := by
  rcases r with e | a
  · exact error (h e rfl)
  · exact ok _

theorem write {r : Except Exc (α × Postgres)} (h : Unrefused r) (v : Server) :
    Unrefused (v.write r).1 := by
  rcases r with e | ⟨a, s⟩
  · exact error (h e rfl)
  · exact ok a

theorem insertPlayer (s : Postgres) (c : ℕ) (pseudo : String) :
    Unrefused (s.insertPlayer c pseudo) := by
  unfold Postgres.insertPlayer
  split
  · exact error rfl
  · split
    · exact error rfl
    · exact ok _

theorem insertRoom (s : Postgres) (c : ℕ) (code : String) (mode : GameMode) (status : RoomStatus) :
    Unrefused (s.insertRoom c code mode status) := by
  unfold Postgres.insertRoom
  split
  · exact error rfl
  · split
    · exact error rfl
    · exact ok _

theorem insertGame (s : Postgres) (c : ℕ) (g : NewGame) : Unrefused (s.insertGame c g) := by
  unfold Postgres.insertGame
  split
  · exact error rfl
  · split
    · exact ok _
    · exact error rfl

theorem insertGameEvent (s : Postgres) (c : ℕ) (gameId : ℤ) (row : EventRow) :
    Unrefused (s.insertGameEvent c gameId row) := by
  unfold Postgres.insertGameEvent
  split
  · exact error rfl
  · split
    · exact ok _
    · exact error rfl

theorem insertGameEvents (c gameId : ℕ) (rows : List EventRow) (s : Postgres) :
    Unrefused (s.insertGameEvents c gameId rows) := by
  induction rows generalizing s with
  | nil => exact ok s
  | cons row rows ih =>
      unfold Postgres.insertGameEvents
      split
      · exact ih _
      · next e hinsert => exact error (insertGameEvent s c gameId row e hinsert)

theorem addPoints (s : Postgres) (gameId points : ℤ) : Unrefused (s.addPoints gameId points) := by
  unfold Postgres.addPoints
  split
  · exact error rfl
  · split
    · exact error rfl
    · split
      · exact error rfl
      · exact ok _

theorem finishGame (s : Postgres) (gameId : ℤ) (now : DateTime) :
    Unrefused (s.finishGame gameId now) := by
  unfold Postgres.finishGame
  split
  · exact error rfl
  · split
    · exact error rfl
    · exact ok _

/-- A query that checks its parameter fails for no other reason. -/
theorem guarded (guard : Bool) (a : α) :
    Unrefused (if guard then .error .dataError else .ok a : Except Exc α) := by
  cases guard
  · exact ok a
  · exact error rfl

end Unrefused

/-- No call raises a domain error: this is what the use cases raise. -/
theorem serve_unrefused (c : ℕ) (call : PgCall) (v : Server) : Unrefused (serve c call v).1 := by
  cases call with
  | stmt s =>
      cases s with
      | selectPlayerId pseudo => exact (Unrefused.guarded _ _).map _
      | insertPlayer pseudo => exact (Unrefused.insertPlayer _ c pseudo).write v
      | insertGame g => exact ((Unrefused.insertGame _ c g).map _).write v
      | insertGameEvents gameId rows =>
          exact ((Unrefused.insertGameEvents c gameId rows _).map _).write v
      | _ => exact Unrefused.ok _
  | selectPlayer pseudo => exact (Unrefused.guarded _ _).map _
  | selectRoom code => exact Unrefused.guarded _ _
  | insertRoom code mode status => exact (Unrefused.insertRoom _ c code mode status).write v
  | selectGame gameId => exact Unrefused.guarded _ _
  | insertGame playerId roomId mode score status => exact (Unrefused.insertGame _ c _).write v
  | insertGameEvent gameId type points => exact (Unrefused.insertGameEvent _ c gameId _).write v
  | addPoints gameId points => exact (Unrefused.addPoints _ gameId points).write v
  | finishGame gameId => exact (Unrefused.finishGame _ gameId _).write v
  | respond response => exact Unrefused.ok _

/-! ## The rows that are answered -/

/-- What the answer of a call has to do with its arguments. -/
def PgCall.Returns : (call : PgCall) → Except Exc call.Res → Prop
  | stmt .acquire, r => r = .ok ()
  | stmt .start, r => r = .ok ()
  | stmt .commit, r => r = .ok ()
  | stmt .rollback, r => r = .ok ()
  | stmt .release, r => r = .ok ()
  | selectPlayer pseudo, .ok (some p) => p.pseudo = pseudo
  | selectRoom code, .ok (some r) => r.code = code
  | selectGame gameId, .ok (some g) => (g.id : ℤ) = gameId
  | insertRoom code mode status, .ok r => r.code = code ∧ r.mode = mode ∧ r.status = status
  | insertGame playerId roomId mode score status, .ok g =>
      g.playerId = playerId ∧ g.roomId = roomId ∧ g.mode = mode ∧ g.score = score ∧
        g.status = status ∧ g.finishedAt = none
  | insertGameEvent gameId type points, .ok e =>
      (e.gameId : ℤ) = gameId ∧ e.type = type ∧ e.points = points
  | addPoints gameId _, .ok g => (g.id : ℤ) = gameId
  | finishGame gameId, .ok g => (g.id : ℤ) = gameId
  | _, _ => True

/-- A query of one row that answers with a row has found it. -/
theorem found_of_guard {ρ : Type} {rows : List ρ} {p : ρ → Bool} {guard : Bool} {r : ρ}
    (h : (if guard then .error .dataError else .ok (rows.find? p) : Except Exc (Option ρ)) =
      .ok (some r)) : p r = true := by
  cases guard with
  | true => cases h
  | false => exact List.find?_some (Except.ok.inj h)

/-- A statement that writes returns what it does where it succeeds. -/
theorem write_returns {call : PgCall} {r : Except Exc (call.Res × Postgres)} (v : Server)
    (hok : ∀ a s, r = .ok (a, s) → call.Returns (.ok a)) (herror : ∀ e, call.Returns (.error e)) :
    call.Returns (v.write r).1 := by
  rcases r with e | ⟨a, s⟩
  · exact herror e
  · exact hok a s rfl

theorem id_of_game {s : Postgres} {gameId : ℤ} {g : GameRow} (h : s.game gameId = some g) :
    (g.id : ℤ) = gameId := by
  simpa using List.find?_some h

theorem serve_returns (c : ℕ) (call : PgCall) (v : Server) : call.Returns (serve c call v).1 := by
  cases call with
  | stmt s => cases s <;> trivial
  | selectPlayer pseudo =>
      obtain ⟨r, hr⟩ : ∃ r, v.pg.selectPlayer c pseudo = r := ⟨_, rfl⟩
      simp only [serve, hr]
      rcases r with e | _ | p
      · trivial
      · trivial
      · have hfound : p.pseudo = pseudo := by simpa using found_of_guard hr
        exact hfound
  | selectRoom code =>
      obtain ⟨r, hr⟩ : ∃ r, v.pg.selectRoom c code = r := ⟨_, rfl⟩
      simp only [serve, hr]
      rcases r with e | _ | r
      · trivial
      · trivial
      · have hfound : r.code = code := by simpa using found_of_guard hr
        exact hfound
  | selectGame gameId =>
      obtain ⟨r, hr⟩ : ∃ r, v.pg.selectGame c gameId = r := ⟨_, rfl⟩
      simp only [serve, hr]
      rcases r with e | _ | g
      · trivial
      · trivial
      · have hfound : (g.id : ℤ) = gameId := by simpa using found_of_guard hr
        exact hfound
  | insertRoom code mode status =>
      refine write_returns v (fun room s hinsert => ?_) fun _ => trivial
      obtain ⟨rfl, -⟩ := Postgres.insertRoom_ok hinsert
      exact ⟨rfl, rfl, rfl⟩
  | insertGame playerId roomId mode score status =>
      refine write_returns v (fun g s hinsert => ?_) fun _ => trivial
      obtain ⟨rfl, -⟩ := Postgres.insertGame_ok hinsert
      exact ⟨rfl, rfl, rfl, rfl, rfl, rfl⟩
  | insertGameEvent gameId type points =>
      refine write_returns v (fun e s hinsert => ?_) fun _ => trivial
      obtain ⟨hgame, hrow, -⟩ := Postgres.insertGameEvent_ok hinsert
      exact ⟨hgame, congrArg EventRow.type hrow, congrArg EventRow.points hrow⟩
  | addPoints gameId points =>
      refine write_returns v (fun g s hadd => ?_) fun _ => trivial
      obtain ⟨g₀, hg₀, -, rfl, -⟩ := Postgres.addPoints_ok hadd
      have hid : (g₀.id : ℤ) = gameId := id_of_game hg₀
      exact hid
  | finishGame gameId =>
      refine write_returns v (fun g s hfinish => ?_) fun _ => trivial
      obtain ⟨g₀, hg₀, rfl, -⟩ := Postgres.finishGame_ok hfinish
      have hid : (g₀.id : ℤ) = gameId := id_of_game hg₀
      exact hid
  | respond response => trivial

end FlipperBack
