import Mathlib.Algebra.BigOperators.Group.Finset.Basic
import FlipperBack.Infrastructure.UnitOfWork
import FlipperBack.UseCase.Executions

/-!
# Scores and events

The score of a game that `StartGame` has created is the sum of the positive points
of its events, as soon as no `AddGameEvent` is in progress on it
(`score_eq_positivePoints`). An event and its points are written by two calls, so
that in between the score is late by what the executions still owe; `Scored` says
so of every state.
-/

namespace FlipperBack

open Effects Python

/-! ## The calls of the executions -/

/-- Where an execution is: it adds no points; or it is about to store events of a
game; or it has stored one and has yet to add its points. -/
inductive ScorePhase
  | free
  | adding (gameId : ℤ)
  | owes (gameId points : ℤ)

/-- The calls that add no points to a game, and insert none that has any. -/
def PgCall.Scoreless : PgCall → Prop
  | stmt (.insertGame _) => False
  | stmt (.insertGameEvents _ _) => False
  | insertGame _ _ _ score status => score = 0 ∧ status = .playing
  | insertGameEvent _ _ points => points = 0
  | addPoints _ _ => False
  | _ => True

/-- The calls of `AddGameEvent` on a game before it has points to add. -/
def PgCall.OfAdding (gameId : ℤ) : PgCall → Prop
  | selectGame gameId' => gameId' = gameId
  | insertGameEvent gameId' _ _ => gameId' = gameId
  | respond _ => True
  | _ => False

/-- How an answer moves an execution that stores events of a game. -/
def ScorePhase.afterAdding (gameId : ℤ) : (call : PgCall) → Except Exc call.Res → ScorePhase
  | .insertGameEvent _ _ points, .ok _ => if 0 < points then owes gameId points else adding gameId
  | _, _ => adding gameId

def scoring : Protocol Exc PgCall.Res ScorePhase where
  allowed
    | .free, call => call.Scoreless
    | .adding gameId, call => call.OfAdding gameId
    | .owes gameId points, call => call = .addPoints gameId points
  answers _ _ := True
  next
    | .free, _, _, q => q = .free
    | .adding gameId, call, r, q => q = .afterAdding gameId call r
    | .owes gameId _, _, _, q => q = .adding gameId

/-- The phase of an execution before it has made any call. -/
def GameExecution.scorePhase : GameExecution → ScorePhase
  | addGameEvent gameId _ _ => .adding gameId
  | _ => .free

/-- An execution ends once it owes nothing. -/
def ScorePhase.Settled : ScorePhase → Prop
  | owes _ _ => False
  | _ => True

theorem scoring_leaves_free {call : PgCall} (hcall : call.Scoreless) :
    scoring.Leaves .free call :=
  ⟨hcall, fun _ _ => rfl⟩

theorem scoring_startGame (hex pseudo : String) (mode : GameMode) (roomCode : Option String) :
    Prog.Rests scoring .free (GameExecution.startGame hex pseudo mode roomCode).prog := by
  have hbody : (startBody hex pseudo mode roomCode).All PgCall.Scoreless :=
    (startBody_calls hex pseudo mode roomCode).mono fun call hcall => by
      rcases call with s | _ | _ | _ | _ | _ | _ | _ | _ | _
      · cases s <;> trivial
      all_goals first | exact hcall | exact hcall.2 | trivial
  exact Prog.Rests.of_all (fun _ => scoring_leaves_free) <|
    answering_all (unitOfWork_all hbody trivial trivial trivial trivial trivial) fun _ => trivial

theorem scoring_finishGame (gameId : ℤ) :
    Prog.Rests scoring .free (GameExecution.finishGame gameId).prog := by
  refine Prog.Rests.of_all (fun _ => scoring_leaves_free) (answering_all ?_ fun _ => trivial)
  refine Prog.All.bind ((Prog.all_perform _ _).mpr trivial) fun found => ?_
  cases found with
  | none => trivial
  | some game =>
      dsimp only
      split
      · trivial
      · refine Prog.All.bind ((Prog.all_perform _ _).mpr trivial) fun game => ?_
        exact Prog.All.bind ((Prog.all_perform _ _).mpr rfl) fun event => trivial

/-- `AddGameEvent` adds the points of the event it has stored. -/
theorem scoring_addGameEvent (gameId : ℤ) (type : GameEventType) (points : ℤ) :
    Prog.Rests scoring (.adding gameId) (GameExecution.addGameEvent gameId type points).prog := by
  refine answering_rests ?_ fun _ => ⟨trivial, fun _ _ => rfl⟩
  refine Prog.Rests.bind (Prog.Rests.perform ⟨rfl, fun _ _ => rfl⟩) fun found => ?_
  cases found with
  | none => rfl
  | some game =>
      dsimp only
      split
      · rfl
      · refine Prog.Follows.perform_bind rfl (fun event _ => ?_) fun e _ => ⟨_, rfl, rfl⟩
        by_cases hpos : 0 < points
        · refine ⟨.owes gameId points, (if_pos hpos).symm, ?_⟩
          rw [if_pos hpos]
          exact Prog.Follows.perform_bind rfl (fun game _ => ⟨_, rfl, rfl⟩) fun e _ => ⟨_, rfl, rfl⟩
        · refine ⟨.adding gameId, (if_neg hpos).symm, ?_⟩
          rw [if_neg hpos]
          rfl

/-! ## What a score lacks -/

/-- The points that an execution has yet to add to the game `k`. -/
def ScorePhase.owed (k : ℕ) : ScorePhase → ℤ
  | owes gameId points => if gameId = k then points else 0
  | _ => 0

/-- The points of an event of the game `k` that count for its score. -/
def GameEventRow.gain (k : ℕ) (e : GameEventRow) : ℤ :=
  if e.gameId = k then max e.points 0 else 0

def earned (k : ℕ) (rows : List (Option ℕ × GameEventRow)) : ℤ :=
  (rows.map fun x => x.2.gain k).sum

/-- The score of the game `k` and what the `n` executions owe it are what its
events have earned it. -/
structure Scored (n k : ℕ) (s : Postgres) (phase : ℕ → ScorePhase) : Prop where
  score : ∀ x ∈ s.games.rows, x.2.id = k →
    x.2.score + ∑ i ∈ Finset.range n, (phase i).owed k = earned k s.gameEvents.rows
  finished : ∀ x ∈ s.games.rows, x.2.id = k →
    (x.2.status = .finished ↔ x.2.finishedAt.isSome)
  /-- What a transaction can take back has earned nothing. -/
  pending : ∀ x ∈ s.gameEvents.rows, x.1 ≠ none → x.2.points = 0
  committed : ∀ i gameId points, phase i = .owes gameId points →
    ∃ g, (none, g) ∈ s.games.rows ∧ (g.id : ℤ) = gameId
  outside : ∀ i, phase i ≠ .free → s.inTransaction i = false

section Earned

variable {k : ℕ}

theorem earned_append (rows : List (Option ℕ × GameEventRow)) (x : Option ℕ × GameEventRow) :
    earned k (rows ++ [x]) = earned k rows + x.2.gain k := by
  simp [earned]

theorem earned_filter {rows : List (Option ℕ × GameEventRow)}
    {p : Option ℕ × GameEventRow → Bool} (h : ∀ x ∈ rows, p x = false → x.2.points = 0) :
    earned k (rows.filter p) = earned k rows := by
  induction rows with
  | nil => rfl
  | cons x rows ih =>
      obtain ⟨hx, hrows⟩ := List.forall_mem_cons.mp h
      have ih := ih hrows
      unfold earned at ih ⊢
      rw [List.map_cons, List.sum_cons]
      cases hp : p x with
      | true => rw [List.filter_cons_of_pos hp, List.map_cons, List.sum_cons, ih]
      | false =>
          have hgain : x.2.gain k = 0 := by simp [GameEventRow.gain, hx hp]
          rw [List.filter_cons_of_neg (by simp [hp]), ih, hgain, zero_add]

theorem sum_owed_update {n i : ℕ} (hi : i < n) (phase : ℕ → ScorePhase) (q : ScorePhase) :
    ∑ j ∈ Finset.range n, (Function.update phase i q j).owed k + (phase i).owed k =
      ∑ j ∈ Finset.range n, (phase j).owed k + q.owed k := by
  have hmem := Finset.mem_range.mpr hi
  have hrest : ∑ j ∈ (Finset.range n).erase i, (Function.update phase i q j).owed k =
      ∑ j ∈ (Finset.range n).erase i, (phase j).owed k :=
    Finset.sum_congr rfl fun j hj => by rw [Function.update_of_ne (Finset.ne_of_mem_erase hj)]
  rw [← Finset.add_sum_erase _ _ hmem,
    ← Finset.add_sum_erase _ (fun j => (phase j).owed k) hmem, hrest, Function.update_self]
  ring

end Earned

/-! ## One call -/

section Calls

variable {n k i : ℕ} {s s' : Postgres} {phase : ℕ → ScorePhase}

theorem Scored.of_rows (h : Scored n k s phase) (hgames : s'.games.rows = s.games.rows)
    (hevents : s'.gameEvents.rows = s.gameEvents.rows)
    (htx : ∀ j, phase j ≠ .free → s'.inTransaction j = s.inTransaction j) :
    Scored n k s' phase where
  score := hgames ▸ hevents ▸ h.score
  finished := hgames ▸ h.finished
  pending := hevents ▸ h.pending
  committed := hgames ▸ h.committed
  outside j hj := (htx j hj).trans (h.outside j hj)

/-- The transaction of an execution that adds no points ends or begins. -/
theorem inTransaction_update (hphase : phase i = .free) (b : Bool) : ∀ j, phase j ≠ .free →
    Function.update s.inTransaction i b j = s.inTransaction j := by
  intro j hj
  refine Function.update_of_ne (fun heq => hj ?_) _ _
  rw [heq, hphase]

theorem Scored.commit (h : Scored n k s phase) (hphase : phase i = .free) :
    Scored n k (s.commit i) phase := by
  have hgames : ∀ x ∈ (s.commit i).games.rows, ∃ y ∈ s.games.rows, y.2 = x.2 := by
    intro x hx
    rcases TxTable.mem_commit.mp hx with ⟨hx, -⟩ | ⟨-, hx⟩
    · exact ⟨x, hx, rfl⟩
    · exact ⟨_, hx, rfl⟩
  have hearned : earned k (s.commit i).gameEvents.rows = earned k s.gameEvents.rows := by
    exact congrArg List.sum (TxTable.column_commit (t := s.gameEvents) fun e => e.gain k)
  exact
    { score := fun x hx hid => by
        obtain ⟨y, hy, hyx⟩ := hgames x hx
        rw [hearned, ← hyx]
        rw [← hyx] at hid
        exact hid ▸ h.score y hy hid
      finished := fun x hx hid => by
        obtain ⟨y, hy, hyx⟩ := hgames x hx
        rw [← hyx] at hid ⊢
        exact h.finished y hy hid
      pending := fun x hx howner => by
        rcases TxTable.mem_commit.mp hx with ⟨hx, -⟩ | ⟨hnone, -⟩
        · exact h.pending x hx howner
        · exact absurd hnone howner
      committed := fun j gameId points hj => by
        obtain ⟨g, hg, hid⟩ := h.committed j gameId points hj
        exact ⟨g, TxTable.mem_commit.mpr (Or.inl ⟨hg, by simp⟩), hid⟩
      outside := fun j hj => (inTransaction_update hphase false j hj).trans (h.outside j hj) }

theorem Scored.rollback (h : Scored n k s phase) (hphase : phase i = .free) :
    Scored n k (s.rollback i) phase := by
  have hearned : earned k (s.rollback i).gameEvents.rows = earned k s.gameEvents.rows :=
    earned_filter fun x hx hgone => h.pending x hx fun hnone => by simp [hnone] at hgone
  exact
    { score := fun x hx hid => by
        rw [hearned]
        exact h.score x (TxTable.mem_rollback.mp hx).1 hid
      finished := fun x hx hid => h.finished x (TxTable.mem_rollback.mp hx).1 hid
      pending := fun x hx howner => h.pending x (TxTable.mem_rollback.mp hx).1 howner
      committed := fun j gameId points hj => by
        obtain ⟨g, hg, hid⟩ := h.committed j gameId points hj
        exact ⟨g, TxTable.mem_rollback.mpr ⟨hg, by simp⟩, hid⟩
      outside := fun j hj => (inTransaction_update hphase false j hj).trans (h.outside j hj) }

/-- A game that is not there yet has no event, and nothing is owed to it. -/
theorem Scored.fresh (h : Scored n k s phase) (hk : s.games.seq < k) :
    ∑ j ∈ Finset.range n, (phase j).owed k = 0 ∧ earned k s.gameEvents.rows = 0 := by
  constructor
  · refine Finset.sum_eq_zero fun j _ => ?_
    cases hj : phase j with
    | owes gameId points =>
        obtain ⟨g, hg, hid⟩ := h.committed j gameId points hj
        have hle := s.games.le_seq _ hg
        exact if_neg (by simp only at hle; omega)
    | free => rfl
    | adding gameId => rfl
  · refine List.sum_eq_zero fun m hm => ?_
    obtain ⟨x, hx, rfl⟩ := List.mem_map.mp hm
    obtain ⟨y, hy, hkey, -⟩ := s.events_game x hx _ rfl
    have hle := s.games.le_seq y hy
    exact if_neg (by omega)

/-- A game is inserted without points. -/
theorem Scored.insertGame (h : Scored n k s phase) {g : NewGame} {row : GameRow}
    (hscore : g.score = 0) (hplaying : g.status = .playing) (hopen : g.finishedAt = none)
    (hinsert : s.insertGame i g = .ok (row, s')) : Scored n k s' phase := by
  obtain ⟨rfl, htables, htx⟩ := Postgres.insertGame_ok hinsert
  simp only [Postgres.tables, Prod.mk.injEq] at htables
  obtain ⟨-, -, hgames, hevents⟩ := htables
  have hcases : ∀ x ∈ s'.games.rows, x ∈ s.games.rows ∨ x.2 = (s.newGame g).val := by
    intro x hx
    rw [hgames] at hx
    exact (List.mem_append.mp hx).imp_right fun hx => by rw [List.mem_singleton.mp hx]
  exact
    { score := fun x hx hid => by
        rw [hevents]
        rcases hcases x hx with hx | hrow
        · exact h.score x hx hid
        · obtain ⟨howed, hearned⟩ := h.fresh (k := k) (by
            rw [← hid, hrow]
            exact Nat.lt_succ_self _)
          rw [howed, hearned, hrow, add_zero]
          exact hscore
      finished := fun x hx hid => by
        rcases hcases x hx with hx | hrow
        · exact h.finished x hx hid
        · rw [hrow]
          exact iff_of_false (by simp [Postgres.newGame, hplaying])
            (by simp [Postgres.newGame, hopen])
      pending := hevents ▸ h.pending
      committed := fun j gameId points hj => by
        obtain ⟨g', hg', hid⟩ := h.committed j gameId points hj
        exact ⟨g', hgames ▸ List.mem_append_left _ hg', hid⟩
      outside := htx ▸ h.outside }

/-- The execution owes the points that an event it inserts is to bring. -/
theorem Scored.insertGameEvent (h : Scored n k s phase) (hi : i < n) {gameId : ℤ}
    {row : EventRow} {e : GameEventRow} (hinsert : s.insertGameEvent i gameId row = .ok (e, s'))
    {q : ScorePhase} (hphase : (phase i).owed k = 0) (hq : q.owed k = e.gain k)
    (hpoints : s.inTransaction i = true → row.points = 0)
    (hcommitted : ∀ gameId' points, q = .owes gameId' points → gameId' = gameId)
    (houtside : q ≠ .free → s.inTransaction i = false) :
    Scored n k s' (Function.update phase i q) := by
  obtain ⟨hgame, hrow, hhas, htables, htx⟩ := Postgres.insertGameEvent_ok hinsert
  simp only [Postgres.tables, Prod.mk.injEq] at htables
  obtain ⟨-, -, hgames, hevents⟩ := htables
  have hsum := sum_owed_update (k := k) hi phase q
  rw [hphase, hq, add_zero] at hsum
  exact
    { score := fun x hx hid => by
        rw [hgames] at hx
        rw [hevents, earned_append, hsum, ← add_assoc, h.score x hx hid]
      finished := hgames ▸ h.finished
      pending := fun x hx howner => by
        rw [hevents] at hx
        rcases List.mem_append.mp hx with hx | hx
        · exact h.pending x hx howner
        · obtain rfl := List.mem_singleton.mp hx
          have hpoints' : e.points = row.points := congrArg EventRow.points hrow
          rw [hpoints']
          exact hpoints (by simpa [Postgres.owner] using howner)
      committed := fun j gameId' points hj => by
        rw [hgames]
        by_cases hij : j = i
        · rw [hij, Function.update_self] at hj
          obtain rfl := hcommitted gameId' points hj
          have hout : s.inTransaction i = false := houtside (by rw [hj]; exact ScorePhase.noConfusion)
          rw [Postgres.owner_of_not hout] at hhas
          obtain ⟨⟨owner, g⟩, hg, hid, hnone⟩ := hhas
          obtain rfl : owner = none := hnone.elim id id
          exact ⟨g, hg, by rw [hid, hgame]⟩
        · rw [Function.update_of_ne hij] at hj
          exact h.committed j gameId' points hj
      outside := fun j hj => by
        rw [htx]
        by_cases hij : j = i
        · rw [hij, Function.update_self] at hj
          rw [hij]
          exact houtside hj
        · rw [Function.update_of_ne hij] at hj
          exact h.outside j hj }

/-- A game is finished at a time. -/
theorem Scored.finishGame (h : Scored n k s phase) {gameId : ℤ} {now : DateTime} {g' : GameRow}
    (hfinish : s.finishGame gameId now = .ok (g', s')) : Scored n k s' phase := by
  obtain ⟨-, -, -, rfl⟩ := Postgres.finishGame_ok hfinish
  exact
    { score := fun x hx hid => by
        rcases Postgres.mem_updateGame.mp hx with ⟨g, hg, rfl⟩ | ⟨hx, -⟩
        · by_cases hgame : (g.id : ℤ) = gameId
          · simp only [if_pos hgame] at hid ⊢
            exact h.score _ hg hid
          · simp only [if_neg hgame] at hid ⊢
            exact h.score _ hg hid
        · exact h.score x hx hid
      finished := fun x hx hid => by
        rcases Postgres.mem_updateGame.mp hx with ⟨g, hg, rfl⟩ | ⟨hx, -⟩
        · by_cases hgame : (g.id : ℤ) = gameId
          · simp only [if_pos hgame]
            exact iff_of_true rfl rfl
          · simp only [if_neg hgame] at hid ⊢
            exact h.finished _ hg hid
        · exact h.finished x hx hid
      pending := h.pending
      committed := fun j gameId' points hj => by
        obtain ⟨g, hg, hid⟩ := h.committed j gameId' points hj
        obtain ⟨g', hg', hid'⟩ := Postgres.committed_updateGame hg
        exact ⟨g', hg', hid' ▸ hid⟩
      outside := h.outside }

/-- What an execution owes is added to the score. -/
theorem Scored.addPoints (h : Scored n k s phase) (hi : i < n) {gameId points : ℤ} {g' : GameRow}
    (hphase : phase i = .owes gameId points)
    (hadd : s.addPoints gameId points = .ok (g', s')) :
    Scored n k s' (Function.update phase i (.adding gameId)) := by
  obtain ⟨g, hg, -, -, rfl⟩ := Postgres.addPoints_ok hadd
  obtain ⟨hg, hgid⟩ := Postgres.game_eq_some.mp hg
  have hsum := sum_owed_update (k := k) hi phase (.adding gameId)
  have howes : (ScorePhase.owes gameId points).owed k = if gameId = k then points else 0 := rfl
  have hadding : (ScorePhase.adding gameId).owed k = 0 := rfl
  rw [hphase, howes, hadding, add_zero] at hsum
  exact
    { score := fun x hx hid => by
        change _ = earned k s.gameEvents.rows
        rcases Postgres.mem_updateGame.mp hx with ⟨g, hg, rfl⟩ | ⟨hx, hpending⟩
        · by_cases hgame : (g.id : ℤ) = gameId
          · simp only [if_pos hgame] at hid ⊢
            have hscore : g.score + _ = _ := h.score _ hg hid
            rw [if_pos (by rw [← hgame, ← hid]; rfl)] at hsum
            change g.score + points + _ = earned k s.gameEvents.rows
            omega
          · simp only [if_neg hgame] at hid ⊢
            have hscore : g.score + _ = _ := h.score _ hg hid
            rw [if_neg (by omega)] at hsum
            omega
        · have hscore := h.score x hx hid
          have hother : ¬ gameId = k := fun hgame => by
            obtain rfl : x = (none, g) := TxTable.eq_of_key hx hg (by simp only; omega)
            exact hpending rfl
          rw [if_neg hother] at hsum
          omega
      finished := fun x hx hid => by
        rcases Postgres.mem_updateGame.mp hx with ⟨g, hg, rfl⟩ | ⟨hx, -⟩
        · by_cases hgame : (g.id : ℤ) = gameId
          · simp only [if_pos hgame] at hid ⊢
            exact h.finished _ hg hid
          · simp only [if_neg hgame] at hid ⊢
            exact h.finished _ hg hid
        · exact h.finished x hx hid
      pending := h.pending
      committed := fun j gameId' points' hj => by
        have hj : phase j = .owes gameId' points' := by
          by_cases hij : j = i
          · rw [hij, Function.update_self] at hj
            cases hj
          · rwa [Function.update_of_ne hij] at hj
        obtain ⟨g, hg, hid⟩ := h.committed j gameId' points' hj
        obtain ⟨g', hg', hid'⟩ := Postgres.committed_updateGame hg
        exact ⟨g', hg', hid' ▸ hid⟩
      outside := fun j hj => by
        by_cases hij : j = i
        · rw [hij]
          exact h.outside i (by rw [hphase]; exact ScorePhase.noConfusion)
        · rw [Function.update_of_ne hij] at hj
          exact h.outside j hj }

end Calls

/-- A call of an execution that adds no points keeps the scores. -/
theorem scored_scoreless {n k i : ℕ} {call : PgCall} {phase : ℕ → ScorePhase} {v : Server}
    (h : Scored n k v.pg phase) (hi : i < n) (hphase : phase i = .free) (hcall : call.Scoreless) :
    Scored n k (serve i call v).2.pg phase := by
  cases call with
  | stmt s =>
      cases s with
      | acquire => exact h
      | release => exact h.rollback hphase
      | start => exact h.of_rows rfl rfl (inTransaction_update hphase true)
      | commit => exact h.commit hphase
      | rollback => exact h.rollback hphase
      | selectPlayerId pseudo => exact h
      | insertPlayer pseudo =>
          refine Server.write_pg (P := fun s => Scored n k s phase) h fun id s hinsert => ?_
          obtain ⟨-, htables, htx⟩ := Postgres.insertPlayer_ok hinsert
          simp only [Postgres.tables, Prod.mk.injEq] at htables
          exact h.of_rows htables.2.2.1 htables.2.2.2 fun j _ => congrFun htx j
      | insertGame g => exact hcall.elim
      | insertGameEvents gameId rows => exact hcall.elim
  | selectPlayer pseudo => exact h
  | selectRoom code => exact h
  | insertRoom code mode status =>
      refine Server.write_pg (P := fun s => Scored n k s phase) h fun room s hinsert => ?_
      obtain ⟨-, htables, htx⟩ := Postgres.insertRoom_ok hinsert
      simp only [Postgres.tables, Prod.mk.injEq] at htables
      exact h.of_rows htables.2.2.1 htables.2.2.2 fun j _ => congrFun htx j
  | selectGame gameId => exact h
  | insertGame playerId roomId mode score status =>
      obtain ⟨rfl, rfl⟩ := hcall
      refine Server.write_pg (P := fun s => Scored n k s phase) h fun row s hinsert => ?_
      have htick : Scored n k v.pg.tick phase := h.of_rows rfl rfl fun _ _ => rfl
      exact htick.insertGame rfl rfl rfl hinsert
  | insertGameEvent gameId type points =>
      obtain rfl : points = 0 := hcall
      refine Server.write_pg (P := fun s => Scored n k s phase) h fun e s hinsert => ?_
      have htick : Scored n k v.pg.tick phase := h.of_rows rfl rfl fun _ _ => rfl
      have hgain : ScorePhase.owed k .free = e.gain k := by
        obtain ⟨-, hrow, -⟩ := Postgres.insertGameEvent_ok hinsert
        have hpoints : e.points = 0 := congrArg EventRow.points hrow
        simp [ScorePhase.owed, GameEventRow.gain, hpoints]
      have hkeeps := htick.insertGameEvent hi hinsert (q := .free) (by rw [hphase]; rfl) hgain
        (fun _ => rfl) (fun _ _ hq => by cases hq) fun hq => absurd rfl hq
      rwa [Function.update_eq_self_iff.mpr hphase.symm] at hkeeps
  | addPoints gameId points => exact hcall.elim
  | finishGame gameId =>
      refine Server.write_pg (P := fun s => Scored n k s phase) h fun row s hfinish => ?_
      have htick : Scored n k v.pg.tick phase := h.of_rows rfl rfl fun _ _ => rfl
      exact htick.finishGame hfinish
  | respond response => exact h

/-- The insertion of an event leaves the points that it brings owed. -/
theorem scored_adding {n k i : ℕ} {gameId : ℤ} {call : PgCall} {phase : ℕ → ScorePhase}
    {v : Server} (h : Scored n k v.pg phase) (hi : i < n) (hphase : phase i = .adding gameId)
    (hcall : call.OfAdding gameId) :
    Scored n k (serve i call v).2.pg
      (Function.update phase i (.afterAdding gameId call (serve i call v).1)) := by
  have hsame : Function.update phase i (.adding gameId) = phase :=
    Function.update_eq_self_iff.mpr hphase.symm
  cases call with
  | selectGame gameId' => exact hsame.symm ▸ h
  | respond response => exact hsame.symm ▸ h
  | insertGameEvent gameId' type points =>
      obtain rfl : gameId' = gameId := hcall
      have htick : Scored n k v.pg.tick phase := h.of_rows rfl rfl fun _ _ => rfl
      rw [serve]
      cases hinsert : v.pg.tick.insertGameEvent i gameId'
          { type, points, occuredAt := v.pg.now } with
      | error e => exact hsame.symm ▸ h
      | ok out =>
          obtain ⟨e, s⟩ := out
          obtain ⟨hgame, hrow, -⟩ := Postgres.insertGameEvent_ok hinsert
          have hpoints : e.points = points := congrArg EventRow.points hrow
          have hout : v.pg.tick.inTransaction i = false :=
            h.outside i (by rw [hphase]; exact ScorePhase.noConfusion)
          refine htick.insertGameEvent hi hinsert (by rw [hphase]; rfl) ?_
            (fun htx => by rw [hout] at htx; cases htx) (fun g' points' hq => ?_) fun _ => hout
          · change (if 0 < points then ScorePhase.owes gameId' points
              else .adding gameId').owed k = _
            rw [GameEventRow.gain, hpoints]
            split
            · next hpos =>
                change (if gameId' = k then points else 0) = _
                simp only [← hgame, Nat.cast_inj, max_eq_left hpos.le]
            · next hpos =>
                rw [max_eq_right (not_lt.mp hpos), ite_self]
                rfl
          · change (if 0 < points then ScorePhase.owes gameId' points
              else .adding gameId') = _ at hq
            split at hq <;> cases hq
            rfl
  | stmt s => exact hcall.elim
  | selectPlayer pseudo => exact hcall.elim
  | selectRoom code => exact hcall.elim
  | insertRoom code mode status => exact hcall.elim
  | insertGame playerId roomId mode score status => exact hcall.elim
  | addPoints gameId points => exact hcall.elim
  | finishGame gameId => exact hcall.elim

/-- A call keeps the scores; one that adds points has to go through. -/
theorem scored_serve {n k i : ℕ} {call : PgCall} {q : ScorePhase} {phase : ℕ → ScorePhase}
    {v : Server} (hi : i < n) (h : Scored n k v.pg phase) (hallowed : scoring.allowed (phase i) call)
    (hadds : ∀ gameId points, call = .addPoints gameId points → ∃ g, (serve i call v).1 = .ok g)
    (hnext : scoring.next (phase i) call (serve i call v).1 q) :
    Scored n k (serve i call v).2.pg (Function.update phase i q) := by
  cases hphase : phase i with
  | free =>
      rw [hphase] at hallowed hnext
      obtain rfl : q = .free := hnext
      rw [Function.update_eq_self_iff.mpr hphase.symm]
      exact scored_scoreless h hi hphase hallowed
  | adding gameId =>
      rw [hphase] at hallowed hnext
      obtain rfl : q = _ := hnext
      exact scored_adding h hi hphase hallowed
  | owes gameId points =>
      rw [hphase] at hallowed hnext
      obtain rfl : q = .adding gameId := hnext
      obtain rfl : call = .addPoints gameId points := hallowed
      obtain ⟨g, hg⟩ := hadds gameId points rfl
      rw [serve] at hg ⊢
      cases hadd : v.pg.addPoints gameId points with
      | error e =>
          rw [hadd] at hg
          cases hg
      | ok out => exact h.addPoints hi hphase hadd

/-! ## Every interleaving -/

/-- The positive points of the events of the game `k`. -/
def Postgres.positivePoints (s : Postgres) (k : ℕ) : List ℤ :=
  (s.gameEvents.committed.filter fun e => e.gameId = k ∧ 0 < e.points).map GameEventRow.points

theorem sum_gain (k : ℕ) (events : List GameEventRow) :
    (events.map fun e => e.gain k).sum =
      ((events.filter fun e => e.gameId = k ∧ 0 < e.points).map GameEventRow.points).sum := by
  induction events with
  | nil => rfl
  | cons e events ih =>
      rw [List.map_cons, List.sum_cons, ih, GameEventRow.gain]
      by_cases hgame : e.gameId = k
      · by_cases hpos : 0 < e.points
        · simp [hgame, hpos, hpos.le]
        · simp [hgame, hpos, not_lt.mp hpos]
      · simp [hgame]

theorem Scored.earned_eq {n k : ℕ} {s : Postgres} {phase : ℕ → ScorePhase}
    (h : Scored n k s phase) : earned k s.gameEvents.rows = (s.positivePoints k).sum := by
  have hcommitted : earned k (s.gameEvents.rows.filter fun x => x.1 = none) =
      earned k s.gameEvents.rows :=
    earned_filter fun x hx hpending => h.pending x hx (of_decide_eq_false hpending)
  rw [← hcommitted, Postgres.positivePoints, ← sum_gain, TxTable.committed, List.map_map]
  rfl

/-- The phase is one of the execution. -/
def ScorePhase.Of (exec : Option GameExecution) : ScorePhase → Prop
  | free => True
  | adding gameId => ∃ type points, exec = some (.addGameEvent gameId type points)
  | owes gameId _ => ∃ type points, exec = some (.addGameEvent gameId type points)

theorem ScorePhase.Of.next {exec : Option GameExecution} {p q : ScorePhase} (h : p.Of exec)
    {call : PgCall} {r : Except Exc call.Res} (hnext : scoring.next p call r q) : q.Of exec := by
  cases p with
  | free =>
      obtain rfl : q = .free := hnext
      trivial
  | adding gameId =>
      obtain rfl : q = .afterAdding gameId call r := hnext
      unfold ScorePhase.afterAdding
      split
      · split <;> exact h
      · exact h
  | owes gameId points =>
      obtain rfl : q = .adding gameId := hnext
      exact h

/-- The phase of the execution `i` before it has made any call. -/
def initialPhase (execs : List GameExecution) (i : ℕ) : ScorePhase :=
  (execs[i]?.map GameExecution.scorePhase).getD .free

theorem initialPhase_of (execs : List GameExecution) (i : ℕ) :
    (initialPhase execs i).Of execs[i]? := by
  unfold initialPhase
  cases hexec : execs[i]? with
  | none => trivial
  | some exec =>
      cases exec with
      | startGame hex pseudo mode roomCode => trivial
      | addGameEvent gameId type points => exact ⟨type, points, rfl⟩
      | finishGame gameId => trivial

theorem initialPhase_ne (execs : List GameExecution) (i : ℕ) (gameId points : ℤ) :
    initialPhase execs i ≠ .owes gameId points := by
  unfold initialPhase
  cases execs[i]? with
  | none => exact ScorePhase.noConfusion
  | some exec => cases exec <;> exact ScorePhase.noConfusion

/-- Each execution keeps to its phases. -/
theorem scoring_prog (exec : GameExecution) :
    Prog.Rests scoring exec.scorePhase exec.prog := by
  cases exec with
  | startGame hex pseudo mode roomCode => exact scoring_startGame hex pseudo mode roomCode
  | addGameEvent gameId type points => exact scoring_addGameEvent gameId type points
  | finishGame gameId => exact scoring_finishGame gameId

theorem settled_scorePhase (exec : GameExecution) : exec.scorePhase.Settled := by
  cases exec <;> trivial

/-- The execution `i` has made a call and has one to make before it responds. -/
def PgPool.InProgress (before pool : PgPool) (i : ℕ) : Prop :=
  pool.threads[i]? ≠ before.threads[i]? ∧
    ∃ call, pool.next i = some call ∧ ∀ response, call ≠ .respond response

/-- Where the execution `i` is about to add points, the call goes through. -/
def PgPool.AddsPoints (pool : PgPool) (i : ℕ) : Prop :=
  (match pool.next i with
    | some (.addPoints gameId points) => (serve i (.addPoints gameId points) pool.state).1.isOk
    | _ => true) = true

instance (pool : PgPool) (i : ℕ) : Decidable (pool.AddsPoints i) :=
  inferInstanceAs (Decidable (_ = true))

theorem PgPool.AddsPoints.ok {pool : PgPool} {i : ℕ} (h : pool.AddsPoints i)
    {gameId points : ℤ} (hnext : pool.next i = some (.addPoints gameId points)) :
    ∃ g, (serve i (.addPoints gameId points) pool.state).1 = .ok g := by
  rw [AddsPoints, hnext] at h
  cases hserve : (serve i (.addPoints gameId points) pool.state).1 with
  | ok g => exact ⟨g, rfl⟩
  | error e =>
      simp only [hserve] at h
      cases h

/-- An execution that owes points is about to add them. -/
theorem next_of_owes {pool : PgPool} {phase : ℕ → ScorePhase}
    (hfollow : pool.Follow scoring ScorePhase.Settled phase) {i : ℕ}
    (hi : i < pool.threads.length) {gameId points : ℤ} (hphase : phase i = .owes gameId points) :
    pool.next i = some (.addPoints gameId points) := by
  obtain ⟨⟨c, p⟩, hthread⟩ : ∃ t, pool.threads[i]? = some t := ⟨_, List.getElem?_eq_getElem hi⟩
  have hp := hfollow i c p hthread
  rw [hphase] at hp
  cases p with
  | ret u => exact hp.elim
  | raise e => exact hp.elim
  | call call k =>
      obtain rfl : call = .addPoints gameId points := hp.1
      simp [Pool.next, hthread]

/-- The scores and the phases of the executions. -/
def ScoredBy (execs : List GameExecution) (k : ℕ) (v : Server) (phase : ℕ → ScorePhase) : Prop :=
  Scored execs.length k v.pg phase ∧ ∀ i, (phase i).Of execs[i]?

/-- In every state that the executions lead to, the score of a game that was not
there before is its due but for what they owe. -/
theorem scoredBy_run {s : Postgres} (hidle : ∀ c, s.Idle c) (execs : List GameExecution)
    (schedule : List ℕ) {k : ℕ} (hnew : ∀ x ∈ s.games.rows, x.2.id ≠ k)
    (hadds : Runs.Along PgPool.step PgPool.AddsPoints
      (PgPool.start s (execs.map GameExecution.prog)) schedule) :
    (schedule.foldl PgPool.step
      (PgPool.start s (execs.map GameExecution.prog))).Keeps scoring ScorePhase.Settled
        (fun i => i) execs.length (ScoredBy execs k) := by
  have hinitial : Scored execs.length k s (initialPhase execs) :=
    { score := fun x hx hid => absurd hid (hnew x hx)
      finished := fun x hx hid => absurd hid (hnew x hx)
      pending := fun x hx howner => by
        obtain ⟨c, hc⟩ := Option.ne_none_iff_exists'.mp howner
        exact absurd hc ((hidle c).gameEvents x hx)
      committed := fun i gameId points hi => absurd hi (initialPhase_ne execs i gameId points)
      outside := fun i _ => (hidle i).inTransaction }
  have hbefore : (PgPool.start s (execs.map GameExecution.prog)).Keeps scoring
      ScorePhase.Settled (fun i => i) execs.length (ScoredBy execs k) := by
    refine PgPool.keeps_start s (List.length_map _) (initialPhase execs) (fun i p hp => ?_)
      ⟨hinitial, initialPhase_of execs⟩
    rw [List.getElem?_map] at hp
    obtain ⟨exec, hexec, rfl⟩ := Option.map_eq_some_iff.mp hp
    rw [initialPhase, hexec]
    exact (scoring_prog exec).follows (settled_scorePhase exec) (settled_scorePhase exec)
  refine Pool.run_keeps (C := fun i call v => ∀ gameId points, call = .addPoints gameId points →
      ∃ g, (serve i call v).1 = .ok g) (fun _ _ _ => trivial) ?_ hbefore ?_
  · intro i call q phase v hi hI hallowed _ hC hnext
    refine ⟨scored_serve hi hI.1 hallowed hC hnext, fun j => ?_⟩
    by_cases hij : j = i
    · rw [hij, Function.update_self]
      exact (hI.2 i).next hnext
    · rw [Function.update_of_ne hij]
      exact hI.2 j
  · refine hadds.mono fun pool i hadds call hcall gameId points heq => ?_
    subst heq
    exact hadds.ok hcall

/-- Whatever the executions and their interleaving, a game that they have created
has the positive points of its events as its score, once no `AddGameEvent` is in
progress on it, and is finished if and only if it has an end. -/
theorem score_eq_positivePoints {s : Postgres} (hidle : ∀ c, s.Idle c)
    (execs : List GameExecution) (schedule : List ℕ)
    (hadds : Runs.Along PgPool.step PgPool.AddsPoints
      (PgPool.start s (execs.map GameExecution.prog)) schedule) :
    let before := PgPool.start s (execs.map GameExecution.prog)
    let pool := schedule.foldl PgPool.step before
    ∀ g ∈ pool.state.pg.games.committed, (∀ x ∈ s.games.rows, x.2.id ≠ g.id) →
      (∀ i type points, execs[i]? = some (.addGameEvent g.id type points) →
        ¬ PgPool.InProgress before pool i) →
      g.score = (pool.state.pg.positivePoints g.id).sum ∧
        (g.status = .finished ↔ g.finishedAt.isSome) := by
  intro before pool g hg hnew hquiet
  obtain ⟨hlength, -, phase, hfollow, hscored, hof⟩ := scoredBy_run hidle execs schedule hnew hadds
  have howed : ∑ i ∈ Finset.range execs.length, (phase i).owed g.id = 0 := by
    refine Finset.sum_eq_zero fun i hi => ?_
    cases hphase : phase i with
    | free => rfl
    | adding gameId => rfl
    | owes gameId points =>
        refine if_neg fun hgame => ?_
        obtain ⟨type, points', hexec⟩ : (ScorePhase.owes gameId points).Of execs[i]? :=
          hphase ▸ hof i
        rw [hgame] at hexec
        have hnext := next_of_owes hfollow (hlength ▸ Finset.mem_range.mp hi) hphase
        refine hquiet i type points' hexec ⟨fun hsame => ?_, _, hnext, fun _ => PgCall.noConfusion⟩
        have hfirst : pool.next i = some (.selectGame g.id) := by
          rw [Pool.next, hsame, PgPool.thread_start, List.getElem?_map, hexec]
          rfl
        cases hnext.symm.trans hfirst
  have hscore := hscored.score (none, g) (TxTable.mem_committed.mp hg) rfl
  rw [howed, add_zero, hscored.earned_eq] at hscore
  exact ⟨hscore, hscored.finished (none, g) (TxTable.mem_committed.mp hg) rfl⟩

/-- A game is started, and an event of five points is added to it. -/
theorem score_eq_positivePoints_event :
    let s : Postgres := { clock := fun _ => default }
    let execs : List GameExecution :=
      [.startGame "1f2e3d4c" "ABC" .solo none, .addGameEvent 1 .bumperHit 5]
    let pool := [0, 0, 0, 0, 0, 0, 0, 0, 0, 0, 1, 1, 1, 1].foldl PgPool.step
      (PgPool.start s (execs.map GameExecution.prog))
    ∃ g ∈ pool.state.pg.games.committed, g.score = 5 ∧
      g.score = (pool.state.pg.positivePoints g.id).sum ∧
      (g.status = .finished ↔ g.finishedAt.isSome) := by
  intro s execs
  have hidle : ∀ c, s.Idle c := fun c =>
    ⟨rfl, by simp [NoneOf, s], by simp [NoneOf, s], by simp [NoneOf, s], by simp [NoneOf, s]⟩
  have hadds : Runs.Along PgPool.step PgPool.AddsPoints
      (PgPool.start s (execs.map GameExecution.prog))
      [0, 0, 0, 0, 0, 0, 0, 0, 0, 0, 1, 1, 1, 1] := by decide +kernel
  have hgames : ([0, 0, 0, 0, 0, 0, 0, 0, 0, 0, 1, 1, 1, 1].foldl PgPool.step
      (PgPool.start s (execs.map GameExecution.prog))).state.pg.games.committed.map
        (fun g => (g.id, g.score)) = [(1, 5)] := by decide +kernel
  have hended : ([0, 0, 0, 0, 0, 0, 0, 0, 0, 0, 1, 1, 1, 1].foldl PgPool.step
      (PgPool.start s (execs.map GameExecution.prog))).next 1 = none := by decide +kernel
  have hscore := score_eq_positivePoints hidle execs
    [0, 0, 0, 0, 0, 0, 0, 0, 0, 0, 1, 1, 1, 1] hadds
  dsimp only at hscore
  generalize [0, 0, 0, 0, 0, 0, 0, 0, 0, 0, 1, 1, 1, 1].foldl PgPool.step
    (PgPool.start s (execs.map GameExecution.prog)) = pool at hscore hgames hended ⊢
  intro pool'
  obtain ⟨g, hg, hvalues⟩ : ∃ g ∈ pool.state.pg.games.committed, (g.id, g.score) = (1, 5) :=
    List.mem_map.mp (by rw [hgames]; exact List.mem_singleton_self _)
  obtain ⟨hid, hpoints⟩ := Prod.mk.inj hvalues
  refine ⟨g, hg, hpoints, hscore g hg (by simp [s]) fun i type points hexec => ?_⟩
  rintro ⟨-, call, hcall, -⟩
  obtain rfl : i = 1 := by
    rcases i with _ | _ | i
    · cases hexec
    · rfl
    · cases hexec
  rw [hended] at hcall
  cases hcall

end FlipperBack
