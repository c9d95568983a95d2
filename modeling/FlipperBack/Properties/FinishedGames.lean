import FlipperBack.UseCase.Executions

/-!
# Games that are finished

`AddGameEvent` and `FinishGame` read the status of a game in one call and write to
the game in later ones. Where each of these writes finds the game still being
played, a game that is finished stays as it is, but for the last event of the
execution that has finished it, and one execution only finishes it
(`finished_stays`). Nothing else makes sure of it
(`finished_changes`).
-/

namespace FlipperBack

open Effects Python

/-! ## The calls of the executions -/

/-- Where an execution is: it adds an event to a game; or it is about to finish
one; or it has, and is to store the last event; or it has stored it, or failed
to. -/
inductive EndPhase
  | idle
  | adding (gameId : ℤ)
  | ending (gameId : ℤ)
  | closing (gameId : ℤ)
  | closed (gameId : ℤ)
  | failed (gameId : ℤ)

namespace EndPhase

/-- How an answer moves an execution. -/
def after : EndPhase → (call : PgCall) → Except Exc call.Res → EndPhase
  | ending gameId, .finishGame _, .ok _ => closing gameId
  | closing gameId, .insertGameEvent _ _ _, .ok _ => closed gameId
  | closing gameId, .insertGameEvent _ _ _, .error _ => failed gameId
  | q, _, _ => q

/-- The calls of each phase. -/
def Allows : EndPhase → PgCall → Prop
  | adding gameId, .selectGame gameId' => gameId' = gameId
  | adding gameId, .insertGameEvent gameId' _ _ => gameId' = gameId
  | adding gameId, .addPoints gameId' _ => gameId' = gameId
  | adding _, .respond (.added _) => True
  | ending gameId, .selectGame gameId' => gameId' = gameId
  | ending gameId, .finishGame gameId' => gameId' = gameId
  | ending _, .respond (.finished (.error _)) => True
  | closing gameId, .insertGameEvent gameId' type points =>
      gameId' = gameId ∧ type = .gameOver ∧ points = 0
  | closed _, .respond (.finished (.ok _)) => True
  | failed _, .respond (.finished (.error _)) => True
  | _, _ => False

/-- The execution has finished the game. -/
def Past (gameId : ℤ) : EndPhase → Prop
  | closing gameId' => gameId' = gameId
  | closed gameId' => gameId' = gameId
  | failed gameId' => gameId' = gameId
  | _ => False

end EndPhase

def ending : Protocol Exc PgCall.Res EndPhase where
  allowed := EndPhase.Allows
  answers _ _ := True
  next q call r q' := q' = q.after call r

/-- An execution ends in any phase but before its last event. -/
def EndPhase.Ended : EndPhase → Prop
  | closing _ => False
  | _ => True

/-- The phase of an execution before it has made any call. -/
def GameExecution.endPhase : GameExecution → EndPhase
  | startGame _ _ _ _ => .idle
  | addGameEvent gameId _ _ => .adding gameId
  | finishGame gameId => .ending gameId

theorem ending_addGameEvent (gameId : ℤ) (type : GameEventType) (points : ℤ) :
    Prog.Rests ending (.adding gameId) (GameExecution.addGameEvent gameId type points).prog := by
  refine answering_rests ?_ fun _ => ⟨trivial, fun _ _ => rfl⟩
  refine Prog.Rests.bind (Prog.Rests.perform ⟨rfl, fun _ _ => rfl⟩) fun found => ?_
  cases found with
  | none => rfl
  | some game =>
      dsimp only
      split
      · rfl
      · refine Prog.Rests.bind (Prog.Rests.perform ⟨rfl, fun _ _ => rfl⟩) fun event => ?_
        split
        · exact Prog.Rests.bind (Prog.Rests.perform ⟨rfl, fun _ _ => rfl⟩) fun game => rfl
        · rfl

theorem ending_finishGame (gameId : ℤ) :
    (GameExecution.finishGame gameId).prog.Follows ending EndPhase.Ended EndPhase.Ended
      (.ending gameId) := by
  refine answering_follows (G := (· = .closed gameId))
    (E := fun q => q = .ending gameId ∨ q = .failed gameId) ?_ ?_ ?_
  · refine Prog.Follows.perform_bind rfl (fun found _ => ⟨_, rfl, ?_⟩) fun e _ =>
      ⟨_, rfl, Or.inl rfl⟩
    cases found with
    | none => exact Or.inl rfl
    | some game =>
        dsimp only
        split
        · exact Or.inl rfl
        · refine Prog.Follows.perform_bind rfl (fun game _ => ⟨_, rfl, ?_⟩) fun e _ =>
            ⟨_, rfl, Or.inl rfl⟩
          exact Prog.Follows.perform_bind ⟨rfl, rfl, rfl⟩ (fun event _ => ⟨_, rfl, rfl⟩) fun e _ =>
            ⟨_, rfl, Or.inr rfl⟩
  · rintro q r rfl
    exact ⟨trivial, fun r _ => ⟨_, rfl, by cases r <;> trivial⟩⟩
  · rintro q e (rfl | rfl)
    · exact ⟨trivial, fun r _ => ⟨_, rfl, by cases r <;> trivial⟩⟩
    · exact ⟨trivial, fun r _ => ⟨_, rfl, by cases r <;> trivial⟩⟩

/-- The phase is one of the execution. -/
def EndPhase.Of (exec : Option GameExecution) : EndPhase → Prop
  | idle => True
  | adding gameId => ∃ type points, exec = some (.addGameEvent gameId type points)
  | ending gameId => exec = some (.finishGame gameId)
  | closing gameId => exec = some (.finishGame gameId)
  | closed gameId => exec = some (.finishGame gameId)
  | failed gameId => exec = some (.finishGame gameId)

theorem EndPhase.Of.after {exec : Option GameExecution} {q : EndPhase} (h : q.Of exec)
    (call : PgCall) (r : Except Exc call.Res) : (q.after call r).Of exec := by
  unfold EndPhase.after
  split <;> exact h

/-! ## One call -/

/-- The game that an execution writes to with a call once it has read its
status. -/
def PgCall.guarded (exec : Option GameExecution) : PgCall → Option ℤ
  | insertGameEvent gameId _ _ =>
      match exec with
      | some (.addGameEvent _ _ _) => some gameId
      | _ => none
  | addPoints gameId _ => some gameId
  | finishGame gameId => some gameId
  | _ => none

/-- What a call of the execution `i` does where the writes under a guard find their
game being played: the server and the phase of the execution before it and
after. -/
inductive EndStep (i : ℕ) (v : Server) : EndPhase → Server → EndPhase → Prop
  | nothing (q : EndPhase) : EndStep i v q v q
  | responded (q : EndPhase) (response : Response)
      (hclosed : ∀ r, response = .finished (.ok r) → ∃ gameId, q = .closed gameId) :
      EndStep i v q { v with responses := v.responses ++ [(i, response)] } q
  | added {gameId : ℤ} {row : EventRow} {e : GameEventRow} {s : Postgres}
      (hplaying : ∀ g, v.pg.game gameId = some g → g.status = .playing)
      (hinsert : v.pg.tick.insertGameEvent i gameId row = .ok (e, s)) :
      EndStep i v (.adding gameId) { v with pg := s } (.adding gameId)
  | scored {gameId points : ℤ} (hplaying : ∀ g, v.pg.game gameId = some g → g.status = .playing) :
      EndStep i v (.adding gameId)
        { v with pg := v.pg.updateGame gameId (Postgres.addPointsChange points) } (.adding gameId)
  | finished {gameId : ℤ} {g : GameRow} (hgame : v.pg.game gameId = some g)
      (hplaying : g.status = .playing) :
      EndStep i v (.ending gameId)
        { v with pg := v.pg.tick.updateGame gameId (Postgres.finishChange v.pg.now) }
        (.closing gameId)
  | closed {gameId : ℤ} {e : GameEventRow} {s : Postgres} (htype : e.type = .gameOver)
      (hpoints : e.points = 0)
      (hinsert : v.pg.tick.insertGameEvent i gameId e.row = .ok (e, s)) :
      EndStep i v (.closing gameId) { v with pg := s } (.closed gameId)
  | failed (gameId : ℤ) : EndStep i v (.closing gameId) v (.failed gameId)

theorem serve_endStep {exec : Option GameExecution} {i : ℕ} {call : PgCall} {q : EndPhase}
    {v : Server} (hof : q.Of exec) (hallowed : q.Allows call)
    (hplaying : ∀ gameId g, call.guarded exec = some gameId → v.pg.game gameId = some g →
      g.status = .playing) :
    EndStep i v q (serve i call v).2 (q.after call (serve i call v).1) := by
  cases q with
  | idle => exact hallowed.elim
  | adding gameId =>
      obtain ⟨type', points', rfl⟩ := hof
      cases call with
      | selectGame gameId' => exact .nothing _
      | insertGameEvent gameId' type points =>
          obtain rfl : gameId' = gameId := hallowed
          rw [serve]
          cases hinsert : v.pg.tick.insertGameEvent i gameId'
              { type, points, occuredAt := v.pg.now } with
          | error e => exact .nothing _
          | ok out => exact .added (fun g => hplaying gameId' g rfl) hinsert
      | addPoints gameId' points =>
          obtain rfl : gameId' = gameId := hallowed
          rw [serve]
          cases hadd : v.pg.addPoints gameId' points with
          | error e => exact .nothing _
          | ok out =>
              obtain ⟨g, s⟩ := out
              obtain ⟨-, -, -, -, rfl⟩ := Postgres.addPoints_ok hadd
              exact .scored fun g => hplaying gameId' g rfl
      | respond response =>
          cases response with
          | added r => exact .responded _ _ fun _ hr => by cases hr
          | _ => exact hallowed.elim
      | _ => exact hallowed.elim
  | ending gameId =>
      cases call with
      | selectGame gameId' => exact .nothing _
      | finishGame gameId' =>
          obtain rfl : gameId' = gameId := hallowed
          rw [serve]
          cases hfinish : v.pg.tick.finishGame gameId' v.pg.now with
          | error e => exact .nothing _
          | ok out =>
              obtain ⟨g', s⟩ := out
              obtain ⟨g, hgame, -, rfl⟩ := Postgres.finishGame_ok hfinish
              exact .finished hgame (hplaying gameId' g rfl hgame)
      | respond response =>
          cases response with
          | finished r =>
              cases r with
              | ok r => exact hallowed.elim
              | error e => exact .responded _ _ fun _ hr => by cases hr
          | _ => exact hallowed.elim
      | _ => exact hallowed.elim
  | closing gameId =>
      cases call with
      | insertGameEvent gameId' type points =>
          obtain ⟨rfl, rfl, rfl⟩ := hallowed
          rw [serve]
          cases hinsert : v.pg.tick.insertGameEvent i gameId'
              { type := .gameOver, points := 0, occuredAt := v.pg.now } with
          | error e => exact .failed gameId'
          | ok out =>
              obtain ⟨e, s⟩ := out
              obtain ⟨-, hrow, -⟩ := Postgres.insertGameEvent_ok hinsert
              exact .closed (congrArg EventRow.type hrow) (congrArg EventRow.points hrow)
                (hrow ▸ hinsert)
      | _ => exact hallowed.elim
  | closed gameId =>
      cases call with
      | respond response =>
          cases response with
          | finished r =>
              cases r with
              | ok r => exact .responded _ _ fun _ _ => ⟨gameId, rfl⟩
              | error e => exact hallowed.elim
          | _ => exact hallowed.elim
      | _ => exact hallowed.elim
  | failed gameId =>
      cases call with
      | respond response =>
          cases response with
          | finished r =>
              cases r with
              | ok r => exact hallowed.elim
              | error e => exact .responded _ _ fun _ hr => by cases hr
          | _ => exact hallowed.elim
      | _ => exact hallowed.elim

/-! ## One execution finishes a game -/

/-- The executions that have finished the game are one at most, and it is finished
where there is one. -/
structure Ending (gameId : ℤ) (v : Server) (phase : ℕ → EndPhase) : Prop where
  outside : ∀ i, v.pg.inTransaction i = false
  past : ∀ i, (phase i).Past gameId → ∃ g, v.pg.game gameId = some g ∧ g.status = .finished
  unique : ∀ i j, (phase i).Past gameId → (phase j).Past gameId → i = j
  responses : ∀ i r, (i, .finished (.ok r)) ∈ v.responses → ∃ gameId', phase i = .closed gameId'

namespace Ending

variable {gameId : ℤ} {v v' : Server} {phase : ℕ → EndPhase} {i : ℕ} {q : EndPhase}

theorem of_pg (h : Ending gameId v phase) (htx : v'.pg.inTransaction = v.pg.inTransaction)
    (hgame : (v'.pg.game gameId).map GameRow.status = (v.pg.game gameId).map GameRow.status)
    (hresponses : v'.responses = v.responses) : Ending gameId v' phase where
  outside := htx ▸ h.outside
  past i hi := by
    obtain ⟨g, hg, hfinished⟩ := h.past i hi
    rw [hg, Option.map_some, hfinished] at hgame
    exact Option.map_eq_some_iff.mp hgame
  unique := h.unique
  responses := hresponses ▸ h.responses

/-- An execution moves on, and is past the end of the game only where it was. -/
theorem update (h : Ending gameId v phase) (hpast : q.Past gameId → (phase i).Past gameId)
    (hclosed : ∀ gameId', phase i = .closed gameId' → q = .closed gameId') :
    Ending gameId v (Function.update phase i q) := by
  have hback : ∀ j, (Function.update phase i q j).Past gameId → (phase j).Past gameId := by
    intro j hj
    by_cases hji : j = i
    · rw [hji, Function.update_self] at hj
      rw [hji]
      exact hpast hj
    · rwa [Function.update_of_ne hji] at hj
  exact
    { outside := h.outside
      past := fun j hj => h.past j (hback j hj)
      unique := fun j k hj hk => h.unique j k (hback j hj) (hback k hk)
      responses := fun j r hr => by
        obtain ⟨gameId', hj⟩ := h.responses j r hr
        refine ⟨gameId', ?_⟩
        by_cases hji : j = i
        · rw [hji, Function.update_self]
          exact hclosed gameId' (hji ▸ hj)
        · rw [Function.update_of_ne hji, hj] }

/-- A change that leaves the status alone. -/
theorem of_insert (h : Ending gameId v phase) {gameId' : ℤ} {row : EventRow} {e : GameEventRow}
    {s : Postgres} (hinsert : v.pg.tick.insertGameEvent i gameId' row = .ok (e, s)) :
    Ending gameId { v with pg := s } phase := by
  obtain ⟨htx, hgame, -⟩ :=
    Postgres.insertGameEvent_outside (s := v.pg.tick) (h.outside i) hinsert gameId
  exact h.of_pg htx (congrArg (Option.map GameRow.status) hgame) rfl

/-- An execution that finishes a game that is being played is the first. -/
theorem of_finish (h : Ending gameId v phase) {gameId' : ℤ} {g : GameRow} {now : DateTime}
    (hphase : phase i = .ending gameId') (hgame : v.pg.game gameId' = some g)
    (hplaying : g.status = .playing) :
    Ending gameId { v with pg := v.pg.tick.updateGame gameId' (Postgres.finishChange now) }
      (Function.update phase i (.closing gameId')) := by
  have hnot : ∀ {gameId''}, phase i ≠ .closed gameId'' := by
    intro gameId'' hclosed
    rw [hphase] at hclosed
    cases hclosed
  by_cases heq : gameId' = gameId
  · subst heq
    have hnone : ∀ j, ¬ (phase j).Past gameId' := by
      intro j hj
      obtain ⟨g', hg', hfinished⟩ := h.past j hj
      obtain rfl : g = g' := Option.some.inj (hgame.symm.trans hg')
      cases hplaying.symm.trans hfinished
    have honly : ∀ j, (Function.update phase i (.closing gameId') j).Past gameId' → j = i := by
      intro j hj
      by_contra hji
      rw [Function.update_of_ne hji] at hj
      exact hnone j hj
    exact
      { outside := h.outside
        past := fun _ _ => ⟨_, Postgres.game_updateGame (s := v.pg.tick) hgame _, rfl⟩
        unique := fun j k hj hk => (honly j hj).trans (honly k hk).symm
        responses := fun j r hr => by
          obtain ⟨gameId'', hj⟩ := h.responses j r hr
          refine ⟨gameId'', ?_⟩
          rwa [Function.update_of_ne fun hji => hnot (hji ▸ hj)] }
  · have hsame : (v.pg.tick.updateGame gameId' (Postgres.finishChange now)).game gameId =
        v.pg.game gameId := Postgres.game_updateGame_of_ne (s := v.pg.tick) (Ne.symm heq) _
    have hkeeps : Ending gameId
        { v with pg := v.pg.tick.updateGame gameId' (Postgres.finishChange now) } phase :=
      h.of_pg rfl (congrArg (Option.map GameRow.status) hsame) rfl
    exact hkeeps.update (fun hq => absurd hq heq) fun _ hclosed => absurd hclosed hnot

/-- What a call preserves. -/
theorem step (h : Ending gameId v phase) (hstep : EndStep i v (phase i) v' q) :
    Ending gameId v' (Function.update phase i q) := by
  generalize hphase : phase i = p at hstep
  have hsame : q = p → Function.update phase i q = phase := fun hq => by
    rw [hq, ← hphase, Function.update_eq_self]
  cases hstep with
  | nothing =>
      rw [hsame rfl]
      exact h
  | responded q response hclosed =>
      rw [hsame rfl]
      exact
        { outside := h.outside
          past := h.past
          unique := h.unique
          responses := fun j r hr => by
            rcases List.mem_append.mp hr with hr | hr
            · exact h.responses j r hr
            · obtain ⟨rfl, hresponse⟩ := Prod.mk.inj (List.mem_singleton.mp hr)
              rw [hphase]
              exact hclosed r hresponse.symm }
  | added hplaying hinsert =>
      rw [hsame rfl]
      exact h.of_insert hinsert
  | scored hplaying =>
      rw [hsame rfl]
      refine h.of_pg rfl ?_ rfl
      rw [Postgres.game_updateGame_eq, Option.map_map]
      congr 1
      funext g
      simp only [Function.comp]
      split <;> rfl
  | finished hgame hplaying => exact h.of_finish hphase hgame hplaying
  | closed htype hpoints hinsert =>
      refine (h.of_insert hinsert).update (fun hq => ?_) fun gameId' hclosed => ?_
      · rw [hphase]
        exact hq
      · rw [hphase] at hclosed
        cases hclosed
  | failed gameId' =>
      refine h.update (fun hq => ?_) fun gameId' hclosed => ?_
      · rw [hphase]
        exact hq
      · rw [hphase] at hclosed
        cases hclosed

end Ending

/-! ## A game that is finished -/

/-- The game is still `g`, which is finished, and its events are those of a state
where the executions of `W` were about to store its last event, or it has been
stored since and nobody is about to. -/
structure StaysFinished (gameId : ℤ) (g : GameRow) (events : List GameEventRow) (W : ℕ → Prop)
    (v : Server) (phase : ℕ → EndPhase) : Prop where
  ending : Ending gameId v phase
  game : v.pg.game gameId = some g
  events : (v.pg.eventsOf gameId = events ∧ ∀ i, phase i = .closing gameId → W i) ∨
    ∃ i e, W i ∧ e.type = .gameOver ∧ e.points = 0 ∧
      v.pg.eventsOf gameId = events ++ [e] ∧ ∀ j, phase j ≠ .closing gameId

namespace StaysFinished

variable {gameId : ℤ} {g : GameRow} {events : List GameEventRow} {W : ℕ → Prop} {v v' : Server}
  {phase : ℕ → EndPhase} {i : ℕ} {q : EndPhase}

theorem of_same (h : StaysFinished gameId g events W v phase) {phase' : ℕ → EndPhase}
    (hending : Ending gameId v' phase') (hgame : v'.pg.game gameId = v.pg.game gameId)
    (hevents : v'.pg.eventsOf gameId = v.pg.eventsOf gameId)
    (hclosing : ∀ j, phase' j = .closing gameId → phase j = .closing gameId) :
    StaysFinished gameId g events W v' phase' where
  ending := hending
  game := hgame.trans h.game
  events := by
    rw [hevents]
    refine h.events.imp (fun ⟨heq, hW⟩ => ⟨heq, fun j hj => hW j (hclosing j hj)⟩) ?_
    rintro ⟨j, e, hj, htype, hpoints, heq, hnone⟩
    exact ⟨j, e, hj, htype, hpoints, heq, fun k hk => hnone k (hclosing k hk)⟩

/-- The last event is stored. -/
theorem of_last (h : StaysFinished gameId g events W v phase) (hphase : phase i = .closing gameId)
    (hending : Ending gameId v' (Function.update phase i (.closed gameId)))
    (hgame : v'.pg.game gameId = v.pg.game gameId) {e : GameEventRow} (htype : e.type = .gameOver)
    (hpoints : e.points = 0) (hevents : v'.pg.eventsOf gameId = v.pg.eventsOf gameId ++ [e]) :
    StaysFinished gameId g events W v' (Function.update phase i (.closed gameId)) where
  ending := hending
  game := hgame.trans h.game
  events := by
    rcases h.events with ⟨heq, hW⟩ | ⟨-, -, -, -, -, -, hnone⟩
    · refine Or.inr ⟨i, e, hW i hphase, htype, hpoints, heq ▸ hevents, fun j hj => ?_⟩
      by_cases hji : j = i
      · rw [hji, Function.update_self] at hj
        cases hj
      · rw [Function.update_of_ne hji] at hj
        exact hji (h.ending.unique j i (by rw [hj]; rfl) (by rw [hphase]; rfl))
    · exact absurd hphase (hnone i)

/-- What a call preserves. -/
theorem step (hfinished : g.status = .finished) (h : StaysFinished gameId g events W v phase)
    (hstep : EndStep i v (phase i) v' q) :
    StaysFinished gameId g events W v' (Function.update phase i q) := by
  have hending := h.ending.step hstep
  generalize hphase : phase i = p at hstep
  -- A guarded write is to another game.
  have hother : ∀ gameId', (∀ g', v.pg.game gameId' = some g' → g'.status = .playing) →
      gameId ≠ gameId' := by
    rintro gameId' hplaying rfl
    cases hfinished.symm.trans (hplaying g h.game)
  have hclosing : (q = .closing gameId → p = .closing gameId) →
      ∀ j, Function.update phase i q j = .closing gameId → phase j = .closing gameId := by
    intro hq j hj
    by_cases hji : j = i
    · rw [hji, Function.update_self] at hj
      rw [hji, hphase]
      exact hq hj
    · rwa [Function.update_of_ne hji] at hj
  cases hstep with
  | nothing => exact h.of_same hending rfl rfl (hclosing id)
  | responded q response hclosed => exact h.of_same hending rfl rfl (hclosing id)
  | added hplaying hinsert =>
      obtain ⟨-, hgame, hevents⟩ :=
        Postgres.insertGameEvent_outside (s := v.pg.tick) (h.ending.outside i) hinsert gameId
      rw [if_neg (Ne.symm (hother _ hplaying)), List.append_nil] at hevents
      exact h.of_same hending hgame hevents (hclosing id)
  | scored hplaying =>
      exact h.of_same hending (Postgres.game_updateGame_of_ne (hother _ hplaying) _) rfl
        (hclosing id)
  | @finished gameId' g' hgame hplaying =>
      have hne := hother gameId' fun g'' hg'' => by
        rw [← Option.some.inj (hgame.symm.trans hg'')]
        exact hplaying
      refine h.of_same hending (Postgres.game_updateGame_of_ne (s := v.pg.tick) hne _) rfl
        (hclosing fun hq => ?_)
      exact absurd (EndPhase.closing.inj hq).symm hne
  | @closed gameId' e s htype hpoints hinsert =>
      obtain ⟨-, hgame, hevents⟩ :=
        Postgres.insertGameEvent_outside (s := v.pg.tick) (h.ending.outside i) hinsert gameId
      by_cases heq : gameId' = gameId
      · subst heq
        rw [if_pos rfl] at hevents
        exact h.of_last hphase hending hgame htype hpoints hevents
      · rw [if_neg heq, List.append_nil] at hevents
        exact h.of_same hending hgame hevents (hclosing fun hq => by cases hq)
  | failed gameId' => exact h.of_same hending rfl rfl (hclosing fun hq => by cases hq)

end StaysFinished

/-! ## Every interleaving -/

/-- Where the execution `i` is about to write to a game whose status it has read,
the game is being played. -/
def PgPool.StillPlaying (execs : List GameExecution) (pool : PgPool) (i : ℕ) : Prop :=
  ∀ g ∈ ((pool.next i).bind fun call => call.guarded execs[i]?).bind pool.state.pg.game,
    g.status = .playing

instance (execs : List GameExecution) (pool : PgPool) (i : ℕ) :
    Decidable (pool.StillPlaying execs i) :=
  inferInstanceAs (Decidable (∀ g ∈ Option.bind _ _, _))

/-- The execution `i` responds that it has finished the game. -/
def PgPool.Finishes (execs : List GameExecution) (gameId : ℤ) (pool : PgPool) (i : ℕ) : Prop :=
  execs[i]? = some (.finishGame gameId) ∧ ∃ r, (i, .finished (.ok r)) ∈ pool.state.responses

/-- The execution `i` has finished the game and is about to store its last event. -/
def PgPool.Closes (execs : List GameExecution) (gameId : ℤ) (pool : PgPool) (i : ℕ) : Prop :=
  execs[i]? = some (.finishGame gameId) ∧
    pool.next i = some (.insertGameEvent gameId .gameOver 0)

section Runs

variable {execs : List GameExecution} {pool : PgPool} {J : Server → (ℕ → EndPhase) → Prop}

/-- The executions keep to their phases, which satisfy `J` with the server. -/
abbrev PgPool.Ends (execs : List GameExecution) (J : Server → (ℕ → EndPhase) → Prop)
    (pool : PgPool) : Prop :=
  pool.Keeps ending EndPhase.Ended (fun i => i) execs.length fun v phase =>
    J v phase ∧ ∀ i, (phase i).Of execs[i]?

/-- What a call preserves, a schedule whose writes find their games being played
does. -/
theorem ends_run (hJ : ∀ i v v' q phase, J v phase → EndStep i v (phase i) v' q →
      J v' (Function.update phase i q)) (hpool : pool.Ends execs J) {schedule : List ℕ}
    (hplaying : Runs.Along PgPool.step (PgPool.StillPlaying execs) pool schedule) :
    PgPool.Ends execs J (schedule.foldl PgPool.step pool) := by
  refine Pool.run_keeps (C := fun i call v => ∀ gameId g, call.guarded execs[i]? = some gameId →
      v.pg.game gameId = some g → g.status = .playing) (fun _ _ _ => trivial) ?_ hpool ?_
  · rintro i call q phase v - ⟨hstate, hof⟩ hallowed - hC rfl
    refine ⟨hJ i v _ _ phase hstate (serve_endStep (hof i) hallowed hC), fun j => ?_⟩
    by_cases hji : j = i
    · rw [hji, Function.update_self]
      exact (hof i).after call _
    · rw [Function.update_of_ne hji]
      exact hof j
  · refine hplaying.mono fun pool i hplaying call hcall gameId g hguarded hgame => ?_
    refine hplaying g ?_
    rw [hcall, Option.bind_some, hguarded]
    exact hgame

/-- An execution that is past the end of a game is one of `FinishGame`. -/
theorem Ending.finishes {gameId : ℤ} (hpool : pool.Ends execs (Ending gameId)) :
    ∀ i j, pool.Finishes execs gameId i → pool.Finishes execs gameId j → i = j := by
  obtain ⟨-, -, phase, -, hending, hof⟩ := hpool
  have hpast : ∀ i, pool.Finishes execs gameId i → (phase i).Past gameId := by
    rintro i ⟨hexec, r, hr⟩
    obtain ⟨gameId', hclosed⟩ := hending.responses i r hr
    have hi := hof i
    rw [hclosed, hexec] at hi
    rw [hclosed]
    exact (GameExecution.finishGame.inj (Option.some.inj hi)).symm
  exact fun i j hi hj => hending.unique i j (hpast i hi) (hpast j hj)

/-- A game that is finished can only get its last event from now on. -/
theorem Ending.stays {gameId : ℤ} {g : GameRow} (hpool : pool.Ends execs (Ending gameId))
    (hgame : pool.state.pg.game gameId = some g) :
    pool.Ends execs (StaysFinished gameId g (pool.state.pg.eventsOf gameId)
      (pool.Closes execs gameId)) := by
  obtain ⟨hlength, hlabel, phase, hfollow, hending, hof⟩ := hpool
  refine ⟨hlength, hlabel, phase, hfollow, ⟨hending, hgame, Or.inl ⟨rfl, fun i hi => ?_⟩⟩, hof⟩
  have hexec := hof i
  rw [hi] at hexec
  obtain ⟨hlt, -⟩ := List.getElem?_eq_some_iff.mp hexec
  obtain ⟨⟨c, p⟩, hthread⟩ : ∃ t, pool.threads[i]? = some t :=
    ⟨_, List.getElem?_eq_getElem (hlength ▸ hlt)⟩
  have hp := hfollow i c p hthread
  rw [hi] at hp
  refine ⟨hexec, ?_⟩
  cases p with
  | ret u => exact hp.elim
  | raise e => exact hp.elim
  | call call k =>
      have hcall : EndPhase.Allows (.closing gameId) call := hp.1
      rw [Pool.next, hthread]
      cases call with
      | insertGameEvent gameId' type points =>
          obtain ⟨rfl, rfl, rfl⟩ := hcall
          rfl
      | _ => exact hcall.elim

/-- Executions of `AddGameEvent` and `FinishGame` that have made no call yet. -/
theorem ends_start {s : Postgres} (houtside : ∀ c, s.inTransaction c = false) (gameId : ℤ)
    (hexecs : ∀ exec ∈ execs, exec.OnGame) :
    (PgPool.start s (execs.map GameExecution.prog)).Ends execs (Ending gameId) := by
  let phase : ℕ → EndPhase := fun i => (execs[i]?.map GameExecution.endPhase).getD .idle
  have hnot : ∀ i, ¬ (phase i).Past gameId := by
    intro i
    simp only [phase]
    cases execs[i]? with
    | none => exact id
    | some exec => cases exec <;> exact id
  have hof : ∀ i, (phase i).Of execs[i]? := by
    intro i
    simp only [phase]
    cases execs[i]? with
    | none => trivial
    | some exec =>
        cases exec with
        | startGame hex pseudo mode roomCode => trivial
        | addGameEvent gameId type points => exact ⟨type, points, rfl⟩
        | finishGame gameId => rfl
  have hending : Ending gameId { pg := s } phase :=
    { outside := houtside
      past := fun i hi => absurd hi (hnot i)
      unique := fun i j hi _ => absurd hi (hnot i)
      responses := fun i r hr => by cases hr }
  refine PgPool.keeps_start s (List.length_map _) phase (fun i p hp => ?_) ⟨hending, hof⟩
  rw [List.getElem?_map] at hp
  obtain ⟨exec, hexec, rfl⟩ := Option.map_eq_some_iff.mp hp
  simp only [phase, hexec, Option.map_some, Option.getD_some]
  cases exec with
  | startGame hex pseudo mode roomCode =>
      exact (hexecs _ (List.mem_of_getElem? hexec)).elim
  | addGameEvent gameId type points =>
      exact (ending_addGameEvent gameId type points).follows trivial trivial
  | finishGame gameId => exact ending_finishGame gameId

end Runs

/-- Whatever the executions of `AddGameEvent` and `FinishGame` and their
interleaving, where every write finds the game being played, a game that is
finished keeps its row and gets no event but the last one of the execution that has
finished it, and one execution at most finishes it. -/
theorem finished_stays {s : Postgres} (houtside : ∀ c, s.inTransaction c = false)
    {execs : List GameExecution} (hexecs : ∀ exec ∈ execs, exec.OnGame)
    (before after : List ℕ)
    (hplaying : Runs.Along PgPool.step (PgPool.StillPlaying execs)
      (PgPool.start s (execs.map GameExecution.prog)) (before ++ after)) (gameId : ℤ) :
    let pool₁ := before.foldl PgPool.step (PgPool.start s (execs.map GameExecution.prog))
    let pool₂ := after.foldl PgPool.step pool₁
    (∀ g, pool₁.state.pg.game gameId = some g → g.status = .finished →
      pool₂.state.pg.game gameId = some g ∧
        (pool₂.state.pg.eventsOf gameId = pool₁.state.pg.eventsOf gameId ∨
          ∃ i e, pool₁.Closes execs gameId i ∧ e.type = .gameOver ∧ e.points = 0 ∧
            pool₂.state.pg.eventsOf gameId = pool₁.state.pg.eventsOf gameId ++ [e])) ∧
      ∀ i j, pool₂.Finishes execs gameId i → pool₂.Finishes execs gameId j → i = j := by
  intro pool₁ pool₂
  obtain ⟨hbefore, hafter⟩ := (Runs.along_append _ _ _ _).mp hplaying
  have hpool₁ : pool₁.Ends execs (Ending gameId) :=
    ends_run (fun i v v' q phase h hstep => h.step hstep) (ends_start houtside gameId hexecs) hbefore
  have hpool₂ : pool₂.Ends execs (Ending gameId) :=
    ends_run (fun i v v' q phase h hstep => h.step hstep) hpool₁ hafter
  refine ⟨fun g hgame hfinished => ?_, Ending.finishes hpool₂⟩
  obtain ⟨-, -, phase, -, hstays, -⟩ : pool₂.Ends execs (StaysFinished gameId g _ _) :=
    ends_run (fun i v v' q phase h hstep => h.step hfinished hstep)
      (Ending.stays hpool₁ hgame) hafter
  refine ⟨hstays.game, hstays.events.imp And.left ?_⟩
  rintro ⟨i, e, hcloses, htype, hpoints, hevents, -⟩
  exact ⟨i, e, hcloses, htype, hpoints, hevents⟩

/-- An execution of `FinishGame`, then one of `AddGameEvent`. -/
theorem finished_stays_sequence :
    let s : Postgres :=
      { players := { rows := [(none, { id := 1, pseudo := "ABC" })], seq := 1 }
        games := { rows := [(none, { id := 1, playerId := 1, roomId := none, mode := .solo,
                                     score := 0, status := .playing, startedAt := default,
                                     finishedAt := none })], seq := 1 }
        clock := fun _ => default
        games_player := by simp [TxTable.Refers, TxTable.Has]
        games_room := by simp [TxTable.Refers] }
    let execs : List GameExecution := [.finishGame 1, .addGameEvent 1 .bumperHit 5]
    let pool₁ := [0, 0].foldl PgPool.step (PgPool.start s (execs.map GameExecution.prog))
    let pool₂ := [0, 0, 1, 1].foldl PgPool.step pool₁
    ∃ g, pool₁.state.pg.game 1 = some g ∧ g.status = .finished ∧
      pool₂.state.pg.game 1 = some g ∧
        (pool₂.state.pg.eventsOf 1 = pool₁.state.pg.eventsOf 1 ∨
          ∃ i e, pool₁.Closes execs 1 i ∧ e.type = .gameOver ∧ e.points = 0 ∧
            pool₂.state.pg.eventsOf 1 = pool₁.state.pg.eventsOf 1 ++ [e]) := by
  intro s execs
  have hexecs : ∀ exec ∈ execs, exec.OnGame := by
    simp [execs, GameExecution.OnGame]
  have hplaying : Runs.Along PgPool.step (PgPool.StillPlaying execs)
      (PgPool.start s (execs.map GameExecution.prog)) ([0, 0] ++ [0, 0, 1, 1]) := by
    decide +kernel
  have hgame : (([0, 0].foldl PgPool.step (PgPool.start s
      (execs.map GameExecution.prog))).state.pg.game 1).map GameRow.status = some .finished := by
    decide +kernel
  have hstays := finished_stays (s := s) (fun _ => rfl) hexecs [0, 0] [0, 0, 1, 1] hplaying 1
  dsimp only at hstays
  generalize [0, 0].foldl PgPool.step (PgPool.start s (execs.map GameExecution.prog)) = pool₁
    at hstays hgame ⊢
  obtain ⟨g, hg, hfinished⟩ := Option.map_eq_some_iff.mp hgame
  exact ⟨g, hg, hfinished, hstays.1 g hg hfinished⟩

/-- An event is added to a game that has been finished since its status was read:
its score changes. -/
theorem finished_changes :
    ¬ ∀ (s : Postgres) (execs : List GameExecution) (before after : List ℕ) (gameId : ℤ),
      (∀ c, s.inTransaction c = false) → (∀ exec ∈ execs, exec.OnGame) →
      let pool₁ := before.foldl PgPool.step (PgPool.start s (execs.map GameExecution.prog))
      let pool₂ := after.foldl PgPool.step pool₁
      (∀ g, pool₁.state.pg.game gameId = some g → g.status = .finished →
        pool₂.state.pg.game gameId = some g ∧
          (pool₂.state.pg.eventsOf gameId = pool₁.state.pg.eventsOf gameId ∨
            ∃ i e, pool₁.Closes execs gameId i ∧ e.type = .gameOver ∧ e.points = 0 ∧
              pool₂.state.pg.eventsOf gameId = pool₁.state.pg.eventsOf gameId ++ [e])) ∧
        ∀ i j, pool₂.Finishes execs gameId i → pool₂.Finishes execs gameId j → i = j := by
  intro h
  let s : Postgres :=
    { players := { rows := [(none, { id := 1, pseudo := "ABC" })], seq := 1 }
      games := { rows := [(none, { id := 1, playerId := 1, roomId := none, mode := .solo,
                                   score := 0, status := .playing, startedAt := default,
                                   finishedAt := none })], seq := 1 }
      clock := fun _ => default
      games_player := by simp [TxTable.Refers, TxTable.Has]
      games_room := by simp [TxTable.Refers] }
  let execs : List GameExecution := [.addGameEvent 1 .bumperHit 5, .finishGame 1]
  have hgame₁ : (([0, 1, 1, 1].foldl PgPool.step (PgPool.start s
      (execs.map GameExecution.prog))).state.pg.game 1).map (fun g => (g.status, g.score)) =
        some (.finished, 0) := by decide +kernel
  have hgame₂ : (([0, 0].foldl PgPool.step ([0, 1, 1, 1].foldl PgPool.step (PgPool.start s
      (execs.map GameExecution.prog)))).state.pg.game 1).map GameRow.score = some 5 := by
    decide +kernel
  have hstays := h s execs [0, 1, 1, 1] [0, 0] 1 (fun _ => rfl)
    (by simp [execs, GameExecution.OnGame])
  dsimp only at hstays
  generalize [0, 1, 1, 1].foldl PgPool.step (PgPool.start s (execs.map GameExecution.prog)) = pool₁
    at hstays hgame₁ hgame₂
  obtain ⟨g, hg, hvalues⟩ := Option.map_eq_some_iff.mp hgame₁
  obtain ⟨hfinished, hscore⟩ := Prod.mk.inj hvalues
  rw [(hstays.1 g hg hfinished).1, Option.map_some, hscore] at hgame₂
  cases hgame₂

end FlipperBack
