import FlipperBack.Infrastructure.Persist
import FlipperBack.System.Refinement

/-!
# A flush that fails loses nothing

Every call of a flush may raise, with its effect done or not, and so may every
statement and the commit of its transaction. Up to the commit the session and
its buffer are only read; only after it are they deleted.
-/

namespace FlipperBack

open Effects Python

/-- Nothing has been written: the rows are those of before, and the sessions and
their buffers are still there. -/
structure World.Kept (w w' : World) : Prop where
  rows : w'.db.rows = w.db.rows
  sessions : w'.sessions = w.sessions
  buffers : w'.buffers = w.buffers

theorem World.Kept.refl (w : World) : w.Kept w := ⟨rfl, rfl, rfl⟩

/-- The game of the session is in the database, with all the rows of its buffer
and its player. -/
def World.Committed (w w' : World) (clock : Clock) (sessionId : String) : Prop :=
  ∃ s rows playerId gameId, w.seen sessionId = some s ∧
    buildEventRows clock.utcnow (w.buffers sessionId) = .ok rows ∧
    Written w.db w'.db (s.finished clock (w.buffers sessionId)) rows playerId gameId

theorem faulty_isLookup {ctx : Context} {e : Exc} {op : Op} (h : op.isLookup = true)
    (s : List (Option Bool) × World) : (Prog.faulty (handle ctx) e op s).2.2 = s.2 := by
  have hkeep : (handle ctx op s.2).2 = s.2 := by
    cases op with
    | playerGetByPseudo pseudo => rfl
    | gameGetBestSoloScore playerId => rfl
    | _ => cases h
  rcases Prog.faulty_snd (handle ctx) e op s with heq | heq
  · rw [heq, hkeep]
  · exact heq

/-- Whatever calls fail, the lookup of the best score leaves the world. -/
theorem run_previousBestFor_faulty (ctx : Context) (e : Exc) (pseudo : String) (mode : GameMode)
    (plan : List (Option Bool)) (w : World) :
    ((previousBestFor pseudo mode).run (Prog.faulty (handle ctx) e) (plan, w)).2.2 = w :=
  Prog.run_frame (P := fun op : Op => op.isLookup = true) Prod.snd
    (fun _ s h => faulty_isLookup h s) (previousBestFor_isLookup pseudo mode) (plan, w)

/-- The calls after the commit. -/
def Op.isCleanup : Op → Bool
  | bufferClear _ => true
  | sessionDelete _ => true
  | _ => false

theorem faulty_isCleanup {ctx : Context} {e : Exc} {op : Op} (h : op.isCleanup = true)
    (s : List (Option Bool) × World) : (Prog.faulty (handle ctx) e op s).2.2.db = s.2.db := by
  have hkeep : (handle ctx op s.2).2.db = s.2.db := by
    cases op with
    | bufferClear sessionId => rfl
    | sessionDelete sessionId => rfl
    | _ => cases h
  rcases Prog.faulty_snd (handle ctx) e op s with heq | heq
  · rw [heq, hkeep]
  · rw [heq]

/-- What `persist_finished_session` leaves, whatever it answers. -/
theorem kept_or_committed (ctx : Context) (clock : Clock) {w : World} {s : Session}
    (hseen : w.seen s.sessionId = some s) :
    let out := handle ctx (.gamePersistFinishedSession s.sessionId clock.utcnow
      (s.finished clock (w.buffers s.sessionId))) w
    (w.Kept out.2 ∧ ∃ e, out.1 = .error e) ∨ w.Committed out.2 clock s.sessionId := by
  rcases persist_cases ctx.pg clock.utcnow (s.finished clock (w.buffers s.sessionId)) w.db with
    ⟨hrows, he⟩ | ⟨rows, playerId, gameId, hbuild, hwritten, -⟩
  · exact Or.inl ⟨⟨hrows, rfl, rfl⟩, he⟩
  · exact Or.inr ⟨s, rows, playerId, gameId, hseen, hbuild, hwritten⟩

/-- From the transaction on, where only deletions follow it. -/
theorem run_persist_faulty {α : Type} {ctx : Context} {e : Exc} {clock : Clock} {w w' : World}
    {s : Session} (hseen : w.seen s.sessionId = some s) {plan plan' : List (Option Bool)}
    {f : ℕ × ℕ × ℕ → UseCase α} (hf : ∀ ids, (f ids).All fun op => op.isCleanup = true)
    {r : Except Exc α}
    (h : (await (.gamePersistFinishedSession s.sessionId clock.utcnow
      (s.finished clock (w.buffers s.sessionId))) >>= f).run (Prog.faulty (handle ctx) e) (plan, w) =
        (r, plan', w')) :
    (w.Kept w' ∧ ∃ e', r = .error e') ∨ w.Committed w' clock s.sessionId := by
  have hpersist := kept_or_committed ctx clock hseen
  rcases Prog.run_faulty_cases h with ⟨ids, plan₁, hids, h⟩ | ⟨he, hw | hw⟩
  · rcases hpersist with ⟨-, e', he'⟩ | ⟨s₀, rows, playerId, gameId, hs₀, hbuild, hwritten⟩
    · rw [hids] at he'
      cases he'
    · have hframe (s₁ : List (Option Bool) × World) :
          ((f ids).run (Prog.faulty (handle ctx) e) s₁).2.2.db = s₁.2.db :=
        Prog.run_frame (fun s => s.2.db) (fun op s hop => faulty_isCleanup hop s) (hf ids) s₁
      have hdb := (hframe _).symm.trans (congrArg (fun out => out.2.2.db) h)
      exact Or.inr ⟨s₀, rows, playerId, gameId, hs₀, hbuild, hdb ▸ hwritten⟩
  · rw [hw]
    exact hpersist.imp_left fun hkept => ⟨hkept.1, he⟩
  · exact Or.inl ⟨hw ▸ World.Kept.refl w, he⟩

/-- Whichever calls and statements of a flush fail, it raises with nothing
written and nothing deleted, or the whole game is in the database. -/
theorem flush_loses_nothing (ctx : Context) (e : Exc) (clock : Clock) (sessionId : String)
    (plan : List (Option Bool)) (w : World) :
    let out := (finishAndPersist clock sessionId).run (Prog.faulty (handle ctx) e) (plan, w)
    (w.Kept out.2.2 ∧ ∃ e', out.1 = .error e') ∨ w.Committed out.2.2 clock sessionId := by
  intro out
  obtain ⟨r, plan', w', hout⟩ : ∃ r plan' w', out = (r, plan', w') := ⟨_, _, _, rfl⟩
  have h : (finishAndPersist clock sessionId).run (Prog.faulty (handle ctx) e) (plan, w) =
      (r, plan', w') := hout
  rw [hout]
  -- Up to the transaction, a call that raises leaves the world as it was.
  rcases Prog.run_faulty_cases h with ⟨found, plan₁, hread, h⟩ | ⟨he, hw | hw⟩
  · have hseen : w.seen sessionId = found := by
      rw [World.seen, show w.readSession sessionId = .ok found from hread]
    cases found with
    | none =>
        obtain ⟨hr, hw⟩ := Prod.mk.inj h
        exact Or.inl ⟨(Prod.mk.inj hw).2 ▸ World.Kept.refl w, _, hr.symm⟩
    | some s =>
        obtain rfl := World.seen_sessionId hseen
        rcases Prog.run_faulty_cases h with ⟨events, plan₂, hevents, h⟩ | ⟨he, hw | hw⟩
        · obtain rfl : w.buffers s.sessionId = events := Except.ok.inj hevents
          obtain ⟨best?, ⟨plan₃, w₁⟩, hbest⟩ : ∃ best? s₁, (previousBestFor s.pseudo s.mode).run
              (Prog.faulty (handle ctx) e) (plan₂, w) = (best?, s₁) := ⟨_, _, rfl⟩
          obtain rfl : w = w₁ := by
            have hw₁ := run_previousBestFor_faulty ctx e s.pseudo s.mode plan₂ w
            rw [hbest] at hw₁
            exact hw₁.symm
          rw [show (handle ctx (.bufferReadAll s.sessionId)
              (handle ctx (.sessionGet s.sessionId) w).2).2 = w from rfl, Prog.run_bind, hbest] at h
          cases best? with
          | error e' =>
              obtain ⟨hr, hw⟩ := Prod.mk.inj h
              exact Or.inl ⟨(Prod.mk.inj hw).2 ▸ World.Kept.refl w, e', hr.symm⟩
          | ok best =>
              refine run_persist_faulty hseen (fun ids => ?_) h
              exact Prog.All.bind ((Prog.all_perform _ _).mpr rfl) fun _ =>
                Prog.All.bind ((Prog.all_perform _ _).mpr rfl) fun _ => trivial
        · exact Or.inl ⟨hw ▸ World.Kept.refl w, he⟩
        · exact Or.inl ⟨hw ▸ World.Kept.refl w, he⟩
  · exact Or.inl ⟨hw ▸ World.Kept.refl w, he⟩
  · exact Or.inl ⟨hw ▸ World.Kept.refl w, he⟩

end FlipperBack
