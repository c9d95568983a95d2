import Mathlib.Data.List.Nodup
import Mathlib.Data.List.Permutation
import FlipperBack.System.Interleaving
import FlipperBack.System.Invariants

/-!
# Executions on one session, as if one after the other

An execution on a session reads it, and writes the whole of it back later. Two
that read it before either writes end with the write of the last one alone. Where
a session is written only while no other execution is between its reading and its
writing, and events are pushed in the order of their writes, every interleaving
leaves the stores that the executions leave one after the other.

An execution takes its place in that order at its write, or at its reading where
it writes nothing.
-/

namespace FlipperBack

open Effects Python

/-- An execution on a session. -/
inductive Execution
  /-- `HandleMqttEventUseCase.execute`, with `FinishBorneGameUseCase.execute` of a
  borne as `on_game_over`, or without. -/
  | event (broadcaster : Broadcaster) (onGameOver : Option String) (clock : Clock)
      (pg : List (Option Bool)) (e : MqttEvent)
  | command (broadcaster : Broadcaster) (action : MatchCommand)
  /-- The final step of a countdown. -/
  | countdown (broadcaster : Broadcaster)

namespace Execution

def program (id : String) : Execution → UseCase Unit
  | event broadcaster onGameOver clock _ e =>
      handleMqttEvent broadcaster (onGameOver.map (finishBorneGame clock)) clock.now e
  | command broadcaster action => sessionCommand broadcaster action id
  | countdown broadcaster => finishCountdown broadcaster id

def context : Execution → Context
  | event _ _ _ pg _ => { pg }
  | _ => {}

/-- An event is on the session it names. -/
def On (id : String) : Execution → Prop
  | event _ _ _ _ e => e.sessionId? = some id
  | _ => True

/-- The execution on its own. -/
def alone (id : String) (w : World) (x : Execution) : World :=
  ((x.program id).run (handle x.context) w).2

end Execution

/-- Executions that have not made a call yet. -/
def inFlight (id : String) (w : World) (xs : List Execution) : Executions :=
  { state := w, threads := xs.map fun x => (x.context, x.program id) }

/-- The session is written only while no other execution has a write of it to
make next, and for an event only while no other one has a push to make next. -/
def Undisturbed (id : String) (pool : Executions) (i : ℕ) : Prop :=
  ∀ t ∈ pool.threads[i]?, t.2.head.any (Op.updates id) → ∀ t' ∈ pool.others i,
    ¬ t'.2.head.any (Op.updates id) ∧
      (t'.2.head.any (Op.pushes id) → ¬ (upcoming t.2).any (Op.pushes id))

instance (id : String) (pool : Executions) (i : ℕ) : Decidable (Undisturbed id pool i) :=
  inferInstanceAs (Decidable (∀ t ∈ pool.threads[i]?, _))

/-! ## What the calls look at -/

/-- The stores are the same. -/
structure World.SameStores (w w' : World) : Prop where
  sessions : w.sessions = w'.sessions
  buffers : w.buffers = w'.buffers
  bornes : w.bornes = w'.bornes
  db : w.db = w'.db

namespace World.SameStores

variable {w w' w'' : World}

theorem refl (w : World) : w.SameStores w := ⟨rfl, rfl, rfl, rfl⟩

theorem symm (h : w.SameStores w') : w'.SameStores w :=
  ⟨h.sessions.symm, h.buffers.symm, h.bornes.symm, h.db.symm⟩

theorem trans (h : w.SameStores w') (h' : w'.SameStores w'') : w.SameStores w'' :=
  ⟨h.sessions.trans h'.sessions, h.buffers.trans h'.buffers, h.bornes.trans h'.bornes,
    h.db.trans h'.db⟩

theorem readSession (h : w.SameStores w') (id : String) :
    w.readSession id = w'.readSession id := by
  rw [readSession_eq, readSession_eq, h.sessions]

/-- A call answers what the stores hold, and changes them alike. -/
theorem handle (h : w.SameStores w') (c : Context) (op : Op) :
    (FlipperBack.handle c op w).1 = (FlipperBack.handle c op w').1 ∧
      (FlipperBack.handle c op w).2.SameStores (FlipperBack.handle c op w').2 := by
  obtain ⟨sessions, buffers, bornes, db, tasks, nextTask, outbox, persisted, issued⟩ := w
  obtain ⟨sessions', buffers', bornes', db', tasks', nextTask', outbox', persisted', issued'⟩ := w'
  obtain ⟨rfl, rfl, rfl, rfl⟩ := h
  cases op with
  | borneGetOrCreate borneId =>
      refine ⟨rfl, ?_⟩
      dsimp only [FlipperBack.handle]
      split <;> exact ⟨rfl, rfl, rfl, rfl⟩
  | _ => exact ⟨rfl, ⟨rfl, rfl, rfl, rfl⟩⟩

theorem run (h : w.SameStores w') (c : Context) (p : UseCase Unit) :
    (p.run (FlipperBack.handle c) w).2.SameStores (p.run (FlipperBack.handle c) w').2 :=
  (Prog.run_sim (fun op _ _ hw => hw.handle c op) p h).2

end World.SameStores

/-- A call that leaves the stores: a broadcast, or the start of a task. -/
def Op.isQuiet : Op → Bool
  | broadcastToSession _ _ _ => true
  | createTask _ _ => true
  | _ => false

/-- An execution with no more call on the stores. -/
abbrev Quiet (p : UseCase Unit) : Prop := p.All fun op => op.isQuiet = true

theorem handle_isQuiet {op : Op} (h : op.isQuiet = true) (c : Context) (w : World) :
    (handle c op w).2.SameStores w := by
  cases op with
  | broadcastToSession broadcaster sessionId message => exact ⟨rfl, rfl, rfl, rfl⟩
  | createTask broadcaster sessionId => exact ⟨rfl, rfl, rfl, rfl⟩
  | _ => cases h

theorem Quiet.run {p : UseCase Unit} (hp : Quiet p) (c : Context) (w : World) :
    (p.run (handle c) w).2.SameStores w :=
  Prog.run_invariant (I := fun w' => w'.SameStores w)
    (fun _ w' hop hw' => (handle_isQuiet hop c w').trans hw') hp (.refl w)

/-- A call that writes no session. -/
def Op.writesNone : Op → Bool
  | sessionCreate _ => false
  | sessionUpdate _ => false
  | _ => true

/-- The session is over, or it cannot be read any more. -/
def World.OverOrGone (w : World) (id : String) : Prop :=
  ∀ s, w.seen id = some s → s.status = .over

theorem World.overOrGone_putSession (w : World) {id : String} {s : Session}
    (hid : s.sessionId = id) (hover : s.status = .over) : (w.putSession s).OverOrGone id := by
  intro s' hs'
  obtain ⟨s₀, hs₀, -, rfl⟩ := World.seen_eq_some.mp hs'
  rw [← hid] at hs₀
  obtain rfl := Option.some.inj ((w.sessions.get_put_self s).symm.trans hs₀)
  exact hover

theorem handle_writesNone {op : Op} (h : op.writesNone = true) (c : Context) (w : World)
    (id : String) : (handle c op w).2.sessions id = w.sessions id ∨
      (handle c op w).2.sessions id = none := by
  cases op with
  | sessionCreate s => cases h
  | sessionUpdate s => cases h
  | sessionDelete sessionId =>
      by_cases hid : id = sessionId
      · exact Or.inr (if_pos hid)
      · exact Or.inl (if_neg hid)
  | borneGetOrCreate borneId =>
      dsimp only [handle]
      split <;> exact Or.inl rfl
  | _ => exact Or.inl rfl

theorem World.OverOrGone.handle {w : World} {id : String} (hw : w.OverOrGone id) {op : Op}
    (h : op.writesNone = true) (c : Context) : (FlipperBack.handle c op w).2.OverOrGone id := by
  intro s hs
  rcases handle_writesNone h c w id with heq | hnone
  · rw [World.seen_congr heq] at hs
    exact hw s hs
  · rw [World.seen_of_absent hnone] at hs
    cases hs

/-- An execution with no session left to write. -/
abbrev WritesNone (p : UseCase Unit) : Prop := p.All fun op => op.writesNone = true

/-! ## What an execution does -/

/-- An execution with an event left to push, and nothing else on the stores. -/
def Pushing (id : String) (p : UseCase Unit) : Prop :=
  ∃ event k, p = .call (.bufferPush id event) k ∧ Quiet (k (.ok ()))

/-- An execution that has written the session `s`: it has nothing left, an event
to push, or, where it has ended the game, an event to push and the game to
flush. -/
def HasWritten (id : String) (s : Session) (p : UseCase Unit) : Prop :=
  Quiet p ∨ p.head.any (Op.pushes id) ∧ (Pushing id p ∨ s.status = .over ∧ WritesNone p)

/-- An execution that has been answered `r` to its reading of the session: it
writes nothing, or the session that it makes of a session not over; it ends where the
write is refused. -/
def HasRead (id : String) (r : Except Exc (Option Session)) (p : UseCase Unit) : Prop :=
  Quiet p ∨ ∃ s s' k, r = .ok (some s) ∧ s.status ≠ .over ∧ s'.sessionId = s.sessionId ∧
    p = .call (.sessionUpdate s') k ∧ HasWritten id s' (k (.ok ())) ∧ ∀ e, Quiet (k (.error e))

theorem quiet_return : Quiet (return) := trivial

theorem quiet_launch (startCountdown : Option Broadcaster) (id : String) :
    Quiet (launch startCountdown id) := by
  cases startCountdown with
  | none => trivial
  | some broadcaster => exact (Prog.all_perform _ _).mpr rfl

/-- An execution that begins with the reading of the session. -/
def Reads (id : String) (p : UseCase Unit) : Prop :=
  ∃ k, p = .call (.sessionGet id) k ∧ ∀ r, HasRead id r (k r)

theorem reads_await_bind {id : String} {f : Option Session → UseCase Unit}
    (hf : ∀ session, HasRead id (.ok session) (f session)) :
    Reads id (await (.sessionGet id) >>= f) := by
  refine ⟨_, rfl, fun r => ?_⟩
  cases r with
  | error e => exact Or.inl trivial
  | ok session => exact hf session

theorem hasRead_await_bind {id : String} {s s' : Session} {f : Unit → UseCase Unit}
    (hstatus : s.status ≠ .over) (hid : s'.sessionId = s.sessionId)
    (hf : HasWritten id s' (f ())) :
    HasRead id (.ok (some s)) (await (.sessionUpdate s') >>= f) :=
  Or.inr ⟨s, s', _, rfl, hstatus, hid, rfl, hf, fun _ => trivial⟩

theorem pushing_await_bind {id : String} {event : Dict} {f : Unit → UseCase Unit}
    (hf : Quiet (f ())) : Pushing id (await (.bufferPush id event) >>= f) :=
  ⟨event, _, rfl, hf⟩

/-- The guard of a switch refuses a session that is over. -/
theorem reads_switchStatus (allowed : SessionStatus → Bool) (hallowed : allowed .over = false)
    (target : SessionStatus) {after : UseCase Unit} (hafter : Quiet after)
    (broadcaster : Broadcaster) (id : String) :
    Reads id (switchStatus allowed target after broadcaster id) := by
  refine reads_await_bind fun session => ?_
  cases session with
  | none => exact Or.inl trivial
  | some s =>
      dsimp only
      split
      · next h =>
          refine hasRead_await_bind (fun hover => ?_) rfl (Or.inl ?_)
          · rw [hover, hallowed] at h
            cases h
          · exact Prog.All.bind ((Prog.all_perform _ _).mpr rfl) fun _ => hafter
      · exact Or.inl trivial

theorem writesNone_finishBorneGame (clock : Clock) (borneId id : String) :
    WritesNone (finishBorneGame clock borneId id) :=
  (spares_finishBorneGame clock borneId id).mono fun op hop => by
    cases op <;> first | rfl | cases hop

theorem reads_handleMqttEvent {id : String} {e : MqttEvent} (he : e.sessionId? = some id)
    (broadcaster : Broadcaster) (onGameOver : Option String) (clock : Clock) :
    Reads id (handleMqttEvent broadcaster (onGameOver.map (finishBorneGame clock)) clock.now e) := by
  rw [handleMqttEvent, he]
  refine reads_await_bind fun session => ?_
  cases session with
  | none => exact Or.inl trivial
  | some s =>
      dsimp only
      split
      · next hplaying =>
          cases happly : applyEvent e s with
          | error err => exact Or.inl trivial
          | ok applied =>
              rcases applied with _ | ⟨message, s'⟩
              · exact Or.inl trivial
              · refine hasRead_await_bind (by simp [hplaying]) (applyEvent_sessionId happly)
                  (Or.inr ⟨by simp [Op.pushes, Prog.perform], ?_⟩)
                by_cases htopic : e.topic = topicGameOver
                · refine Or.inr ⟨applyEvent_gameOver happly htopic, ?_⟩
                  rw [if_pos htopic]
                  refine Prog.All.bind ((Prog.all_perform _ _).mpr rfl) fun _ =>
                    Prog.All.bind ((Prog.all_perform _ _).mpr rfl) fun _ =>
                      Prog.All.bind ((Prog.all_perform _ _).mpr rfl) fun _ => ?_
                  cases onGameOver with
                  | none => trivial
                  | some borneId => exact writesNone_finishBorneGame clock borneId id
                · rw [if_neg htopic]
                  exact Or.inl (pushing_await_bind (Prog.All.bind ((Prog.all_perform _ _).mpr rfl)
                    fun _ => trivial))
      · exact Or.inl trivial

theorem Execution.reads {id : String} {x : Execution} (hx : x.On id) :
    Reads id (x.program id) := by
  cases x with
  | event broadcaster onGameOver clock pg e =>
      exact reads_handleMqttEvent hx broadcaster onGameOver clock
  | command broadcaster action =>
      cases action with
      | pause => exact reads_switchStatus (· == .playing) rfl .paused quiet_return broadcaster id
      | resume =>
          exact reads_switchStatus (· == .paused) rfl .ready (quiet_launch (some broadcaster) id)
            broadcaster id
      | abandon =>
          exact reads_switchStatus (terminatableStates.contains ·) rfl .over quiet_return
            broadcaster id
  | countdown broadcaster =>
      exact reads_switchStatus (· == .ready) rfl .playing quiet_return broadcaster id

/-! ## What is left of an execution that has written -/

theorem Pushing.run {id : String} {p : UseCase Unit} (hp : Pushing id p) :
    ∃ event, ∀ c w, (p.run (handle c) w).2.SameStores
      (w.setBuffer id (w.buffers id ++ [event])) := by
  obtain ⟨event, k, rfl, hk⟩ := hp
  exact ⟨event, fun c w => hk.run c _⟩

theorem Pushing.head {id : String} {p : UseCase Unit} (hp : Pushing id p) :
    p.head.any (Op.pushes id) := by
  obtain ⟨event, k, rfl, -⟩ := hp
  simp [Op.pushes]

theorem WritesNone.run {id : String} {p : UseCase Unit} (hp : WritesNone p) {w : World}
    (hw : w.OverOrGone id) (c : Context) : (p.run (handle c) w).2.OverOrGone id :=
  Prog.run_invariant (I := fun w : World => w.OverOrGone id) (fun _ _ hop hw => hw.handle hop c) hp hw

/-- The stores where the execution `pending`, if any, has run to its end. -/
def settled (pool : Executions) (pending : Option ℕ) : World :=
  match pending.bind (pool.threads[·]?) with
  | some (c, p) => (p.run (handle c) pool.state).2
  | none => pool.state

/-- The executions of `order`, one after the other. -/
def serial (id : String) (xs : List Execution) (w : World) (order : List ℕ) : World :=
  (order.filterMap (xs[·]?)).foldl (Execution.alone id) w

theorem serial_snoc {id : String} {xs : List Execution} {i : ℕ} {x : Execution}
    (hx : xs[i]? = some x) (w : World) (order : List ℕ) :
    serial id xs w (order ++ [i]) = x.alone id (serial id xs w order) := by
  simp [serial, hx]

/-! ## The invariant -/

/-- Where the execution `i` stands, in an order of those that have taken their
place: `pending` is the one that still has something to do on the stores. -/
inductive Stage (id : String) (w : World) (order : List ℕ) (pending : Option ℕ) (i : ℕ)
    (x : Execution) (p : UseCase Unit) : Prop
  | fresh (hi : i ∉ order) (hp : p = x.program id)
  /-- What it is about to write, it would write if it read the session now. -/
  | read (hi : i ∉ order) (hp : p.head.any (Op.updates id))
      (hread : ∃ k, x.program id = .call (.sessionGet id) k ∧ p = k (w.readSession id))
  | done (hi : i ∈ order) (hpending : pending ≠ some i) (hp : Quiet p)
  | pending (hi : i ∈ order) (hpending : pending = some i)

theorem Stage.other {id : String} {w w' : World} {order order' : List ℕ}
    {pending pending' : Option ℕ} {j : ℕ} {x : Execution} {p : UseCase Unit}
    (h : Stage id w order pending j x p)
    (hread : p.head.any (Op.updates id) → w'.readSession id = w.readSession id)
    (horder : j ∈ order' ↔ j ∈ order) (hpending : pending' = some j ↔ pending = some j) :
    Stage id w' order' pending' j x p := by
  cases h with
  | fresh hi hp => exact .fresh (fun h => hi (horder.mp h)) hp
  | read hi hp hk =>
      exact .read (fun h => hi (horder.mp h)) hp (by rwa [hread hp])
  | done hi hne hp => exact .done (horder.mpr hi) (fun h => hne (hpending.mp h)) hp
  | pending hi heq => exact .pending (horder.mpr hi) (hpending.mpr heq)

/-- The executions of `order` have taken their place in it. Once the pending one
has run to its end, the stores are those of the executions one after the
other. -/
structure InOrder (id : String) (xs : List Execution) (w₀ : World) (pool : Executions)
    (order : List ℕ) (pending : Option ℕ) : Prop where
  length : pool.threads.length = xs.length
  nodup : order.Nodup
  lt : ∀ i ∈ order, i < xs.length
  stage : ∀ (i : ℕ) x t, xs[i]? = some x → pool.threads[i]? = some t →
    t.1 = x.context ∧ Stage id pool.state order pending i x t.2
  stores : (settled pool pending).SameStores (serial id xs w₀ order)
  pending : ∀ i ∈ pending, i ∈ order ∧ ∃ t, pool.threads[i]? = some t ∧
    (Pushing id t.2 ∨ pool.state.OverOrGone id ∧ WritesNone t.2)

section Steps

variable {id : String} {xs : List Execution} {w₀ : World} {pool : Executions} {order : List ℕ}
  {pending : Option ℕ} {i : ℕ} {x : Execution} {c : Context} {op : Op}
  {k : Except Exc op.Res → UseCase Unit}

theorem settled_none (pool : Executions) : settled pool none = pool.state := rfl

theorem settled_some {t : Context × UseCase Unit} (ht : pool.threads[i]? = some t) :
    settled pool (some i) = (t.2.run (handle t.1) pool.state).2 := by
  simp [settled, ht]

/-- The session of the serial run is the one stored, or it is over in both. -/
theorem InOrder.session (h : InOrder id xs w₀ pool order pending) :
    (serial id xs w₀ order).sessions = pool.state.sessions ∨
      pool.state.OverOrGone id ∧ (serial id xs w₀ order).OverOrGone id := by
  cases pending with
  | none => exact Or.inl h.stores.sessions.symm
  | some j =>
      obtain ⟨-, t, ht, hpushing | ⟨hover, hnone⟩⟩ := h.pending j rfl
      · obtain ⟨event, hrun⟩ := hpushing.run
        have hstores := h.stores
        rw [settled_some ht] at hstores
        exact Or.inl (hstores.sessions.symm.trans (hrun t.1 pool.state).sessions)
      · refine Or.inr ⟨hover, fun s hs => ?_⟩
        refine hnone.run hover t.1 s ?_
        rw [World.seen_congr (congrArg (fun t => t.get? id) h.stores.sessions.symm)] at hs
        rwa [settled_some ht] at hs

/-- An execution reads nothing to write where the session is over. -/
theorem quiet_of_over {w : World} {k : Except Exc (Option Session) → UseCase Unit}
    (hk : ∀ r, HasRead id r (k r)) (hover : w.OverOrGone id) : Quiet (k (w.readSession id)) := by
  rcases hk (w.readSession id) with hquiet | ⟨s, s', k', hs, hstatus, -⟩
  · exact hquiet
  · exact absurd (hover s (by simp [World.seen, hs])) hstatus

/-- What is read for nothing is read for nothing in the serial run. -/
theorem InOrder.quiet (h : InOrder id xs w₀ pool order pending)
    {k : Except Exc (Option Session) → UseCase Unit} (hk : ∀ r, HasRead id r (k r))
    (hquiet : Quiet (k (pool.state.readSession id))) :
    Quiet (k ((serial id xs w₀ order).readSession id)) := by
  rcases h.session with hsessions | ⟨-, hover⟩
  · rwa [World.readSession_eq, hsessions, ← World.readSession_eq]
  · exact quiet_of_over hk hover

/-- A step leaves what is pending as it was in another execution. -/
theorem settled_step (hne : pending ≠ some i) :
    settled (Pool.step handle pool i) pending =
      settled { pool with state := (Pool.step handle pool i).state } pending := by
  cases pending with
  | none => rfl
  | some j =>
      have hji : j ≠ i := fun heq => hne (congrArg some heq)
      simp only [settled, Option.bind_some, Pool.thread_step_of_ne hji]

theorem settled_sameStores {w w' : World} (h : w.SameStores w') (pool : Executions)
    (pending : Option ℕ) :
    (settled { pool with state := w } pending).SameStores
      (settled { pool with state := w' } pending) := by
  unfold settled
  dsimp only
  split
  · next c p _ => exact h.run c p
  · exact h

/-- What has to be shown of a step of the execution `i`: where it stands, and
that it does not disturb the others. -/
theorem InOrder.advance (h : InOrder id xs w₀ pool order pending) (hx : xs[i]? = some x)
    (hthread : pool.threads[i]? = some (c, .call op k)) {order' : List ℕ} {pending' : Option ℕ}
    (horder : order' = order ∨ i ∉ order ∧ order' = order ++ [i])
    (hpending : ∀ j, j ≠ i → (pending' = some j ↔ pending = some j))
    (hread : ∀ j t, j ≠ i → pool.threads[j]? = some t → t.2.head.any (Op.updates id) →
      (handle c op pool.state).2.readSession id = pool.state.readSession id)
    (hi : Stage id (handle c op pool.state).2 order' pending' i x
      (k (handle c op pool.state).1))
    (hstores : (settled (Pool.step handle pool i) pending').SameStores (serial id xs w₀ order'))
    (hleft : ∀ j ∈ pending', j ∈ order' ∧ ∃ t, (Pool.step handle pool i).threads[j]? = some t ∧
      (Pushing id t.2 ∨ (handle c op pool.state).2.OverOrGone id ∧ WritesNone t.2)) :
    InOrder id xs w₀ (Pool.step handle pool i) order' pending' := by
  have hstep := Pool.step_of_thread (h := handle) hthread
  have hmem (j : ℕ) (hji : j ≠ i) : j ∈ order' ↔ j ∈ order := by
    rcases horder with rfl | ⟨-, rfl⟩ <;> simp [hji]
  refine
    { length := ?_, nodup := ?_, lt := fun j hj => ?_, stage := fun j x' t hx' ht => ?_,
      stores := hstores, pending := fun j hj => ?_ }
  · rw [hstep, List.length_set]
    exact h.length
  · rcases horder with rfl | ⟨hnot, rfl⟩
    · exact h.nodup
    · exact h.nodup.append (List.nodup_singleton i) (List.disjoint_singleton.mpr hnot)
  · by_cases hji : j = i
    · rw [hji]
      exact (List.getElem?_eq_some_iff.mp hx).1
    · exact h.lt j ((hmem j hji).mp hj)
  · by_cases hji : j = i
    · subst hji
      rw [hstep, Pool.set_self hthread] at ht
      obtain rfl := Option.some.inj ht
      obtain rfl : x = x' := Option.some.inj (hx.symm.trans hx')
      rw [hstep]
      exact ⟨(h.stage j x _ hx hthread).1, hi⟩
    · rw [Pool.thread_step_of_ne hji] at ht
      obtain ⟨hc, hstage⟩ := h.stage j x' t hx' ht
      rw [hstep]
      exact ⟨hc, hstage.other (hread j t hji ht) (hmem j hji) (hpending j hji)⟩
  · rw [show (Pool.step handle pool i).state = (handle c op pool.state).2 by rw [hstep]]
    exact hleft j hj

/-- What is pending in another execution stays so. -/
theorem InOrder.left (h : InOrder id xs w₀ pool order pending) (hne : pending ≠ some i)
    {order' : List ℕ} (horder : ∀ j ∈ order, j ∈ order') {w' : World}
    (hover : pool.state.OverOrGone id → w'.OverOrGone id) :
    ∀ j ∈ pending, j ∈ order' ∧ ∃ t, (Pool.step handle pool i).threads[j]? = some t ∧
      (Pushing id t.2 ∨ w'.OverOrGone id ∧ WritesNone t.2) := by
  intro j hj
  obtain ⟨hmem, t, ht, hleft⟩ := h.pending j hj
  have hji : j ≠ i := by
    rintro rfl
    exact hne hj
  exact ⟨horder j hmem, t, (Pool.thread_step_of_ne hji).trans ht,
    hleft.imp_right (And.imp_left hover)⟩

/-- An execution reads the session. Where it has nothing to write, it takes its
place. -/
theorem InOrder.read (h : InOrder id xs w₀ pool order pending) (hx : xs[i]? = some x)
    (hon : x.On id) (hthread : pool.threads[i]? = some (c, .call op k)) (hi : i ∉ order)
    (hp : Prog.call op k = x.program id) :
    ∃ order' pending', InOrder id xs w₀ (Pool.step handle pool i) order' pending' := by
  obtain ⟨k', hprogram, hk⟩ := x.reads hon
  rw [hprogram] at hp
  cases hp
  have hne : pending ≠ some i := fun heq => hi (h.pending i heq).1
  have hstate : (Pool.step handle pool i).state = pool.state := by
    rw [Pool.step_of_thread hthread]
    rfl
  have hstores : (settled (Pool.step handle pool i) pending).SameStores
      (serial id xs w₀ order) := by
    rw [settled_step hne, hstate]
    exact h.stores
  rcases hk (pool.state.readSession id) with hquiet | ⟨s, s', k'', hs, -, hid, hk'', -⟩
  · refine ⟨order ++ [i], pending, h.advance hx hthread (Or.inr ⟨hi, rfl⟩) (fun _ _ => Iff.rfl)
      (fun _ _ _ _ _ => rfl) (.done (by simp) hne hquiet) ?_
      (h.left hne (fun j hj => List.mem_append_left _ hj) fun hover => hover)⟩
    rw [serial_snoc hx, Execution.alone, hprogram]
    exact hstores.trans ((h.quiet hk hquiet).run _ _).symm
  · refine ⟨order, pending, h.advance hx hthread (Or.inl rfl) (fun _ _ => Iff.rfl)
      (fun _ _ _ _ _ => rfl) (.read hi ?_ ⟨k', hprogram, rfl⟩) hstores
      (h.left hne (fun _ hj => hj) fun hover => hover)⟩
    have hseen : pool.state.seen id = some s := by simp [World.seen, hs]
    simp [handle, hk'', Op.updates, hid, World.seen_sessionId hseen]

/-- An execution that has taken its place broadcasts. -/
theorem InOrder.broadcast (h : InOrder id xs w₀ pool order pending) (hx : xs[i]? = some x)
    (hthread : pool.threads[i]? = some (c, .call op k)) (hi : i ∈ order)
    (hne : pending ≠ some i) (hp : Quiet (.call op k)) :
    InOrder id xs w₀ (Pool.step handle pool i) order pending := by
  have hsame := handle_isQuiet hp.1 c pool.state
  refine h.advance hx hthread (Or.inl rfl) (fun _ _ => Iff.rfl)
    (fun _ _ _ _ _ => hsame.readSession id) (.done hi hne (hp.2 _)) ?_
    (h.left hne (fun _ hj => hj) fun hover s hs => hover s ?_)
  · rw [settled_step hne, Pool.step_of_thread hthread]
    exact (settled_sameStores hsame pool pending).trans h.stores
  · rwa [World.seen_congr (congrArg (fun t => t.get? id) hsame.sessions)] at hs

/-- An execution whose session has too many digits to be written ends in its place. -/
theorem InOrder.refused (h : InOrder id xs w₀ pool order pending) (hx : xs[i]? = some x)
    {s : Session} {k : Except Exc Unit → UseCase Unit}
    (hthread : pool.threads[i]? = some (c, .call (.sessionUpdate s) k)) (hi : i ∉ order)
    (hne : pending ≠ some i) (hwritable : ¬ s.writable)
    (hquiet : Quiet (k (.error (.python .valueError))))
    (halone : x.alone id (serial id xs w₀ order) =
      ((Prog.call (.sessionUpdate s) k).run (handle c) (serial id xs w₀ order)).2) :
    InOrder id xs w₀ (Pool.step handle pool i) (order ++ [i]) pending := by
  have hsame (w : World) : handle c (.sessionUpdate s) w = (.error (.python .valueError), w) :=
    handle_sessionUpdate_error hwritable
  have hstate : (Pool.step handle pool i).state = pool.state := by
    rw [Pool.step_of_thread hthread, hsame]
  refine h.advance hx hthread (Or.inr ⟨hi, rfl⟩) (fun _ _ => Iff.rfl)
    (fun _ _ _ _ _ => by rw [hsame]) (.done (by simp) hne ?_) ?_
    (h.left hne (fun j hj => List.mem_append_left _ hj) (by rw [hsame]; exact fun hover => hover))
  · rw [hsame]
    exact hquiet
  · rw [serial_snoc hx, halone, settled_step hne, hstate, Prog.run_call, hsame]
    exact h.stores.trans (hquiet.run c _).symm

/-- An execution writes the session, while no other one is about to. -/
theorem InOrder.write (h : InOrder id xs w₀ pool order pending) (hx : xs[i]? = some x)
    (hon : x.On id) (hundisturbed : Undisturbed id pool i)
    (hthread : pool.threads[i]? = some (c, .call op k)) (hi : i ∉ order)
    (hp : (Prog.call op k).head.any (Op.updates id))
    (hread : ∃ k', x.program id = .call (.sessionGet id) k' ∧
      Prog.call op k = k' (pool.state.readSession id)) :
    ∃ order' pending', InOrder id xs w₀ (Pool.step handle pool i) order' pending' := by
  obtain ⟨k', hprogram, heq⟩ := hread
  obtain ⟨k₁, hk₁, hk⟩ := x.reads hon
  rw [hprogram] at hk₁
  cases hk₁
  have hne : pending ≠ some i := fun heq => hi (h.pending i heq).1
  have hothers := hundisturbed _ hthread hp
  rcases hk (pool.state.readSession id) with
    hquiet | ⟨s, s', k'', hs, hstatus, -, hk'', hwritten, hrefused⟩
  · rw [← heq] at hquiet
    cases op <;> first | cases hp | cases hquiet.1
  rw [← heq] at hk''
  cases hk''
  have hnotOver : ¬ pool.state.OverOrGone id := fun hover =>
    hstatus (hover s (by simp [World.seen, hs]))
  have hsessions := h.session.resolve_right fun hover => hnotOver hover.1
  have hcontext : c = x.context := (h.stage i x _ hx hthread).1
  -- On its own, the execution reads the same session and writes it alike.
  have hreads : x.alone id (serial id xs w₀ order) =
      ((Prog.call (.sessionUpdate s') k'').run (handle c) (serial id xs w₀ order)).2 := by
    rw [Execution.alone, hprogram, Prog.run_call, hcontext]
    change ((k' ((serial id xs w₀ order).readSession id)).run _ _).2 = _
    rw [World.readSession_eq, hsessions, ← World.readSession_eq, ← heq]
    rfl
  by_cases hwritable : s'.writable
  swap
  · exact ⟨_, _, h.refused hx hthread hi hne hwritable (hrefused _) hreads⟩
  have hwrite (w : World) : handle c (.sessionUpdate s') w = (.ok (), w.putSession s') :=
    handle_sessionUpdate hwritable
  have halone : x.alone id (serial id xs w₀ order) =
      ((k'' (.ok ())).run (handle c) ((serial id xs w₀ order).putSession s')).2 := by
    rw [hreads, Prog.run_call, hwrite]
  have hid : s'.sessionId = id := by simpa [Op.updates] using hp
  have hput {w w' : World} (hw : w.SameStores w') :
      (w.putSession s').SameStores (w'.putSession s') := by
    simpa only [hwrite] using (hw.handle c (.sessionUpdate s')).2
  have hanswer : (handle c (.sessionUpdate s') pool.state).1 = .ok () := by rw [hwrite]
  have hstate : (handle c (.sessionUpdate s') pool.state).2 = pool.state.putSession s' := by
    rw [hwrite]
  have hstep := Pool.step_of_thread (h := handle) hthread
  rw [hwrite] at hstep
  have hnone (j : ℕ) (t : Context × UseCase Unit) (hji : j ≠ i) (ht : pool.threads[j]? = some t)
      (hwrites : t.2.head.any (Op.updates id)) :
      (handle c (.sessionUpdate s') pool.state).2.readSession id = pool.state.readSession id :=
    absurd hwrites (hothers t (Pool.mem_others.mpr ⟨j, hji, ht⟩)).1
  cases pending with
  | none =>
      have hstores := h.stores
      rw [settled_none] at hstores
      rcases hwritten with hquiet | ⟨-, hleft⟩
      · refine ⟨order ++ [i], none, h.advance hx hthread (Or.inr ⟨hi, rfl⟩) (fun _ _ => Iff.rfl) hnone
          (.done (by simp) hne (hanswer ▸ hquiet)) ?_ (by simp)⟩
        rw [serial_snoc hx, halone, settled_none, hstep]
        exact (hput hstores).trans (hquiet.run c _).symm
      · have ht : (Pool.step handle pool i).threads[i]? = some (c, k'' (.ok ())) := by
          rw [hstep]
          exact Pool.set_self hthread
        refine ⟨order ++ [i], some i, h.advance hx hthread (Or.inr ⟨hi, rfl⟩)
          (fun j hji => by simp [hji.symm]) hnone (.pending (by simp) rfl) ?_ fun j hj => ?_⟩
        · rw [serial_snoc hx, halone, settled_some ht, hstep]
          exact (hput hstores).run c _
        · obtain rfl := Option.some.inj hj
          rw [hstate]
          exact ⟨by simp, _, ht, hleft.imp_right (And.imp_left (World.overOrGone_putSession _ hid))⟩
  | some j =>
      obtain ⟨hj, t, ht, hpushing | ⟨hover, -⟩⟩ := h.pending j rfl
      · have hji : j ≠ i := fun heq => hne (congrArg some heq)
        obtain ⟨event, hrun⟩ := hpushing.run
        have hquiet : Quiet (k'' (.ok ())) := by
          refine hwritten.resolve_right fun hleft => ?_
          exact (hothers t (Pool.mem_others.mpr ⟨j, hji, ht⟩)).2 hpushing.head
            (upcoming_of_next hleft.1)
        refine ⟨order ++ [i], some j, h.advance hx hthread (Or.inr ⟨hi, rfl⟩) (fun _ _ => Iff.rfl)
          hnone (.done (by simp) hne (hanswer ▸ hquiet)) ?_
          (h.left hne (fun _ hj => List.mem_append_left _ hj) fun hover => absurd hover hnotOver)⟩
        rw [serial_snoc hx, halone, settled_step hne, hstep]
        have hstores := h.stores
        rw [settled_some ht] at hstores
        rw [show settled { pool with state := pool.state.putSession s' } (some j) =
          (t.2.run (handle t.1) (pool.state.putSession s')).2 from settled_some ht]
        have hpushed : (t.2.run (handle t.1) (pool.state.putSession s')).2.SameStores
            ((pool.state.setBuffer id (pool.state.buffers id ++ [event])).putSession s') :=
          hrun t.1 _
        exact hpushed.trans ((hput ((hrun t.1 _).symm.trans hstores)).trans (hquiet.run c _).symm)
      · exact absurd hover hnotOver

/-- Once the session is over, no execution has a write of it to make. -/
theorem InOrder.writes_none (h : InOrder id xs w₀ pool order pending)
    (hxs : ∀ x ∈ xs, x.On id) (hover : pool.state.OverOrGone id) {j : ℕ}
    {t : Context × UseCase Unit} (ht : pool.threads[j]? = some t) (hne : pending ≠ some j) :
    ¬ t.2.head.any (Op.updates id) := by
  intro hwrites
  obtain ⟨y, hy⟩ : ∃ y, xs[j]? = some y := by
    have hlt := (List.getElem?_eq_some_iff.mp ht).1
    rw [h.length] at hlt
    exact ⟨xs[j], List.getElem?_eq_getElem hlt⟩
  obtain ⟨k', hprogram, hk⟩ := y.reads (hxs y (List.mem_of_getElem? hy))
  have hquiet {p : UseCase Unit} (hp : Quiet p) (hwrites : p.head.any (Op.updates id)) : False := by
    cases p with
    | ret a => cases hwrites
    | raise e => cases hwrites
    | call op k => cases op <;> first | cases hwrites | cases hp.1
  cases (h.stage j y t hy ht).2 with
  | fresh hj hp =>
      rw [hp, hprogram] at hwrites
      cases hwrites
  | read hj hp hread =>
      obtain ⟨k₁, hk₁, heq⟩ := hread
      rw [hprogram] at hk₁
      cases hk₁
      rw [heq] at hwrites
      exact hquiet (quiet_of_over hk hover) hwrites
  | done hj hpending hp => exact hquiet hp hwrites
  | pending hj hpending => exact hne hpending

/-- The pending execution pushes its event, or goes on with the flush of the
game it has ended. -/
theorem InOrder.finish (h : InOrder id xs w₀ pool order (some i)) (hxs : ∀ x ∈ xs, x.On id)
    (hx : xs[i]? = some x) (hthread : pool.threads[i]? = some (c, .call op k)) (hi : i ∈ order) :
    ∃ pending', InOrder id xs w₀ (Pool.step handle pool i) order pending' := by
  have hstep := Pool.step_of_thread (h := handle) hthread
  have hstores := h.stores
  rw [settled_some hthread] at hstores
  obtain ⟨-, t, ht, hleft⟩ := h.pending i rfl
  obtain rfl : (c, Prog.call op k) = t := Option.some.inj (hthread.symm.trans ht)
  rcases hleft with ⟨event, k', heq, hk'⟩ | ⟨hover, hnone⟩
  · cases heq
    refine ⟨none, h.advance hx hthread (Or.inl rfl) (fun j hji => by simp [hji.symm])
      (fun _ _ _ _ _ => rfl) (.done hi (by simp) hk') ?_ (by simp)⟩
    rw [settled_none, hstep]
    exact (hk'.run c _).symm.trans hstores
  · have ht' : (Pool.step handle pool i).threads[i]? = some (c, k (handle c op pool.state).1) := by
      rw [hstep]
      exact Pool.set_self hthread
    refine ⟨some i, h.advance hx hthread (Or.inl rfl) (fun _ _ => Iff.rfl)
      (fun j t hji ht hwrites => ?_) (.pending hi rfl) ?_ fun j hj => ?_⟩
    · exact absurd hwrites (h.writes_none hxs hover ht (by simpa using hji.symm))
    · rw [settled_some ht', hstep]
      exact hstores
    · obtain rfl := Option.some.inj hj
      exact ⟨hi, _, ht', Or.inr ⟨hover.handle hnone.1 c, hnone.2 _⟩⟩

/-- A step of the pool leaves its executions in order. -/
theorem InOrder.step (h : InOrder id xs w₀ pool order pending) (hxs : ∀ x ∈ xs, x.On id)
    (hundisturbed : Undisturbed id pool i) :
    ∃ order' pending', InOrder id xs w₀ (Pool.step handle pool i) order' pending' := by
  rcases Pool.step_cases handle pool i with heq | ⟨c, op, k, hthread, -⟩
  · exact ⟨order, pending, by rwa [heq]⟩
  obtain ⟨x, hx⟩ : ∃ x, xs[i]? = some x := by
    have hlt := (List.getElem?_eq_some_iff.mp hthread).1
    rw [h.length] at hlt
    exact ⟨xs[i], List.getElem?_eq_getElem hlt⟩
  have hon := hxs x (List.mem_of_getElem? hx)
  cases (h.stage i x _ hx hthread).2 with
  | fresh hi hp => exact h.read hx hon hthread hi hp
  | read hi hp hread => exact h.write hx hon hundisturbed hthread hi hp hread
  | done hi hpending hp => exact ⟨order, pending, h.broadcast hx hthread hi hpending hp⟩
  | pending hi hpending =>
      subst hpending
      obtain ⟨pending', hnext⟩ := h.finish hxs hx hthread hi
      exact ⟨order, pending', hnext⟩

end Steps

/-! ## Every interleaving -/

theorem InOrder.init (id : String) (w : World) (xs : List Execution) :
    InOrder id xs w (inFlight id w xs) [] none where
  length := by simp [inFlight]
  nodup := List.nodup_nil
  lt := by simp
  stage i x t hx ht := by
    rw [inFlight, List.getElem?_map, hx] at ht
    obtain rfl := Option.some.inj ht
    exact ⟨rfl, .fresh (by simp) rfl⟩
  stores := .refl w
  pending := by simp

theorem filterMap_range_getElem {α : Type} (xs : List α) :
    (List.range xs.length).filterMap (xs[·]?) = xs := by
  rw [← List.map_coe_finRange_eq_range, List.filterMap_map]
  calc (List.finRange xs.length).filterMap ((xs[·]?) ∘ Fin.val)
      = (List.finRange xs.length).filterMap fun i => some xs[i] :=
        List.filterMap_congr fun i _ => List.getElem?_eq_getElem i.isLt
    _ = (List.finRange xs.length).map (xs[·]) := by rw [List.filterMap_eq_map']
    _ = xs := List.map_getElem_finRange xs

/-- Where every execution has ended, all have taken their place. -/
theorem InOrder.perm {id : String} {xs : List Execution} {w₀ : World} {pool : Executions}
    {order : List ℕ} {pending : Option ℕ} (h : InOrder id xs w₀ pool order pending)
    (hxs : ∀ x ∈ xs, x.On id) (hended : ∀ t ∈ pool.threads, t.2.head = none) :
    (order.filterMap (xs[·]?)).Perm xs := by
  have hall (i : ℕ) (hi : i < xs.length) : i ∈ order := by
    have hx : xs[i]? = some xs[i] := List.getElem?_eq_getElem hi
    have ht := List.getElem?_eq_getElem (h.length ▸ hi)
    have hhead := hended _ (List.mem_of_getElem? ht)
    obtain ⟨k, hprogram, -⟩ := Execution.reads (hxs _ (List.mem_of_getElem? hx))
    cases (h.stage i _ _ hx ht).2 with
    | fresh _ hp =>
        rw [hp, hprogram] at hhead
        cases hhead
    | read _ hp _ =>
        rw [hhead] at hp
        cases hp
    | done hi _ _ => exact hi
    | pending hi _ => exact hi
  have hperm : order.Perm (List.range xs.length) :=
    (List.perm_ext_iff_of_nodup h.nodup List.nodup_range).mpr fun i =>
      ⟨fun hi => List.mem_range.mpr (h.lt i hi), fun hi => hall i (List.mem_range.mp hi)⟩
  exact (hperm.filterMap (xs[·]?)).trans (List.Perm.of_eq (filterMap_range_getElem xs))

/-- Executions on one session, interleaved call by call until all have ended,
leave the stores that they leave one after the other in some order, where each
step writes the session undisturbed. -/
theorem serializable (id : String) (w : World) (xs : List Execution) (hxs : ∀ x ∈ xs, x.On id)
    (schedule : List ℕ)
    (h : Runs.Along (Pool.step handle) (Undisturbed id) (inFlight id w xs) schedule)
    (hended : ∀ t ∈ (schedule.foldl (Pool.step handle) (inFlight id w xs)).threads,
      t.2.head = none) :
    ∃ order : List Execution, order.Perm xs ∧
      (schedule.foldl (Pool.step handle) (inFlight id w xs)).state.SameStores
        (order.foldl (Execution.alone id) w) := by
  obtain ⟨order, pending, hrun⟩ := Runs.invariant
    (I := fun pool => ∃ order pending, InOrder id xs w pool order pending)
    (fun pool i ⟨_, _, hpool⟩ hi => hpool.step hxs hi) ⟨_, _, InOrder.init id w xs⟩ h
  refine ⟨order.filterMap (xs[·]?), hrun.perm hxs hended, ?_⟩
  have hsettled : settled (schedule.foldl (Pool.step handle) (inFlight id w xs)) pending =
      (schedule.foldl (Pool.step handle) (inFlight id w xs)).state := by
    cases pending with
    | none => rfl
    | some i =>
        obtain ⟨-, t, ht, -⟩ := hrun.pending i rfl
        rw [settled_some ht]
        cases hp : t.2 with
        | ret a => rfl
        | raise e => rfl
        | call op k =>
            have hnone := hended t (List.mem_of_getElem? ht)
            rw [hp] at hnone
            cases hnone
  exact hsettled ▸ hrun.stores

/-- A bumper hit on the session, worth 100 points. -/
def bumperHit (id : String) : Execution :=
  .event [.session] none default [] { topic := topicBumperHit,
                                      payload := [("sessionId", .str id), ("points", .int 100)] }

/-- A hit and a pause, which reads and writes the session before the hit is
pushed. -/
theorem serializable_hitAndPause :
    let w := (gameStart [.session] "s").foldl (step "b") {}
    let xs := [bumperHit "s", .command [.session] .pause]
    ∃ order : List Execution, order.Perm xs ∧
      ([0, 0, 1, 1, 0, 0, 1].foldl (Pool.step handle) (inFlight "s" w xs)).state.SameStores
        (order.foldl (Execution.alone "s") w) := by
  intro w xs
  have hxs : ∀ x ∈ xs, x.On "s" := by
    intro x hx
    simp only [xs, List.mem_cons, List.not_mem_nil, or_false] at hx
    rcases hx with rfl | rfl
    · rfl
    · trivial
  exact serializable "s" w xs hxs [0, 0, 1, 1, 0, 0, 1] (by decide +kernel) (by decide +kernel)

/-- A hit that has read the session before a pause writes it sets it playing again: one after
the other, the two leave it paused. -/
theorem hit_undoes_pause :
    let w := (gameStart [.session] "s").foldl (step "b") {}
    let xs := [bumperHit "s", .command [.session] .pause]
    let pool := [0, 1, 1, 0, 1, 0, 0].foldl (Pool.step handle) (inFlight "s" w xs)
    (∀ t ∈ pool.threads, t.2.head = none) ∧
      (pool.state.sessions "s").map Session.status = some .playing ∧
      ∀ order : List Execution, order.Perm xs →
        ((order.foldl (Execution.alone "s") w).sessions "s").map Session.status =
          some .paused := by
  intro w xs pool
  refine ⟨by decide +kernel, by decide +kernel, fun order horder => ?_⟩
  rcases List.perm_pair.mp horder with rfl | rfl <;> decide +kernel

end FlipperBack
