import Mathlib.Data.List.Nodup
import FlipperBack.Properties.Navigation
import FlipperBack.Properties.StatusTable

/-!
# One countdown at a time

A session that is ready has exactly one countdown that has not finished, one in
any other status has none, and the ticks announced since it became ready are
those its countdown has behind it. A relayed score that is a boolean makes the
session unreadable, so that its countdown ends without starting the game: in
every run without one on a ready session, the two stay coupled
(`one_countdown`).
-/

namespace FlipperBack

open Effects Python

/-! ## Countdowns of a session -/

namespace World

/-- The countdowns of a session that have not finished. -/
def tasksOf (w : World) (id : String) : List CountdownTask :=
  w.tasks.filter fun t => t.sessionId == id

theorem mem_tasksOf {w : World} {id : String} {t : CountdownTask} :
    t ∈ w.tasksOf id ↔ t ∈ w.tasks ∧ t.sessionId = id := by
  simp [tasksOf]

theorem tasksOf_act (w : World) (a : Act) (id : String) : (w.act a).tasksOf id =
    match a with
    | .switch via broadcaster s =>
        if via.launches ∧ s.sessionId = id then
          w.tasksOf id ++ [{ id := w.nextTask, broadcaster, sessionId := s.sessionId,
                             remaining := countdownValues }]
        else
          w.tasksOf id
    | .tick t _ remaining => (w.tasksOf id).map fun u => if u.id = t.id then { u with remaining } else u
    | .start t _ => (w.tasksOf id).filter fun u => u.id != t.id
    | .finish t => (w.tasksOf id).filter fun u => u.id != t.id
    | _ => w.tasksOf id := by
  rw [tasksOf, act_tasks]
  cases a with
  | switch via broadcaster s =>
      dsimp only
      by_cases hlaunches : via.launches
      · rw [if_pos hlaunches, List.filter_append]
        by_cases hid : s.sessionId = id
        · rw [if_pos ⟨hlaunches, hid⟩, List.filter_singleton]
          simp [tasksOf, hid]
        · rw [if_neg fun h => hid h.2, List.filter_singleton]
          simp [tasksOf, beq_eq_false_iff_ne.mpr hid]
      · rw [if_neg hlaunches, if_neg fun h => hlaunches h.1]
        rfl
  | tick t value values =>
      dsimp only [sleepTask]
      rw [List.filter_map, tasksOf]
      congr 1
      refine List.filter_congr fun u _ => ?_
      rw [Function.comp_apply]
      split <;> rfl
  | start t s => exact List.filter_comm _ _ _
  | finish t => exact List.filter_comm _ _ _
  | _ => rfl

/-- Task ids are not shared. -/
theorem Sound.eq_of_id {w : World} (h : w.Sound) {t u : CountdownTask} (ht : t ∈ w.tasks)
    (hu : u ∈ w.tasks) (hid : u.id = t.id) : u = t :=
  List.inj_on_of_nodup_map h.tasks_nodup hu ht hid

/-- An act about another session leaves the countdowns of this one. -/
theorem tasksOf_act_of_ne {w : World} (hw : w.Sound) {a : Act} (ha : a.Enabled w) {id : String}
    (hid : a.about ≠ some id) : (w.act a).tasksOf id = w.tasksOf id := by
  have hother {t u : CountdownTask} (ht : w.task? t.id = some t) (hne : t.sessionId ≠ id)
      (hu : u ∈ w.tasksOf id) : u.id ≠ t.id := by
    intro heq
    obtain ⟨hmem, hsession⟩ := mem_tasksOf.mp hu
    exact hne (hw.eq_of_id (mem_of_task ht) hmem heq ▸ hsession)
  rw [tasksOf_act]
  cases a with
  | switch via broadcaster s => exact if_neg fun h => hid (congrArg some h.2)
  | tick t value values =>
      have hne : t.sessionId ≠ id := fun heq => hid (congrArg some heq)
      refine (List.map_congr_left fun u hu => ?_).trans (List.map_id _)
      exact if_neg (hother ha.1 hne hu)
  | start t s =>
      have hne : t.sessionId ≠ id := fun heq => hid (congrArg some heq)
      refine List.filter_eq_self.mpr fun u hu => ?_
      simpa using hother ha.1 hne hu
  | finish t =>
      have hne : t.sessionId ≠ id := fun heq => hid (congrArg some heq)
      refine List.filter_eq_self.mpr fun u hu => ?_
      simpa using hother ha.1 hne hu
  | _ => rfl

end World

/-- The ticks announced for the session `id` since it last became ready, each
with the task it comes from, after one more message. -/
def Emission.tick (id : String) (ticks : List (ℕ × Option ℕ)) : Emission → List (ℕ × Option ℕ)
  | session _ sessionId message _ task =>
      if sessionId = id then
        match message with
        | .matchState .ready _ => []
        | .countdownTick value => ticks ++ [(value, task)]
        | _ => ticks
      else
        ticks
  | borne _ _ => ticks

namespace World

/-- The ticks announced for the session `id` since it last became ready, each
with the task it comes from. -/
def ticks (w : World) (id : String) : List (ℕ × Option ℕ) :=
  w.outbox.foldl (Emission.tick id) []

theorem ticks_act (w : World) (a : Act) (id : String) :
    (w.act a).ticks id = (a.sent w).foldl (Emission.tick id) (w.ticks id) := by
  rw [ticks, act_outbox, List.foldl_append]
  rfl

theorem foldl_tick_of_about {id : String} {sent : List Emission}
    (h : ∀ e ∈ sent, e.about ≠ some id) (ticks : List (ℕ × Option ℕ)) :
    sent.foldl (Emission.tick id) ticks = ticks := by
  induction sent generalizing ticks with
  | nil => rfl
  | cons e sent ih =>
      rw [List.foldl_cons, ih fun e' he' => h e' (List.mem_cons_of_mem e he')]
      cases e with
      | session broadcaster sessionId message stored task =>
          exact if_neg fun heq => h _ List.mem_cons_self (congrArg some heq)
      | borne borneId message => rfl

theorem ticks_act_of_ne {w : World} {a : Act} {id : String} (hid : a.about ≠ some id) :
    (w.act a).ticks id = w.ticks id := by
  rw [ticks_act, foldl_tick_of_about]
  intro e he habout
  exact hid (Act.about_of_mem_sent he habout)

end World

/-- The values of a countdown, as the ticks of the task `k`. -/
def ticksOf (k : ℕ) (values : List ℕ) : List (ℕ × Option ℕ) :=
  values.map fun value => (value, some k)

/-! ## The invariant -/

/-- The countdowns of the session `id` go with its status. -/
structure World.Counted (w : World) (id : String) : Prop where
  ready : ∀ s, w.sessions id = some s → s.status = .ready → s.readable ∧
    ∃ t, w.tasksOf id = [t] ∧ w.ticks id ++ ticksOf t.id t.remaining = ticksOf t.id countdownValues
  other : ∀ s, w.sessions id = some s → s.status ≠ .ready → w.tasksOf id = []
  absent : w.sessions id = none → (w.tasksOf id).length ≤ 1

/-- The act readies a session that is waiting, and makes no ready session
unreadable. -/
def Act.KeepsCountdown : Act → Prop
  | switch .ready _ s => s.status = .waiting
  | score s n => s.status = .ready → n.isInt
  | _ => True

theorem World.Counted.length_le {w : World} {id : String} (h : w.Counted id) :
    (w.tasksOf id).length ≤ 1 := by
  cases hs : w.sessions id with
  | none => exact h.absent hs
  | some s =>
      by_cases hready : s.status = .ready
      · obtain ⟨-, t, ht, -⟩ := h.ready s hs hready
        rw [ht]
        exact le_refl _
      · rw [h.other s hs hready]
        exact Nat.zero_le _

/-- A session that has a countdown and is stored is ready. -/
theorem World.Counted.ready_of_task {w : World} {t : CountdownTask} (h : w.Counted t.sessionId)
    (ht : t ∈ w.tasks) {s : Session} (hs : w.sessions t.sessionId = some s) :
    s.status = .ready ∧ s.readable ∧ w.tasksOf t.sessionId = [t] ∧
      w.ticks t.sessionId ++ ticksOf t.id t.remaining = ticksOf t.id countdownValues := by
  have hmem : t ∈ w.tasksOf t.sessionId := World.mem_tasksOf.mpr ⟨ht, rfl⟩
  by_cases hready : s.status = .ready
  · obtain ⟨hscore, u, hu, hticks⟩ := h.ready s hs hready
    obtain rfl : t = u := List.mem_singleton.mp (hu ▸ hmem)
    exact ⟨hready, hscore, hu, hticks⟩
  · rw [h.other s hs hready] at hmem
    cases hmem

theorem World.Counted.of_eq {w w' : World} {id : String} (h : w.Counted id)
    (hsessions : w'.sessions id = w.sessions id) (htasks : w'.tasksOf id = w.tasksOf id)
    (hticks : w'.ticks id = w.ticks id) : w'.Counted id where
  ready s hs := by
    rw [htasks, hticks]
    exact h.ready s (hsessions ▸ hs)
  other s hs := by
    rw [htasks]
    exact h.other s (hsessions ▸ hs)
  absent hs := by
    rw [htasks]
    exact h.absent (hsessions ▸ hs)

/-- A session without a countdown, in a status that has none. -/
theorem World.Counted.of_not_ready {w : World} {id : String} {s : Session}
    (hs : w.sessions id = some s) (hready : s.status ≠ .ready) (htasks : w.tasksOf id = []) :
    w.Counted id where
  ready s' hs' hready' := by
    rw [hs] at hs'
    exact absurd (Option.some.inj hs' ▸ hready') hready
  other _ _ _ := htasks
  absent hs' := by
    rw [hs] at hs'
    cases hs'

theorem World.Counted.of_absent {w : World} {id : String} (hs : w.sessions id = none)
    (htasks : (w.tasksOf id).length ≤ 1) : w.Counted id where
  ready s hs' _ := by
    rw [hs] at hs'
    cases hs'
  other s hs' _ := by
    rw [hs] at hs'
    cases hs'
  absent _ := htasks

theorem World.Counted.of_ready {w : World} {id : String} {s : Session} {t : CountdownTask}
    (hs : w.sessions id = some s) (hready : s.status = .ready) (hscore : s.readable)
    (htasks : w.tasksOf id = [t])
    (hticks : w.ticks id ++ ticksOf t.id t.remaining = ticksOf t.id countdownValues) :
    w.Counted id where
  ready s' hs' _ := by
    rw [hs] at hs'
    exact ⟨Option.some.inj hs' ▸ hscore, t, htasks, hticks⟩
  other s' hs' hready' := by
    rw [hs] at hs'
    exact absurd (Option.some.inj hs' ▸ hready) hready'
  absent hs' := by
    rw [hs] at hs'
    cases hs'

section Counted

variable {w : World}

theorem World.Counted.seen {id : String} {s : Session} (h : w.Counted id) (hs : w.seen id = some s)
    (hready : s.status ≠ .ready) : w.tasksOf id = [] := by
  obtain ⟨s₀, hs₀, -, rfl⟩ := World.seen_eq_some.mp hs
  exact h.other s₀ hs₀ hready

/-- A command that switches a session to ready finds it without a countdown. -/
theorem counted_switch {via : Switch} {broadcaster : Broadcaster} {s : Session}
    (h : w.Counted s.sessionId) (ha : (Act.switch via broadcaster s).Enabled w)
    (hkeeps : (Act.switch via broadcaster s).KeepsCountdown) :
    (w.act (.switch via broadcaster s)).Counted s.sessionId := by
  obtain ⟨s₀, hs₀, hscore, hs⟩ := World.seen_eq_some.mp ha.1
  have hstored : (w.act (.switch via broadcaster s)).sessions s.sessionId = some (s.to via.target) :=
    World.act_sessions_about ha rfl
  have hready : s.status ≠ .ready := by
    intro heq
    have hallowed := ha.2
    rw [heq] at hallowed
    cases via with
    | ready => exact absurd (heq.symm.trans hkeeps) (by decide)
    | _ => exact absurd hallowed (by decide)
  have hnone := h.seen ha.1 hready
  have htasks := World.tasksOf_act w (.switch via broadcaster s) s.sessionId
  dsimp only at htasks
  by_cases hlaunches : via.launches
  · rw [if_pos ⟨hlaunches, rfl⟩, hnone, List.nil_append] at htasks
    have htarget : via.target = .ready := by
      revert hlaunches
      cases via <;> decide
    refine .of_ready hstored htarget ?_ htasks ?_
    · rw [Session.readable_to, hs]
      exact hscore
    · rw [World.ticks_act, Act.sent, htarget, List.foldl_cons, List.foldl_nil, Emission.tick,
        if_pos rfl]
      rfl
  · rw [if_neg fun h => hlaunches h.1, hnone] at htasks
    have htarget : via.target ≠ .ready := by
      revert hlaunches
      cases via <;> decide
    exact .of_not_ready hstored htarget htasks

/-- A tick is one of the values its countdown had yet to announce. -/
theorem counted_tick {t : CountdownTask} {value : ℕ} {values : List ℕ}
    (h : w.Counted t.sessionId) (ha : (Act.tick t value values).Enabled w) :
    (w.act (.tick t value values)).Counted t.sessionId := by
  have htasks := World.tasksOf_act w (.tick t value values) t.sessionId
  dsimp only at htasks
  cases hs : w.sessions t.sessionId with
  | none =>
      refine .of_absent hs ?_
      rw [htasks, List.length_map]
      exact h.absent hs
  | some s =>
      obtain ⟨hready, hscore, htask, hticks⟩ := h.ready_of_task (World.mem_of_task ha.1) hs
      rw [htask, List.map_singleton, if_pos rfl] at htasks
      refine .of_ready hs hready hscore htasks ?_
      rw [World.ticks_act, Act.sent, List.foldl_cons, List.foldl_nil, Emission.tick, if_pos rfl,
        ← hticks, ha.2]
      simp [ticksOf]

theorem tasksOf_end {t : CountdownTask} {id : String} (htask : w.tasksOf id = [t]) :
    (w.tasksOf id).filter (fun u => u.id != t.id) = [] := by
  rw [htask]
  simp

theorem counted_act {a : Act} {id : String} (h : w.Counted id) (hw : w.Sound) (ha : a.Enabled w)
    (hkeeps : a.KeepsCountdown) : (w.act a).Counted id := by
  by_cases hid : a.about = some id
  · have hstored := World.act_sessions_about ha hid
    have htasks := World.tasksOf_act w a id
    have hticks := World.ticks_act w a id
    cases a with
    | create s =>
        obtain rfl := Option.some.inj hid
        refine .of_not_ready hstored (by rw [ha.2.2.2.2.2]; decide) (htasks.trans ?_)
        refine List.filter_eq_nil_iff.mpr fun t ht heq => ?_
        exact ha.2.1 (eq_of_beq heq ▸ hw.tasks_issued t ht)
    | switch via broadcaster s =>
        obtain rfl := Option.some.inj hid
        exact counted_switch h ha hkeeps
    | event broadcaster now e s s' message =>
        obtain rfl := Option.some.inj hid
        refine .of_not_ready hstored ?_ (htasks.trans (h.seen ha.1 (by rw [ha.2.1]; decide)))
        rcases applyEvent_cases ha.2.2.2.1 with
          ⟨-, points, -, rfl, -⟩ | ⟨-, points, -, rfl, -⟩ | ⟨-, rfl, -⟩ | ⟨-, rfl, -⟩
        · exact ne_of_eq_of_ne ha.2.1 (by decide)
        · exact ne_of_eq_of_ne ha.2.1 (by decide)
        · exact ne_of_eq_of_ne ha.2.1 (by decide)
        · exact fun heq => by cases heq
    | score s n =>
        obtain rfl := Option.some.inj hid
        obtain ⟨s₀, hs₀, -, hs⟩ := World.seen_eq_some.mp ha.1
        have hstatus : s₀.status = s.status := by rw [hs]
        by_cases hready : s.status = .ready
        · obtain ⟨-, t, ht, hsince⟩ := h.ready s₀ hs₀ (hstatus.trans hready)
          have hwritable := (Session.writable_withScore (World.writable_of_seen ha.1) n).trans ha.2
          exact .of_ready hstored hready (Session.readable_of_isInt (hkeeps hready) hwritable)
            (htasks.trans ht) (hticks ▸ hsince)
        · exact .of_not_ready hstored hready (htasks.trans (h.seen ha.1 hready))
    | flush pg clock s ids db => exact .of_absent hstored (htasks ▸ h.length_le)
    | tick t value values =>
        obtain rfl := Option.some.inj hid
        exact counted_tick h ha
    | start t s =>
        obtain rfl := Option.some.inj hid
        obtain ⟨s₀, hs₀, -, -⟩ := World.seen_eq_some.mp ha.2.2.1
        obtain ⟨-, -, htask, -⟩ := h.ready_of_task (World.mem_of_task ha.1) hs₀
        exact .of_not_ready hstored (fun heq => by cases heq) (htasks.trans (tasksOf_end htask))
    | finish t =>
        obtain rfl := Option.some.inj hid
        cases hs : w.sessions t.sessionId with
        | none =>
            refine .of_absent hs (htasks ▸ ?_)
            exact (List.length_filter_le _ _).trans (h.absent hs)
        | some s =>
            obtain ⟨hready, hscore, -⟩ := h.ready_of_task (World.mem_of_task ha.1) hs
            have hnot := ha.2.2 _ (World.seen_of_stored hs hscore)
            exact absurd hready hnot
    | _ => exact h.of_eq hstored htasks hticks
  · exact h.of_eq (World.act_sessions_of_ne ha hid) (World.tasksOf_act_of_ne hw ha hid)
      (World.ticks_act_of_ne hid)

end Counted

/-! ## Requests -/

/-- A ready finds the session waiting, if it finds it. -/
def ReadyOnce (w : World) (e : Event) : Prop :=
  match e.request with
  | .readyUp _ sessionId => ∀ s ∈ w.seen sessionId, s.status = .waiting
  | _ => True

instance (w : World) : (e : Event) → Decidable (ReadyOnce w e)
  | { request := .readyUp _ sessionId, .. } =>
      inferInstanceAs (Decidable (∀ s ∈ w.seen sessionId, s.status = .waiting))
  | { request := .createSession _ _ _, .. } => isTrue trivial
  | { request := .sessionCommand _ _ _, .. } => isTrue trivial
  | { request := .mqtt _ _ _, .. } => isTrue trivial
  | { request := .finish _, .. } => isTrue trivial
  | { request := .intent _ _, .. } => isTrue trivial
  | { request := .matchCommand _, .. } => isTrue trivial
  | { request := .relay _, .. } => isTrue trivial
  | { request := .countdown _, .. } => isTrue trivial

/-- No boolean is relayed as the final score of a ready session. -/
def IntegerScore (borneId : String) (w : World) (e : Event) : Prop :=
  match e.request with
  | .relay event => ∀ n ∈ relayedScore event, ∀ id ∈ (w.borne borneId).activeSessionId,
      ∀ s ∈ w.seen id, s.status = .ready → n.isInt
  | _ => True

instance (borneId : String) (w : World) : (e : Event) → Decidable (IntegerScore borneId w e)
  | { request := .relay event, .. } =>
      inferInstanceAs (Decidable (∀ n ∈ relayedScore event,
        ∀ id ∈ (w.borne borneId).activeSessionId, ∀ s ∈ w.seen id, s.status = .ready → n.isInt))
  | { request := .createSession _ _ _, .. } => isTrue trivial
  | { request := .readyUp _ _, .. } => isTrue trivial
  | { request := .sessionCommand _ _ _, .. } => isTrue trivial
  | { request := .mqtt _ _ _, .. } => isTrue trivial
  | { request := .finish _, .. } => isTrue trivial
  | { request := .intent _ _, .. } => isTrue trivial
  | { request := .matchCommand _, .. } => isTrue trivial
  | { request := .countdown _, .. } => isTrue trivial

section Requests

variable {borneId : String} {w : World} {e : Event}

theorem switch_mem_acts {via : Switch} {broadcaster : Broadcaster} {s : Session}
    (hs : .switch via broadcaster s ∈ switchActs via broadcaster s.sessionId w) :
    w.seen s.sessionId = some s := by
  unfold switchActs at hs
  cases hseen : w.seen s.sessionId with
  | none =>
      rw [hseen] at hs
      cases hs
  | some s' =>
      rw [hseen] at hs
      dsimp only at hs
      split at hs
      · cases List.mem_singleton.mp hs
        rfl
      · cases hs

theorem keepsCountdown_of_mem_acts (hready : ReadyOnce w e) (hscore : IntegerScore borneId w e)
    {a : Act} (ha : a ∈ e.acts borneId w) : a.KeepsCountdown := by
  have hyields := acts_yields ha
  obtain ⟨request, clock, uuid, pg⟩ := e
  cases a with
  | switch via broadcaster s =>
      cases via with
      | ready =>
          cases request with
          | readyUp broadcaster' sessionId =>
              obtain ⟨-, rfl, rfl⟩ := hyields
              exact hready s (switch_mem_acts ha)
          | sessionCommand broadcaster' command sessionId =>
              obtain ⟨hcommand, -⟩ := hyields
              cases command <;> cases hcommand
          | intent action payload => exact hyields.2.2.2
          | matchCommand command =>
              obtain ⟨hcommand, -⟩ := hyields
              cases command <;> cases hcommand
          | mqtt broadcaster' topic payload => exact hyields.elim fun _ h => h.elim
          | relay event => exact hyields.elim fun _ h => h.elim
          | _ => exact hyields.elim
      | _ => trivial
  | score s n =>
      cases request with
      | relay event => exact hscore n hyields.1 s.sessionId hyields.2.1 s hyields.2.2.1
      | mqtt broadcaster topic payload => exact hyields.elim fun _ h => h.elim
      | _ => exact hyields.elim
  | _ => trivial

theorem counted_step {id : String} (h : w.Counted id) (hw : w.Sound) (hfresh : e.Fresh w)
    (hready : ReadyOnce w e) (hscore : IntegerScore borneId w e) :
    (step borneId w e).Counted id := by
  have hstep : (step borneId w e).Sound ∧ (step borneId w e).Counted id :=
    step_invariant (I := fun w => w.Sound ∧ w.Counted id) (C := fun _ a => a.KeepsCountdown)
      (fun w a hI ha hkeeps => ⟨hI.1.act ha, counted_act hI.2 hI.1 ha hkeeps⟩) hfresh ⟨hw, h⟩
      (Runs.along_of_mem (fun a ha => keepsCountdown_of_mem_acts hready hscore ha) w)
  exact hstep.2

/-- A step that starts the game of a ready session is the end of its countdown. -/
theorem ticks_of_start {id : String} (h : w.Counted id) (hw : w.Sound) (hfresh : e.Fresh w)
    (hready : ReadyOnce w e) (hbefore : w.status id = some .ready)
    (hafter : (step borneId w e).status id = some .playing) :
    ∃ k, w.ticks id = ticksOf k countdownValues := by
  obtain ⟨s, hs, hstatus⟩ := Option.map_eq_some_iff.mp hbefore
  have hintime : ReadyInTime w e := by
    obtain ⟨request, clock, uuid, pg⟩ := e
    cases request with
    | readyUp broadcaster sessionId => exact fun s hs => Or.inl (hready s hs)
    | _ => trivial
  rw [step_eq] at hafter
  obtain ⟨a, ha, habout, via, hvia, hrow⟩ := acts_follow hw (acts_enabled hfresh borneId)
    (readied_in_time hfresh (hw.sessions_issued hs) hintime) (countP_moves_acts borneId id w e)
    hbefore hafter (by decide)
  have hcountdown : via = .countdown := by
    revert hrow
    cases via <;> decide
  have hyields := acts_yields ha
  cases a with
  | start t s' =>
      obtain ⟨request, clock, uuid, pg⟩ := e
      cases request with
      | countdown i =>
          obtain ⟨htask, hremaining⟩ := hyields
          obtain rfl := Option.some.inj habout
          obtain ⟨-, -, -, hticks⟩ := h.ready_of_task (World.mem_of_task htask) hs
          rw [hremaining, ticksOf, List.map_nil, List.append_nil] at hticks
          exact ⟨t.id, hticks⟩
      | mqtt broadcaster topic payload => exact hyields.elim fun _ h => h.elim
      | relay event => exact hyields.elim fun _ h => h.elim
      | _ => exact hyields.elim
  | switch via' broadcaster s' =>
      obtain rfl := hcountdown
      cases via' <;> cases hvia
  | event broadcaster now event s' s'' message =>
      subst hcountdown
      rw [Act.via] at hvia
      split at hvia <;> cases hvia
  | _ => cases hvia

end Requests

/-! ## Runs -/

/-- In every run that readies each session once and relays no boolean as the
score of a ready session, a session has one countdown while it is ready and none
in another status, and every game starts after the ticks of a single countdown. -/
theorem one_countdown (borneId : String) (db : Database) (evs : List Event)
    (h : Runs.Along (step borneId)
      (fun w e => e.Fresh w ∧ ReadyOnce w e ∧ IntegerScore borneId w e) { db } evs) (id : String) :
    (∀ s, (evs.foldl (step borneId) { db }).sessions id = some s →
        ((evs.foldl (step borneId) { db }).tasksOf id).length =
          if s.status = .ready then 1 else 0) ∧
      ((evs.foldl (step borneId) { db }).sessions id = none →
        ((evs.foldl (step borneId) { db }).tasksOf id).length ≤ 1) ∧
      Runs.Along (step borneId) (fun w e => w.status id = some .ready →
        (step borneId w e).status id = some .playing →
          ∃ k, w.ticks id = ticksOf k countdownValues) { db } evs := by
  have hinit : World.Counted { db } id := .of_absent rfl (Nat.zero_le _)
  have hstep (w : World) (e : Event) (hw : w.Sound ∧ w.Counted id)
      (he : e.Fresh w ∧ ReadyOnce w e ∧ IntegerScore borneId w e) :
      (step borneId w e).Sound ∧ (step borneId w e).Counted id :=
    ⟨sound_step hw.1 he.1, counted_step hw.2 hw.1 he.1 he.2.1 he.2.2⟩
  obtain ⟨-, hrun⟩ := Runs.invariant (I := fun w => w.Sound ∧ w.Counted id) hstep
    ⟨World.Sound.init db, hinit⟩ h
  refine ⟨fun s hs => ?_, hrun.absent, ?_⟩
  · split
    · next hready =>
        obtain ⟨-, t, ht, -⟩ := hrun.ready s hs hready
        rw [ht]
        rfl
    · next hready =>
        rw [hrun.other s hs hready]
        rfl
  · exact h.imp (I := fun w => w.Sound ∧ w.Counted id) hstep
      (fun w e hw he => ticks_of_start hw.2 hw.1 he.1 he.2.1) ⟨World.Sound.init db, hinit⟩

/-- A game paused and resumed, in its second countdown. -/
theorem one_countdown_resumed :
    let commands : List Event := [{ request := .sessionCommand [.session] .pause "s" },
      { request := .sessionCommand [.session] .resume "s" }, { request := .countdown 1 }]
    let w := (gameStart [.session] "s" ++ commands).foldl (step "b") {}
    ∃ s, w.sessions "s" = some s ∧ s.status = .ready ∧ (w.tasksOf "s").length = 1 := by
  intro commands w
  have hready : (w.sessions "s").map Session.status = some .ready := by decide +kernel
  obtain ⟨s, hs, hready⟩ := Option.map_eq_some_iff.mp hready
  have hcount := (one_countdown "b" {} _ (by decide +kernel) "s").1 s hs
  exact ⟨s, hs, hready, hcount.trans (if_pos hready)⟩

/-- A game of the borne whose end is relayed with a boolean score during its
countdown, and the stretches of it. -/
def booleanScore : List Event :=
  (borneGame "s").take 3 ++
    [{ request := .relay [("type", .str "game:over"), ("finalScore", .bool true)] }] ++
    List.replicate 5 { request := .countdown 0 }

/-- The session is still ready, and its countdown is over. -/
theorem booleanScore_stays_ready :
    let w := booleanScore.foldl (step "b") {}
    Runs.Along (step "b") (fun w e => e.Fresh w ∧ ReadyOnce w e) {} booleanScore ∧
      (w.sessions "s").map Session.status = some .ready ∧ (w.tasksOf "s").length = 0 := by
  decide +kernel

end FlipperBack
