import FlipperBack.System.Invariants

/-!
# The transition table of a session

`allowedTransitions` is the table of the synchronisation protocol: which command
or event leads a session from which status to which other one. Every act but the
ready follows it by its own guard (`act_status`); the ready has no guard, so a
run follows the table exactly when no session that is played, paused or over is
readied (`status_table_iff`).
-/

namespace FlipperBack

open Effects Python

/-! ## The table -/

/-- What a transition goes by. -/
inductive Via
  | ready
  | countdown
  | pause
  | resume
  | abandon
  | gameOver
  deriving DecidableEq, Repr

/-- The table of the protocol. -/
def allowedTransitions : List (SessionStatus × Via × SessionStatus) :=
  [(.waiting, .ready, .ready), (.ready, .countdown, .playing), (.playing, .pause, .paused),
    (.paused, .resume, .ready), (.playing, .abandon, .over), (.paused, .abandon, .over),
    (.playing, .gameOver, .over)]

def MatchCommand.via : MatchCommand → Via
  | pause => .pause
  | resume => .resume
  | abandon => .abandon

/-- The transition a request asks of a session. -/
def Event.via (borneId : String) (w : World) (e : Event) (sessionId : String) : Option Via :=
  match e.request with
  | .readyUp _ id => if id = sessionId then some .ready else none
  | .sessionCommand _ command id => if id = sessionId then some command.via else none
  | .matchCommand command =>
      if (w.borne borneId).activeSessionId = some sessionId then some command.via else none
  | .mqtt _ topic (some (.obj fields)) =>
      if topic = topicGameOver ∧
          MqttEvent.sessionId? { topic, payload := fields } = some sessionId then
        some .gameOver
      else
        none
  | .countdown id =>
      match w.task? id with
      | some t => if t.sessionId = sessionId ∧ t.remaining = [] then some .countdown else none
      | none => none
  | _ => none

/-- The stored status of a session. -/
def World.status (w : World) (sessionId : String) : Option SessionStatus :=
  (w.sessions sessionId).map Session.status

/-- Every change of status in a step is a row of the table for what the request
asks of the session, and a session that is over stays so until it is deleted. -/
structure FollowsTable (borneId : String) (w : World) (e : Event) : Prop where
  row : ∀ sessionId a b, w.status sessionId = some a →
    (step borneId w e).status sessionId = some b → a ≠ b →
      ∃ via, e.via borneId w sessionId = some via ∧ (a, via, b) ∈ allowedTransitions
  stays : ∀ sessionId, w.status sessionId = some .over →
    (step borneId w e).status sessionId = some .over ∨ (step borneId w e).status sessionId = none

/-- A ready finds the session waiting or already ready, if it finds it. -/
def ReadyInTime (w : World) (e : Event) : Prop :=
  match e.request with
  | .readyUp _ sessionId => ∀ s, w.seen sessionId = some s → s.status = .waiting ∨ s.status = .ready
  | _ => True

/-! ## One act -/

def Switch.via : Switch → Via
  | ready => .ready
  | pause => .pause
  | resume => .resume
  | abandon => .abandon

/-- The guard of every command but the ready is a row of the table. -/
theorem Switch.row {via : Switch} {status : SessionStatus} (h : via.allowed status)
    (hready : via = .ready → status = .waiting) :
    (status, via.via, via.target) ∈ allowedTransitions := by
  cases via with
  | ready =>
      rw [hready rfl]
      decide
  | pause =>
      rw [eq_of_beq h]
      decide
  | resume =>
      rw [eq_of_beq h]
      decide
  | abandon =>
      revert h
      cases status <;> decide

/-- What an act asks of its session. -/
def Act.via : Act → Option Via
  | switch via _ _ => some via.via
  | event _ _ e _ _ _ => if e.topic = topicGameOver then some .gameOver else none
  | start _ _ => some .countdown
  | _ => none

theorem World.status_of_seen {w : World} {id : String} {s : Session} (h : w.seen id = some s) :
    w.status id = some s.status := by
  obtain ⟨s₀, hs₀, -, rfl⟩ := World.seen_eq_some.mp h
  rw [World.status, hs₀]
  rfl

theorem World.status_congr {w w' : World} {id : String} (h : w.sessions id = w'.sessions id) :
    w.status id = w'.status id := by
  rw [World.status, World.status, h]

/-- Where readies are in time, an act follows the table. -/
theorem act_follows {w : World} {a : Act} (hw : w.Sound) (ha : a.Enabled w)
    {id : String} (hready : ∀ broadcaster s, a = .switch .ready broadcaster s → s.sessionId = id →
      s.status = .waiting ∨ s.status = .ready) {x y : SessionStatus} (hx : w.status id = some x)
    (hy : (w.act a).status id = some y) (hne : x ≠ y) :
    a.about = some id ∧ ∃ via, a.via = some via ∧ (x, via, y) ∈ allowedTransitions := by
  have habout : a.about = some id := by
    by_contra hid
    rw [World.status_congr (World.act_sessions_of_ne ha hid), hx] at hy
    exact hne (Option.some.inj hy)
  refine ⟨habout, ?_⟩
  rw [World.status, World.act_sessions_about ha habout] at hy
  cases a with
  | create s =>
      obtain rfl := Option.some.inj habout
      obtain ⟨s₀, hs₀, -⟩ := Option.map_eq_some_iff.mp hx
      exact absurd (hw.sessions_issued hs₀) ha.2.1
  | switch via broadcaster s =>
      obtain rfl := Option.some.inj habout
      obtain rfl := Option.some.inj ((World.status_of_seen ha.1).symm.trans hx)
      obtain rfl := Option.some.inj hy
      refine ⟨via.via, rfl, Switch.row ha.2 ?_⟩
      rintro rfl
      rcases hready broadcaster s rfl rfl with h | h
      · exact h
      · exact absurd h hne
  | event broadcaster now e s s' message =>
      obtain rfl := Option.some.inj habout
      obtain rfl := Option.some.inj ((World.status_of_seen ha.1).symm.trans hx)
      obtain rfl := Option.some.inj hy
      rcases applyEvent_cases ha.2.2.2.1 with
        ⟨-, points, -, rfl, -⟩ | ⟨-, points, -, rfl, -⟩ | ⟨-, rfl, -⟩ | ⟨htopic, rfl, -⟩
      · exact absurd rfl hne
      · exact absurd rfl hne
      · exact absurd rfl hne
      · refine ⟨.gameOver, if_pos htopic, ?_⟩
        rw [ha.2.1]
        exact List.mem_of_elem_eq_true rfl
  | flush pg clock s ids db => cases hy
  | start t s =>
      obtain rfl := Option.some.inj habout
      obtain rfl := Option.some.inj ((World.status_of_seen ha.2.2.1).symm.trans hx)
      obtain rfl := Option.some.inj hy
      refine ⟨.countdown, rfl, ?_⟩
      rw [ha.2.2.2]
      exact List.mem_of_elem_eq_true rfl
  | score s n =>
      obtain rfl := Option.some.inj habout
      exact absurd (Option.some.inj (hx.symm.trans ((World.status_of_seen ha.1).trans hy))) hne
  | flushFails pg clock s e db => exact absurd (Option.some.inj (hx.symm.trans hy)) hne
  | tick t value values => exact absurd (Option.some.inj (hx.symm.trans hy)) hne
  | finish t => exact absurd (Option.some.inj (hx.symm.trans hy)) hne
  | openBorne borneId => cases habout
  | nav b => cases habout
  | display borneId message => cases habout

/-! ## One step -/

/-- Whether an act asks a transition of the session `id`. -/
def Act.moves (id : String) (a : Act) : Bool :=
  a.via.isSome && a.about == some id

theorem Act.Closes.via_eq_none {a : Act} {pg : List (Option Bool)} {clock : Clock}
    {sessionId : String} (h : a.Closes pg clock sessionId) : a.via = none := by
  cases a with
  | switch _ _ _ => exact h.elim
  | event _ _ _ _ _ _ => exact h.elim
  | start _ _ => exact h.elim
  | _ => rfl

theorem countP_moves_of_via {acts : List Act} (h : ∀ a ∈ acts, a.via = none) (id : String) :
    acts.countP (Act.moves id) = 0 := by
  rw [List.countP_eq_zero]
  intro a ha
  simp [Act.moves, h a ha]

theorem countP_moves_open (borneId id : String) (w : World) :
    (openActs borneId w).countP (Act.moves id) = 0 :=
  countP_moves_of_via (fun a ha => by rw [mem_openActs ha]; rfl) id

theorem countP_moves_andThen {p q : Plan} {id : String} {w : World}
    (hp : (p w).countP (Act.moves id) ≤ 1) (hq : ∀ w, ∀ a ∈ q w, a.via = none) :
    (p.andThen q w).countP (Act.moves id) ≤ 1 := by
  rw [Plan.andThen, Runs.andThen, List.countP_append, countP_moves_of_via (hq _)]
  exact hp

theorem countP_moves_openThen {q : Plan} {borneId id : String} {w : World}
    (hq : ∀ w, (q w).countP (Act.moves id) ≤ 1) :
    ((openActs borneId).andThen q w).countP (Act.moves id) ≤ 1 := by
  rw [Plan.andThen, Runs.andThen, List.countP_append, countP_moves_open, Nat.zero_add]
  exact hq _

theorem countP_moves_switch (via : Switch) (broadcaster : Broadcaster) (sessionId id : String)
    (w : World) : (switchActs via broadcaster sessionId w).countP (Act.moves id) ≤ 1 := by
  refine List.countP_le_length.trans ?_
  unfold switchActs
  split
  · exact Nat.zero_le _
  · split
    · exact le_refl _
    · exact Nat.zero_le _

theorem countP_moves_startGame (uuid : String) (now : DateTime) (borneId : String)
    (payload : Json) (id : String) (w : World) :
    (startGameActs uuid now borneId payload w).countP (Act.moves id) ≤ 1 := by
  unfold startGameActs
  split
  · split
    · exact Nat.zero_le _
    · split
      · exact Nat.zero_le _
      · rw [List.countP_cons, List.countP_cons]
        exact List.countP_le_length
  · exact Nat.zero_le _

theorem countP_moves_intent (uuid : String) (now : DateTime) (borneId action : String)
    (payload : Json) (id : String) (w : World) :
    (intentActs uuid now borneId action payload w).countP (Act.moves id) ≤ 1 := by
  refine countP_moves_openThen fun w => ?_
  split
  · exact countP_moves_startGame _ _ _ _ _ _
  · split
    · exact Nat.zero_le _
    · exact List.countP_le_length

theorem countP_moves_matchCommand (borneId : String) (command : MatchCommand) (id : String)
    (w : World) : (matchCommandActs borneId command w).countP (Act.moves id) ≤ 1 := by
  refine countP_moves_openThen fun w => ?_
  split
  · exact Nat.zero_le _
  · split
    · refine countP_moves_andThen (countP_moves_switch _ _ _ _ _) fun w a ha => ?_
      rcases mem_markGameOverActs ha with rfl | ⟨b, rfl⟩ <;> rfl
    · exact countP_moves_switch _ _ _ _ _

theorem countP_moves_mqttEvent (pg : List (Option Bool)) (clock : Clock) (borneId : String)
    (broadcaster : Broadcaster) (e : MqttEvent) (id : String) (w : World) :
    (mqttEventActs pg clock borneId broadcaster e w).countP (Act.moves id) ≤ 1 := by
  unfold mqttEventActs
  split
  · exact Nat.zero_le _
  · split
    · exact Nat.zero_le _
    · split
      · split
        · split
          · refine countP_moves_andThen List.countP_le_length fun w a ha => ?_
            -- A game over closes the game of the borne, which is no transition.
            split at ha
            · exact (mem_finishBorneGameActs ha).via_eq_none
            · cases ha
          · exact Nat.zero_le _
        · exact Nat.zero_le _
      · exact Nat.zero_le _

theorem countP_moves_mqtt (pg : List (Option Bool)) (clock : Clock) (borneId : String)
    (broadcaster : Broadcaster) (topic : String) (payload : Option Json) (id : String)
    (w : World) :
    (mqttActs pg clock borneId broadcaster topic payload w).countP (Act.moves id) ≤ 1 := by
  unfold mqttActs
  split
  · split
    · split
      · exact List.countP_le_length
      · exact Nat.zero_le _
    · exact countP_moves_mqttEvent _ _ _ _ _ _ _
  · exact Nat.zero_le _

theorem countP_moves_countdown (taskId : Nat) (id : String) (w : World) :
    (countdownActs taskId w).countP (Act.moves id) ≤ 1 := by
  refine List.countP_le_length.trans ?_
  unfold countdownActs
  split
  · exact Nat.zero_le _
  · split
    · exact le_refl _
    · split
      · exact le_refl _
      · split <;> exact le_refl _

/-- A request asks at most one transition of a session. -/
theorem countP_moves_acts (borneId id : String) (w : World) (e : Event) :
    (e.acts borneId w).countP (Act.moves id) ≤ 1 := by
  obtain ⟨request, clock, uuid, pg⟩ := e
  cases request with
  | createSession pseudo mode roomCode =>
      refine (countP_moves_of_via (fun a ha => ?_) id).le.trans (Nat.zero_le _)
      have hyields := acts_yields ha
      cases a with
      | create s => rfl
      | _ => exact hyields.elim
  | readyUp broadcaster sessionId => exact countP_moves_switch _ _ _ _ _
  | sessionCommand broadcaster command sessionId => exact countP_moves_switch _ _ _ _ _
  | mqtt broadcaster topic payload => exact countP_moves_mqtt _ _ _ _ _ _ _ _
  | finish sessionId =>
      exact (countP_moves_of_via (fun a ha => (mem_flushActs ha).via_eq_none) id).le.trans
        (Nat.zero_le _)
  | intent action payload => exact countP_moves_intent _ _ _ _ _ _ _
  | matchCommand command => exact countP_moves_matchCommand _ _ _ _
  | relay event =>
      refine (countP_moves_of_via (fun a ha => ?_) id).le.trans (Nat.zero_le _)
      rcases mem_relayActs ha with ⟨message, rfl, -⟩ | ⟨s, score, rfl, -⟩ | ⟨sessionId, hcloses, -⟩
      · rfl
      · rfl
      · exact hcloses.via_eq_none
  | countdown id' => exact countP_moves_countdown _ _ _

/-- A run of acts with at most one that asks a transition of a session makes at
most that transition. -/
theorem acts_follow {acts : List Act} {id : String} {w : World} (hw : w.Sound)
    (hacts : Runs.Along World.act (fun w a => a.Enabled w) w acts)
    (hready : ∀ broadcaster s, .switch .ready broadcaster s ∈ acts → s.sessionId = id →
      s.status = .waiting ∨ s.status = .ready)
    (hone : acts.countP (Act.moves id) ≤ 1) {x y : SessionStatus} (hx : w.status id = some x)
    (hy : (acts.foldl World.act w).status id = some y) (hne : x ≠ y) :
    ∃ a ∈ acts, a.about = some id ∧ ∃ via, a.via = some via ∧ (x, via, y) ∈ allowedTransitions := by
  induction acts generalizing w x with
  | nil => exact absurd (Option.some.inj (hx.symm.trans hy)) hne
  | cons a acts ih =>
      have hready' : ∀ broadcaster s, .switch .ready broadcaster s ∈ acts → s.sessionId = id →
          s.status = .waiting ∨ s.status = .ready :=
        fun broadcaster s hs => hready broadcaster s (List.mem_cons_of_mem a hs)
      have hissued : id ∈ w.issued := by
        obtain ⟨s, hs, -⟩ := Option.map_eq_some_iff.mp hx
        exact hw.sessions_issued hs
      rw [List.countP_cons] at hone
      cases hz : (w.act a).status id with
      | none =>
          have habsent := World.Sound.absent_foldl hacts.2 (World.issued_act a hissued)
            (Option.map_eq_none_iff.mp hz)
          rw [List.foldl_cons, World.status, habsent] at hy
          cases hy
      | some z =>
          by_cases hxz : x = z
          · obtain ⟨a', ha', hmove⟩ :=
              ih (hw.act hacts.1) hacts.2 hready' (by omega) (hxz ▸ hz) hy hne
            exact ⟨a', List.mem_cons_of_mem a ha', hmove⟩
          · obtain ⟨habout, via, hvia, hrow⟩ := act_follows hw hacts.1
              (fun broadcaster s ha => hready broadcaster s (ha ▸ List.mem_cons_self)) hx hz hxz
            have hmoves : a.moves id = true := by simp [Act.moves, hvia, habout]
            rw [if_pos hmoves] at hone
            by_cases hzy : z = y
            · exact ⟨a, List.mem_cons_self, habout, via, hvia, hzy ▸ hrow⟩
            · obtain ⟨a', ha', habout', via', hvia', -⟩ :=
                ih (hw.act hacts.1) hacts.2 hready' (by omega) hz hy hzy
              have hpos : 0 < acts.countP (Act.moves id) :=
                List.countP_pos_iff.mpr ⟨a', ha', by simp [Act.moves, hvia', habout']⟩
              omega

/-- The readies of a request are those of sessions in time, or of a new one. -/
theorem readied_in_time {borneId id : String} {w : World} {e : Event} (hfresh : e.Fresh w)
    (hissued : id ∈ w.issued) (hready : ReadyInTime w e) :
    ∀ broadcaster s, .switch .ready broadcaster s ∈ e.acts borneId w → s.sessionId = id →
      s.status = .waiting ∨ s.status = .ready := by
  intro broadcaster s hs hid
  have hyields := acts_yields hs
  obtain ⟨request, clock, uuid, pg⟩ := e
  cases request with
  | readyUp broadcaster' sessionId =>
      change _ ∈ switchActs .ready broadcaster' sessionId w at hs
      unfold switchActs at hs
      split at hs
      · cases hs
      · next s' hseen =>
          split at hs
          · cases List.mem_singleton.mp hs
            exact hready s hseen
          · cases hs
  | sessionCommand broadcaster' command sessionId =>
      have hcommand := hyields.1
      cases command <;> cases hcommand
  | matchCommand command =>
      have hcommand := hyields.1
      cases command <;> cases hcommand
  | intent action payload =>
      have huuid : s.sessionId = uuid := hyields.2.2.1
      exact absurd hissued (hid ▸ huuid ▸ hfresh.2)
  | createSession pseudo mode roomCode => exact hyields.elim
  | mqtt broadcaster' topic payload => exact hyields.elim fun _ h => h.elim
  | finish sessionId => exact hyields.elim
  | relay event => exact hyields.elim fun _ h => h.elim
  | countdown id' => exact hyields.elim

/-- What an act asks of a session is what its request asks of it. -/
theorem event_via {borneId id : String} {w : World} {e : Event} (hfresh : e.Fresh w)
    (hissued : id ∈ w.issued) {a : Act} (ha : a ∈ e.acts borneId w) (habout : a.about = some id)
    {via : Via} (hvia : a.via = some via) : e.via borneId w id = some via := by
  have hyields := acts_yields ha
  have hcommand (command : MatchCommand) : command.toSwitch.via = command.via := by
    cases command <;> rfl
  obtain ⟨request, clock, uuid, pg⟩ := e
  cases request with
  | createSession pseudo mode roomCode =>
      cases a with
      | create s => cases hvia
      | _ => exact hyields.elim
  | readyUp broadcaster sessionId =>
      cases a with
      | switch via' bc s =>
          obtain ⟨rfl, -, rfl⟩ := hyields
          obtain rfl := Option.some.inj habout
          exact (if_pos rfl).trans hvia
      | _ => exact hyields.elim
  | sessionCommand broadcaster command sessionId =>
      cases a with
      | switch via' bc s =>
          obtain ⟨rfl, -, rfl⟩ := hyields
          obtain rfl := Option.some.inj habout
          exact (if_pos rfl).trans (hcommand command ▸ hvia)
      | _ => exact hyields.elim
  | mqtt broadcaster topic payload =>
      cases a with
      | event bc now event s s' message =>
          obtain ⟨-, -, rfl, rfl, hid⟩ := hyields
          obtain rfl := Option.some.inj habout
          simp only [Act.via] at hvia
          split at hvia
          · next htopic => exact (if_pos ⟨htopic, hid⟩).trans hvia
          · cases hvia
      | display _ _ => cases hvia
      | _ => exact hyields.elim fun _ h => absurd hvia (by rw [h.via_eq_none]; exact nofun)
  | finish sessionId => exact absurd hvia (by rw [Act.Closes.via_eq_none hyields]; exact nofun)
  | intent action payload =>
      cases a with
      | switch via' bc s =>
          have huuid : s.sessionId = uuid := hyields.2.2.1
          have hid : uuid = id := huuid.symm.trans (Option.some.inj habout)
          exact absurd hissued (hid ▸ hfresh.2)
      | create s => cases hvia
      | openBorne _ => cases hvia
      | nav _ => cases hvia
      | _ => exact hyields.elim
  | matchCommand command =>
      cases a with
      | switch via' bc s =>
          obtain ⟨rfl, -, hactive⟩ := hyields
          obtain rfl := Option.some.inj habout
          exact (if_pos hactive).trans (hcommand command ▸ hvia)
      | openBorne _ => cases hvia
      | nav _ => cases hvia
      | _ => exact hyields.elim
  | relay event =>
      cases a with
      | score s n => cases hvia
      | display _ _ => cases hvia
      | _ => exact hyields.elim fun _ h => absurd hvia (by rw [h.via_eq_none]; exact nofun)
  | countdown id' =>
      cases a with
      | start t s =>
          obtain ⟨htask, hremaining⟩ := hyields
          obtain rfl := Option.some.inj habout
          unfold Event.via
          dsimp only
          rw [htask]
          exact (if_pos ⟨rfl, hremaining⟩).trans hvia
      | tick _ _ _ => cases hvia
      | finish _ => cases hvia
      | _ => exact hyields.elim

/-- A request that readies in time makes the transition it asks, or none. -/
theorem followsTable_of_readyInTime {borneId : String} {w : World} (hw : w.Sound) {e : Event}
    (hfresh : e.Fresh w) (hready : ReadyInTime w e) : FollowsTable borneId w e := by
  have hrow : ∀ sessionId a b, w.status sessionId = some a →
      (step borneId w e).status sessionId = some b → a ≠ b →
        ∃ via, e.via borneId w sessionId = some via ∧ (a, via, b) ∈ allowedTransitions := by
    intro id x y hx hy hne
    rw [step_eq] at hy
    have hissued : id ∈ w.issued := by
      obtain ⟨s, hs, -⟩ := Option.map_eq_some_iff.mp hx
      exact hw.sessions_issued hs
    obtain ⟨a, ha, habout, via, hvia, hmem⟩ := acts_follow hw (acts_enabled hfresh borneId)
      (readied_in_time hfresh hissued hready) (countP_moves_acts borneId id w e) hx hy hne
    exact ⟨via, event_via hfresh hissued ha habout hvia, hmem⟩
  refine ⟨hrow, ?_⟩
  intro id hover
  cases hy : (step borneId w e).status id with
  | none => exact Or.inr rfl
  | some y =>
      refine Or.inl ?_
      by_contra hne
      obtain ⟨via, -, hmem⟩ := hrow id .over y hover hy fun h => hne (h ▸ rfl)
      revert hmem
      cases via <;> cases y <;> decide

/-- A request that follows the table readies in time. -/
theorem readyInTime_of_followsTable {borneId : String} {w : World} {e : Event}
    (h : FollowsTable borneId w e) : ReadyInTime w e := by
  obtain ⟨request, clock, uuid, pg⟩ := e
  cases request with
  | readyUp broadcaster sessionId =>
      intro s hseen
      obtain rfl := World.seen_sessionId hseen
      by_contra hstatus
      have hafter : (step borneId w
          { request := .readyUp broadcaster s.sessionId, clock, uuid, pg }).status s.sessionId =
            some .ready := by
        have hacts : Event.acts borneId
            { request := .readyUp broadcaster s.sessionId, clock, uuid, pg } w =
              [.switch .ready broadcaster s] := by
          simp only [Event.acts, switchActs, hseen]
          rfl
        rw [step_eq, hacts]
        exact congrArg (Option.map Session.status)
          (World.act_sessions_about (a := .switch .ready broadcaster s) ⟨hseen, rfl⟩ rfl)
      have hne : s.status ≠ .ready := fun heq => hstatus (Or.inr heq)
      obtain ⟨via, hvia, hrow⟩ := h.row _ _ _ (World.status_of_seen hseen) hafter hne
      have hvia : some Via.ready = some via := (if_pos rfl).symm.trans hvia
      obtain rfl := Option.some.inj hvia
      revert hrow hstatus
      cases s.status <;> decide
  | _ => trivial

/-! ## Runs -/

/-- A run follows the table exactly when every ready in it is in time. -/
theorem status_table_iff (borneId : String) (db : Database) (evs : List Event)
    (hfresh : Runs.Along (step borneId) (fun w e => e.Fresh w) { db } evs) :
    Runs.Along (step borneId) (FollowsTable borneId) { db } evs ↔
      Runs.Along (step borneId) ReadyInTime { db } evs := by
  constructor
  · intro h
    exact h.mono fun w e => readyInTime_of_followsTable
  · intro h
    exact Runs.Along.imp (I := World.Sound) (fun w e hw he => sound_step hw he.1)
      (fun w e hw he => followsTable_of_readyInTime hw he.1 he.2) (World.Sound.init db)
      (hfresh.and h)

/-- A game played and abandoned, then readied again. -/
def reopened : List Event :=
  gameStart [.session] "s" ++
    [{ request := .sessionCommand [.session] .abandon "s" },
      { request := .readyUp [.session] "s" }]

theorem status_table_iff_reopened :
    Runs.Along (step "b") (FollowsTable "b") {} reopened ↔
      Runs.Along (step "b") ReadyInTime {} reopened :=
  status_table_iff "b" {} reopened (by decide +kernel)

/-- The game is over before its last request, and ready after it. -/
theorem reopened_leaves_over :
    Runs.Along (step "b") (fun w e => e.Fresh w) {} reopened ∧
      ¬ Runs.Along (step "b") (FollowsTable "b") {} reopened := by
  refine ⟨by decide +kernel, fun h => ?_⟩
  have hlast : FollowsTable "b" ((reopened.take 8).foldl (step "b") {})
      { request := .readyUp [.session] "s" } :=
    ((Runs.along_append _ _ (reopened.take 8) (reopened.drop 8)).mp h).2.1
  rcases hlast.stays "s" (by decide +kernel) with hstatus | hstatus
  · exact absurd hstatus (by decide +kernel)
  · exact absurd hstatus (by decide +kernel)

end FlipperBack
