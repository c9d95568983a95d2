import FlipperBack.System.Refinement

/-!
# Invariants of the application

Each act of a step is enabled where it is done (`acts_enabled`), so what every
enabled act preserves, every run of the application preserves (`run_invariant`).
`World.Sound` is what holds in every state without any condition on the
requests: nothing is kept about a session id that has not been drawn, and the
countdown tasks have ids of their own.
-/

namespace FlipperBack

open Effects Python

/-! ## Every act is enabled -/

/-- An id drawn by `uuid4` is not empty and has not been drawn before. -/
def Event.Fresh (w : World) (e : Event) : Prop :=
  match e.request with
  | .createSession _ _ _ => e.uuid ≠ "" ∧ e.uuid ∉ w.issued
  | .intent _ _ => e.uuid ≠ "" ∧ e.uuid ∉ w.issued
  | _ => True

instance (w : World) : (e : Event) → Decidable (e.Fresh w)
  | { request := .createSession _ _ _, uuid, .. } =>
      inferInstanceAs (Decidable (uuid ≠ "" ∧ uuid ∉ w.issued))
  | { request := .intent _ _, uuid, .. } =>
      inferInstanceAs (Decidable (uuid ≠ "" ∧ uuid ∉ w.issued))
  | { request := .readyUp _ _, .. } => isTrue trivial
  | { request := .sessionCommand _ _ _, .. } => isTrue trivial
  | { request := .mqtt _ _ _, .. } => isTrue trivial
  | { request := .finish _, .. } => isTrue trivial
  | { request := .matchCommand _, .. } => isTrue trivial
  | { request := .relay _, .. } => isTrue trivial
  | { request := .countdown _, .. } => isTrue trivial

/-- Every act of the plan is enabled where it is done. -/
def Plan.Enabled (p : Plan) (w : World) : Prop := Runs.Along World.act Act.Enabled w (p w)

section Enabled

variable {w : World}

theorem Plan.Enabled.andThen {p q : Plan} (hp : p.Enabled w) (hq : ∀ w, q.Enabled w) :
    (p.andThen q).Enabled w :=
  Runs.along_andThen hp hq

theorem enabled_singleton {a : Act} (ha : a.Enabled w) : Runs.Along World.act Act.Enabled w [a] :=
  ⟨ha, trivial⟩

theorem switchActs_enabled (via : Switch) (broadcaster : Broadcaster) (sessionId : String) (w : World) :
    (switchActs via broadcaster sessionId).Enabled w := by
  unfold Plan.Enabled switchActs
  cases hseen : w.seen sessionId with
  | none => trivial
  | some s =>
      obtain rfl := World.seen_sessionId hseen
      dsimp only
      split
      · next hallowed => exact enabled_singleton ⟨hseen, hallowed⟩
      · trivial

theorem openActs_enabled (borneId : String) (w : World) : (openActs borneId).Enabled w := by
  unfold Plan.Enabled openActs
  cases hborne : w.bornes borneId with
  | none => exact enabled_singleton hborne
  | some b => trivial

theorem flushActs_enabled (pg : List (Option Bool)) (clock : Clock) (sessionId : String) (w : World) :
    (flushActs pg clock sessionId).Enabled w := by
  unfold Plan.Enabled flushActs
  cases hseen : w.seen sessionId with
  | none => trivial
  | some s =>
      obtain rfl := World.seen_sessionId hseen
      dsimp only
      split
      · next ids db hpersist => exact enabled_singleton ⟨hseen, hpersist⟩
      · next e db hpersist => exact enabled_singleton ⟨hseen, hpersist⟩

theorem markGameOverActs_enabled (borneId : String) (w : World) :
    (markGameOverActs borneId).Enabled w := by
  refine (openActs_enabled borneId w).andThen fun w => ?_
  unfold Plan.Enabled
  dsimp only
  split
  · exact enabled_singleton trivial
  · trivial

theorem finishBorneGameActs_enabled (pg : List (Option Bool)) (clock : Clock)
    (borneId sessionId : String) (w : World) :
    (finishBorneGameActs pg clock borneId sessionId).Enabled w := by
  refine (openActs_enabled borneId w).andThen fun w => ?_
  unfold Plan.Enabled
  dsimp only
  split
  · exact (markGameOverActs_enabled borneId w).andThen (flushActs_enabled pg clock sessionId)
  · trivial

theorem scoreActs_enabled {sessionId : String} {finalScore : Json} {w : World}
    (h : w.refuses sessionId finalScore = false) : (scoreActs sessionId finalScore).Enabled w := by
  unfold Plan.Enabled scoreActs
  unfold World.refuses at h
  cases hseen : w.seen sessionId with
  | none => trivial
  | some s =>
      obtain rfl := World.seen_sessionId hseen
      cases hscore : finalScore.asPyInt with
      | none => trivial
      | some score =>
          rw [hseen, hscore] at h
          exact enabled_singleton ⟨hseen, (Bool.not_eq_false' _).mp h⟩

theorem finishFromRelayActs_enabled (pg : List (Option Bool)) (clock : Clock) (borneId : String)
    (finalScore : Json) (w : World) :
    (finishFromRelayActs pg clock borneId finalScore).Enabled w := by
  refine (openActs_enabled borneId w).andThen fun w => ?_
  unfold Plan.Enabled
  dsimp only
  cases (w.borne borneId).activeSessionId with
  | none => exact markGameOverActs_enabled borneId w
  | some sessionId =>
      dsimp only
      split
      · trivial
      · next hstops =>
          have hrefuses : w.refuses sessionId finalScore = false := by
            simpa using (Bool.or_eq_false_iff.mp (Bool.not_eq_true _ ▸ hstops)).2
          exact (scoreActs_enabled hrefuses).andThen
            (finishBorneGameActs_enabled pg clock borneId sessionId)

theorem relayActs_enabled (pg : List (Option Bool)) (clock : Clock) (borneId : String)
    (event : Dict) (w : World) : (relayActs pg clock borneId event).Enabled w := by
  unfold Plan.Enabled relayActs
  cases event.get "type" with
  | none => trivial
  | some type =>
      cases type with
      | str type =>
          dsimp only
          split
          · refine Plan.Enabled.andThen (enabled_singleton trivial) fun w => ?_
            unfold Plan.Enabled
            dsimp only
            split
            · exact finishFromRelayActs_enabled _ _ _ _ _
            · trivial
          · trivial
      | _ => trivial

theorem createActs_enabled {uuid : String} (hne : uuid ≠ "") (hnew : uuid ∉ w.issued)
    (now : DateTime) (pseudo : String) (mode : GameMode) (roomCode : Option String) :
    (createActs uuid now pseudo mode roomCode).Enabled w := by
  unfold Plan.Enabled createActs
  cases normalizeAndValidate pseudo with
  | error e => trivial
  | ok pseudo => exact enabled_singleton ⟨hne, hnew, rfl, rfl, rfl, rfl⟩

theorem intentActs_enabled {uuid : String} (hne : uuid ≠ "") (hnew : uuid ∉ w.issued)
    (now : DateTime) (borneId action : String) (payload : Json) :
    (intentActs uuid now borneId action payload).Enabled w := by
  have hopen : ((openActs borneId w).foldl World.act w).issued = w.issued := by
    unfold openActs
    cases w.bornes borneId <;> rfl
  refine (Runs.along_append _ _ _ _).mpr ⟨openActs_enabled borneId w, ?_⟩
  generalize (openActs borneId w).foldl World.act w = w₁ at hopen
  dsimp only
  split
  · unfold startGameActs
    split
    · cases extractPseudo payload with
      | none => trivial
      | some pseudo =>
          dsimp only
          cases normalizeAndValidate pseudo with
          | error e => trivial
          | ok pseudo =>
              refine ⟨⟨hne, hopen ▸ hnew, rfl, rfl, rfl, rfl⟩, trivial, ⟨?_, rfl⟩, trivial⟩
              exact seen_started w₁ (s := newSession uuid now pseudo (extractMode payload) none)
                newSession_readable rfl
    · trivial
  · split
    · trivial
    · exact enabled_singleton trivial

theorem matchCommandActs_enabled (borneId : String) (command : MatchCommand) (w : World) :
    (matchCommandActs borneId command).Enabled w := by
  refine (openActs_enabled borneId w).andThen fun w => ?_
  unfold Plan.Enabled
  dsimp only
  cases (w.borne borneId).activeSessionId with
  | none => trivial
  | some sessionId =>
      dsimp only
      split
      · exact (switchActs_enabled .abandon [.borne] sessionId w).andThen
          (markGameOverActs_enabled borneId)
      · exact switchActs_enabled _ _ _ _

theorem mqttEventActs_enabled (pg : List (Option Bool)) (clock : Clock) (borneId : String)
    (broadcaster : Broadcaster) (e : MqttEvent) (w : World) :
    (mqttEventActs pg clock borneId broadcaster e).Enabled w := by
  unfold Plan.Enabled mqttEventActs
  cases hid : e.sessionId? with
  | none => trivial
  | some sessionId =>
      dsimp only
      cases hseen : w.seen sessionId with
      | none => trivial
      | some s =>
          obtain rfl := World.seen_sessionId hseen
          dsimp only
          split
          · next hplaying =>
              split
              · next message s' happly =>
                  split
                  · next hwritable =>
                      refine Plan.Enabled.andThen
                        (enabled_singleton ⟨hseen, hplaying, hid, happly, hwritable⟩) fun w => ?_
                      unfold Plan.Enabled
                      dsimp only
                      split
                      · exact finishBorneGameActs_enabled _ _ _ _ _
                      · trivial
                  · trivial
              · trivial
          · trivial

theorem mqttActs_enabled (pg : List (Option Bool)) (clock : Clock) (borneId : String)
    (broadcaster : Broadcaster) (topic : String) (payload : Option Json) (w : World) :
    (mqttActs pg clock borneId broadcaster topic payload).Enabled w := by
  unfold Plan.Enabled mqttActs
  split
  · next fields =>
      split
      · cases inputMessage topic fields with
        | none => trivial
        | some message => exact enabled_singleton trivial
      · exact mqttEventActs_enabled _ _ _ _ _ _
  · trivial

theorem countdownActs_enabled (id : ℕ) (w : World) : (countdownActs id).Enabled w := by
  unfold Plan.Enabled countdownActs
  cases htask : w.task? id with
  | none => trivial
  | some t =>
      have hid : t.id = id := by simpa using List.find?_some htask
      rw [← hid] at htask
      dsimp only
      cases hremaining : t.remaining with
      | cons value values => exact enabled_singleton ⟨htask, hremaining⟩
      | nil =>
          cases hseen : w.seen t.sessionId with
          | none => exact enabled_singleton ⟨htask, hremaining, by simp [hseen]⟩
          | some s =>
              dsimp only
              split
              · next hready => exact enabled_singleton ⟨htask, hremaining, hseen, hready⟩
              · next hready =>
                  refine enabled_singleton ⟨htask, hremaining, ?_⟩
                  intro s' hs'
                  rw [hseen] at hs'
                  exact Option.some.inj hs' ▸ hready

theorem acts_enabled {e : Event} (hfresh : e.Fresh w) (borneId : String) :
    (e.acts borneId).Enabled w := by
  obtain ⟨request, clock, uuid, pg⟩ := e
  cases request with
  | createSession pseudo mode roomCode => exact createActs_enabled hfresh.1 hfresh.2 _ _ _ _
  | readyUp broadcaster sessionId => exact switchActs_enabled _ _ _ _
  | sessionCommand broadcaster command sessionId => exact switchActs_enabled _ _ _ _
  | mqtt broadcaster topic payload => exact mqttActs_enabled _ _ _ _ _ _ _
  | finish sessionId => exact flushActs_enabled _ _ _ _
  | intent action payload => exact intentActs_enabled hfresh.1 hfresh.2 _ _ _ _
  | matchCommand command => exact matchCommandActs_enabled _ _ _
  | relay event => exact relayActs_enabled _ _ _ _ _
  | countdown id => exact countdownActs_enabled _ _

end Enabled

/-! ## Invariants -/

section Invariants

variable {borneId : String} {I : World → Prop}

/-- What every enabled act meeting `C` preserves, a step whose acts meet `C`
preserves. -/
theorem step_invariant {C : World → Act → Prop}
    (hact : ∀ w a, I w → a.Enabled w → C w a → I (w.act a)) {w : World} {e : Event}
    (hfresh : e.Fresh w) (hw : I w) (hC : Runs.Along World.act C w (e.acts borneId w)) :
    I (step borneId w e) := by
  have henabled : Runs.Along World.act (fun w a => a.Enabled w) w (e.acts borneId w) :=
    acts_enabled hfresh borneId
  rw [step_eq]
  exact Runs.invariant (fun w a hI ha => hact w a hI ha.1 ha.2) hw (henabled.and hC)

end Invariants

/-! ## What always holds -/

/-- The session a message is about, if it is about one. -/
def Emission.about : Emission → Option String
  | session _ sessionId _ _ _ => some sessionId
  | borne _ _ => none

/-- Everything kept is about session ids that have been drawn, and task ids are
not reused. -/
structure World.Sound (w : World) : Prop where
  issued_ne : "" ∉ w.issued
  sessions_issued : ∀ {id s}, w.sessions id = some s → id ∈ w.issued
  buffers_issued : ∀ {id}, id ∉ w.issued → w.buffers id = []
  tasks_issued : ∀ t ∈ w.tasks, t.sessionId ∈ w.issued
  outbox_issued : ∀ e ∈ w.outbox, ∀ id, e.about = some id → id ∈ w.issued
  persisted_issued : ∀ p ∈ w.persisted, p.sessionId ∈ w.issued
  tasks_lt : ∀ t ∈ w.tasks, t.id < w.nextTask
  tasks_nodup : (w.tasks.map CountdownTask.id).Nodup

/-- The session an act is about, if it is about one. -/
def Act.about : Act → Option String
  | create s => some s.sessionId
  | switch _ _ s => some s.sessionId
  | event _ _ _ s _ _ => some s.sessionId
  | score s _ => some s.sessionId
  | flush _ _ s _ _ => some s.sessionId
  | flushFails _ _ s _ _ => some s.sessionId
  | tick t _ _ => some t.sessionId
  | start t _ => some t.sessionId
  | finish t => some t.sessionId
  | openBorne _ => none
  | nav _ => none
  | display _ _ => none

/-- What an act about the session `id` leaves stored of it. -/
def Act.after (w : World) (id : String) : Act → Option Session
  | create s => some s
  | switch via _ s => some (s.to via.target)
  | event _ _ _ _ s' _ => some s'
  | score s n => some { s with score := n }
  | flush _ _ _ _ _ => none
  | start _ s => some (s.to .playing)
  | _ => w.sessions id

namespace World

/-- An act leaves the other sessions. -/
theorem act_sessions_of_ne {w : World} {a : Act} (ha : a.Enabled w) {id : String}
    (hid : a.about ≠ some id) : (w.act a).sessions id = w.sessions id := by
  have hne : ∀ {id' : String}, a.about = some id' → id ≠ id' := by
    rintro id' h rfl
    exact hid h
  rw [act_sessions]
  cases a with
  | create s => exact w.sessions.get_put_of_ne (hne rfl)
  | switch via broadcaster s => exact w.sessions.get_put_of_ne (hne rfl)
  | event broadcaster now e s s' message =>
      have hs' : s'.sessionId = s.sessionId := applyEvent_sessionId ha.2.2.2.1
      exact w.sessions.get_put_of_ne (hs' ▸ hne rfl)
  | score s score => exact w.sessions.get_put_of_ne (hne rfl)
  | flush pg clock s ids db => exact w.sessions.get_erase_of_ne (hne rfl)
  | start t s =>
      have hs : s.sessionId = t.sessionId := seen_sessionId ha.2.2.1
      exact w.sessions.get_put_of_ne (v := s.to .playing) (hs ▸ hne rfl)
  | _ => rfl

theorem act_sessions_about {w : World} {a : Act} (ha : a.Enabled w) {id : String}
    (hid : a.about = some id) : (w.act a).sessions id = a.after w id := by
  rw [act_sessions]
  cases a with
  | create s =>
      obtain rfl := Option.some.inj hid
      exact w.sessions.get_put_self s
  | switch via broadcaster s =>
      obtain rfl := Option.some.inj hid
      exact w.sessions.get_put_self (s.to via.target)
  | event broadcaster now e s s' message =>
      have hs' : s'.sessionId = id :=
        (applyEvent_sessionId ha.2.2.2.1).trans (Option.some.inj hid)
      subst hs'
      exact w.sessions.get_put_self s'
  | score s score =>
      obtain rfl := Option.some.inj hid
      exact w.sessions.get_put_self { s with score }
  | flush pg clock s ids db =>
      obtain rfl := Option.some.inj hid
      exact w.sessions.get_erase_self _
  | start t s =>
      have hs : s.sessionId = id := (seen_sessionId ha.2.2.1).trans (Option.some.inj hid)
      subst hs
      exact w.sessions.get_put_self (s.to .playing)
  | _ => rfl

/-- Only its creation makes a session appear. -/
theorem absent_act {w : World} {a : Act} (ha : a.Enabled w) {id : String}
    (hcreate : ∀ s, a = .create s → s.sessionId ≠ id) (h : w.sessions id = none) :
    (w.act a).sessions id = none := by
  by_cases hid : a.about = some id
  · rw [act_sessions_about ha hid]
    have hunseen : w.seen id = none := seen_of_absent h
    cases a with
    | create s => exact absurd (Option.some.inj hid) (hcreate s rfl)
    | switch via broadcaster s =>
        rw [← Option.some.inj hid, ha.1] at hunseen
        cases hunseen
    | event broadcaster now e s s' message =>
        rw [← Option.some.inj hid, ha.1] at hunseen
        cases hunseen
    | score s n =>
        rw [← Option.some.inj hid, ha.1] at hunseen
        cases hunseen
    | flush pg clock s ids db => rfl
    | start t s =>
        rw [← Option.some.inj hid, ha.2.2.1] at hunseen
        cases hunseen
    | _ => exact h
  · rw [act_sessions_of_ne ha hid, h]

/-- An act leaves the buffers of the other sessions. -/
theorem act_buffers_of_ne {w : World} {a : Act} {id : String} (hid : a.about ≠ some id) :
    (w.act a).buffers id = w.buffers id := by
  have hne : ∀ {id' : String}, a.about = some id' → id ≠ id' := by
    rintro id' h rfl
    exact hid h
  rw [act_buffers]
  cases a with
  | event broadcaster now e s s' message => exact Function.update_of_ne (hne rfl) _ _
  | flush pg clock s ids db => exact Function.update_of_ne (hne rfl) _ _
  | _ => rfl

theorem issued_act {w : World} (a : Act) {id : String} (hid : id ∈ w.issued) :
    id ∈ (w.act a).issued := by
  rw [act_issued]
  cases a with
  | create s => exact List.mem_append_left _ hid
  | _ => exact hid

theorem nextTask_act {w : World} (a : Act) : w.nextTask ≤ (w.act a).nextTask := by
  rw [act_nextTask]
  cases a with
  | switch via broadcaster s =>
      dsimp only
      split
      · exact Nat.le_succ _
      · exact le_refl _
  | _ => exact le_refl _

/-- A task after an act is one that was there, or the countdown the act has
launched. -/
theorem mem_act_tasks {w : World} {a : Act} {t : CountdownTask} (ht : t ∈ (w.act a).tasks) :
    (∃ t₀ ∈ w.tasks, t₀.id = t.id ∧ t₀.sessionId = t.sessionId ∧
        t₀.broadcaster = t.broadcaster) ∨
      ∃ via broadcaster s, a = .switch via broadcaster s ∧ via.launches = true ∧
        t = { id := w.nextTask, broadcaster, sessionId := s.sessionId,
              remaining := countdownValues } := by
  rw [act_tasks] at ht
  cases a with
  | switch via broadcaster s =>
      dsimp only at ht
      split at ht
      · next hlaunches =>
          rcases List.mem_append.mp ht with ht | ht
          · exact Or.inl ⟨t, ht, rfl, rfl, rfl⟩
          · exact Or.inr ⟨via, broadcaster, s, rfl, hlaunches, List.mem_singleton.mp ht⟩
      · exact Or.inl ⟨t, ht, rfl, rfl, rfl⟩
  | tick t₁ value values =>
      obtain ⟨t₀, ht₀, rfl⟩ := List.mem_map.mp ht
      refine Or.inl ⟨t₀, ht₀, ?_, ?_, ?_⟩ <;> split <;> rfl
  | start t₁ s => exact Or.inl ⟨t, List.mem_of_mem_filter ht, rfl, rfl, rfl⟩
  | finish t₁ => exact Or.inl ⟨t, List.mem_of_mem_filter ht, rfl, rfl, rfl⟩
  | _ => exact Or.inl ⟨t, ht, rfl, rfl, rfl⟩

end World

theorem Act.about_of_mem_sent {w : World} {a : Act} {e : Emission} (he : e ∈ a.sent w)
    {id : String} (hid : e.about = some id) : a.about = some id := by
  cases a with
  | switch via broadcaster s =>
      obtain rfl := List.mem_singleton.mp he
      exact hid
  | event broadcaster now e s s' message =>
      obtain ⟨message, -, rfl⟩ := List.mem_map.mp he
      exact hid
  | tick t value values =>
      obtain rfl := List.mem_singleton.mp he
      exact hid
  | start t s =>
      obtain rfl := List.mem_singleton.mp he
      exact hid
  | nav b =>
      obtain rfl := List.mem_singleton.mp he
      cases hid
  | display borneId message =>
      obtain rfl := List.mem_singleton.mp he
      cases hid
  | _ => cases he

namespace World.Sound

theorem init (db : Database) : World.Sound { db } where
  issued_ne := by simp
  sessions_issued h := by cases h
  buffers_issued _ := rfl
  tasks_issued := by simp
  outbox_issued := by simp
  persisted_issued := by simp
  tasks_lt := by simp
  tasks_nodup := by simp

theorem seen_issued {w : World} (h : w.Sound) {id : String} {s : Session}
    (hseen : w.seen id = some s) : id ∈ w.issued := by
  obtain ⟨s₀, hs₀, -⟩ := World.seen_eq_some.mp hseen
  exact h.sessions_issued hs₀

/-- An act is about a session whose id has been drawn, at the latest by it. -/
theorem about_issued {w : World} {a : Act} (h : w.Sound) (ha : a.Enabled w) {id : String}
    (hid : a.about = some id) : id ∈ (w.act a).issued := by
  cases a with
  | create s =>
      obtain rfl := Option.some.inj hid
      rw [act_issued]
      simp
  | switch via broadcaster s => exact issued_act _ (Option.some.inj hid ▸ h.seen_issued ha.1)
  | event broadcaster now e s s' message =>
      exact issued_act _ (Option.some.inj hid ▸ h.seen_issued ha.1)
  | score s score => exact issued_act _ (Option.some.inj hid ▸ h.seen_issued ha.1)
  | flush pg clock s ids db => exact issued_act _ (Option.some.inj hid ▸ h.seen_issued ha.1)
  | flushFails pg clock s e db => exact issued_act _ (Option.some.inj hid ▸ h.seen_issued ha.1)
  | tick t value values =>
      exact issued_act _ (Option.some.inj hid ▸ h.tasks_issued t (mem_of_task ha.1))
  | start t s => exact issued_act _ (Option.some.inj hid ▸ h.tasks_issued t (mem_of_task ha.1))
  | finish t => exact issued_act _ (Option.some.inj hid ▸ h.tasks_issued t (mem_of_task ha.1))
  | openBorne borneId => cases hid
  | nav b => cases hid
  | display borneId message => cases hid

theorem act {w : World} {a : Act} (h : w.Sound) (ha : a.Enabled w) : (w.act a).Sound where
  issued_ne := by
    rw [act_issued]
    cases a with
    | create s => simpa [h.issued_ne] using ha.1.symm
    | _ => exact h.issued_ne
  sessions_issued {id s} hs := by
    by_cases hid : a.about = some id
    · exact h.about_issued ha hid
    · rw [act_sessions_of_ne ha hid] at hs
      exact issued_act a (h.sessions_issued hs)
  buffers_issued {id} hid := by
    have hne : a.about ≠ some id := fun hid' => hid (h.about_issued ha hid')
    rw [act_buffers_of_ne hne]
    exact h.buffers_issued fun hid' => hid (issued_act a hid')
  tasks_issued t ht := by
    rcases mem_act_tasks ht with ⟨t₀, ht₀, -, hid, -⟩ | ⟨via, broadcaster, s, rfl, -, rfl⟩
    · exact issued_act a (hid ▸ h.tasks_issued t₀ ht₀)
    · exact h.about_issued ha rfl
  outbox_issued e he id hid := by
    rw [act_outbox] at he
    rcases List.mem_append.mp he with he | he
    · exact issued_act a (h.outbox_issued e he id hid)
    · exact h.about_issued ha ((Act.about_of_mem_sent he hid))
  persisted_issued p hp := by
    rw [act_persisted] at hp
    cases a with
    | flush pg clock s ids db =>
        rcases List.mem_append.mp hp with hp | hp
        · exact issued_act _ (h.persisted_issued p hp)
        · obtain rfl := List.mem_singleton.mp hp
          exact h.about_issued ha rfl
    | flushFails pg clock s e db =>
        rcases List.mem_append.mp hp with hp | hp
        · exact issued_act _ (h.persisted_issued p hp)
        · obtain rfl := List.mem_singleton.mp hp
          exact h.about_issued ha rfl
    | _ => exact issued_act _ (h.persisted_issued p hp)
  tasks_lt t ht := by
    rcases mem_act_tasks ht with ⟨t₀, ht₀, hid, -⟩ | ⟨via, broadcaster, s, rfl, hlaunches, rfl⟩
    · exact hid ▸ (h.tasks_lt t₀ ht₀).trans_le (nextTask_act a)
    · rw [act_nextTask]
      dsimp only
      rw [if_pos hlaunches]
      exact Nat.lt_succ_self _
  tasks_nodup := by
    rw [act_tasks]
    cases a with
    | switch via broadcaster s =>
        dsimp only
        split
        · rw [List.map_append, List.nodup_append]
          refine ⟨h.tasks_nodup, by simp, ?_⟩
          intro id hid id' hid'
          obtain ⟨t, ht, rfl⟩ := List.mem_map.mp hid
          have hlt := h.tasks_lt t ht
          have hid' : id' = w.nextTask := by simpa using hid'
          omega
        · exact h.tasks_nodup
    | tick t value values =>
        have hids : (w.sleepTask t.id values).tasks.map CountdownTask.id =
            w.tasks.map CountdownTask.id := by
          rw [sleepTask, List.map_map]
          refine List.map_congr_left fun t' _ => ?_
          dsimp only [Function.comp]
          split <;> rfl
        exact hids ▸ h.tasks_nodup
    | start t s => exact h.tasks_nodup.sublist (List.filter_sublist.map _)
    | finish t => exact h.tasks_nodup.sublist (List.filter_sublist.map _)
    | _ => exact h.tasks_nodup

/-- A session that has been deleted does not come back. -/
theorem absent_foldl {w : World} {acts : List Act} {id : String}
    (hacts : Runs.Along World.act (fun w a => a.Enabled w) w acts) (hissued : id ∈ w.issued)
    (h : w.sessions id = none) : (acts.foldl World.act w).sessions id = none := by
  refine (Runs.invariant (I := fun w => id ∈ w.issued ∧ w.sessions id = none) ?_
    ⟨hissued, h⟩ hacts).2
  intro w a hw ha
  refine ⟨issued_act a hw.1, absent_act ha ?_ hw.2⟩
  rintro s rfl rfl
  exact ha.2.1 hw.1

end World.Sound

theorem sound_step {borneId : String} {w : World} (h : w.Sound) {e : Event} (hfresh : e.Fresh w) :
    (step borneId w e).Sound :=
  step_invariant (C := fun _ _ => True) (fun _ _ hw ha _ => hw.act ha) hfresh h
    (Runs.along_of_forall (fun _ _ => trivial) _ _)

/-- What every enabled act of a kind preserves, every run whose requests lead to
acts of that kind preserves. -/
theorem run_invariant {borneId : String} {I : World → Prop} {P : Act → Prop}
    {D : World → Event → Prop} (hact : ∀ w a, w.Sound → I w → a.Enabled w → P a → I (w.act a))
    (hD : ∀ w e, D w e → ∀ a ∈ e.acts borneId w, P a) {w : World} (hsound : w.Sound) (hw : I w)
    {evs : List Event}
    (hevs : Runs.Along (step borneId) (fun w e => e.Fresh w ∧ D w e) w evs) :
    (evs.foldl (step borneId) w).Sound ∧ I (evs.foldl (step borneId) w) := by
  refine Runs.invariant (I := fun w => w.Sound ∧ I w) (fun w e hI he => ?_) ⟨hsound, hw⟩ hevs
  exact step_invariant (I := fun w => w.Sound ∧ I w) (C := fun _ a => P a)
    (fun w a hI ha hP => ⟨hI.1.act ha, hact w a hI.1 hI.2 ha hP⟩) he.1 hI
    (Runs.along_of_mem (hD w e he.2) w)

theorem sound_run {borneId : String} {w : World} (h : w.Sound) {evs : List Event}
    (hfresh : Runs.Along (step borneId) (fun w e => e.Fresh w) w evs) :
    (evs.foldl (step borneId) w).Sound :=
  Runs.invariant (I := World.Sound) (fun _ _ hw he => sound_step hw he) h hfresh

/-! ## The acts of a whole run -/

/-- The acts of the requests of a run, one after the other. -/
def allActs (borneId : String) : World → List Event → List Act
  | _, [] => []
  | w, e :: evs => e.acts borneId w ++ allActs borneId (step borneId w e) evs

theorem foldl_allActs (borneId : String) (w : World) (evs : List Event) :
    (allActs borneId w evs).foldl World.act w = evs.foldl (step borneId) w := by
  induction evs generalizing w with
  | nil => rfl
  | cons e evs ih => rw [allActs, List.foldl_append, ← step_eq, ih, List.foldl_cons]

theorem allActs_enabled {borneId : String} {w : World} {evs : List Event}
    (hfresh : Runs.Along (step borneId) (fun w e => e.Fresh w) w evs) :
    Runs.Along World.act (fun w a => a.Enabled w) w (allActs borneId w evs) := by
  induction evs generalizing w with
  | nil => trivial
  | cons e evs ih =>
      refine (Runs.along_append _ _ _ _).mpr ⟨acts_enabled hfresh.1 borneId, ?_⟩
      rw [← step_eq]
      exact ih hfresh.2

/-- The acts of a run whose requests all lead to acts of a kind. -/
theorem mem_allActs {borneId : String} {w : World} {P : Act → Prop} {D : World → Event → Prop}
    (hD : ∀ w e, D w e → ∀ a ∈ e.acts borneId w, P a) {evs : List Event}
    (hevs : Runs.Along (step borneId) D w evs) : ∀ a ∈ allActs borneId w evs, P a := by
  induction evs generalizing w with
  | nil => simp [allActs]
  | cons e evs ih =>
      intro a ha
      rw [allActs, List.mem_append] at ha
      rcases ha with ha | ha
      · exact hD w e hevs.1 a ha
      · exact ih hevs.2 a ha

/-- The requests that bring a session to its game, for runs on fixed inputs. -/
def gameStart (broadcaster : Broadcaster) (uuid : String) : List Event :=
  [{ request := .createSession "abc" .solo none, uuid },
    { request := .readyUp broadcaster uuid }, { request := .countdown 0 },
    { request := .countdown 0 }, { request := .countdown 0 }, { request := .countdown 0 },
    { request := .countdown 0 }]

/-- The intents that start a game on the borne, the stretches of its countdown
and its abandon. -/
def borneGame (uuid : String) : List Event :=
  [{ request := .intent "PRESS_A" .null, uuid := "1" },
    { request := .intent "START_GAME" .null, uuid := "2" },
    { request := .intent playersValidated (.obj [("pseudo", .str "abc")]), uuid },
    { request := .countdown 0 }, { request := .countdown 0 }, { request := .countdown 0 },
    { request := .countdown 0 }, { request := .countdown 0 },
    { request := .matchCommand .abandon }]

/-- The message of a sensor about a session. -/
def sensorEvent (broadcaster : Broadcaster) (topic uuid : String) (points : Int) : Event :=
  { request := .mqtt broadcaster topic
      (some (.obj [("sessionId", .str uuid), ("points", .int points)])) }

end FlipperBack
