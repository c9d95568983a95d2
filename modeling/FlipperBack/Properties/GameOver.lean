import FlipperBack.Properties.FlushContent
import FlipperBack.Properties.Navigation

/-!
# The end of a game on the borne

Whenever the borne shows the end of a game, its session should be over or gone,
and stay so. Two requests can bring the end of a game without ending its
session: an abandon before the game has started, and a relayed end of a game
whose flush fails. In every run without them, the two stores stay in step
(`gameOver_ended`).
-/

namespace FlipperBack

open Effects Python

/-! ## Sessions that have ended -/

/-- The session is over, or it is not stored. -/
def World.Ended (w : World) (sessionId : String) : Prop :=
  ∀ s, w.sessions sessionId = some s → s.status = .over

theorem World.ended_of_absent {w : World} {id : String} (h : w.sessions id = none) : w.Ended id := by
  intro s hs
  rw [h] at hs
  cases hs

theorem World.ended_of_stored {w : World} {id : String} {s : Session}
    (h : w.sessions id = some s) (hover : s.status = .over) : w.Ended id := by
  intro s' hs'
  rw [h] at hs'
  rw [← Option.some.inj hs', hover]

theorem World.Ended.seen {w : World} {id : String} (h : w.Ended id) {s : Session}
    (hs : w.seen id = some s) : s.status = .over := by
  obtain ⟨s₀, hs₀, -, rfl⟩ := World.seen_eq_some.mp hs
  exact h s₀ hs₀

theorem Switch.eq_ready_of_allowed_over {via : Switch} (h : via.allowed .over) : via = .ready := by
  revert h
  cases via <;> decide

/-- Only a ready makes a session that has ended go on. -/
theorem ended_act {w : World} {a : Act} {id : String} (h : w.Ended id) (hissued : id ∈ w.issued)
    (ha : a.Enabled w) (hready : ∀ broadcaster s, a = .switch .ready broadcaster s → s.sessionId ≠ id) :
    (w.act a).Ended id := by
  by_cases hid : a.about = some id
  · intro s hs
    rw [World.act_sessions_about ha hid] at hs
    cases a with
    | create s₀ =>
        obtain rfl := Option.some.inj hid
        exact absurd hissued ha.2.1
    | switch via broadcaster s₀ =>
        obtain rfl := Option.some.inj hid
        have hallowed := ha.2
        rw [h.seen ha.1] at hallowed
        obtain rfl := Switch.eq_ready_of_allowed_over hallowed
        exact absurd rfl (hready broadcaster s₀ rfl)
    | event broadcaster now e s₀ s' message =>
        obtain rfl := Option.some.inj hid
        exact absurd (ha.2.1.symm.trans (h.seen ha.1)) (by decide)
    | score s₀ n =>
        obtain rfl := Option.some.inj hs
        obtain rfl := Option.some.inj hid
        exact h.seen (s := s₀) ha.1
    | flush pg clock s₀ ids db => cases hs
    | start t s₀ =>
        obtain rfl := Option.some.inj hid
        exact absurd (ha.2.2.2.symm.trans (h.seen ha.2.2.1)) (by decide)
    | _ => exact h s hs
  · intro s hs
    rw [World.act_sessions_of_ne ha hid] at hs
    exact h s hs

theorem ended_foldl {w : World} {acts : List Act} {id : String} (h : w.Ended id)
    (hissued : id ∈ w.issued)
    (hacts : Runs.Along World.act (fun w a => a.Enabled w) w acts)
    (hready : ∀ broadcaster s, .switch .ready broadcaster s ∈ acts → s.sessionId ≠ id) :
    (acts.foldl World.act w).Ended id := by
  refine (Runs.invariant (I := fun w => id ∈ w.issued ∧ w.Ended id)
    (C := fun w a => a.Enabled w ∧ a ∈ acts) (fun w a hw ha => ?_) ⟨hissued, h⟩
    (hacts.and (Runs.along_of_mem (fun a ha => ha) w))).2
  exact ⟨World.issued_act a hw.1, ended_act hw.2 hw.1 ha.1 fun broadcaster s heq =>
    hready broadcaster s (heq ▸ ha.2)⟩

theorem not_ready_of_closes {acts : List Act} {pg : List (Option Bool)} {clock : Clock}
    {sessionId : String} (h : ∀ a ∈ acts, a.Closes pg clock sessionId) {broadcaster : Broadcaster}
    {s : Session} (hs : .switch .ready broadcaster s ∈ acts) (id : String) : s.sessionId ≠ id :=
  (h _ hs).elim

/-! ## The requests of the borne -/

/-- The requests of the channel of the borne: its intents and commands, the
events of the playfield and of the sensors, and the stretches of countdowns. -/
def OnBorneChannel (e : Event) : Prop :=
  match e.request with
  | .intent _ _ => True
  | .matchCommand _ => True
  | .relay _ => True
  | .mqtt _ _ _ => True
  | .countdown _ => True
  | _ => False

instance : (e : Event) → Decidable (OnBorneChannel e)
  | { request := .intent _ _, .. } => isTrue trivial
  | { request := .matchCommand _, .. } => isTrue trivial
  | { request := .relay _, .. } => isTrue trivial
  | { request := .mqtt _ _ _, .. } => isTrue trivial
  | { request := .countdown _, .. } => isTrue trivial
  | { request := .createSession _ _ _, .. } => isFalse id
  | { request := .readyUp _ _, .. } => isFalse id
  | { request := .sessionCommand _ _ _, .. } => isFalse id
  | { request := .finish _, .. } => isFalse id

/-- On the channel of the borne, a session is readied when it is created. -/
theorem not_ready_of_onBorneChannel {borneId : String} {w : World} {e : Event} {id : String}
    (h : OnBorneChannel e) (hfresh : e.Fresh w) (hissued : id ∈ w.issued) {broadcaster : Broadcaster}
    {s : Session} (hs : .switch .ready broadcaster s ∈ e.acts borneId w) : s.sessionId ≠ id := by
  have hyields := acts_yields hs
  obtain ⟨request, clock, uuid, pg⟩ := e
  cases request with
  | intent action payload =>
      rintro rfl
      exact hfresh.2 (hyields.2.2.1 ▸ hissued)
  | matchCommand command => cases command <;> cases hyields.1
  | mqtt broadcaster topic payload => exact hyields.elim fun _ hcloses => hcloses.elim
  | relay event => exact hyields.elim fun _ hcloses => hcloses.elim
  | countdown id => exact hyields.elim
  | _ => exact h.elim

theorem ended_step {borneId : String} {w : World} {e : Event} {id : String} (h : w.Ended id)
    (hissued : id ∈ w.issued) (hfresh : e.Fresh w) (hchannel : OnBorneChannel e) :
    (step borneId w e).Ended id := by
  rw [step_eq]
  exact ended_foldl h hissued (acts_enabled hfresh borneId) fun _ _ hs =>
    not_ready_of_onBorneChannel hchannel hfresh hissued hs

/-- No statement of the flush fails, and the score and the points of the session
fit their columns. -/
def Flushable (pg : List (Option Bool)) (utcnow : DateTime) (score : PyInt) (events : List Dict) :
    Prop :=
  (∀ x ∈ pg, x = none) ∧ score.isInt ∧ fitsInteger score.val ∧
    (buildEventRows utcnow events).toOption.any fun rows => rows.all fun row =>
      fitsInteger row.points

instance (pg : List (Option Bool)) (utcnow : DateTime) (score : PyInt) (events : List Dict) :
    Decidable (Flushable pg utcnow score events) :=
  inferInstanceAs (Decidable (_ ∧ _ ∧ _ ∧ _))

/-- Whether a relayed event is the end of a game. -/
def isGameOver (event : Dict) : Bool :=
  match event.get "type" with
  | some (.str type) => type == "game:over"
  | _ => false

/-- Where the request ends the game on the borne, it ends its session `s`: a game
that is abandoned has started, and a relayed end of a game that is not over can
be flushed. -/
def Event.Ends (w : World) (e : Event) (s : Session) : Prop :=
  match e.request with
  | .matchCommand .abandon => s.status ≠ .waiting ∧ s.status ≠ .ready
  | .relay event => isGameOver event → s.status ≠ .over →
      Flushable e.pg e.clock.utcnow ((relayedScore event).getD s.score) (w.buffers s.sessionId)
  | _ => True

instance (w : World) (s : Session) : (e : Event) → Decidable (e.Ends w s)
  | { request := .matchCommand .abandon, .. } => inferInstanceAs (Decidable (_ ∧ _))
  | { request := .relay event, clock, pg, .. } =>
      inferInstanceAs (Decidable (isGameOver event → s.status ≠ .over →
        Flushable pg clock.utcnow ((relayedScore event).getD s.score) (w.buffers s.sessionId)))
  | { request := .matchCommand .pause, .. } => isTrue trivial
  | { request := .matchCommand .resume, .. } => isTrue trivial
  | { request := .createSession _ _ _, .. } => isTrue trivial
  | { request := .readyUp _ _, .. } => isTrue trivial
  | { request := .sessionCommand _ _ _, .. } => isTrue trivial
  | { request := .mqtt _ _ _, .. } => isTrue trivial
  | { request := .finish _, .. } => isTrue trivial
  | { request := .intent _ _, .. } => isTrue trivial
  | { request := .countdown _, .. } => isTrue trivial

/-- The session a game on the borne is played in, where it can be read. -/
def World.played (w : World) (borneId : String) : Option Session :=
  if (w.borne borneId).nav = .inGame then (w.borne borneId).activeSessionId.bind w.seen else none

/-- The request ends the session of the game on the borne, if it ends the game. -/
def EndsSession (borneId : String) (w : World) (e : Event) : Prop :=
  ∀ s ∈ w.played borneId, e.Ends w s

instance (borneId : String) (w : World) (e : Event) : Decidable (EndsSession borneId w e) :=
  inferInstanceAs (Decidable (∀ s ∈ w.played borneId, e.Ends w s))

/-! ## The end of a game ends its session -/

section Ending

variable {w : World} {b : Borne} {borneId id sessionId : String} {pg : List (Option Bool)}
  {clock : Clock}

/-- Acts about no session leave the sessions and their buffers. -/
theorem foldl_of_about {acts : List Act} (h : ∀ a ∈ acts, a.about = none) (w : World) :
    (acts.foldl World.act w).sessions = w.sessions ∧
      (acts.foldl World.act w).buffers = w.buffers := by
  induction acts generalizing w with
  | nil => exact ⟨rfl, rfl⟩
  | cons a acts ih =>
      obtain ⟨hsessions, hbuffers⟩ := ih (fun a' ha' => h a' (List.mem_cons_of_mem a ha')) (w.act a)
      have habout := h a List.mem_cons_self
      rw [List.foldl_cons, hsessions, hbuffers, World.act_sessions, World.act_buffers]
      cases a with
      | openBorne _ => exact ⟨rfl, rfl⟩
      | nav _ => exact ⟨rfl, rfl⟩
      | display _ _ => exact ⟨rfl, rfl⟩
      | _ => cases habout

theorem foldl_openActs (borneId : String) (w : World) :
    ((openActs borneId w).foldl World.act w).sessions = w.sessions ∧
      ((openActs borneId w).foldl World.act w).buffers = w.buffers :=
  foldl_of_about (fun a ha => by rw [mem_openActs ha]; rfl) w

theorem foldl_markGameOverActs (borneId : String) (w : World) :
    ((markGameOverActs borneId w).foldl World.act w).sessions = w.sessions ∧
      ((markGameOverActs borneId w).foldl World.act w).buffers = w.buffers := by
  refine foldl_of_about (fun a ha => ?_) w
  rcases mem_markGameOverActs ha with rfl | ⟨b, rfl⟩ <;> rfl

/-- A session that can be flushed is gone after it. -/
theorem ended_flush {s : Session} (hseen : w.seen id = some s)
    (h : Flushable pg clock.utcnow s.score (w.buffers id)) :
    ((flushActs pg clock id w).foldl World.act w).Ended id := by
  obtain ⟨hpg, -, hscore, hpoints⟩ := h
  cases hbuild : buildEventRows clock.utcnow (w.buffers id) with
  | error e =>
      rw [hbuild] at hpoints
      cases hpoints
  | ok rows =>
      rw [hbuild] at hpoints
      have hrows : ∀ row ∈ rows, fitsInteger row.points := by
        simpa [Except.toOption] using hpoints
      obtain ⟨ids, hids⟩ := persist_of_fits (s := s.finished clock (w.buffers id)) hpg hbuild
        hscore hrows w.db
      obtain rfl := World.seen_sessionId hseen
      rw [flushActs, hseen]
      obtain ⟨r, db, hpersist⟩ : ∃ r db, persist pg clock.utcnow
        (s.finished clock (w.buffers s.sessionId)) w.db = (r, db) := ⟨_, _, rfl⟩
      rw [hpersist] at hids
      obtain rfl : r = .ok ids := hids
      dsimp only
      rw [hpersist]
      exact World.ended_of_absent (w.sessions.get_erase_self s.sessionId)

theorem active_of_nav_mem (hb : .nav b ∈ finishBorneGameActs pg clock borneId sessionId w) :
    (w.borne borneId).activeSessionId = some sessionId := by
  rcases mem_andThen hb with hb | ⟨w', rfl, hb⟩
  · cases mem_openActs hb
  · rw [borne_openActs] at hb
    split at hb
    · next hactive => exact hactive
    · cases hb

/-- The end of a game on the borne, where its session can be flushed. -/
theorem ended_finishBorneGameActs {s : Session} (hseen : w.seen id = some s)
    (hactive : (w.borne borneId).activeSessionId = some id)
    (h : Flushable pg clock.utcnow s.score (w.buffers id)) :
    ((finishBorneGameActs pg clock borneId id w).foldl World.act w).Ended id := by
  obtain ⟨hsessions, hbuffers⟩ := foldl_openActs borneId w
  rw [finishBorneGameActs, foldl_andThen, borne_openActs, if_pos hactive, foldl_andThen]
  generalize (openActs borneId w).foldl World.act w = w₁ at hsessions hbuffers
  obtain ⟨hsessions₁, hbuffers₁⟩ := foldl_markGameOverActs borneId w₁
  refine ended_flush (s := s) ?_ ?_
  · exact (World.seen_congr (by rw [hsessions₁, hsessions])).trans hseen
  · rw [hbuffers₁, hbuffers]
    exact h

/-- A session that can be read and is not seen is absent. -/
theorem absent_of_readable (hread : w.unreadable id = false) (hseen : w.seen id = none) :
    w.sessions id = none := by
  have hread := unreadable_eq_false hread
  rw [hseen, World.readSession_eq] at hread
  cases hstored : w.sessions id with
  | none => rfl
  | some s =>
      rw [hstored] at hread
      dsimp only at hread
      cases hs : s.readBack with
      | ok s' =>
          rw [hs] at hread
          cases hread
      | error e =>
          rw [hs] at hread
          cases hread

/-- An abandon of a game that has started ends its session. -/
theorem ended_abandon {broadcaster : Broadcaster} (hread : w.unreadable id = false)
    (h : ∀ s, w.seen id = some s → s.status ≠ .waiting ∧ s.status ≠ .ready) :
    ((switchActs .abandon broadcaster id w).foldl World.act w).Ended id := by
  unfold switchActs
  cases hseen : w.seen id with
  | none => exact World.ended_of_absent (absent_of_readable hread hseen)
  | some s =>
      obtain ⟨hwaiting, hready⟩ := h s hseen
      obtain rfl := World.seen_sessionId hseen
      dsimp only
      split
      · exact World.ended_of_stored (w.sessions.get_put_self (s.to .over)) rfl
      · next hallowed =>
          obtain ⟨s₀, hs₀, -, rfl⟩ := World.seen_eq_some.mp hseen
          refine World.ended_of_stored hs₀ ?_
          revert hwaiting hready hallowed
          change s₀.status ≠ _ → s₀.status ≠ _ → ¬ Switch.abandon.allowed s₀.status → _
          cases s₀.status <;> decide

/-- The end of a game relayed with a score, where its session can be flushed with
that score. -/
theorem ended_finishFromRelayActs {finalScore : Json}
    (hb : .nav b ∈ finishFromRelayActs pg clock borneId finalScore w)
    (hactive : (w.borne borneId).activeSessionId = some id) (hended : ¬ w.Ended id)
    (h : ∀ s, w.seen id = some s →
      Flushable pg clock.utcnow (finalScore.asPyInt.getD s.score) (w.buffers id)) :
    ((finishFromRelayActs pg clock borneId finalScore w).foldl World.act w).Ended id := by
  obtain ⟨hsessions, hbuffers⟩ := foldl_openActs borneId w
  have hborne := borne_openActs w borneId
  rw [finishFromRelayActs, foldl_andThen]
  rcases mem_andThen hb with hb | ⟨w₁, hw₁, hb⟩
  · cases mem_openActs hb
  · rw [← hw₁] at hsessions hbuffers hborne ⊢
    rw [hborne, hactive] at hb ⊢
    dsimp only at hb ⊢
    by_cases hstops : (w₁.unreadable id || w₁.refuses id finalScore) = true
    · rw [if_pos hstops] at hb
      cases hb
    · have hread := (Bool.or_eq_false_iff.mp (Bool.not_eq_true _ ▸ hstops)).1
      rw [if_neg hstops, foldl_andThen]
      cases hseen : w₁.seen id with
      | none =>
          refine absurd (World.ended_of_absent ?_) hended
          rw [← hsessions]
          exact absent_of_readable hread hseen
      | some s =>
          have hflush := h s (by rw [← hseen, World.seen_congr (by rw [hsessions])])
          obtain rfl := World.seen_sessionId hseen
          unfold scoreActs
          rw [hseen]
          cases hscore : finalScore.asPyInt with
          | none =>
              rw [hscore] at hflush
              exact ended_finishBorneGameActs hseen (hborne ▸ hactive) (hbuffers ▸ hflush)
          | some n =>
              rw [hscore] at hflush
              have hwritable := (Session.writable_withScore (World.writable_of_seen hseen) n).trans
                (fitsStr_of_fitsInteger hflush.2.2.1)
              have hput := World.seen_of_stored (w := w₁.putSession { s with score := n })
                (w₁.sessions.get_put_self { s with score := n })
                (Session.readable_of_isInt hflush.2.1 hwritable)
              exact ended_finishBorneGameActs hput (hborne ▸ hactive) (hbuffers ▸ hflush)

/-- A relayed end of a game whose session can be flushed ends it. -/
theorem ended_relayActs {event : Dict} (hb : .nav b ∈ relayActs pg clock borneId event w)
    (hactive : (w.borne borneId).activeSessionId = some id) (hended : ¬ w.Ended id)
    (h : ∀ s, w.seen id = some s → isGameOver event →
      Flushable pg clock.utcnow ((relayedScore event).getD s.score) (w.buffers id)) :
    ((relayActs pg clock borneId event w).foldl World.act w).Ended id := by
  unfold relayedScore isGameOver at h
  unfold relayActs at hb ⊢
  split at hb
  · next type htype =>
    rw [htype] at h
    split at hb
    · next hrelayable =>
      rw [if_pos hrelayable, foldl_andThen]
      rcases mem_andThen hb with hb | ⟨w₁, rfl, hb⟩
      · cases List.mem_singleton.mp hb
      · split at hb
        · next hover =>
          rw [if_pos hover]
          dsimp only at h
          rw [if_pos hover] at h
          exact ended_finishFromRelayActs hb hactive hended fun s hs => h s hs (by simp [hover])
        · cases hb
    · cases hb
  · cases hb

/-- The end of a game announced by a sensor ends its session. -/
theorem ended_mqttActs {broadcaster : Broadcaster} {topic : String} {payload : Option Json}
    (hb : .nav b ∈ mqttActs pg clock borneId broadcaster topic payload w) (hw : w.Sound)
    (hactive : (w.borne borneId).activeSessionId = some id) :
    ((mqttActs pg clock borneId broadcaster topic payload w).foldl World.act w).Ended id := by
  unfold mqttActs at hb ⊢
  split at hb
  · split at hb
    · split at hb
      · cases List.mem_singleton.mp hb
      · cases hb
    · next hinput =>
      rw [if_neg hinput]
      unfold mqttEventActs at hb ⊢
      split at hb
      · cases hb
      · next sessionId hid =>
        split at hb
        · cases hb
        · next s hseen =>
          obtain rfl := World.seen_sessionId hseen
          dsimp only at hb ⊢
          split at hb
          · next hplaying =>
            rw [if_pos hplaying]
            split at hb
            · next message s' happly =>
              split at hb
              · next hwritable =>
                rw [if_pos hwritable, foldl_andThen]
                rcases mem_andThen hb with hb | ⟨w₁, rfl, hb⟩
                · cases List.mem_singleton.mp hb
                · split at hb
                  · next hover =>
                    rw [if_pos hover]
                    obtain rfl : s.sessionId = id :=
                      Option.some.inj ((active_of_nav_mem hb).symm.trans hactive)
                    have hs' : s'.sessionId = s.sessionId := applyEvent_sessionId happly
                    have hstatus : s'.status = .over := applyEvent_gameOver happly hover
                    refine ended_foldl ?_ (hw.seen_issued hseen)
                      (finishBorneGameActs_enabled _ _ _ _ _)
                      (fun _ _ hs => not_ready_of_closes (fun _ => mem_finishBorneGameActs) hs _)
                    exact World.ended_of_stored (hs' ▸ w.sessions.get_put_self s') hstatus
                  · cases hb
              · cases hb
            · cases hb
          · cases hb
  · cases hb

/-- The end of a game by an abandon ends its session. -/
theorem ended_matchCommandActs {command : MatchCommand}
    (hb : .nav b ∈ matchCommandActs borneId command w)
    (hactive : (w.borne borneId).activeSessionId = some id)
    (h : ∀ s, w.seen id = some s → command = .abandon → s.status ≠ .waiting ∧ s.status ≠ .ready) :
    ((matchCommandActs borneId command w).foldl World.act w).Ended id := by
  obtain ⟨hsessions, -⟩ := foldl_openActs borneId w
  have hborne := borne_openActs w borneId
  rw [matchCommandActs, foldl_andThen]
  rcases mem_andThen hb with hb | ⟨w₁, hw₁, hb⟩
  · cases mem_openActs hb
  · rw [← hw₁] at hsessions hborne ⊢
    rw [hborne, hactive] at hb ⊢
    dsimp only at hb ⊢
    split at hb
    · next habandon =>
      have hended : ((switchActs .abandon [.borne] id w₁).foldl World.act w₁).Ended id :=
        ended_abandon habandon.2 fun s hs =>
          h s ((World.seen_congr (by rw [hsessions])).trans hs) habandon.1
      rw [if_pos habandon, foldl_andThen]
      intro s hs
      rw [(foldl_markGameOverActs borneId _).1] at hs
      exact hended s hs
    · obtain ⟨s, hs, -⟩ := mem_switchActs hb
      cases hs

end Ending

/-! ## Steps -/

/-- The session of a game that is over on the borne has ended, and the session
of the borne has been created. -/
structure World.InStep (w : World) (borneId : String) : Prop where
  ended : (w.borne borneId).nav = .gameOver → ∀ id, (w.borne borneId).activeSessionId = some id →
    w.Ended id
  issued : ∀ id, (w.borne borneId).activeSessionId = some id → id ∈ w.issued

theorem issued_foldl {acts : List Act} {w : World} {id : String}
    (h : id ∈ w.issued ∨ ∃ s, .create s ∈ acts ∧ s.sessionId = id) :
    id ∈ (acts.foldl World.act w).issued := by
  induction acts generalizing w with
  | nil => exact h.resolve_right fun ⟨s, hs, _⟩ => by cases hs
  | cons a acts ih =>
      rw [List.foldl_cons]
      rcases h with h | ⟨s, hs, hid⟩
      · exact ih (Or.inl (World.issued_act a h))
      · rcases List.mem_cons.mp hs with rfl | hs
        · exact ih (Or.inl (hid ▸ List.mem_append_right _ (List.mem_singleton.mpr rfl)))
        · exact ih (Or.inr ⟨s, hs, hid⟩)

section Steps

variable {borneId : String} {w : World} {e : Event}

/-- A request that brings the end of a game on the borne ends its session. -/
theorem ended_of_gameOver {b : Borne} {id : String} (hw : w.Sound)
    (hends : EndsSession borneId w e) (hb : .nav b ∈ e.acts borneId w)
    (hrequest : ∀ action payload, e.request ≠ .intent action payload)
    (hnav : (w.borne borneId).nav = .inGame) (hactive : (w.borne borneId).activeSessionId = some id)
    (hended : ¬ w.Ended id) : ((e.acts borneId w).foldl World.act w).Ended id := by
  have hplayed {s : Session} (hs : w.seen id = some s) : e.Ends w s := by
    refine hends s ?_
    rw [World.played, if_pos hnav, hactive]
    exact hs
  have hyields := acts_yields hb
  obtain ⟨request, clock, uuid, pg⟩ := e
  cases request with
  | intent action payload => exact absurd rfl (hrequest action payload)
  | mqtt broadcaster topic payload => exact ended_mqttActs hb hw hactive
  | relay event =>
      refine ended_relayActs hb hactive hended fun s hs hover => ?_
      obtain rfl := World.seen_sessionId hs
      refine hplayed hs hover fun hstatus => hended ?_
      obtain ⟨s₀, hs₀, -, heq⟩ := World.seen_eq_some.mp hs
      refine World.ended_of_stored hs₀ ?_
      rw [← hstatus, heq]
  | matchCommand command =>
      refine ended_matchCommandActs hb hactive fun s hs hcommand => ?_
      subst hcommand
      exact hplayed hs
  | finish sessionId => exact absurd hb nav_not_mem_flushActs
  | _ => exact hyields.elim

theorem inStep_step (h : w.InStep borneId) (hw : w.Sound) (hfresh : e.Fresh w)
    (hchannel : OnBorneChannel e) (hends : EndsSession borneId w e) :
    (step borneId w e).InStep borneId := by
  have hkept {id : String} (hended : w.Ended id) (hissued : id ∈ w.issued) :
      (step borneId w e).Ended id := ended_step hended hissued hfresh hchannel
  rw [step_eq] at hkept ⊢
  rcases World.borne_foldl (acts_enabled hfresh borneId) borneId with heq | ⟨b, hb, heq⟩
  · constructor
    · rw [heq]
      exact fun hnav id hactive => hkept (h.ended hnav id hactive) (h.issued id hactive)
    · rw [heq]
      exact fun id hactive => issued_foldl (Or.inl (h.issued id hactive))
  · have hmoved := moved_of_mem_acts hb
    rw [hmoved.readBack hfresh] at heq
    cases hmoved with
    | gameOver hrequest hnav =>
        constructor
        · rw [heq]
          intro _ id hactive
          by_cases hended : w.Ended id
          · exact hkept hended (h.issued id hactive)
          · exact ended_of_gameOver hw hends hb hrequest hnav hactive hended
        · rw [heq]
          exact fun id hactive => issued_foldl (Or.inl (h.issued id hactive))
    | @intent action payload target hrequest htarget =>
        have hgame := (nextNavState_cases htarget).1
        constructor
        · rw [heq]
          intro hnav
          obtain rfl : target = .gameOver := hnav
          cases hgame
        · rw [heq]
          intro id hactive
          refine issued_foldl (Or.inl (h.issued id ?_))
          unfold Borne.movedTo at hactive
          dsimp only at hactive
          split at hactive
          · cases hactive
          · exact hactive
    | started hrequest hnav hcreate =>
        constructor
        · rw [heq]
          intro hnav'
          cases hnav'
        · rw [heq]
          intro id hactive
          obtain rfl := Option.some.inj hactive
          exact issued_foldl (Or.inr hcreate)

end Steps

/-! ## Runs -/

theorem inStep_run {borneId : String} {w : World} {evs : List Event} (hw : w.Sound)
    (h : w.InStep borneId)
    (hevs : Runs.Along (step borneId)
      (fun w e => e.Fresh w ∧ OnBorneChannel e ∧ EndsSession borneId w e) w evs) :
    (evs.foldl (step borneId) w).Sound ∧ (evs.foldl (step borneId) w).InStep borneId :=
  Runs.invariant (I := fun w => w.Sound ∧ w.InStep borneId)
    (fun _ _ hw he => ⟨sound_step hw.1 he.1, inStep_step hw.2 hw.1 he.1 he.2.1 he.2.2⟩) ⟨hw, h⟩ hevs

theorem accepted_of_ended {w : World} {id : String} (h : w.Ended id) (e : Event) :
    e.accepted w id = none := by
  have hplaying : (w.seen id).map Session.status ≠ some .playing := by
    intro heq
    obtain ⟨s, hs, hstatus⟩ := Option.map_eq_some_iff.mp heq
    exact absurd ((h.seen hs).symm.trans hstatus) (by decide)
  unfold Event.accepted
  split
  · exact if_neg fun hcond => hplaying hcond.2.1
  · rfl

/-- Once a session has ended it stays so, and accepts nothing. -/
theorem ended_run {borneId id : String} {w : World} {evs : List Event} (h : w.Ended id)
    (hissued : id ∈ w.issued)
    (hevs : Runs.Along (step borneId) (fun w e => e.Fresh w ∧ OnBorneChannel e) w evs) :
    (evs.foldl (step borneId) w).Ended id ∧ acceptedEvents borneId id w evs = [] := by
  induction evs generalizing w with
  | nil => exact ⟨h, rfl⟩
  | cons e evs ih =>
      obtain ⟨hended, hnone⟩ := ih (ended_step h hissued hevs.1.1 hevs.1.2)
        (by rw [step_eq]; exact issued_foldl (Or.inl hissued)) hevs.2
      refine ⟨hended, ?_⟩
      rw [acceptedEvents, hnone, accepted_of_ended h]
      rfl

/-- In every run on the channel of the borne whose requests end the session of
the game they end, the session of a game that is over on the borne has ended, and
does not go on later. -/
theorem gameOver_ended (borneId : String) (db : Database) (evs later : List Event)
    (h : Runs.Along (step borneId)
      (fun w e => e.Fresh w ∧ OnBorneChannel e ∧ EndsSession borneId w e) { db } (evs ++ later))
    (id : String) (hnav : ((evs.foldl (step borneId) { db }).borne borneId).nav = .gameOver)
    (hactive : ((evs.foldl (step borneId) { db }).borne borneId).activeSessionId = some id) :
    (evs.foldl (step borneId) { db }).Ended id ∧
      ((evs ++ later).foldl (step borneId) { db }).Ended id ∧
      acceptedEvents borneId id (evs.foldl (step borneId) { db }) later = [] := by
  obtain ⟨hevs, hlater⟩ := (Runs.along_append _ _ evs later).mp h
  have hinit : World.InStep { db } borneId :=
    { ended := fun hnav => absurd (show BorneNavState.splash = .gameOver from hnav) (by decide)
      issued := fun _ hactive => by cases hactive }
  obtain ⟨-, hinStep⟩ := inStep_run (World.Sound.init db) hinit hevs
  have hended := hinStep.ended hnav id hactive
  obtain ⟨hafter, hnone⟩ := ended_run hended (hinStep.issued id hactive)
    (hlater.mono fun w e he => ⟨he.1, he.2.1⟩)
  rw [List.foldl_append]
  exact ⟨hended, hafter, hnone⟩

/-- A game that is abandoned once it has started, then a bumper hit. -/
theorem gameOver_ended_abandoned :
    let w := (borneGame "s").foldl (step "b") {}
    (w.borne "b").nav = .gameOver ∧ w.Ended "s" ∧
      acceptedEvents "b" "s" w [sensorEvent [.borne] topicBumperHit "s" 100] = [] := by
  intro w
  have hnav : (w.borne "b").nav = .gameOver := by decide +kernel
  have hended := gameOver_ended "b" {} (borneGame "s")
    [sensorEvent [.borne] topicBumperHit "s" 100] (by decide +kernel) "s" hnav (by decide +kernel)
  exact ⟨hnav, hended.1, hended.2.2⟩

/-- A game that is abandoned during its countdown, and the stretches of it. -/
def abandonedEarly : List Event :=
  (borneGame "s").take 3 ++ [{ request := .matchCommand .abandon }] ++
    List.replicate 5 { request := .countdown 0 }

/-- The borne shows the end of a game that is being played. -/
theorem abandonedEarly_playing :
    let w := abandonedEarly.foldl (step "b") {}
    Runs.Along (step "b") (fun w e => e.Fresh w ∧ OnBorneChannel e) {} abandonedEarly ∧
      (w.borne "b").nav = .gameOver ∧ (w.borne "b").activeSessionId = some "s" ∧
      ¬ w.Ended "s" := by
  intro w
  refine ⟨by decide +kernel, by decide +kernel, by decide +kernel, fun h => ?_⟩
  have hplaying : (w.seen "s").map Session.status = some .playing := by decide +kernel
  obtain ⟨s, hs, hstatus⟩ := Option.map_eq_some_iff.mp hplaying
  exact absurd ((h.seen hs).symm.trans hstatus) (by decide)

end FlipperBack
