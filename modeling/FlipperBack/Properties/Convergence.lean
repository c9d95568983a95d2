import FlipperBack.System.Rests
import FlipperBack.System.Screens

/-!
# What the screens show once all is quiet

A screen is sent what was read of the borne before, and a broadcast says what its
execution has written: both are overtaken by an update that another execution
makes in between. Where the borne is updated only while no other execution has a
`nav:state` to send, every screen shows, once no execution is in progress, the
navigation that is stored (`screens_converge`).
-/

namespace FlipperBack

open Effects Python

namespace ScreenOp

def updatesBorne : ScreenOp → Bool
  | app (.borneUpdate _) => true
  | _ => false

/-- A broadcast of the navigation, or the snapshot of a socket. -/
def sendsNavState : ScreenOp → Bool
  | app (.broadcastToBorne _ (.navState _ _)) => true
  | sendNavState _ _ => true
  | _ => false

end ScreenOp

/-- The borne is updated only while no other execution has a `nav:state` to send
next. -/
def NavSentFirst (pool : ScreenExecutions) (i : ℕ) : Prop :=
  (pool.next i).any ScreenOp.updatesBorne →
    ∀ t ∈ pool.others i, ¬ t.2.head.any ScreenOp.sendsNavState

instance (pool : ScreenExecutions) (i : ℕ) : Decidable (NavSentFirst pool i) :=
  inferInstanceAs (Decidable (_ → _))

/-! ## The course of an announcement -/

/-- What an execution has to do about the navigation. -/
inductive NavPhase
  | free
  /-- It has nothing to do with the navigation. -/
  | apart
  /-- It has updated the borne, and has it to broadcast. -/
  | owes (state : NavState)
  /-- It has added a screen to the hub, and has the borne to read. -/
  | joined (screen : ℕ)
  /-- It has read the borne, and has it to send to the screen. -/
  | holds (screen : ℕ) (state : NavState)

/-- The phases in which there is nothing to send. -/
def NavPhase.AtRest (q : NavPhase) : Prop := q = free ∨ q = apart

def navProtocol (borneId : String) : Protocol Exc ScreenOp.Res NavPhase where
  allowed
    | .free, .app (.borneUpdate b) => b.borneId = borneId ∧ b.activeSessionId ≠ some ""
    | .free, op => op.sendsNavState = false
    | .apart, .app op => op.isPlain = true ∨ op.tells = true
    | .apart, _ => False
    | .owes state, op => op = .app (.broadcastToBorne borneId (.navState state.1 state.2))
    | .joined _, op => op = .app (.borneGetOrCreate borneId)
    | .holds screen state, op => op = .sendNavState screen state
  answers
    | .app (.sessionGet _), _ => True
    | .app (.sessionCreate _), _ => True
    | .app (.sessionUpdate _), _ => True
    | .app (.gamePersistFinishedSession _ _ _), _ => True
    | .app (.borneGetOrCreate borneId'), r =>
        ∃ b, r = .ok b ∧ b.borneId = borneId' ∧ b.activeSessionId ≠ some ""
    | _, r => ∃ a, r = .ok a
  next
    | .free, .app (.borneUpdate b), _, q' => q' = .owes (b.nav, b.activeSessionId)
    | .free, .addClient screen, _, q' => q' = .joined screen
    | .joined screen, .app (.borneGetOrCreate _), r, q' =>
        ∃ b, r = .ok b ∧ q' = .holds screen (b.nav, b.activeSessionId)
    | .apart, _, _, q' => q' = .apart
    | _, _, _, q' => q' = .free

/-- The protocol, of the calls of the application. -/
def appNavProtocol (borneId : String) : Protocol Exc Op.Res NavPhase where
  allowed q op := (navProtocol borneId).allowed q (.app op)
  answers op := (navProtocol borneId).answers (.app op)
  next q op := (navProtocol borneId).next q (.app op)

theorem display_answers (borneId : String) (c : Context) (op : ScreenOp) (d : Displays) :
    (navProtocol borneId).answers op (display borneId c op d).1 := by
  cases op with
  | app op =>
      cases op with
      | sessionGet sessionId => trivial
      | sessionCreate s => trivial
      | sessionUpdate s => trivial
      | gamePersistFinishedSession sessionId utcnow finished => trivial
      | borneGetOrCreate borneId' =>
          exact ⟨_, d.world.readBorne_eq borneId', d.world.borneId_borne borneId',
            d.world.activeSessionId_borne borneId'⟩
      | _ => exact ⟨_, rfl⟩
  | _ => exact ⟨_, rfl⟩

section Programs

variable {borneId : String}

theorem appNav_leaves_plain (op : Op) (h : op.isPlain = true) :
    (appNavProtocol borneId).Leaves .free op := by
  cases op with
  | broadcastToBorne borneId' message =>
      cases message with
      | navState nav sessionId => cases h
      | _ => exact ⟨rfl, fun _ _ => rfl⟩
  | _ => first | exact ⟨rfl, fun _ _ => rfl⟩ | cases h

theorem appNav_leaves_plain_apart (op : Op) (h : op.isPlain = true) :
    (appNavProtocol borneId).Leaves .apart op :=
  ⟨Or.inl h, fun _ _ => rfl⟩

theorem appNav_leaves_tell (broadcaster : Broadcaster) (id : String) (message : SessionMessage) :
    (appNavProtocol borneId).Leaves .free (.broadcastToSession broadcaster id message) :=
  ⟨rfl, fun _ _ => rfl⟩

theorem nav_broadcastNav {borne : Borne} (hid : borne.borneId = borneId) :
    (broadcastNav borne).Follows (appNavProtocol borneId) (· = .free) (· = .free)
      (.owes (borne.nav, borne.activeSessionId)) := by
  subst hid
  exact ⟨rfl, fun r _ => ⟨.free, rfl, Prog.Rests.ofExcept r⟩⟩

/-- An execution that updates the borne has it to broadcast. -/
theorem nav_update {borne : Borne} (hid : borne.borneId = borneId)
    (hactive : borne.activeSessionId ≠ some "") {f : Unit → UseCase Unit}
    (hf : (f ()).Follows (appNavProtocol borneId) (· = .free) (· = .free)
      (.owes (borne.nav, borne.activeSessionId))) :
    Prog.Rests (appNavProtocol borneId) .free (await (.borneUpdate borne) >>= f) :=
  Prog.Follows.perform_bind ⟨hid, hactive⟩ (fun _ _ => ⟨_, rfl, hf⟩) fun _ h => nomatch h

theorem nav_markGameOver : Prog.Rests (appNavProtocol borneId) .free (markGameOver borneId) := by
  refine Prog.Follows.perform_bind rfl (fun borne hborne => ⟨.free, rfl, ?_⟩)
    fun _ h => ⟨.free, rfl, rfl⟩
  obtain ⟨b, hb, hid, hactive⟩ := hborne
  obtain rfl := Except.ok.inj hb
  split
  · refine nav_update ?_ ?_ (nav_broadcastNav ?_)
    · exact hid
    · exact hactive
    · exact hid
  · rfl

theorem nav_launch (startCountdown : Option Broadcaster) (sessionId : String) :
    Prog.Rests (appNavProtocol borneId) .free (launch startCountdown sessionId) := by
  cases startCountdown with
  | none => rfl
  | some broadcaster => exact .perform ⟨rfl, fun _ _ => rfl⟩

theorem nav_createSession (uuid : String) (now : DateTime) (pseudo : String) (mode : GameMode)
    (roomCode : Option String) :
    Prog.Rests (appNavProtocol borneId) .free (createSession uuid now pseudo mode roomCode) :=
  .bind (.ofExcept _) fun _ => .bind (.perform ⟨rfl, fun _ _ => rfl⟩) fun _ => rfl

theorem nav_startGame {uuid : String} (huuid : uuid ≠ "") (now : DateTime) {borne : Borne}
    (hid : borne.borneId = borneId) (payload : Json) :
    Prog.Rests (appNavProtocol borneId) .free (startGame uuid now borne payload) := by
  unfold startGame
  split
  · cases extractPseudo payload with
    | none => rfl
    | some pseudo =>
        dsimp only [createSession]
        cases normalizeAndValidate pseudo with
        | error e => rfl
        | ok pseudo =>
            refine ⟨rfl, fun r _ => ⟨.free, rfl, ?_⟩⟩
            cases r with
            | error e => rfl
            | ok _ =>
                refine nav_update ?_ (fun h => huuid (Option.some.inj h)) ?_
                · exact hid
                refine Prog.Follows.bind (nav_broadcastNav hid) fun q _ hq => ?_
                rw [hq]
                exact Prog.Rests.bind (rests_readyUp appNav_leaves_plain nav_launch
                  (appNav_leaves_tell _ _) _) fun _ => rfl
  · rfl

theorem nav_applyIntent {uuid : String} (huuid : uuid ≠ "") (now : DateTime) (action : String)
    (payload : Json) :
    Prog.Rests (appNavProtocol borneId) .free (applyIntent uuid now borneId action payload) := by
  refine Prog.Follows.perform_bind rfl (fun borne hborne => ⟨.free, rfl, ?_⟩)
    fun _ _ => ⟨.free, rfl, rfl⟩
  obtain ⟨b, hb, hid, hactive⟩ := hborne
  obtain rfl := Except.ok.inj hb
  split
  · exact nav_startGame huuid now hid payload
  · cases nextNavState borne.nav action with
    | none => rfl
    | some target =>
        refine nav_update ?_ ?_ (nav_broadcastNav ?_)
        · exact hid
        · dsimp only
          split
          · simp
          · exact hactive
        · exact hid

/-- A request keeps to the protocol. -/
theorem nav_request {e : Event} (huuid : e.uuid ≠ "") :
    Prog.Rests (appNavProtocol borneId) .free (e.program borneId) := by
  have hplain : ∀ op : Op, op.isPlain → (appNavProtocol borneId).Leaves .free op :=
    appNav_leaves_plain
  have hcommand (broadcaster : Broadcaster) (sessionId : String) :=
    rests_sessionCommand hplain nav_launch (appNav_leaves_tell broadcaster sessionId)
  obtain ⟨request, clock, uuid, pg⟩ := e
  have hflush (sessionId : String) :
      Prog.Rests (appNavProtocol borneId) .free (finishAndPersist clock sessionId) :=
    rests_finishAndPersist hplain (fun _ _ => ⟨rfl, fun _ _ => rfl⟩) ⟨rfl, fun _ _ => rfl⟩
      ⟨rfl, fun _ _ => rfl⟩ clock
  cases request with
  | createSession pseudo mode roomCode =>
      exact Prog.Rests.bind (nav_createSession _ _ _ _ _) fun _ => rfl
  | readyUp broadcaster sessionId =>
      exact Prog.Rests.bind (rests_readyUp hplain nav_launch (appNav_leaves_tell _ _) _) fun _ => rfl
  | sessionCommand broadcaster command sessionId => exact hcommand _ _ _
  | mqtt broadcaster topic payload =>
      exact rests_mqtt hplain nav_markGameOver hflush (appNav_leaves_tell _) _ _
  | finish sessionId => exact Prog.Rests.bind (hflush _) fun _ => rfl
  | intent action payload => exact nav_applyIntent huuid _ _ _
  | matchCommand command =>
      exact rests_handleMatchCommand hplain nav_markGameOver fun sessionId => hcommand _ sessionId _
  | relay event => exact rests_relayEvent hplain nav_markGameOver hflush _
  | countdown task => rfl

/-- The phase in which a job begins. -/
def ScreenJob.phase : ScreenJob → NavPhase
  | job (.countdown _ _ _) => .apart
  | _ => .free

theorem ScreenJob.phase_atRest (j : ScreenJob) : j.phase.AtRest := by
  cases j with
  | job j =>
      cases j with
      | countdown task broadcaster sessionId => exact Or.inr rfl
      | request e => exact Or.inl rfl
  | _ => exact Or.inl rfl

theorem ScreenJob.follows (j : ScreenJob) (huuid : j.uuid? ≠ some "") :
    (j.program borneId).Follows (navProtocol borneId) NavPhase.AtRest NavPhase.AtRest j.phase := by
  have hembed {q : NavPhase} {p : UseCase Unit} (hq : q.AtRest)
      (hp : Prog.Rests (appNavProtocol borneId) q p) :
      (p.embed .app fun _ r => r).Follows (navProtocol borneId) NavPhase.AtRest NavPhase.AtRest q :=
    Prog.Follows.embed (P := appNavProtocol borneId) (Q := navProtocol borneId)
      (fun _ _ h => h) (fun _ _ h => h) (fun _ _ _ _ h => h) (hp.follows hq hq)
  cases j with
  | connect borneId' screen =>
      dsimp only [program, serveBorne]
      split
      · next hid =>
          subst hid
          refine Prog.Follows.perform_bind rfl (fun _ _ => ⟨.joined screen, rfl, ?_⟩)
            fun _ h => nomatch h
          refine Prog.Follows.perform_bind rfl (fun borne _ => ⟨_, ⟨borne, rfl, rfl⟩, ?_⟩)
            fun _ h => nomatch h
          refine ⟨rfl, fun r hr => ⟨.free, rfl, ?_⟩⟩
          obtain ⟨_, rfl⟩ := hr
          exact Or.inl rfl
      · exact Or.inl rfl
  | disconnect screen =>
      refine ⟨rfl, fun r hr => ⟨.free, rfl, ?_⟩⟩
      obtain ⟨_, rfl⟩ := hr
      exact Or.inl rfl
  | job j =>
      cases j with
      | countdown task broadcaster sessionId =>
          exact hembed (Or.inr rfl)
            (rests_countdownFrom appNav_leaves_plain_apart
              (fun _ => ⟨Or.inr rfl, fun _ _ => rfl⟩) _)
      | request e =>
          exact hembed (Or.inl rfl) (nav_request fun h => huuid (congrArg some h))

end Programs

/-! ## The invariant -/

namespace NavPhase

/-- The `nav:state` that an execution is about to send. -/
def state? : NavPhase → Option NavState
  | owes state => some state
  | holds _ state => some state
  | _ => none

/-- An execution is about to send a `nav:state` to a screen. -/
def Announces (screen : ℕ) : NavPhase → Prop
  | owes _ => True
  | joined screen' => screen' = screen
  | holds screen' _ => screen' = screen
  | _ => False

theorem AtRest.not_announces {q : NavPhase} (hq : q.AtRest) (screen : ℕ) :
    ¬ q.Announces screen := by
  rcases hq with rfl | rfl
  · exact id
  · exact id

theorem AtRest.state? {q : NavPhase} (hq : q.AtRest) : q.state? = none := by
  rcases hq with rfl | rfl
  · rfl
  · rfl

end NavPhase

/-- What is about to be sent is the navigation stored, and every screen of the
hub has been sent it last or is about to be. -/
structure Shows (borneId : String) (d : Displays) (phase : ℕ → NavPhase) : Prop where
  sends : ∀ i, ∀ state ∈ (phase i).state?, state = d.nav borneId
  shown : ∀ screen ∈ d.clients, d.lastNavState screen = some (d.nav borneId) ∨
    ∃ i, (phase i).Announces screen

namespace Shows

variable {borneId : String} {d d' : Displays} {phase : ℕ → NavPhase} {i : ℕ} {q : NavPhase}

theorem sends_update (h : Shows borneId d phase) (hnav : d'.nav borneId = d.nav borneId)
    (hq : ∀ state ∈ q.state?, state = d.nav borneId) :
    ∀ j, ∀ state ∈ (Function.update phase i q j).state?, state = d'.nav borneId := by
  intro j state hstate
  rw [hnav]
  by_cases hij : j = i
  · subst hij
    rw [Function.update_self] at hstate
    exact hq state hstate
  · rw [Function.update_of_ne hij] at hstate
    exact h.sends j state hstate

/-- What another execution is about to send, it still is. -/
theorem announces_update {screen : ℕ} (hi : ¬ (phase i).Announces screen)
    (h : ∃ j, (phase j).Announces screen) (q : NavPhase) :
    ∃ j, (Function.update phase i q j).Announces screen := by
  obtain ⟨j, hj⟩ := h
  refine ⟨j, ?_⟩
  rw [Function.update_of_ne]
  · exact hj
  · rintro rfl
    exact hi hj

/-- A call that does not touch the navigation. -/
theorem keep (h : Shows borneId d phase) (hi : (phase i).AtRest) (hq : q.AtRest)
    (hnav : d'.nav borneId = d.nav borneId) (hclients : ∀ s ∈ d'.clients, s ∈ d.clients)
    (hlast : d'.lastNavState = d.lastNavState) :
    Shows borneId d' (Function.update phase i q) where
  sends := h.sends_update hnav (by simp [hq.state?])
  shown s hs := by
    rw [hlast, hnav]
    exact (h.shown s (hclients s hs)).imp_right fun h =>
      announces_update (hi.not_announces s) h q

/-- An update of the borne while no other execution is about to send. -/
theorem update (hothers : ∀ j ≠ i, (phase j).state? = none) :
    Shows borneId d (Function.update phase i (.owes (d.nav borneId))) where
  sends j state hstate := by
    by_cases hij : j = i
    · rw [hij, Function.update_self] at hstate
      exact (Option.some.inj hstate).symm
    · rw [Function.update_of_ne hij, hothers j hij] at hstate
      cases hstate
  shown s _ := Or.inr ⟨i, by rw [Function.update_self]; trivial⟩

theorem broadcast (h : Shows borneId d phase) {state : NavState} (hi : phase i = .owes state)
    (hclients : d'.clients = d.clients) (hnav : d'.nav borneId = d.nav borneId)
    (hlast : ∀ s ∈ d.clients, d'.lastNavState s = some state) :
    Shows borneId d' (Function.update phase i .free) where
  sends := h.sends_update hnav fun _ hstate => nomatch hstate
  shown s hs := by
    have hstate : state = d.nav borneId := h.sends i state (by rw [hi]; rfl)
    rw [hclients] at hs
    exact Or.inl (by rw [hlast s hs, hnav, hstate])

theorem join (h : Shows borneId d phase) (hi : (phase i).AtRest) (screen : ℕ) :
    Shows borneId { d with clients := d.clients ++ [screen] }
      (Function.update phase i (.joined screen)) where
  sends := h.sends_update rfl fun _ hstate => nomatch hstate
  shown s hs := by
    rcases List.mem_append.mp hs with hs | hs
    · exact (h.shown s hs).imp_right fun h => announces_update (hi.not_announces s) h _
    · refine Or.inr ⟨i, ?_⟩
      rw [Function.update_self]
      exact (List.mem_singleton.mp hs).symm

theorem read (h : Shows borneId d phase) {screen : ℕ} (hi : phase i = .joined screen)
    (hclients : d'.clients = d.clients) (hnav : d'.nav borneId = d.nav borneId)
    (hlast : d'.lastNavState = d.lastNavState) :
    Shows borneId d' (Function.update phase i (.holds screen (d.nav borneId))) where
  sends := h.sends_update hnav fun _ hstate => (Option.some.inj hstate).symm
  shown s hs := by
    rw [hclients] at hs
    rw [hlast, hnav]
    refine (h.shown s hs).imp_right fun hsent => ?_
    by_cases hscreen : screen = s
    · exact ⟨i, by rw [Function.update_self]; exact hscreen⟩
    · exact announces_update (by rw [hi]; exact hscreen) hsent _

theorem send (h : Shows borneId d phase) {screen : ℕ} {state : NavState}
    (hi : phase i = .holds screen state) :
    Shows borneId (d.receive [screen] state) (Function.update phase i .free) where
  sends := h.sends_update rfl fun _ hstate => nomatch hstate
  shown s hs := by
    have hstate : state = d.nav borneId := h.sends i state (by rw [hi]; rfl)
    by_cases hscreen : s = screen
    · refine Or.inl ?_
      rw [hscreen, hstate]
      exact if_pos (List.mem_singleton.mpr rfl)
    · have hlast : (d.receive [screen] state).lastNavState s = d.lastNavState s :=
        if_neg fun hmem => hscreen (List.mem_singleton.mp hmem)
      rw [hlast]
      refine (h.shown s hs).imp_right fun hsent => announces_update ?_ hsent _
      rw [hi]
      exact fun heq => hscreen heq.symm

end Shows

/-- The executions are on course: `phase` says how far each is with its
announcement, and those of `apart` never have one. -/
structure Announced (borneId : String) (apart : ℕ → Prop) (pool : ScreenExecutions)
    (phase : ℕ → NavPhase) : Prop where
  follow : pool.Follow (navProtocol borneId) NavPhase.AtRest phase
  idle : ∀ i, pool.threads[i]? = none → phase i = .free
  apart : ∀ i, apart i → phase i = .apart
  shows : Shows borneId pool.state phase

namespace Announced

variable {borneId : String} {apart : ℕ → Prop} {pool : ScreenExecutions} {phase : ℕ → NavPhase}
  {i : ℕ}

/-- An execution that is about to send a `nav:state` sends it next. -/
theorem sends_next (h : Announced borneId apart pool phase) {state : NavState}
    (hi : (phase i).state? = some state) :
    ∃ t, pool.threads[i]? = some t ∧ t.2.head.any ScreenOp.sendsNavState := by
  cases ht : pool.threads[i]? with
  | none =>
      rw [h.idle i ht] at hi
      cases hi
  | some t =>
      have hfollow := h.follow i t.1 t.2 ht
      refine ⟨t, rfl, ?_⟩
      cases hp : t.2 with
      | ret a =>
          rw [hp] at hfollow
          rw [NavPhase.AtRest.state? hfollow] at hi
          cases hi
      | raise e =>
          rw [hp] at hfollow
          rw [NavPhase.AtRest.state? hfollow] at hi
          cases hi
      | call op k =>
          rw [hp] at hfollow
          have hallowed := hfollow.1
          cases hq : phase i with
          | owes state' =>
              rw [hq] at hallowed
              obtain rfl : op = _ := hallowed
              rfl
          | holds screen state' =>
              rw [hq] at hallowed
              obtain rfl : op = _ := hallowed
              rfl
          | _ =>
              rw [hq] at hi
              cases hi

/-- An execution that has ended is at rest. -/
theorem atRest_of_next (h : Announced borneId apart pool phase) (hnext : pool.next i = none) :
    (phase i).AtRest := by
  cases ht : pool.threads[i]? with
  | none => exact Or.inl (h.idle i ht)
  | some t =>
      have hfollow := h.follow i t.1 t.2 ht
      rw [Pool.next, ht] at hnext
      cases hp : t.2 with
      | ret a =>
          rw [hp] at hfollow
          exact hfollow
      | raise e =>
          rw [hp] at hfollow
          exact hfollow
      | call op k =>
          rw [Option.bind_some, hp] at hnext
          cases hnext

/-- A call of the application that is no part of an announcement. -/
theorem shows_app (h : Announced borneId apart pool phase) {c : Context} {op : Op} {q : NavPhase}
    (hi : (phase i).AtRest) (hq : q.AtRest) (hupdate : ∀ b, op ≠ .borneUpdate b)
    (hsends : (ScreenOp.app op).sendsNavState = false) :
    Shows borneId (display borneId c (.app op) pool.state).2 (Function.update phase i q) := by
  refine h.shows.keep hi hq (display_app_nav fun b hb => absurd hb (hupdate b)) ?_ ?_
  · rw [display_app_clients]
    exact fun s hs => hs
  · refine display_app_lastNavState ?_
    cases op with
    | broadcastToBorne borneId' message =>
        cases message with
        | navState nav sessionId => cases hsends
        | _ => rfl
    | _ => rfl

/-- An update of the borne, made while no other execution is about to send its
navigation. -/
theorem shows_update {b : Borne} (h : Announced b.borneId apart pool phase)
    (hone : NavSentFirst pool i) {c : Context}
    {k : Except Exc (ScreenOp.app (.borneUpdate b)).Res → Prog Exc ScreenOp.Res Unit}
    (hthread : pool.threads[i]? = some (c, .call (.app (.borneUpdate b)) k))
    (hactive : b.activeSessionId ≠ some "") :
    Shows b.borneId (display b.borneId c (.app (.borneUpdate b)) pool.state).2
      (Function.update phase i (.owes (b.nav, b.activeSessionId))) := by
  have hnav : (display b.borneId c (.app (.borneUpdate b)) pool.state).2.nav b.borneId =
      (b.nav, b.activeSessionId) := by
    have hback := pool.state.world.borne_putBorne b
    rw [Borne.readBack_of_ne hactive] at hback
    dsimp only [display, Op.navState?, Displays.nav, handle]
    rw [hback]
  rw [← hnav]
  refine Shows.update fun j hj => ?_
  have hnone := hone (by simp [Pool.next, hthread, ScreenOp.updatesBorne])
  cases hstate : (phase j).state? with
  | none => rfl
  | some state =>
      obtain ⟨t, ht, hsends⟩ := h.sends_next hstate
      exact absurd hsends (hnone t (Pool.mem_others.mpr ⟨j, hj, ht⟩))

/-- A call of an execution keeps to what the screens are to show. -/
theorem shows_step (h : Announced borneId apart pool phase) (hone : NavSentFirst pool i)
    {c : Context} {op : ScreenOp} {k : Except Exc op.Res → Prog Exc ScreenOp.Res Unit}
    {q : NavPhase} (hthread : pool.threads[i]? = some (c, .call op k))
    (hallowed : (navProtocol borneId).allowed (phase i) op)
    (hnext : (navProtocol borneId).next (phase i) op (display borneId c op pool.state).1 q) :
    Shows borneId (display borneId c op pool.state).2 (Function.update phase i q) := by
  cases hi : phase i with
  | free =>
      rw [hi] at hallowed hnext
      have hrest : (phase i).AtRest := Or.inl hi
      cases op with
      | app op =>
          cases op with
          | borneUpdate b =>
              obtain ⟨rfl, hactive⟩ := hallowed
              rw [show q = _ from hnext]
              exact h.shows_update hone hthread hactive
          | broadcastToBorne borneId' message =>
              obtain rfl : q = .free := hnext
              exact h.shows_app hrest (Or.inl rfl) (by simp) hallowed
          | _ =>
              obtain rfl : q = .free := hnext
              exact h.shows_app hrest (Or.inl rfl) (by simp) rfl
      | addClient screen =>
          obtain rfl : q = .joined screen := hnext
          exact h.shows.join hrest screen
      | removeClient screen =>
          obtain rfl : q = .free := hnext
          exact h.shows.keep hrest (Or.inl rfl) rfl (fun s hs => List.mem_of_mem_erase hs) rfl
      | sendNavState screen state => cases hallowed
  | apart =>
      rw [hi] at hallowed hnext
      have hrest : (phase i).AtRest := Or.inr hi
      cases op with
      | app op =>
          obtain rfl : q = .apart := hnext
          refine h.shows_app hrest (Or.inr rfl) ?_ ?_
          · rintro b rfl
            rcases hallowed with hallowed | hallowed <;> cases hallowed
          · cases op with
            | broadcastToBorne borneId' message =>
                cases message with
                | navState nav sessionId =>
                    rcases hallowed with hallowed | hallowed <;> cases hallowed
                | _ => rfl
            | _ => rfl
      | _ => exact hallowed.elim
  | owes state =>
      rw [hi] at hallowed hnext
      obtain rfl : op = _ := hallowed
      obtain rfl : q = .free := hnext
      refine h.shows.broadcast hi display_app_clients (display_app_nav fun b hb => nomatch hb) ?_
      intro s hs
      dsimp only [display, Op.navState?]
      rw [if_pos rfl]
      exact if_pos hs
  | joined screen =>
      rw [hi] at hallowed hnext
      obtain rfl : op = _ := hallowed
      obtain ⟨b, hb, rfl⟩ := hnext
      have hread : (display borneId c (.app (.borneGetOrCreate borneId)) pool.state).1 =
          .ok (pool.state.world.borne borneId) := pool.state.world.readBorne_eq borneId
      obtain rfl := Except.ok.inj (hread.symm.trans hb)
      exact h.shows.read hi display_app_clients (display_app_nav fun b hb => nomatch hb)
        (display_app_lastNavState rfl)
  | holds screen state =>
      rw [hi] at hallowed hnext
      obtain rfl : op = _ := hallowed
      obtain rfl : q = .free := hnext
      exact h.shows.send hi

theorem step (h : Announced borneId apart pool phase) (hone : NavSentFirst pool i) :
    ∃ phase', Announced borneId apart (Pool.step (display borneId) pool i) phase' ∧
      ∀ j ≠ i, phase' j = phase j := by
  rcases Pool.step_follows h.follow (display_answers borneId) i with
    heq | ⟨c, op, k, q, hthread, hallowed, hnext, hstate, hfollow⟩
  · exact ⟨phase, heq.symm ▸ h, fun _ _ => rfl⟩
  refine ⟨Function.update phase i q, ⟨hfollow, fun j hj => ?_, fun j hj => ?_, ?_⟩,
    fun j hj => Function.update_of_ne hj _ _⟩
  · rw [Pool.thread_step_eq_none] at hj
    have hji : j ≠ i := by
      rintro rfl
      rw [hthread] at hj
      cases hj
    rw [Function.update_of_ne hji]
    exact h.idle j hj
  · by_cases hji : j = i
    · subst hji
      rw [h.apart j hj] at hnext
      rw [Function.update_self]
      exact hnext
    · rw [Function.update_of_ne hji]
      exact h.apart j hj
  · rw [hstate]
    exact h.shows_step hone hthread hallowed hnext

/-- An execution that makes no call stays where it is. -/
theorem run (h : Announced borneId apart pool phase) {schedule : List ℕ}
    (hrun : Runs.Along (Pool.step (display borneId)) NavSentFirst pool schedule) :
    ∃ phase', Announced borneId apart (schedule.foldl (Pool.step (display borneId)) pool) phase' ∧
      ∀ j ∉ schedule, phase' j = phase j := by
  induction schedule generalizing pool phase with
  | nil => exact ⟨phase, h, fun _ _ => rfl⟩
  | cons i schedule ih =>
      obtain ⟨phase₁, h₁, hsame₁⟩ := h.step hrun.1
      obtain ⟨phase₂, h₂, hsame₂⟩ := ih h₁ hrun.2
      refine ⟨phase₂, h₂, fun j hj => ?_⟩
      rw [hsame₂ j fun hmem => hj (List.mem_cons_of_mem i hmem)]
      exact hsame₁ j fun heq => hj (heq ▸ List.mem_cons_self)

end Announced

/-! ## Every interleaving -/

/-- The phases of jobs that have not made a call yet. -/
def firstPhase (jobs : List ScreenJob) (i : ℕ) : NavPhase :=
  match jobs[i]? with
  | some j => j.phase
  | none => .free

theorem firstPhase_atRest (jobs : List ScreenJob) (i : ℕ) : (firstPhase jobs i).AtRest := by
  unfold firstPhase
  cases jobs[i]? with
  | none => exact Or.inl rfl
  | some j => exact j.phase_atRest

theorem announced_init (borneId : String) (w : World) (jobs : List ScreenJob)
    (huuid : ∀ j ∈ jobs, j.uuid? ≠ some "") :
    Announced borneId (fun i => jobs[i]?.any ScreenJob.isCountdown)
      (screenExecutions borneId { world := w } jobs) (firstPhase jobs) where
  follow i c p hi := by
    rw [screenExecutions, List.getElem?_map] at hi
    obtain ⟨j, hj, heq⟩ := Option.map_eq_some_iff.mp hi
    obtain ⟨-, rfl⟩ := Prod.mk.inj heq
    rw [firstPhase, hj]
    exact j.follows (huuid j (List.mem_of_getElem? hj))
  idle i hi := by
    rw [screenExecutions, List.getElem?_map, Option.map_eq_none_iff] at hi
    rw [firstPhase, hi]
  apart i hi := by
    obtain ⟨j, hj, hcountdown⟩ := (Option.any_eq_true _ _).mp hi
    rw [firstPhase, hj]
    cases j with
    | job j =>
        cases j with
        | countdown task broadcaster sessionId => rfl
        | request e => cases hcountdown
    | _ => cases hcountdown
  shows :=
    { sends := fun i state hstate => by
        rw [(firstPhase_atRest jobs i).state?] at hstate
        cases hstate
      shown := fun s hs => by cases hs }

/-- Every execution of the schedule has ended, or is a countdown. -/
def AllHandled (jobs : List ScreenJob) (pool : ScreenExecutions) (schedule : List ℕ) : Prop :=
  ∀ i ∈ schedule, pool.next i = none ∨ jobs[i]?.any ScreenJob.isCountdown

instance (jobs : List ScreenJob) (pool : ScreenExecutions) (schedule : List ℕ) :
    Decidable (AllHandled jobs pool schedule) :=
  inferInstanceAs (Decidable (∀ i ∈ schedule, _))

/-- However sockets are opened and closed and requests handled, where the borne
is updated only while no other execution has a `nav:state` to send next, the last
one each screen of the hub has received is the navigation stored once every
execution has ended. -/
theorem screens_converge (borneId : String) (w : World) (jobs : List ScreenJob)
    (huuid : ∀ j ∈ jobs, j.uuid? ≠ some "") (schedule : List ℕ)
    (h : Runs.Along (Pool.step (display borneId)) NavSentFirst
      (screenExecutions borneId { world := w } jobs) schedule)
    (hhandled : AllHandled jobs
      (schedule.foldl (Pool.step (display borneId)) (screenExecutions borneId { world := w } jobs))
      schedule) :
    let d := (schedule.foldl (Pool.step (display borneId))
      (screenExecutions borneId { world := w } jobs)).state
    ∀ screen ∈ d.clients, d.lastNavState screen = some (d.nav borneId) := by
  intro d screen hscreen
  obtain ⟨phase, hrun, hsame⟩ := (announced_init borneId w jobs huuid).run h
  refine (hrun.shows.shown screen hscreen).resolve_right ?_
  rintro ⟨i, hi⟩
  have hrest : (phase i).AtRest := by
    by_cases hmem : i ∈ schedule
    · rcases hhandled i hmem with hnone | hcountdown
      · exact hrun.atRest_of_next hnone
      · exact Or.inr (hrun.apart i hcountdown)
    · rw [hsame i hmem]
      exact firstPhase_atRest jobs i
  exact hrest.not_announces screen hi

/-- Two screens connect while a third one leaves the splash screen. -/
def arrivals : List ScreenJob :=
  [.connect "b" 1, .connect "b" 2, .job (.request { request := .intent "PRESS_A" .null, uuid := "u" })]

theorem screens_converge_arrivals :
    let d := ([0, 1, 2, 0, 1, 1, 0, 2, 2].foldl (Pool.step (display "b"))
      (screenExecutions "b" {} arrivals)).state
    ∀ screen ∈ d.clients, d.lastNavState screen = some (d.nav "b") :=
  screens_converge "b" {} arrivals (by decide) [0, 1, 2, 0, 1, 1, 0, 2, 2] (by decide +kernel)
    (by decide +kernel)

/-- The borne is updated, and the update broadcast, between the reading of the
borne for the first screen and its snapshot. -/
theorem arrivals_stale :
    let pool := [0, 0, 2, 2, 2, 0].foldl (Pool.step (display "b")) (screenExecutions "b" {} arrivals)
    AllHandled arrivals pool [0, 0, 2, 2, 2, 0] ∧ 1 ∈ pool.state.clients ∧
      pool.state.lastNavState 1 = some (.splash, none) ∧ pool.state.nav "b" = (.menu, none) := by
  decide +kernel

end FlipperBack
