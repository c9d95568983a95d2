import FlipperBack.Properties.CanEnd
import FlipperBack.Properties.LateRelay

/-!
# From every screen back to the menu

Every screen but that of the game has a message that leads to the menu; the game
is left by abandoning it, which takes a session that is gone or can be read. On
the menu a session may still be attached, that of a game whose leaderboard was
opened: the start and the end of another game releases it. So from every state
that the application reaches, in any interleaving, messages of a screen lead to
the menu with no session attached, whatever expires and whichever countdowns go
on in between (`borne_wayOut`).
-/

namespace FlipperBack

open Effects Python

/-- What happens while a screen sends its messages. -/
inductive Happening
  /-- A message is handled. -/
  | message (e : Event)
  /-- Time passes, or an execution in flight makes its next call. -/
  | tick (tick : Tick)

namespace Happening

def request? : Happening → Option Request
  | message e => some e.request
  | tick _ => none

/-- Beside the messages, only countdowns go on. -/
def Allowed (jobs : List Job) : Happening → Prop
  | message e => e.uuid ≠ ""
  | tick (.call i) => jobs[i]?.any Job.isCountdown
  | tick (.advance _) => True

end Happening

def happen (ttl : ℕ) (borneId : String) (pool : TimedExecutions) : Happening → TimedExecutions
  | .message e =>
      { pool with
        state := ((e.program borneId).run (timedHandle ttl { pg := e.pg }) pool.state).2 }
  | .tick tick => timedStep ttl pool tick

/-! ## The messages -/

/-- From the menu, a game that is started and left releases the session. -/
def release : Option String → List Request
  | none => []
  | some _ =>
      [.intent "START_GAME" .null, .intent playersValidated (.obj [("pseudo", .str "abc")]),
        .matchCommand .abandon, .intent "BACK_TO_MENU" .null]

/-- The messages that lead from what the screens show to the menu with no session
attached. -/
def wayOut : BorneNavState → Option String → List Request
  | .splash, active => .intent "PRESS_A" .null :: release active
  | .menu, active => release active
  | .inGame, _ => [.matchCommand .abandon, .intent "BACK_TO_MENU" .null]
  | .gameOver, _ => [.intent "BACK_TO_MENU" .null]
  | _, active => .intent "BACK_TO_MENU" .null :: release active

theorem fromScreen_wayOut (nav : BorneNavState) (active : Option String) :
    ∀ request ∈ wayOut nav active, Event.FromScreen { request } := by
  cases nav <;> cases active <;> simp [wayOut, release, Event.FromScreen]

/-! ## What lasts -/

/-- The borne is as it was, and the sessions that could be read still can, or are
gone. -/
structure World.Quiet (borneId : String) (w w' : World) : Prop where
  borne : w'.borne borneId = w.borne borneId
  int : ∀ id, w.IntScore id → w'.IntScore id

/-- What is left of the countdowns never moves the borne. -/
def CountdownsApart (borneId : String) (jobs : List Job) (pool : TimedExecutions) : Prop :=
  ∀ (i : ℕ) c (p : UseCase Unit), jobs[i]?.any Job.isCountdown →
    pool.threads[i]? = some (c, p) →
      p.Follows (exitProtocol borneId) ExitPhase.Clear ExitPhase.Clear .apart

section Ticks

variable {borneId : String} {jobs : List Job} {pool : TimedExecutions}

theorem quiet_handle {op : Op} (h : (exitProtocol borneId).allowed .apart op) (c : Context)
    (w : World) : World.Quiet borneId w (handle c op w).2 where
  borne := by
    refine World.borne_handle ?_ c w
    rintro b rfl
    exact h.elim
  int id hid := by
    refine intScore_handle c op w ?_ hid
    cases op with
    | sessionCreate s => exact fun _ _ => h
    | sessionUpdate s =>
        exact fun _ hs => Session.isInt_of_readable (h.resolve_right (by simp) hs)
    | _ => trivial

/-- Time and the countdowns leave the borne alone. -/
theorem quiet_tick (ttl : ℕ) (h : CountdownsApart borneId jobs pool) {tick : Tick}
    (htick : (Happening.tick tick).Allowed jobs) :
    World.Quiet borneId pool.state.world (timedStep ttl pool tick).state.world ∧
      CountdownsApart borneId jobs (timedStep ttl pool tick) := by
  cases tick with
  | advance d => exact ⟨⟨rfl, fun _ hid => intScore_advance hid d⟩, h⟩
  | call i =>
      rcases Pool.step_cases (timedHandle ttl) pool i with heq | ⟨c, op, k, hthread, heq⟩
      · rw [timedStep, heq]
        exact ⟨⟨rfl, fun _ hid => hid⟩, h⟩
      · rw [timedStep, heq]
        obtain ⟨hallowed, hnext⟩ := h i c _ htick hthread
        refine ⟨quiet_handle hallowed c pool.state.world, fun j c' p hj hp => ?_⟩
        by_cases hji : j = i
        · subst hji
          rw [Pool.set_self hthread] at hp
          obtain ⟨-, rfl⟩ := Prod.mk.inj (Option.some.inj hp)
          obtain ⟨q, hq, hk⟩ := hnext _ (handle_exitAnswers borneId c op pool.state.world)
          rw [exitProtocol_apart hallowed hq] at hk
          exact hk
        · rw [Pool.set_of_ne _ hji] at hp
          exact h j c' p hj hp

end Ticks

/-! ## What the messages do -/

namespace World

/-- What the screens show. -/
def Shows (w : World) (borneId : String) (nav : BorneNavState) (active : Option String) : Prop :=
  (w.borne borneId).nav = nav ∧ (w.borne borneId).activeSessionId = active

/-- The screens show a game that can be ended. -/
def InGame (w : World) (borneId : String) : Prop :=
  ∃ id, w.Shows borneId .inGame (some id) ∧ w.IntScore id

end World

section Messages

variable {borneId : String} {w : World} {e : Event} {nav : BorneNavState} {active : Option String}

/-- An intent of the navigation leads to what the table says. -/
theorem shows_intent {action : String} {payload : Json} {target : BorneNavState}
    (he : e.request = .intent action payload) (haction : action ≠ playersValidated)
    (htarget : nextNavState nav action = some target) (h : w.Shows borneId nav active) :
    (step borneId w e).Shows borneId target
      (if nav = .gameOver ∧ (target = .menu ∨ target = .identification) then none else active) := by
  obtain ⟨rfl, rfl⟩ := h
  obtain ⟨request, clock, uuid, pg⟩ := e
  obtain rfl : request = .intent action payload := he
  have hmoved : ((intentActs uuid clock.now borneId action payload w).foldl World.act w).borne
      borneId = ((w.borne borneId).movedTo target).readBack := borne_intentActs haction htarget
  have hne : ((w.borne borneId).movedTo target).activeSessionId ≠ some "" := by
    unfold Borne.movedTo
    dsimp only
    split
    · simp
    · exact w.activeSessionId_borne borneId
  rw [step_eq, World.Shows, Event.acts, hmoved, Borne.readBack_of_ne hne]
  exact ⟨rfl, rfl⟩

/-- The borne after it has been written. -/
theorem borne_of_put {w' : World} {b : Borne} (hput : w'.bornes = w.bornes.put b)
    (hid : b.borneId = borneId) (hactive : b.activeSessionId ≠ some "") : w'.borne borneId = b := by
  subst hid
  rw [World.borne_of_stored (b := b) (by rw [hput, KeyedTable.get_put_self]),
    Borne.readBack_of_ne hactive]

/-- The acts that start a game leave one that can be ended. -/
theorem inGame_start {s : Session} {b : Borne} (hid : b.borneId = borneId) (hnav : b.nav = .inGame)
    (hactive : b.activeSessionId = some s.sessionId) (hne : s.sessionId ≠ "")
    (hreadable : s.readable) (w : World) :
    (([.create s, .nav b, .switch .ready [.borne] s] : List Act).foldl World.act w).InGame
      borneId := by
  generalize hw' : ([.create s, .nav b, .switch .ready [.borne] s] : List Act).foldl World.act w =
    w'
  have hborne : w'.borne borneId = b := by
    refine borne_of_put (w := w) (by rw [← hw']; rfl) hid ?_
    rw [hactive]
    exact fun heq => hne (Option.some.inj heq)
  refine ⟨s.sessionId, ⟨by rw [hborne, hnav], by rw [hborne, hactive]⟩, ?_⟩
  rw [← hw']
  exact intScore_put_self ((w.act (.create s)).act (.nav b)) (s := s.to .ready) hreadable

/-- The validation of a player starts a game that can be ended. -/
theorem inGame_validated (he : e.request = .intent playersValidated (.obj [("pseudo", .str "abc")]))
    (huuid : e.uuid ≠ "") (h : w.Shows borneId .identification active) :
    (step borneId w e).InGame borneId := by
  obtain ⟨request, clock, uuid, pg⟩ := e
  obtain rfl : request = _ := he
  obtain ⟨hnav, -⟩ := h
  have hpayload : extractPseudo (.obj [("pseudo", .str "abc")]) = some "abc" := by decide
  have hpseudo : normalizeAndValidate "abc" = .ok "ABC" := by decide +kernel
  rw [step_eq]
  change ((intentActs uuid clock.now borneId playersValidated _ w).foldl World.act w).InGame borneId
  rw [intentActs, foldl_andThen, if_pos rfl, startGameActs, borne_openActs, if_pos hnav, hpayload]
  dsimp only
  rw [hpseudo]
  refine inGame_start (s := newSession uuid clock.now "ABC" .solo none) ?_ rfl rfl huuid
    newSession_readable _
  exact w.borneId_borne borneId

theorem nav_markGameOverActs_of_inGame (h : (w.borne borneId).nav = .inGame) :
    (((markGameOverActs borneId w).foldl World.act w).borne borneId).nav = .gameOver := by
  rw [markGameOverActs, foldl_andThen, borne_openActs, if_pos h]
  generalize hw' : List.foldl World.act ((openActs borneId w).foldl World.act w) _ = w'
  have hborne : w'.borne borneId = { w.borne borneId with nav := .gameOver } :=
    borne_of_put (by rw [← hw']; rfl) (w.borneId_borne borneId) (w.activeSessionId_borne borneId)
  rw [hborne]

/-- The abandon of a game ends it. -/
theorem over_abandon (he : e.request = .matchCommand .abandon) (h : w.InGame borneId) :
    ((step borneId w e).borne borneId).nav = .gameOver := by
  obtain ⟨request, clock, uuid, pg⟩ := e
  obtain rfl : request = _ := he
  obtain ⟨id, ⟨hnav, hactive⟩, hint⟩ := h
  have hread : w.unreadable id = false := by
    rw [World.unreadable, World.readSession_eq]
    cases hs : w.sessions id with
    | none => rfl
    | some s => simp [Session.readBack_of_readable (hint s hs), Except.map]
  rw [step_eq]
  change (((matchCommandActs borneId .abandon w).foldl World.act w).borne borneId).nav = .gameOver
  rw [matchCommandActs, andThen_of_nil (openActs_of_active hactive), hactive]
  dsimp only
  rw [if_pos ⟨rfl, hread⟩, foldl_andThen]
  refine nav_markGameOverActs_of_inGame ?_
  rw [borne_switchActs, hnav]

end Messages

/-! ## From screen to screen -/

/-- What lasts while the world is quiet. -/
def Lasts (borneId : String) (Q : World → Prop) : Prop :=
  ∀ w w', World.Quiet borneId w w' → Q w → Q w'

/-- However the messages are handled in which the requests are sent, and whatever
happens in between, they lead from `Q` to `R`. -/
abbrev LeadsTo (ttl : ℕ) (borneId : String) (jobs : List Job) (Q : World → Prop)
    (requests : List Request) (R : World → Prop) : Prop :=
  Runs.Leads (happen ttl borneId) (fun _ h => h.Allowed jobs) Happening.request?
    (fun pool => Q pool.state.world ∧ CountdownsApart borneId jobs pool) requests
    (fun pool => R pool.state.world ∧ CountdownsApart borneId jobs pool)

section Screens

variable {borneId : String} {jobs : List Job} {ttl : ℕ} {Q Q' R : World → Prop}
  {nav : BorneNavState} {active : Option String}

theorem lasts_shows (nav : BorneNavState) (active : Option String) :
    Lasts borneId fun w => w.Shows borneId nav active := by
  intro w w' hquiet h
  rw [World.Shows, hquiet.borne]
  exact h

theorem lasts_inGame : Lasts borneId fun w => w.InGame borneId :=
  fun w w' hquiet ⟨id, hshows, hint⟩ =>
    ⟨id, lasts_shows .inGame (some id) w w' hquiet hshows, hquiet.int id hint⟩

theorem lasts_nav (nav : BorneNavState) : Lasts borneId fun w => (w.borne borneId).nav = nav := by
  intro w w' hquiet h
  rw [hquiet.borne, h]

/-- What lasts is not changed by what happens between two messages. -/
theorem Lasts.happen (hQ : Lasts borneId Q) {pool : TimedExecutions} {h : Happening}
    (hpool : Q pool.state.world ∧ CountdownsApart borneId jobs pool) (hallowed : h.Allowed jobs)
    (hnone : h.request? = none) :
    Q (happen ttl borneId pool h).state.world ∧
      CountdownsApart borneId jobs (happen ttl borneId pool h) := by
  cases h with
  | message e => cases hnone
  | tick tick =>
      obtain ⟨hquiet, hapart⟩ := quiet_tick ttl hpool.2 hallowed
      exact ⟨hQ _ _ hquiet hpool.1, hapart⟩

theorem LeadsTo.nil (hQ : Lasts borneId Q) : LeadsTo ttl borneId jobs Q [] Q :=
  Runs.Leads.nil fun _ _ hpool hallowed hnone => hQ.happen hpool hallowed hnone

theorem step_of_fromScreen {e : Event} (h : e.FromScreen) (w : World) :
    step borneId w e = ((e.program borneId).run (handle { pg := e.pg }) w).2 := by
  obtain ⟨request, clock, uuid, pg⟩ := e
  cases request with
  | countdown task => exact h.elim
  | _ => rfl

/-- One message, then the others. -/
theorem LeadsTo.cons (hQ : Lasts borneId Q) {request : Request} {requests : List Request}
    (hrequest : Event.FromScreen { request })
    (hstep : ∀ w e, e.request = request → e.uuid ≠ "" → Q w → Q' (step borneId w e))
    (h : LeadsTo ttl borneId jobs Q' requests R) :
    LeadsTo ttl borneId jobs Q (request :: requests) R := by
  refine Runs.Leads.cons (fun _ _ hpool hallowed hnone => hQ.happen hpool hallowed hnone) ?_ h
  intro pool happening hpool hallowed hsome
  cases happening with
  | tick tick => cases hsome
  | message e =>
      obtain rfl : e.request = request := Option.some.inj hsome
      refine ⟨?_, hpool.2⟩
      change Q' ((e.program borneId).run (timedHandle ttl { pg := e.pg }) pool.state).2.world
      rw [world_timedRun, ← step_of_fromScreen (e := e) hrequest]
      exact hstep _ e rfl hallowed hpool.1

/-- An intent of the navigation, then the other messages. -/
theorem LeadsTo.intent {action : String} {target : BorneNavState} {requests : List Request}
    (haction : action ≠ playersValidated) (htarget : nextNavState nav action = some target)
    (h : LeadsTo ttl borneId jobs (fun w => w.Shows borneId target
      (if nav = .gameOver ∧ (target = .menu ∨ target = .identification) then none else active))
      requests R) :
    LeadsTo ttl borneId jobs (fun w => w.Shows borneId nav active)
      (.intent action .null :: requests) R :=
  .cons (lasts_shows nav active) trivial
    (fun _ _ he _ hw => shows_intent he haction htarget hw) h

/-- From the end of a game to the menu. -/
theorem leadsTo_backToMenu : LeadsTo ttl borneId jobs (fun w => (w.borne borneId).nav = .gameOver)
    [.intent "BACK_TO_MENU" .null] fun w => w.Shows borneId .menu none :=
  .cons (lasts_nav .gameOver) trivial
    (fun _ _ he _ hw => shows_intent he (by decide) rfl ⟨hw, rfl⟩) (.nil (lasts_shows .menu none))

/-- From a game to the menu. -/
theorem leadsTo_abandon : LeadsTo ttl borneId jobs (fun w => w.InGame borneId)
    [.matchCommand .abandon, .intent "BACK_TO_MENU" .null] fun w => w.Shows borneId .menu none :=
  .cons lasts_inGame trivial (fun _ _ he _ hw => over_abandon he hw) leadsTo_backToMenu

theorem leadsTo_release (active : Option String) :
    LeadsTo ttl borneId jobs (fun w => w.Shows borneId .menu active) (release active)
      fun w => w.Shows borneId .menu none := by
  cases active with
  | none => exact .nil (lasts_shows .menu none)
  | some id =>
      have htarget : nextNavState .menu "START_GAME" = some .identification := rfl
      refine .intent (by decide) htarget ?_
      rw [if_neg (by decide)]
      exact .cons (lasts_shows .identification (some id)) trivial
        (fun _ _ he huuid hw => inGame_validated he huuid hw) leadsTo_abandon

/-- From every screen, where a game on it can be ended. -/
theorem leadsTo_wayOut (nav : BorneNavState) (active : Option String) :
    LeadsTo ttl borneId jobs (fun w => w.Shows borneId nav active ∧ w.CanEnd borneId)
      (wayOut nav active) fun w => w.Shows borneId .menu none := by
  have hshows {requests : List Request} (h : LeadsTo ttl borneId jobs
      (fun w => w.Shows borneId nav active) requests fun w => w.Shows borneId .menu none) :
      LeadsTo ttl borneId jobs (fun w => w.Shows borneId nav active ∧ w.CanEnd borneId) requests
        fun w => w.Shows borneId .menu none :=
    h.of_imp fun _ hpool => ⟨hpool.1.1, hpool.2⟩
  cases nav with
  | menu => exact hshows (leadsTo_release active)
  | inGame =>
      refine leadsTo_abandon.of_imp fun pool hpool => ⟨?_, hpool.2⟩
      obtain ⟨⟨⟨hnav, hactive⟩, hcan⟩, -⟩ := hpool
      obtain ⟨id, hid, hint⟩ := hcan hnav
      exact ⟨id, ⟨hnav, hid⟩, hint⟩
  | gameOver =>
      exact hshows (leadsTo_backToMenu.of_imp fun _ hpool => ⟨hpool.1.1, hpool.2⟩)
  | _ =>
      refine hshows (.intent (by decide) rfl ?_)
      rw [if_neg (by decide)]
      exact leadsTo_release active

end Screens

/-- The requests in flight can go on to their end, whatever the countdowns do. -/
theorem exists_allEnded (ttl : ℕ) (borneId : String) (db : Database) (jobs : List Job)
    (ticks : List Tick) :
    ∃ calls : List ℕ, (∀ i ∈ calls, .call i ∈ ticks ∧ ¬ jobs[i]?.any Job.isCountdown) ∧
      let ticks' := ticks ++ calls.map .call
      AllEnded jobs ticks' (ticks'.foldl (timedStep ttl) (timedExecutions borneId db jobs)) := by
  obtain ⟨calls, hcalls, hends⟩ := Pool.exists_ends (timedHandle ttl)
    (ticks.foldl (timedStep ttl) (timedExecutions borneId db jobs))
    (ticks.filterMap (Tick.request? jobs))
  refine ⟨calls, fun i hi => mem_requests.mp (hcalls i hi), allEnded_iff.mpr fun i hi => ?_⟩
  rw [List.foldl_append, List.foldl_map]
  refine hends i ?_
  rw [List.filterMap_append, List.mem_append] at hi
  rcases hi with hi | hi
  · exact hi
  · obtain ⟨hcall, -⟩ := mem_requests.mp hi
    obtain ⟨j, hj, heq⟩ := List.mem_map.mp hcall
    obtain rfl := Tick.call.inj heq
    exact hcalls j hj

/-- In every interleaving, with sessions that expire, statements that fail and
countdowns that go on at any time, the requests in flight can be handled to their
end; and once they have been, there are messages of a screen that lead to the
menu with no session attached, however they are handled. -/
theorem borne_wayOut {jobs : List Job} (hfresh : FreshIds jobs) (ttl : ℕ) (borneId : String)
    (db : Database) (ticks : List Tick) :
    (∃ calls : List ℕ, (∀ i ∈ calls, .call i ∈ ticks ∧ ¬ jobs[i]?.any Job.isCountdown) ∧
      let ticks' := ticks ++ calls.map .call
      AllEnded jobs ticks' (ticks'.foldl (timedStep ttl) (timedExecutions borneId db jobs))) ∧
    let pool := ticks.foldl (timedStep ttl) (timedExecutions borneId db jobs)
    AllEnded jobs ticks pool →
      ∃ requests : List Request, (∀ request ∈ requests, Event.FromScreen { request }) ∧
        ∀ future : List Happening, (∀ h ∈ future, h.Allowed jobs) →
          future.filterMap Happening.request? = requests →
            let borne := (future.foldl (happen ttl borneId) pool).state.world.borne borneId
            borne.nav = .menu ∧ borne.activeSessionId = none := by
  refine ⟨exists_allEnded ttl borneId db jobs ticks, fun hended => ?_⟩
  obtain ⟨phase, hrun, -⟩ := (exits_init hfresh borneId db).run ttl ticks
  have hcan := canEnd_of_allEnded hfresh ttl borneId db hended
  generalize ticks.foldl (timedStep ttl) (timedExecutions borneId db jobs) = pool at hrun hcan
  have hapart : CountdownsApart borneId jobs pool := by
    intro i c p hi hp
    have hfollow := hrun.follow i c p hp
    rwa [hrun.apart i hi] at hfollow
  let borne := pool.state.world.borne borneId
  refine ⟨wayOut borne.nav borne.activeSessionId, fromScreen_wayOut _ _, ?_⟩
  intro future hallowed hrequests
  exact (leadsTo_wayOut _ _ pool future ⟨⟨⟨rfl, rfl⟩, hcan⟩, hapart⟩
    (Runs.along_of_mem hallowed pool) hrequests).1

/-- The end of a game is relayed with a boolean score, then the leaderboard opened
from it and left. -/
def leaderboardAfterTrue : List Event :=
  relayedTrue ++
    [{ request := .intent "OPEN_LEADERBOARD" .null }, { request := .intent "BACK_TO_MENU" .null }]

/-- Each job makes all its calls, one job after the other. -/
def oneByOne (jobs : List Job) : List Tick :=
  (List.range jobs.length).flatMap fun i => List.replicate 12 (.call i)

/-- A session that cannot be read is attached to the menu, and messages of a screen
release it. -/
theorem borne_wayOut_afterTrue :
    let jobs := leaderboardAfterTrue.map Job.request
    let pool := (oneByOne jobs).foldl (timedStep 10) (timedExecutions "b" {} jobs)
    pool.state.world.borne "b" = ⟨"b", .menu, some "s"⟩ ∧
      pool.state.world.readSession "s" = .error (.python .valueError) ∧
      ∃ requests : List Request, (∀ request ∈ requests, Event.FromScreen { request }) ∧
        ∀ future : List Happening, (∀ h ∈ future, h.Allowed jobs) →
          future.filterMap Happening.request? = requests →
            let borne := (future.foldl (happen 10 "b") pool).state.world.borne "b"
            borne.nav = .menu ∧ borne.activeSessionId = none := by
  intro jobs pool
  exact ⟨by decide +kernel, by decide +kernel,
    (borne_wayOut (by decide +kernel) 10 "b" {} (oneByOne jobs)).2 (by decide +kernel)⟩

end FlipperBack
