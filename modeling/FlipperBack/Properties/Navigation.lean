import FlipperBack.System.Invariants

/-!
# The session of the borne

`Moved` lists the three ways a request moves the borne. By it the screens of the
game are exactly those with a session attached, in every run that never leaves
the end of a game for the leaderboard: that way keeps the session
(`attached_iff`).
-/

namespace FlipperBack

open Effects Python

/-! ## How a request moves the borne -/

/-- What a request can write to the borne. -/
inductive Moved (borneId : String) (w : World) (e : Event) : Borne → Prop
  | gameOver (hrequest : ∀ action payload, e.request ≠ .intent action payload)
      (h : (w.borne borneId).nav = .inGame) :
      Moved borneId w e { w.borne borneId with nav := .gameOver }
  | intent {action : String} {payload : Json} {target : BorneNavState}
      (hrequest : e.request = .intent action payload)
      (htarget : nextNavState (w.borne borneId).nav action = some target) :
      Moved borneId w e ((w.borne borneId).movedTo target)
  | started {payload : Json} (hrequest : e.request = .intent playersValidated payload)
      (h : (w.borne borneId).nav = .identification)
      (hcreate : ∃ s, .create s ∈ e.acts borneId w ∧ s.sessionId = e.uuid) :
      Moved borneId w e { w.borne borneId with activeSessionId := some e.uuid, nav := .inGame }

/-- A borne is seen as it was left, unless an act writes it. -/
theorem World.borne_act {w : World} {a : Act} (ha : a.Enabled w) (borneId : String) :
    (w.act a).borne borneId = w.borne borneId ∨
      ∃ b, a = .nav b ∧ b.borneId = borneId ∧ (w.act a).borne borneId = b.readBack := by
  cases a with
  | nav b =>
      by_cases hid : b.borneId = borneId
      · refine Or.inr ⟨b, rfl, hid, ?_⟩
        subst hid
        exact World.borne_of_stored (w.bornes.get_put_self b)
      · exact Or.inl (World.borne_congr (w.bornes.get_put_of_ne fun heq => hid heq.symm))
  | openBorne borneId' =>
      refine Or.inl ?_
      by_cases hid : borneId' = borneId
      · subst hid
        have hopen := borne_openActs w borneId'
        rw [openActs, show w.bornes borneId' = none from ha] at hopen
        exact hopen
      · exact World.borne_congr (w.bornes.get_put_of_ne (v := { borneId := borneId' })
          fun heq => hid heq.symm)
  | _ => exact Or.inl rfl

theorem World.borne_foldl {acts : List Act} {w : World}
    (hacts : Runs.Along World.act (fun w a => a.Enabled w) w acts) (borneId : String) :
    (acts.foldl World.act w).borne borneId = w.borne borneId ∨
      ∃ b, .nav b ∈ acts ∧ (acts.foldl World.act w).borne borneId = b.readBack := by
  induction acts generalizing w with
  | nil => exact Or.inl rfl
  | cons a acts ih =>
      rw [List.foldl_cons]
      rcases ih hacts.2 with heq | ⟨b, hb, heq⟩
      · rw [heq]
        exact (World.borne_act hacts.1 borneId).imp_right fun ⟨b, hb, _, heq⟩ =>
          ⟨b, hb ▸ List.mem_cons_self, heq⟩
      · exact Or.inr ⟨b, List.mem_cons_of_mem a hb, heq⟩

section Moved

variable {w : World} {b : Borne} {borneId sessionId : String}

theorem nav_mem_markGameOverActs (hb : .nav b ∈ markGameOverActs borneId w) :
    (w.borne borneId).nav = .inGame ∧ b = { w.borne borneId with nav := .gameOver } := by
  rcases mem_andThen hb with hb | ⟨w', rfl, hb⟩
  · cases mem_openActs hb
  · rw [borne_openActs] at hb
    split at hb
    · next hnav =>
        cases List.mem_singleton.mp hb
        exact ⟨hnav, rfl⟩
    · cases hb

theorem nav_not_mem_flushActs {pg : List (Option Bool)} {clock : Clock} :
    .nav b ∉ flushActs pg clock sessionId w := by
  intro hb
  unfold flushActs at hb
  split at hb
  · cases hb
  · split at hb
    · cases List.mem_singleton.mp hb
    · cases List.mem_singleton.mp hb

theorem nav_mem_finishBorneGameActs {pg : List (Option Bool)} {clock : Clock}
    (hb : .nav b ∈ finishBorneGameActs pg clock borneId sessionId w) :
    (w.borne borneId).nav = .inGame ∧ b = { w.borne borneId with nav := .gameOver } := by
  rcases mem_andThen hb with hb | ⟨w', rfl, hb⟩
  · cases mem_openActs hb
  · split at hb
    · rcases mem_andThen hb with hb | ⟨w'', rfl, hb⟩
      · have hnav := nav_mem_markGameOverActs hb
        rwa [borne_openActs] at hnav
      · exact absurd hb nav_not_mem_flushActs
    · cases hb

theorem borne_switchActs (via : Switch) (broadcaster : Broadcaster) :
    ((switchActs via broadcaster sessionId w).foldl World.act w).borne borneId =
      w.borne borneId := by
  unfold switchActs
  split
  · rfl
  · split <;> rfl

theorem borne_scoreActs (finalScore : Json) :
    ((scoreActs sessionId finalScore w).foldl World.act w).borne borneId = w.borne borneId := by
  unfold scoreActs
  split <;> rfl

theorem nav_mem_relayActs {pg : List (Option Bool)} {clock : Clock} {event : Dict}
    (hb : .nav b ∈ relayActs pg clock borneId event w) :
    (w.borne borneId).nav = .inGame ∧ b = { w.borne borneId with nav := .gameOver } := by
  unfold relayActs at hb
  split at hb
  · split at hb
    · rcases mem_andThen hb with hb | ⟨w', rfl, hb⟩
      · cases List.mem_singleton.mp hb
      · split at hb
        · rcases mem_andThen hb with hb | ⟨w', rfl, hb⟩
          · cases mem_openActs hb
          · rw [borne_openActs] at hb
            split at hb
            · have hnav := nav_mem_markGameOverActs hb
              rwa [borne_openActs] at hnav
            · split at hb
              · cases hb
              · rcases mem_andThen hb with hb | ⟨w', rfl, hb⟩
                · unfold scoreActs at hb
                  split at hb
                  · cases List.mem_singleton.mp hb
                  · cases hb
                · have hnav := nav_mem_finishBorneGameActs hb
                  rwa [borne_scoreActs, borne_openActs] at hnav
        · cases hb
    · cases hb
  · cases hb

theorem nav_mem_mqttActs {pg : List (Option Bool)} {clock : Clock} {broadcaster : Broadcaster}
    {topic : String} {payload : Option Json}
    (hb : .nav b ∈ mqttActs pg clock borneId broadcaster topic payload w) :
    (w.borne borneId).nav = .inGame ∧ b = { w.borne borneId with nav := .gameOver } := by
  unfold mqttActs at hb
  split at hb
  · split at hb
    · split at hb
      · cases List.mem_singleton.mp hb
      · cases hb
    · unfold mqttEventActs at hb
      split at hb
      · cases hb
      · split at hb
        · cases hb
        · split at hb
          · split at hb
            · split at hb
              · rcases mem_andThen hb with hb | ⟨w', rfl, hb⟩
                · cases List.mem_singleton.mp hb
                · dsimp only at hb
                  split at hb
                  · have hnav := nav_mem_finishBorneGameActs hb
                    exact hnav
                  · cases hb
              · cases hb
            · cases hb
          · cases hb
  · cases hb

theorem nav_mem_matchCommandActs {command : MatchCommand}
    (hb : .nav b ∈ matchCommandActs borneId command w) :
    (w.borne borneId).nav = .inGame ∧ b = { w.borne borneId with nav := .gameOver } := by
  rcases mem_andThen hb with hb | ⟨w', rfl, hb⟩
  · cases mem_openActs hb
  · split at hb
    · cases hb
    · split at hb
      · rcases mem_andThen hb with hb | ⟨w'', rfl, hb⟩
        · obtain ⟨s, hs, -⟩ := mem_switchActs hb
          cases hs
        · have hnav := nav_mem_markGameOverActs hb
          rwa [borne_switchActs, borne_openActs] at hnav
      · obtain ⟨s, hs, -⟩ := mem_switchActs hb
        cases hs

/-- The borne is written as a request moves it. -/
theorem moved_of_mem_acts {e : Event} (hb : .nav b ∈ e.acts borneId w) : Moved borneId w e b := by
  have hover (hrequest : ∀ action payload, e.request ≠ .intent action payload)
      (h : (w.borne borneId).nav = .inGame ∧ b = { w.borne borneId with nav := .gameOver }) :
      Moved borneId w e b := h.2 ▸ .gameOver hrequest h.1
  have hyields := acts_yields hb
  obtain ⟨request, clock, uuid, pg⟩ := e
  cases request with
  | mqtt broadcaster topic payload => exact hover (fun _ _ h => by cases h) (nav_mem_mqttActs hb)
  | relay event => exact hover (fun _ _ h => by cases h) (nav_mem_relayActs hb)
  | matchCommand command => exact hover (fun _ _ h => by cases h) (nav_mem_matchCommandActs hb)
  | finish sessionId => exact absurd hb nav_not_mem_flushActs
  | intent action payload =>
      have hintent : .nav b ∈ intentActs uuid clock.now borneId action payload w := hb
      rcases mem_andThen hintent with hopen | ⟨w', rfl, hmem⟩
      · cases mem_openActs hopen
      · split at hmem
        · next haction =>
            subst haction
            unfold startGameActs at hmem
            rw [borne_openActs] at hmem
            split at hmem
            · next hnav =>
                split at hmem
                · cases hmem
                · next pseudo hpseudo =>
                  split at hmem
                  · cases hmem
                  · next valid hvalid =>
                    simp only [List.mem_cons, List.not_mem_nil, or_false, reduceCtorEq,
                      false_or] at hmem
                    obtain rfl := Act.nav.inj hmem
                    refine .started rfl hnav
                      ⟨newSession uuid clock.now valid (extractMode payload) none,
                        List.mem_append_right _ ?_, rfl⟩
                    dsimp only
                    rw [if_pos rfl, startGameActs, borne_openActs, if_pos hnav, hpseudo]
                    dsimp only
                    rw [hvalid]
                    exact List.mem_cons_self
            · cases hmem
        · rw [borne_openActs] at hmem
          split at hmem
          · cases hmem
          · next target htarget =>
              obtain rfl := Act.nav.inj (List.mem_singleton.mp hmem)
              exact .intent rfl htarget
  | _ => exact hyields.elim

end Moved

/-! ## The screens of the game -/

/-- A session is attached on the screens of a game, and only there. -/
def Attached (nav : BorneNavState) (activeSessionId : Option String) : Prop :=
  activeSessionId.isSome ↔ nav.ofGame

instance (nav : BorneNavState) (activeSessionId : Option String) :
    Decidable (Attached nav activeSessionId) :=
  inferInstanceAs (Decidable (_ ↔ _))

/-- The navigation broadcast to the screens has a session attached as it
should. -/
def Emission.Attached : Emission → Prop
  | borne _ (.navState nav sessionId) => FlipperBack.Attached nav sessionId
  | _ => True

/-- The borne, and all it has broadcast. -/
structure World.Attached (w : World) (borneId : String) : Prop where
  borne : FlipperBack.Attached (w.borne borneId).nav (w.borne borneId).activeSessionId
  outbox : ∀ e ∈ w.outbox, e.Attached

/-- The leaderboard is opened from the end of a game. -/
def OpensLeaderboardAtGameOver (borneId : String) (w : World) (e : Event) : Prop :=
  match e.request with
  | .intent action _ => action = "OPEN_LEADERBOARD" ∧ (w.borne borneId).nav = .gameOver
  | _ => False

instance (borneId : String) (w : World) :
    (e : Event) → Decidable (OpensLeaderboardAtGameOver borneId w e)
  | { request := .intent action _, .. } =>
      inferInstanceAs (Decidable (action = "OPEN_LEADERBOARD" ∧ (w.borne borneId).nav = .gameOver))
  | { request := .createSession _ _ _, .. } => isFalse id
  | { request := .readyUp _ _, .. } => isFalse id
  | { request := .sessionCommand _ _ _, .. } => isFalse id
  | { request := .mqtt _ _ _, .. } => isFalse id
  | { request := .finish _, .. } => isFalse id
  | { request := .matchCommand _, .. } => isFalse id
  | { request := .relay _, .. } => isFalse id
  | { request := .countdown _, .. } => isFalse id

section Moved

variable {borneId : String} {w : World} {e : Event} {b : Borne}

/-- The borne is read as it was moved. -/
theorem Moved.readBack (h : Moved borneId w e b) (hfresh : e.Fresh w) : b.readBack = b := by
  refine Borne.readBack_of_ne ?_
  cases h with
  | gameOver hrequest hnav => exact w.activeSessionId_borne borneId
  | intent hrequest htarget =>
      unfold Borne.movedTo
      dsimp only
      split
      · exact fun h => by cases h
      · exact w.activeSessionId_borne borneId
  | started hrequest hnav hcreate =>
      intro heq
      have hne : e.uuid ≠ "" := by
        unfold Event.Fresh at hfresh
        rw [hrequest] at hfresh
        exact hfresh.1
      exact hne (Option.some.inj heq)

theorem Moved.attached (h : Moved borneId w e b)
    (hw : Attached (w.borne borneId).nav (w.borne borneId).activeSessionId)
    (hleaderboard : ¬ OpensLeaderboardAtGameOver borneId w e) :
    Attached b.nav b.activeSessionId := by
  cases h with
  | gameOver hrequest hnav =>
      rw [Attached, hnav] at hw
      exact hw
  | started hrequest hnav hcreate => exact ⟨fun _ => rfl, fun _ => rfl⟩
  | intent hrequest htarget =>
      obtain ⟨htargetGame, hnav, hover⟩ := nextNavState_cases htarget
      unfold Attached Borne.movedTo
      dsimp only
      rw [htargetGame]
      by_cases hgame : (w.borne borneId).nav = .gameOver
      · rcases hover hgame with h | h | ⟨haction, -⟩
        · rw [if_pos ⟨hgame, Or.inl h⟩]
          rfl
        · rw [if_pos ⟨hgame, Or.inr h⟩]
          rfl
        · refine absurd ?_ hleaderboard
          rw [OpensLeaderboardAtGameOver, hrequest]
          exact ⟨haction, hgame⟩
      · rw [if_neg fun h => hgame h.1]
        have hnone : (w.borne borneId).nav.ofGame = false := by
          revert hnav hgame
          cases (w.borne borneId).nav <;> decide
        rw [Attached, hnone] at hw
        exact hw

end Moved

/-! ## Steps -/

section Steps

variable {borneId : String} {w : World} {e : Event}

/-- What a request shows on the screens of the borne beside their navigation. -/
theorem isNav_of_mem_acts {id : String} {message : BorneMessage}
    (ha : .display id message ∈ e.acts borneId w) : message.isNav = false := by
  have hyields := acts_yields ha
  obtain ⟨request, clock, uuid, pg⟩ := e
  cases request with
  | mqtt broadcaster topic payload => exact hyields
  | relay event => exact hyields
  | _ => exact hyields.elim

theorem attached_step (h : w.Attached borneId) (hfresh : e.Fresh w)
    (hleaderboard : ¬ OpensLeaderboardAtGameOver borneId w e) :
    (step borneId w e).Attached borneId := by
  have hmoved {b : Borne} (hb : .nav b ∈ e.acts borneId w) : Attached b.nav b.activeSessionId :=
    (moved_of_mem_acts hb).attached h.borne hleaderboard
  rw [step_eq]
  constructor
  · rcases World.borne_foldl (acts_enabled hfresh borneId) borneId with heq | ⟨b, hb, heq⟩
    · rw [heq]
      exact h.borne
    · rw [heq, (moved_of_mem_acts hb).readBack hfresh]
      exact hmoved hb
  · refine Runs.invariant (I := fun w => ∀ e ∈ w.outbox, e.Attached) (fun w₁ a hw₁ ha => ?_)
      h.outbox (Runs.along_of_mem (P := fun a => a ∈ e.acts borneId w) (fun a ha => ha) w)
    intro emission hemission
    rw [World.act_outbox] at hemission
    rcases List.mem_append.mp hemission with hemission | hemission
    · exact hw₁ emission hemission
    · cases a with
      | nav b =>
          obtain rfl := List.mem_singleton.mp hemission
          exact hmoved ha
      | display id message =>
          obtain rfl := List.mem_singleton.mp hemission
          have hnav := isNav_of_mem_acts ha
          cases message with
          | navState nav sessionId => cases hnav
          | _ => trivial
      | switch via broadcaster s =>
          obtain rfl := List.mem_singleton.mp hemission
          trivial
      | event broadcaster now event s s' message =>
          obtain ⟨message', -, rfl⟩ := List.mem_map.mp hemission
          trivial
      | tick t value values =>
          obtain rfl := List.mem_singleton.mp hemission
          trivial
      | start t s =>
          obtain rfl := List.mem_singleton.mp hemission
          trivial
      | _ => cases hemission

theorem borne_intentActs {uuid action : String} {now : DateTime} {payload : Json}
    {target : BorneNavState} (haction : action ≠ playersValidated)
    (htarget : nextNavState (w.borne borneId).nav action = some target) :
    ((intentActs uuid now borneId action payload w).foldl World.act w).borne borneId =
      ((w.borne borneId).movedTo target).readBack := by
  rw [intentActs, foldl_andThen, if_neg haction, borne_openActs, htarget]
  have hid : ((w.borne borneId).movedTo target).borneId = borneId := w.borneId_borne borneId
  refine World.borne_of_stored ?_
  have hput := ((openActs borneId w).foldl World.act w).bornes.get_put_self
    ((w.borne borneId).movedTo target)
  rw [hid] at hput
  exact hput

/-- The leaderboard keeps the session of the game it is opened from. -/
theorem not_attached_of_opensLeaderboard (h : w.Attached borneId)
    (hleaderboard : OpensLeaderboardAtGameOver borneId w e) :
    ¬ (step borneId w e).Attached borneId := by
  intro hattached
  have hafter := hattached.borne
  have hbefore := h.borne
  obtain ⟨request, clock, uuid, pg⟩ := e
  cases request with
  | intent action payload =>
      obtain ⟨haction, hnav⟩ := hleaderboard
      obtain rfl : action = "OPEN_LEADERBOARD" := haction
      have hmoved : ((intentActs uuid clock.now borneId "OPEN_LEADERBOARD" payload w).foldl
          World.act w).borne borneId = ((w.borne borneId).movedTo .leaderboard).readBack :=
        borne_intentActs (by decide) (by rw [hnav]; rfl)
      have hkept : ((w.borne borneId).movedTo .leaderboard).activeSessionId =
          (w.borne borneId).activeSessionId := if_neg (by simp)
      rw [step_eq, Event.acts, hmoved,
        Borne.readBack_of_ne (hkept ▸ w.activeSessionId_borne borneId), Attached, hkept] at hafter
      rw [Attached, hnav] at hbefore
      have hleft : BorneNavState.leaderboard.ofGame = true := hafter.mp (hbefore.mpr rfl)
      exact absurd hleft (by decide)
  | _ => exact hleaderboard.elim

end Steps

/-! ## Runs -/

/-- In a run, the borne has a session attached exactly on the screens of a game,
and broadcasts it so, as long as the leaderboard is not opened from the end of a
game, and no longer. -/
theorem attached_iff (borneId : String) (db : Database) (evs : List Event)
    (hfresh : Runs.Along (step borneId) (fun w e => e.Fresh w) { db } evs) :
    Runs.Along (step borneId) (fun w e => (step borneId w e).Attached borneId) { db } evs ↔
      Runs.Along (step borneId) (fun w e => ¬ OpensLeaderboardAtGameOver borneId w e) { db }
        evs := by
  have hinit : World.Attached { db } borneId :=
    ⟨(by decide : Attached .splash none), fun e he => by cases he⟩
  constructor
  · intro h
    exact h.imp (I := fun w => World.Attached w borneId) (fun w e _ hstep => hstep)
      (fun w e hw hstep hleaderboard => not_attached_of_opensLeaderboard hw hleaderboard hstep)
      hinit
  · intro h
    exact (hfresh.and h).imp (I := fun w => World.Attached w borneId)
      (fun w e hw he => attached_step hw he.1 he.2) (fun w e hw he => attached_step hw he.1 he.2)
      hinit

/-- A game abandoned, then the leaderboard and the menu. -/
def leaderboardAfterGame : List Event :=
  borneGame "s" ++ [{ request := .intent "OPEN_LEADERBOARD" .null, uuid := "3" },
    { request := .intent "BACK_TO_MENU" .null, uuid := "4" }]

theorem attached_iff_leaderboardAfterGame :
    Runs.Along (step "b") (fun w e => (step "b" w e).Attached "b") {} leaderboardAfterGame ↔
      Runs.Along (step "b") (fun w e => ¬ OpensLeaderboardAtGameOver "b" w e) {}
        leaderboardAfterGame :=
  attached_iff "b" {} leaderboardAfterGame (by decide +kernel)

/-- By way of the leaderboard, the menu still carries the session of the game. -/
theorem leaderboard_keeps_session :
    let w := leaderboardAfterGame.foldl (step "b") {}
    Runs.Along (step "b") (fun w e => e.Fresh w) {} leaderboardAfterGame ∧
      (w.borne "b").nav = .menu ∧ (w.borne "b").activeSessionId = some "s" ∧
      ¬ w.Attached "b" := by
  intro w
  have hnav : (w.borne "b").nav = .menu := by decide +kernel
  have hactive : (w.borne "b").activeSessionId = some "s" := by decide +kernel
  refine ⟨by decide +kernel, hnav, hactive, fun h => ?_⟩
  have hattached := h.borne
  rw [hnav, hactive] at hattached
  exact absurd hattached (by decide)

end FlipperBack
