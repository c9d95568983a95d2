import FlipperBack.Properties.GameOver

/-!
# The end of a game relayed late

A `game:over` that the playfield relays does not say which game it ends: the
session that the borne has active when it is handled is given its score, flushed
and taken off the screen. Between the sending and the handling that game may
have been abandoned and another one started. What a relay sent in the game of a
session leaves alone is exactly settled by what is active when it is handled
(`sparesOthers_iff`).
-/

namespace FlipperBack

open Effects Python

/-! ## Relays under way -/

/-- The application, and the events that the playfield has relayed, each with the
session that the borne had active when it was sent. -/
structure Relays where
  world : World := {}
  sent : List (Option String × Dict) := []

/-- What happens: a request is handled, the playfield sends an event, or an event
sent is handled, early or late, once or more. -/
inductive RelayStep
  | request (e : Event)
  | send (event : Dict)
  | handle (i : ℕ) (clock : Clock) (pg : List (Option Bool))

def Relays.step (borneId : String) (r : Relays) : RelayStep → Relays
  | .request e => { r with world := FlipperBack.step borneId r.world e }
  | .send event =>
      { r with sent := r.sent ++ [((r.world.borne borneId).activeSessionId, event)] }
  | .handle i clock pg =>
      match r.sent[i]? with
      | some (_, event) =>
          { r with
            world := FlipperBack.step borneId r.world { request := .relay event, clock, pg } }
      | none => r

/-! ## What a relay should leave alone -/

/-- Of the sessions, of what is buffered for them and of the attempts to persist
them, only those of `id` have changed. -/
structure World.LeavesOthers (id : String) (w w' : World) : Prop where
  sessions : ∀ other, other ≠ id → w'.sessions other = w.sessions other
  buffers : ∀ other, other ≠ id → w'.buffers other = w.buffers other
  persisted : ∃ records, w'.persisted = w.persisted ++ records ∧ ∀ p ∈ records, p.sessionId = id

/-- Nor has the navigation changed while another session is active. -/
structure World.SparesOthers (borneId id : String) (w w' : World) : Prop
    extends World.LeavesOthers id w w' where
  nav : ∀ other, other ≠ id → (w.borne borneId).activeSessionId = some other →
    (w'.borne borneId).nav = (w.borne borneId).nav

/-- The end of a game sent in the game of a session is handled without touching
another one. -/
def SparesOthers (borneId : String) (r : Relays) : RelayStep → Prop
  | .handle i clock pg => ∀ id event, r.sent[i]? = some (some id, event) → isGameOver event →
      World.SparesOthers borneId id r.world (r.step borneId (.handle i clock pg)).world
  | _ => True

/-- The final score that an event relays. -/
def finalScoreOf (event : Dict) : Json :=
  (event.get "finalScore").getD .null

/-- There is no game of another session that the event ends: none is active, or it cannot
be read, or the final score has too many digits to be written, or it is gone and no game is
on the screens. -/
def World.NoOtherGame (w : World) (borneId id : String) (event : Dict) : Prop :=
  ∀ other ∈ (w.borne borneId).activeSessionId, other ≠ id →
    w.unreadable other = true ∨ w.refuses other (finalScoreOf event) = true ∨
      (w.sessions other).isNone ∧ (w.borne borneId).nav ≠ .inGame

instance (w : World) (borneId id : String) (event : Dict) :
    Decidable (w.NoOtherGame borneId id event) :=
  inferInstanceAs (Decidable (∀ other ∈ (w.borne borneId).activeSessionId, other ≠ id →
    w.unreadable other = true ∨ w.refuses other (finalScoreOf event) = true ∨
      (w.sessions other).isNone ∧ (w.borne borneId).nav ≠ .inGame))

/-- The end of a game is handled while there is no game of another session. -/
def HandledInTime (borneId : String) (r : Relays) : RelayStep → Prop
  | .handle i _ _ => ∀ id event, r.sent[i]? = some (some id, event) → isGameOver event →
      r.world.NoOtherGame borneId id event
  | _ => True

/-! ## Acts about one session -/

section Acts

variable {borneId id : String} {w : World}

theorem persisted_act (w : World) (a : Act) :
    ∃ records, (w.act a).persisted = w.persisted ++ records ∧
      ∀ p ∈ records, a.about = some p.sessionId := by
  rw [World.act_persisted]
  cases a with
  | flush pg clock s ids db => exact ⟨[_], rfl, List.forall_mem_singleton.mpr rfl⟩
  | flushFails pg clock s e db => exact ⟨[_], rfl, List.forall_mem_singleton.mpr rfl⟩
  | _ => exact ⟨[], (List.append_nil _).symm, fun _ hp => nomatch hp⟩

theorem World.LeavesOthers.act {w₀ : World} (h : World.LeavesOthers id w₀ w) {a : Act}
    (ha : a.Enabled w) (habout : ∀ other, a.about = some other → other = id) :
    World.LeavesOthers id w₀ (w.act a) where
  sessions other hother :=
    (World.act_sessions_of_ne ha fun heq => hother (habout other heq)).trans (h.sessions other hother)
  buffers other hother :=
    (World.act_buffers_of_ne fun heq => hother (habout other heq)).trans (h.buffers other hother)
  persisted := by
    obtain ⟨records, hrecords, hid⟩ := h.persisted
    obtain ⟨records', hrecords', hid'⟩ := persisted_act w a
    refine ⟨records ++ records', by rw [hrecords', hrecords, List.append_assoc], fun p hp => ?_⟩
    rcases List.mem_append.mp hp with hp | hp
    · exact hid p hp
    · exact habout _ (hid' p hp)

theorem leavesOthers_foldl {acts : List Act}
    (hacts : Runs.Along World.act (fun w a => a.Enabled w) w acts)
    (habout : ∀ a ∈ acts, ∀ other, a.about = some other → other = id) :
    World.LeavesOthers id w (acts.foldl World.act w) :=
  Runs.invariant (I := fun w' => World.LeavesOthers id w w')
    (C := fun w a => a.Enabled w ∧ ∀ other, a.about = some other → other = id)
    (fun _ _ h ha => h.act ha.1 ha.2)
    ⟨fun _ _ => rfl, fun _ _ => rfl, [], (List.append_nil _).symm, fun _ hp => nomatch hp⟩
    (hacts.and (Runs.along_of_mem habout w))

end Acts

/-! ## The acts of a relay -/

section Relay

variable {borneId : String} {w : World} {pg : List (Option Bool)} {clock : Clock} {event : Dict}

theorem andThen_of_nil {p q : Plan} (hp : p w = []) : (p.andThen q) w = q w := by
  rw [Plan.andThen, Runs.andThen, hp]
  rfl

theorem openActs_of_active {active : String}
    (h : (w.borne borneId).activeSessionId = some active) : openActs borneId w = [] := by
  unfold openActs
  cases hborne : w.bornes borneId with
  | none =>
      rw [World.borne, hborne] at h
      cases h
  | some b => rfl

theorem type_of_gameOver (h : isGameOver event = true) :
    event.get "type" = some (.str "game:over") := by
  unfold isGameOver at h
  split at h
  · next type htype => rw [htype, eq_of_beq h]
  · cases h

/-- The end of a game is shown, then it is ended for the session that is active. -/
theorem relayActs_of_gameOver (h : isGameOver event = true) :
    relayActs pg clock borneId event w =
      .display borneId (.relayed event) ::
        finishFromRelayActs pg clock borneId (finalScoreOf event)
          (w.emit (.borne borneId (.relayed event))) := by
  rw [relayActs, type_of_gameOver h]
  rfl

/-- The acts of a relay are about the active session, or about none. -/
theorem about_relayActs {a : Act} (ha : a ∈ relayActs pg clock borneId event w) {other : String}
    (habout : a.about = some other) : (w.borne borneId).activeSessionId = some other := by
  have hclosed {id : String} (hcloses : a.Closes pg clock id) : id = other := by
    cases a with
    | flush pg' clock' s ids db => rw [← hcloses.2.2, Option.some.inj habout]
    | flushFails pg' clock' s e db => rw [← hcloses.2.2, Option.some.inj habout]
    | openBorne _ => cases habout
    | nav _ => cases habout
    | _ => exact hcloses.elim
  rcases mem_relayActs ha with ⟨message, rfl, -⟩ | ⟨s, score, rfl, -, hactive, -⟩ |
    ⟨sessionId, hcloses, hactive | hall⟩
  · cases habout
  · rw [hactive, ← habout]
    rfl
  · rw [hactive, hclosed hcloses]
  · exact absurd ((hclosed (hall "")).trans (hclosed (hall "0")).symm) (by decide)

/-- Where there is nothing to end of the active session, the end of a game is
shown and no more. -/
theorem relayActs_of_nothing (pg : List (Option Bool)) (clock : Clock)
    (h : isGameOver event = true) {active : String}
    (hactive : (w.borne borneId).activeSessionId = some active)
    (hnothing : w.unreadable active = true ∨ w.refuses active (finalScoreOf event) = true ∨
      (w.sessions active).isNone ∧ (w.borne borneId).nav ≠ .inGame) :
    relayActs pg clock borneId event w = [.display borneId (.relayed event)] := by
  rw [relayActs_of_gameOver h]
  refine congrArg _ ?_
  generalize hw₁ : w.emit (.borne borneId (.relayed event)) = w₁
  have hactive₁ : (w₁.borne borneId).activeSessionId = some active := by rw [← hw₁, ← hactive]; rfl
  have hopen := openActs_of_active hactive₁
  rw [finishFromRelayActs, andThen_of_nil hopen, hactive₁]
  dsimp only
  rcases hnothing with hread | hrefuses | ⟨hgone, hnav⟩
  · have hread₁ : w₁.unreadable active = true := by rw [← hw₁]; exact hread
    rw [if_pos (by rw [hread₁, Bool.true_or])]
  · have hrefuses₁ : w₁.refuses active (finalScoreOf event) = true := by rw [← hw₁]; exact hrefuses
    rw [if_pos (by rw [hrefuses₁, Bool.or_true])]
  · have hgone₁ : w₁.seen active = none :=
      World.seen_of_absent (by rw [← hw₁]; exact Option.isNone_iff_eq_none.mp hgone)
    have hnav₁ : (w₁.borne borneId).nav ≠ .inGame := by rw [← hw₁]; exact hnav
    split
    · rfl
    · rw [andThen_of_nil (by rw [scoreActs, hgone₁]), finishBorneGameActs, andThen_of_nil hopen,
        if_pos hactive₁, andThen_of_nil, flushActs, hgone₁]
      rw [markGameOverActs, andThen_of_nil hopen, if_neg hnav₁]

theorem nav_act_gameOver (w : World) {b : Borne} (hid : b.borneId = borneId)
    (hnav : b.nav = .gameOver) : ((w.act (.nav b)).borne borneId).nav ≠ .inGame := by
  subst hid
  change ((w.putBorne b).borne b.borneId).nav ≠ .inGame
  rw [World.borne_putBorne]
  exact fun h => nomatch hnav.symm.trans h

theorem nav_markGameOverActs (borneId : String) (w : World) :
    (((markGameOverActs borneId w).foldl World.act w).borne borneId).nav ≠ .inGame := by
  rw [markGameOverActs, foldl_andThen, borne_openActs]
  split
  · exact nav_act_gameOver _ (World.borneId_borne w borneId) rfl
  · next hnav => rwa [List.foldl_nil, borne_openActs]

theorem borne_flushActs (pg : List (Option Bool)) (clock : Clock) (sessionId borneId : String)
    (w : World) :
    ((flushActs pg clock sessionId w).foldl World.act w).borne borneId = w.borne borneId := by
  unfold flushActs
  split
  · rfl
  · split <;> rfl

/-- A flush of a session that is seen is on record. -/
theorem persisted_flushActs (pg : List (Option Bool)) (clock : Clock) {s : Session}
    (hseen : w.seen s.sessionId = some s) :
    ∃ p, ((flushActs pg clock s.sessionId w).foldl World.act w).persisted = w.persisted ++ [p] ∧
      p.sessionId = s.sessionId := by
  unfold flushActs
  rw [hseen]
  dsimp only
  split <;> exact ⟨_, rfl, rfl⟩

theorem persisted_scoreActs (sessionId : String) (finalScore : Json) (w : World) :
    ((scoreActs sessionId finalScore w).foldl World.act w).persisted = w.persisted := by
  unfold scoreActs
  split <;> rfl

/-- Where there is a game of another session to end, it is ended. -/
theorem noOtherGame_of_spares {id : String} (h : isGameOver event = true)
    (hspares : World.SparesOthers borneId id w
      ((relayActs pg clock borneId event w).foldl World.act w)) :
    w.NoOtherGame borneId id event := by
  intro active hactive hne
  by_contra hsome
  obtain ⟨hread, hsome⟩ := not_or.mp hsome
  obtain ⟨hrefuses, hsome⟩ := not_or.mp hsome
  rw [relayActs_of_gameOver h, List.foldl_cons] at hspares
  change World.SparesOthers borneId id w (List.foldl World.act (w.emit _) _) at hspares
  generalize hw₁ : w.emit (.borne borneId (.relayed event)) = w₁ at hspares
  have hactive₁ : (w₁.borne borneId).activeSessionId = some active := by rw [← hw₁, ← hactive]; rfl
  rw [finishFromRelayActs, andThen_of_nil (openActs_of_active hactive₁), hactive₁] at hspares
  dsimp only at hspares
  have hgoes : ¬ (w₁.unreadable active || w₁.refuses active (finalScoreOf event)) = true := by
    rw [Bool.or_eq_true, ← hw₁]
    exact not_or.mpr ⟨hread, hrefuses⟩
  rw [if_neg hgoes, foldl_andThen] at hspares
  have hborne₂ : (((scoreActs active (finalScoreOf event) w₁).foldl World.act w₁).borne borneId) =
      w₁.borne borneId := borne_scoreActs _
  have hpersisted₂ := persisted_scoreActs active (finalScoreOf event) w₁
  generalize (scoreActs active (finalScoreOf event) w₁).foldl World.act w₁ = w₂
    at hspares hborne₂ hpersisted₂
  have hactive₂ : (w₂.borne borneId).activeSessionId = some active := by rw [hborne₂, hactive₁]
  have hopen₂ := openActs_of_active hactive₂
  rw [finishBorneGameActs, andThen_of_nil hopen₂, if_pos hactive₂, foldl_andThen] at hspares
  by_cases hnav : (w.borne borneId).nav = .inGame
  · have hkept := hspares.nav active hne hactive
    rw [borne_flushActs, hnav] at hkept
    exact nav_markGameOverActs borneId w₂ hkept
  · have hnav₂ : (w₂.borne borneId).nav ≠ .inGame := by rw [hborne₂, ← hw₁]; exact hnav
    rw [markGameOverActs, andThen_of_nil hopen₂, if_neg hnav₂, List.foldl_nil] at hspares
    cases hseen : w₂.seen active with
    | none =>
        have hsame : w₂.sessions active = w.sessions active := by
          have hsessions := hspares.sessions active hne
          rwa [flushActs, hseen] at hsessions
        rw [World.seen_congr hsame] at hseen
        refine hsome ⟨?_, hnav⟩
        rw [absent_of_readable (Bool.eq_false_iff.mpr hread) hseen]
        rfl
    | some s =>
        obtain rfl := World.seen_sessionId hseen
        obtain ⟨p, hp, hid⟩ := persisted_flushActs pg clock hseen
        obtain ⟨records, hrecords, hids⟩ := hspares.persisted
        rw [hp, hpersisted₂, ← hw₁] at hrecords
        rw [← List.append_cancel_left hrecords] at hids
        exact hne (hid.symm.trans (hids p List.mem_cons_self))

end Relay

/-! ## Runs -/

section Runs

variable {borneId id : String} {w : World} {event : Dict} {clock : Clock} {pg : List (Option Bool)}

/-- The end of a game leaves the other sessions alone exactly where there is no
game of another one to end. -/
theorem spares_relay_iff (h : isGameOver event = true) :
    World.SparesOthers borneId id w (step borneId w { request := .relay event, clock, pg }) ↔
      w.NoOtherGame borneId id event := by
  rw [step_eq]
  change World.SparesOthers borneId id w
    ((relayActs pg clock borneId event w).foldl World.act w) ↔ _
  constructor
  · exact noOtherGame_of_spares h
  · intro hnone
    have henabled := relayActs_enabled pg clock borneId event w
    by_cases hother : ∃ active, (w.borne borneId).activeSessionId = some active ∧ active ≠ id
    · obtain ⟨active, hactive, hne⟩ := hother
      have hacts := relayActs_of_nothing pg clock h hactive (hnone active hactive hne)
      unfold Plan.Enabled at henabled
      rw [hacts] at henabled ⊢
      exact ⟨leavesOthers_foldl henabled (by simp [Act.about]), fun _ _ _ => rfl⟩
    · push Not at hother
      refine ⟨leavesOthers_foldl henabled fun a ha other habout =>
        hother other (about_relayActs ha habout), fun other hne hactive => ?_⟩
      exact absurd (hother other hactive) hne

/-- In a run in which the screens send and the application handles the ends of
games in any order, no end of a game sent in the game of a session touches
another session exactly where each is handled while there is no game of another
session to end. -/
theorem sparesOthers_iff (borneId : String) (r : Relays) (steps : List RelayStep) :
    Runs.Along (Relays.step borneId) (SparesOthers borneId) r steps ↔
      Runs.Along (Relays.step borneId) (HandledInTime borneId) r steps := by
  have hstep (r : Relays) (s : RelayStep) : SparesOthers borneId r s ↔ HandledInTime borneId r s := by
    cases s with
    | handle i clock pg =>
        refine forall_congr' fun id => forall_congr' fun event => forall_congr' fun hsent =>
          forall_congr' fun hover => ?_
        rw [Relays.step, hsent]
        exact spares_relay_iff hover
    | _ => exact Iff.rfl
  constructor
  · exact Runs.Along.mono fun r s => (hstep r s).mp
  · exact Runs.Along.mono fun r s => (hstep r s).mpr

end Runs

/-- A game whose end is sent before it is abandoned, and another one started. -/
def newGame : List RelayStep :=
  ((borneGame "s").take 8).map .request ++
    [.send [("type", .str "game:over"), ("finalScore", .int 500)],
      .request { request := .matchCommand .abandon },
      .request { request := .intent "REPLAY" .null, uuid := "r" },
      .request { request := .intent playersValidated (.obj [("pseudo", .str "Zoe")]), uuid := "t" }]

/-- Handled now, the end of the old game ends the new one, which is persisted
with the score of the old one. -/
theorem newGame_ended_by_old :
    let steps := newGame ++ [.handle 0 default []]
    let w := (steps.foldl (Relays.step "b") {}).world
    ¬ Runs.Along (Relays.step "b") (SparesOthers "b") {} steps ∧
      (w.borne "b").nav = .gameOver ∧ (w.borne "b").activeSessionId = some "t" ∧
      w.persisted.map Persisted.sessionId = ["t"] ∧ w.db.games.map GameRow.score = [500] := by
  intro steps w
  refine ⟨fun h => ?_, by decide +kernel, by decide +kernel, by decide +kernel, by decide +kernel⟩
  have hlast := ((Runs.along_append _ _ _ _).mp h).2.1
  have hspares := hlast "s" [("type", .str "game:over"), ("finalScore", .int 500)]
    (by rfl) (by decide +kernel)
  have hnav := hspares.nav "t" (by decide) (by decide +kernel)
  revert hnav
  decide +kernel

end FlipperBack
