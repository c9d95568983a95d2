import FlipperBack.UseCase.FinishAndPersist
import FlipperBack.UseCase.Session

/-!
# Use cases of the borne

The navigation of the three screens, the start of a game from the
identification screen, the match commands sent to the active session, and the
two ends of a game on the borne: the natural one and the one relayed by the
playfield.
-/

namespace FlipperBack

open Effects Python

/-! ## Navigation -/

/-- `_NAV_TRANSITIONS`. -/
def navTransitions : List ((BorneNavState × String) × BorneNavState) :=
  [((.splash, "PRESS_A"), .menu),
    ((.menu, "START_GAME"), .identification),
    ((.menu, "OPEN_LEADERBOARD"), .leaderboard),
    ((.menu, "OPEN_BOUTIQUE"), .boutique),
    ((.menu, "OPEN_SETTINGS"), .settings),
    ((.identification, "BACK_TO_MENU"), .menu),
    ((.boutique, "START_GAME"), .identification),
    ((.boutique, "BACK_TO_MENU"), .menu),
    ((.leaderboard, "BACK_TO_MENU"), .menu),
    ((.settings, "BACK_TO_MENU"), .menu),
    ((.gameOver, "REPLAY"), .identification),
    ((.gameOver, "OPEN_LEADERBOARD"), .leaderboard),
    ((.gameOver, "BACK_TO_MENU"), .menu)]

/-- `next_nav_state`. -/
def nextNavState (current : BorneNavState) (action : String) : Option BorneNavState :=
  navTransitions.lookup (current, action)

/-- The screens of a game. -/
def BorneNavState.ofGame (nav : BorneNavState) : Bool :=
  nav == .inGame || nav == .gameOver

/-- The table never leads to the screens of a game, and leads from the end of
one to the menu, to the identification or to the leaderboard. -/
theorem nextNavState_cases {nav target : BorneNavState} {action : String}
    (h : nextNavState nav action = some target) :
    target.ofGame = false ∧ nav ≠ .inGame ∧
      (nav = .gameOver → target = .menu ∨ target = .identification ∨
        action = "OPEN_LEADERBOARD" ∧ target = .leaderboard) := by
  have hrow : ((nav, action), target) ∈ navTransitions := by
    unfold nextNavState at h
    obtain ⟨l₁, l₂, htable, -⟩ := List.lookup_eq_some_iff.mp h
    rw [htable]
    exact List.mem_append_right _ List.mem_cons_self
  simp only [navTransitions, List.mem_cons, List.not_mem_nil, or_false, Prod.mk.injEq] at hrow
  rcases hrow with h | h | h | h | h | h | h | h | h | h | h | h | h <;>
    obtain ⟨⟨rfl, rfl⟩, rfl⟩ := h <;> decide

/-- `_broadcast_nav`. -/
def broadcastNav (borne : Borne) : UseCase Unit :=
  await (.broadcastToBorne borne.borneId (.navState borne.nav borne.activeSessionId))

/-- `mark_game_over`. -/
def markGameOver (borneId : String) : UseCase Unit := do
  let borne ← await (.borneGetOrCreate borneId)
  if borne.nav = .inGame then
    let borne := { borne with nav := .gameOver }
    await (.borneUpdate borne)
    broadcastNav borne
  else
    return

/-! ## The start of a game -/

/-- `_extract_pseudo`. -/
def extractPseudo (payload : Json) : Option String :=
  match payload with
  | .obj fields =>
      let players : Option String :=
        match fields.lookup "players" with
        | some (.arr (.str player :: _)) => some player
        | _ => none
      match fields.lookup "pseudo" with
      | some (.str pseudo) => if pseudo = "" then players else some pseudo
      | _ => players
  | _ => none

/-- `_extract_mode`: the mode named by the payload, solo where it names none. -/
def extractMode (payload : Json) : GameMode :=
  match payload with
  | .obj fields =>
      match fields.lookup "mode" with
      | some (.str text) => (GameMode.ofValue text).getD .solo
      | _ => .solo
  | _ => .solo

/-- `_start_game`. -/
def startGame (uuid : String) (now : DateTime) (borne : Borne) (payload : Json) :
    UseCase Unit := do
  if borne.nav = .identification then
    match extractPseudo payload with
    | none => return
    | some pseudo =>
        let session ← createSession uuid now pseudo (extractMode payload) none
        let borne := { borne with activeSessionId := some session.sessionId, nav := .inGame }
        await (.borneUpdate borne)
        broadcastNav borne
        let _ ← readyUp [.borne] (some [.borne]) session.sessionId
        return
  else
    return

/-- `_PLAYERS_VALIDATED`. -/
def playersValidated : String := "PLAYERS_VALIDATED"

/-- `ApplyBorneIntentUseCase.execute`; a missing payload is `null`. -/
def applyIntent (uuid : String) (now : DateTime) (borneId : String) (action : String)
    (payload : Json) : UseCase Unit := do
  let borne ← await (.borneGetOrCreate borneId)
  if action = playersValidated then
    startGame uuid now borne payload
  else
    match nextNavState borne.nav action with
    | none => return
    | some target =>
        -- Leaving the end of a game for the navigation releases the session.
        let active :=
          if borne.nav = .gameOver ∧ (target = .menu ∨ target = .identification) then none
          else borne.activeSessionId
        let borne := { borne with activeSessionId := active, nav := target }
        await (.borneUpdate borne)
        broadcastNav borne

/-! ## Match commands -/

/-- The commands `cmd:pause`, `cmd:resume` and `cmd:abandon`. -/
inductive MatchCommand
  | pause
  | resume
  | abandon
  deriving DecidableEq, Repr

/-- `handle_match_command`. -/
def handleMatchCommand (borneId : String) (command : MatchCommand) : UseCase Unit := do
  let borne ← await (.borneGetOrCreate borneId)
  match borne.activeSessionId with
  | none => return
  | some sessionId =>
      match command with
      | .pause => pauseSession [.borne] sessionId
      | .resume => resumeSession [.borne] (some [.borne]) sessionId
      | .abandon =>
          abandonSession [.borne] sessionId
          markGameOver borneId

/-! ## The end of a game -/

/-- `FinishBorneGameUseCase.execute`. -/
def finishBorneGame (clock : Clock) (borneId : String) (sessionId : String) :
    UseCase Unit := do
  let borne ← await (.borneGetOrCreate borneId)
  if borne.activeSessionId = some sessionId then
    markGameOver borneId
    tryCatch (do let _ ← finishAndPersist clock sessionId; pure ()) fun
      | .sessionNotFound _ => return
      | e => throw e
  else
    return

/-- `FinishBorneGameFromRelayUseCase.execute`. -/
def finishBorneGameFromRelay (clock : Clock) (borneId : String) (finalScore : Json) :
    UseCase Unit := do
  let borne ← await (.borneGetOrCreate borneId)
  match borne.activeSessionId with
  | none => markGameOver borneId
  | some sessionId =>
      match ← await (.sessionGet sessionId), finalScore.asPyInt with
      | some session, some score =>
          await (.sessionUpdate { session with score })
          finishBorneGame clock borneId sessionId
      | _, _ => finishBorneGame clock borneId sessionId

/-- `_RELAYABLE_EVENT_TYPES`. -/
def relayableEventTypes : List String := ["score:update", "ball:lost", "game:over", "match:state"]

/-- The relay of an event pushed by the playfield (`_handle_borne_intent`). -/
def relayEvent (clock : Clock) (borneId : String) (event : Dict) : UseCase Unit := do
  match event.get "type" with
  | some (.str type) =>
      if type ∈ relayableEventTypes then
        await (.broadcastToBorne borneId (.relayed event))
        if type = "game:over" then
          finishBorneGameFromRelay clock borneId ((event.get "finalScore").getD .null)
        else
          return
      else
        return
  -- A list or a dict has no hash to be looked up in a frozenset with.
  | some (.arr _) => throw (.python .typeError)
  | some (.obj _) => throw (.python .typeError)
  | _ => return

/-! ## The end of a game writes no session -/

/-- A call that writes no session and pushes no event. -/
def Op.spares : Op → Bool
  | sessionCreate _ => false
  | sessionUpdate _ => false
  | bufferPush _ _ => false
  | _ => true

theorem spares_broadcastNav (borne : Borne) :
    (broadcastNav borne).All fun op => op.spares = true :=
  (Prog.all_perform _ _).mpr rfl

theorem spares_markGameOver (borneId : String) :
    (markGameOver borneId).All fun op => op.spares = true := by
  refine Prog.All.bind ((Prog.all_perform _ _).mpr rfl) fun borne => ?_
  split
  · exact Prog.All.bind ((Prog.all_perform _ _).mpr rfl) fun _ => spares_broadcastNav _
  · trivial

theorem spares_finishAndPersist (clock : Clock) (sessionId : String) :
    (finishAndPersist clock sessionId).All fun op => op.spares = true := by
  refine Prog.All.bind ((Prog.all_perform _ _).mpr rfl) fun found => ?_
  cases found with
  | none => trivial
  | some s =>
      have hlookup : (previousBestFor s.pseudo s.mode).All fun op => op.spares = true :=
        (previousBestFor_isLookup s.pseudo s.mode).mono fun op hop => by
          cases op <;> first | rfl | cases hop
      refine Prog.All.bind ((Prog.all_perform _ _).mpr rfl) fun events => ?_
      refine hlookup.bind fun best => ?_
      refine Prog.All.bind ((Prog.all_perform _ _).mpr rfl) fun ids => ?_
      refine Prog.All.bind ((Prog.all_perform _ _).mpr rfl) fun _ => ?_
      exact Prog.All.bind ((Prog.all_perform _ _).mpr rfl) fun _ => trivial

theorem spares_finishBorneGame (clock : Clock) (borneId sessionId : String) :
    (finishBorneGame clock borneId sessionId).All fun op => op.spares = true := by
  refine Prog.All.bind ((Prog.all_perform _ _).mpr rfl) fun borne => ?_
  split
  · refine (spares_markGameOver borneId).bind fun _ => ?_
    refine Prog.All.tryCatch ((spares_finishAndPersist clock sessionId).bind fun _ => trivial) ?_
    intro e
    cases e <;> trivial
  · trivial

end FlipperBack
