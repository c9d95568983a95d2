import FlipperBack.Properties.FitsColumns
import FlipperBack.Properties.GameOver
import FlipperBack.Properties.Readable
import FlipperBack.Transport.Handler

/-!
# What a message of a screen can do

A message of a screen is malformed, refused in the state it finds, or obeyed.
Malformed and refused messages are meant to be ignored, and no message to raise.
`handled_iff` says exactly when both hold: an invalid pseudo, a type that cannot
be hashed, an active session that cannot be read and an end of game that cannot
be flushed raise, and an abandon that is refused still ends the game on the
screens.
-/

namespace FlipperBack

open Effects Python

/-! ## Refused messages -/

/-- The request that a message is routed to, `none` where it is malformed. -/
def screenRequest (payload : Json) : Option Request :=
  match payload with
  | .obj payload =>
      match Dict.get payload "type" with
      | some (.str type) =>
          if type = "intent" then
            match Dict.get payload "action" with
            | some (.str action) => some (.intent action ((Dict.get payload "payload").getD .null))
            | _ => none
          else
            match matchCommands.lookup type with
            | some command => some (.matchCommand command)
            | none =>
                if type = "borne:relay" then
                  match Dict.get payload "event" with
                  | some (.obj event) => some (.relay event)
                  | _ => none
                else
                  none
      | _ => none
  | _ => none

/-- A message runs the request it is routed to, and nothing where it is
malformed. -/
theorem handleBorneIntent_eq (uuid : String) (clock : Clock) (borneId : String) (payload : Json) :
    handleBorneIntent uuid clock borneId (.ok payload) =
      match screenRequest payload with
      | some request => Event.program borneId { request, clock, uuid }
      | none => pure () := by
  cases payload with
  | obj payload =>
      unfold handleBorneIntent screenRequest
      dsimp only
      cases Dict.get payload "type" with
      | none => rfl
      | some type =>
          cases type with
          | str type =>
              dsimp only
              split
              · cases Dict.get payload "action" with
                | none => rfl
                | some action => cases action <;> rfl
              · cases matchCommands.lookup type with
                | some command => rfl
                | none =>
                    dsimp only
                    split
                    · cases Dict.get payload "event" with
                      | none => rfl
                      | some event => cases event <;> rfl
                    · rfl
          | _ => rfl
  | _ => rfl

/-- The valid pseudo that the players have entered. -/
def validPseudo (payload : Json) : Option String :=
  (extractPseudo payload).bind fun pseudo => (normalizeAndValidate pseudo).toOption

/-- Whether the type of a relayed event is one that is passed on. -/
def isRelayable (event : Dict) : Bool :=
  match event.get "type" with
  | some (.str type) => relayableEventTypes.contains type
  | _ => false

/-- A request that is not allowed in the state it finds: an intent that the
screen shown has no transition for, players validated elsewhere than on the
identification or without a valid pseudo, a command that the status of the active
session does not allow, an event that is not passed on. -/
def Refused (borneId : String) (w : World) : Request → Prop
  | .intent action payload =>
      if action = playersValidated then
        (w.borne borneId).nav = .identification → validPseudo payload = none
      else
        nextNavState (w.borne borneId).nav action = none
  | .matchCommand command => ∀ id s, (w.borne borneId).activeSessionId = some id →
      w.seen id = some s → command.toSwitch.allowed s.status = false
  | .relay event => isRelayable event = false
  | _ => False

/-- A message that is malformed or not allowed. -/
def RefusedMessage (borneId : String) (w : World) : Except LoadsError Json → Prop
  | .error _ => True
  | .ok payload => ∀ request, screenRequest payload = some request → Refused borneId w request

/-- The bornes as they are read, the sessions and their buffers, the database,
the broadcasts and the countdowns are the same. -/
structure Unchanged (w w' : World) : Prop where
  bornes : ∀ id, w'.borne id = w.borne id
  sessions : w'.sessions = w.sessions
  buffers : w'.buffers = w.buffers
  db : w'.db = w.db
  outbox : w'.outbox = w.outbox
  tasks : w'.tasks = w.tasks

/-- The type of an event can be looked up in a set. -/
def hashableType (event : Dict) : Bool :=
  match event.get "type" with
  | some (.arr _) => false
  | some (.obj _) => false
  | _ => true

/-- What a request must find in order to be handled: a pseudo that is valid where
it is looked at, a type that can be hashed, an active session that can be read
where it is needed, with values that fit their columns where it is flushed, and
that can be abandoned where the abandon ends a game. -/
def Handleable (borneId : String) (w : World) : Request → Prop
  | .intent action payload => action = playersValidated →
      (w.borne borneId).nav = .identification →
        ∀ pseudo, extractPseudo payload = some pseudo → (normalizeAndValidate pseudo).isOk
  | .matchCommand command => ∀ id, (w.borne borneId).activeSessionId = some id →
      w.unreadable id = false ∧ (command = .abandon → (w.borne borneId).nav = .inGame →
        ∃ s, w.seen id = some s ∧ terminatableStates.contains s.status)
  | .relay event => hashableType event ∧ (isGameOver event →
      ∀ id, (w.borne borneId).activeSessionId = some id →
        w.unreadable id = false ∧ ∀ s, w.seen id = some s →
          ((relayedScore event).getD s.score).isInt ∧
            FitsColumns ((relayedScore event).getD s.score) (w.buffers id))
  | _ => True

/-- The same of a message: `json.loads` raises no other error than the one that
is caught, and the request it is routed to can be handled. -/
def HandleableMessage (borneId : String) (w : World) : Except LoadsError Json → Prop
  | .error .jsonDecodeError => True
  | .error (.other _) => False
  | .ok payload => ∀ request, screenRequest payload = some request → Handleable borneId w request

/-! ## What raises -/

section Results

variable {ctx : Context} {w : World} {borneId : String}

theorem readable_iff_isOk {α : Type} {id : String} (f : Option Session → α) :
    ((w.readSession id).map f).isOk ↔ w.unreadable id = false := by
  unfold World.unreadable
  cases w.readSession id <;> simp [Except.map, Except.isOk, Except.toBool]

theorem isOk_startGame (uuid : String) (now : DateTime)
    (payload : Json) :
    ((startGame uuid now (w.borne borneId) payload).run (handle ctx) w).1.isOk ↔
      ((w.borne borneId).nav = .identification → ∀ pseudo, extractPseudo payload = some pseudo →
        (normalizeAndValidate pseudo).isOk) := by
  unfold startGame
  by_cases hnav : (w.borne borneId).nav = .identification
  · rw [if_pos hnav]
    simp only [hnav, forall_const]
    cases extractPseudo payload with
    | none => simp [Except.isOk, Except.toBool]
    | some pseudo =>
        dsimp only
        rw [Prog.run_bind, run_createSession, createActs]
        cases hvalid : normalizeAndValidate pseudo with
        | error e => simp [hvalid, Except.isOk, Except.toBool, Except.map]
        | ok valid =>
            let s := newSession uuid now valid (extractMode payload) none
            let b : Borne := { w.borne borneId with activeSessionId := some uuid, nav := .inGame }
            have hseen : ((w.act (.create s)).act (.nav b)).seen uuid = some s :=
              seen_started w (s := s) newSession_readable rfl
            have hread : ((w.act (.create s)).act (.nav b)).readSession uuid = .ok (some s) := by
              rw [unreadable_eq_false (unreadable_of_seen hseen), hseen]
            change ((readyUp [.borne] (some [.borne]) uuid >>= fun _ => pure ()).run (handle ctx)
              ((w.act (.create s)).act (.nav b))).1.isOk ↔ _
            rw [Prog.run_bind, readyUp, Prog.run_bind, Prog.run_perform, handle, hread]
            dsimp only
            rw [Prog.run_bind, Prog.run_perform, handle_switch hseen]
            refine iff_of_true rfl ?_
            intro pseudo' heq
            rw [← Option.some.inj heq, hvalid]
            rfl
  · rw [if_neg hnav]
    exact iff_of_true rfl fun h => absurd h hnav

theorem isOk_applyIntent (uuid : String) (now : DateTime)
    (action : String) (payload : Json) :
    ((applyIntent uuid now borneId action payload).run (handle ctx) w).1.isOk ↔
      (action = playersValidated → (w.borne borneId).nav = .identification →
        ∀ pseudo, extractPseudo payload = some pseudo → (normalizeAndValidate pseudo).isOk) := by
  rw [applyIntent, Prog.run_bind, Prog.run_perform, handle_borneGetOrCreate]
  have hborne := borne_openActs w borneId
  generalize (openActs borneId w).foldl World.act w = w₁ at hborne ⊢
  rw [← hborne]
  dsimp only
  by_cases haction : action = playersValidated
  · rw [if_pos haction, isOk_startGame]
    exact (imp_iff_right haction).symm
  · rw [if_neg haction]
    refine iff_of_true ?_ fun h => absurd h haction
    cases nextNavState (w₁.borne borneId).nav action <;> rfl

theorem isOk_handleMatchCommand (hctx : ctx.task = none) (command : MatchCommand) :
    ((handleMatchCommand borneId command).run (handle ctx) w).1.isOk ↔
      ∀ id, (w.borne borneId).activeSessionId = some id → w.unreadable id = false := by
  rw [handleMatchCommand, Prog.run_bind, Prog.run_perform, handle_borneGetOrCreate]
  obtain ⟨hsessions, -⟩ := foldl_openActs borneId w
  have hread (id : String) : ((openActs borneId w).foldl World.act w).unreadable id =
      w.unreadable id := by
    rw [World.unreadable, World.unreadable, World.readSession, World.readSession, hsessions]
  generalize (openActs borneId w).foldl World.act w = w₁ at hread ⊢
  dsimp only
  cases (w.borne borneId).activeSessionId with
  | none => exact iff_of_true rfl fun id h => by cases h
  | some id =>
      simp only [Option.some.injEq, forall_eq', ← hread]
      cases command with
      | pause =>
          dsimp only
          rw [run_pauseSession ctx w₁ hctx]
          exact readable_iff_isOk _
      | resume =>
          dsimp only
          rw [run_resumeSession ctx w₁ hctx]
          exact readable_iff_isOk _
      | abandon =>
          dsimp only
          rw [Prog.run_bind, run_abandonSession ctx w₁ hctx, ← readable_iff_isOk fun _ => ()]
          cases w₁.readSession id with
          | error e => rfl
          | ok s => simp [Except.map, run_markGameOver]

theorem isOk_finishBorneGame (hpg : ∀ x ∈ ctx.pg, x = none) (clock : Clock) {id : String}
    (hactive : (w.borne borneId).activeSessionId = some id) :
    ((finishBorneGame clock borneId id).run (handle ctx) w).1.isOk ↔
      w.unreadable id = false ∧ ∀ s, w.seen id = some s → FitsColumns s.score (w.buffers id) := by
  rw [finishBorneGame, Prog.run_bind, Prog.run_perform, handle_borneGetOrCreate]
  obtain ⟨hsessions, hbuffers⟩ := foldl_openActs borneId w
  generalize (openActs borneId w).foldl World.act w = w₁ at hsessions hbuffers ⊢
  dsimp only
  rw [if_pos hactive, Prog.run_bind, run_markGameOver]
  obtain ⟨hsessions₁, hbuffers₁⟩ := foldl_markGameOverActs borneId w₁
  generalize (markGameOverActs borneId w₁).foldl World.act w₁ = w₂ at hsessions₁ hbuffers₁ ⊢
  have hread : w.readSession id = w₂.readSession id := by
    rw [World.readSession, World.readSession, hsessions₁, hsessions]
  rw [World.unreadable, World.seen, hread, ← hbuffers, ← hbuffers₁]
  dsimp only
  change (Prog.run (handle ctx) (Prog.tryCatch (finishAndPersist clock id >>= fun _ => pure ())
    _) w₂).1.isOk ↔ _
  rw [Prog.run_tryCatch, Prog.run_bind]
  rcases w₂.readSession_cases id with hok | ⟨-, e, herror⟩
  · rw [hok]
    dsimp only
    cases hseen : w₂.seen id with
    | none =>
        rw [hseen] at hok
        rw [finishAndPersist, Prog.run_bind, Prog.run_perform, handle, hok]
        exact iff_of_true rfl ⟨rfl, fun s hs => by cases hs⟩
    | some s =>
        simp only [Option.some.injEq, forall_eq', true_and]
        rcases finishAndPersist_cases hpg clock hseen with ⟨hfits, hok⟩ | ⟨hfits, e, he, herror⟩
        · refine iff_of_true ?_ hfits
          rcases hrun : (finishAndPersist clock id).run (handle ctx) w₂ with ⟨_ | _, w₃⟩
          · rw [hrun] at hok
            cases hok
          · rfl
        · refine iff_of_false ?_ hfits
          rcases hrun : (finishAndPersist clock id).run (handle ctx) w₂ with ⟨e' | _, w₃⟩
          · rw [hrun] at herror
            obtain rfl := Except.error.inj herror
            dsimp only
            cases e' with
            | sessionNotFound message => cases he
            | _ => exact Bool.false_ne_true
          · rw [hrun] at herror
            cases herror
  · rw [finishAndPersist, Prog.run_bind, Prog.run_perform, handle, herror]
    dsimp only
    refine iff_of_false ?_ fun h => by cases h.1
    rw [World.readSession_eq] at herror
    cases hs : w₂.sessions id with
    | none =>
        rw [hs] at herror
        cases herror
    | some s₀ =>
        rw [hs] at herror
        dsimp only at herror
        by_cases hreadable : s₀.readable
        · rw [Session.readBack_of_readable hreadable] at herror
          cases herror
        · rw [Session.readBack_of_not_readable hreadable] at herror
          obtain rfl := Except.error.inj herror
          exact Bool.false_ne_true

/-- What is read of a session once its score is set. -/
theorem readSession_putSession {s : Session} (hs : w.seen s.sessionId = some s) (n : PyInt) :
    (w.putSession { s with score := n }).readSession s.sessionId =
      if ({ s with score := n } : Session).readable then .ok (some { s with score := n })
      else .error (.python .valueError) := by
  obtain ⟨s₀, hs₀, -, hroom⟩ := World.seen_eq_some.mp hs
  have hroom : noneIfEmpty s.roomCode = s.roomCode := by
    rw [hroom]
    exact noneIfEmpty_idem _
  have hput : (w.putSession { s with score := n }).sessions s.sessionId =
      some { s with score := n } := w.sessions.get_put_self ({ s with score := n } : Session)
  rw [World.readSession_eq, hput]
  dsimp only
  by_cases hreadable : ({ s with score := n } : Session).readable
  · rw [if_pos hreadable, Session.readBack_of_readable hreadable]
    dsimp only
    rw [hroom]
    rfl
  · rw [if_neg hreadable, Session.readBack_of_not_readable hreadable]
    rfl

theorem isOk_finishBorneGameFromRelay (hpg : ∀ x ∈ ctx.pg, x = none) (clock : Clock)
    (finalScore : Json) :
    ((finishBorneGameFromRelay clock borneId finalScore).run (handle ctx) w).1.isOk ↔
      ∀ id, (w.borne borneId).activeSessionId = some id →
        w.unreadable id = false ∧ ∀ s, w.seen id = some s →
          (finalScore.asPyInt.getD s.score).isInt ∧
            FitsColumns (finalScore.asPyInt.getD s.score) (w.buffers id) := by
  rw [finishBorneGameFromRelay, Prog.run_bind, Prog.run_perform, handle_borneGetOrCreate]
  obtain ⟨hsessions, hbuffers⟩ := foldl_openActs borneId w
  have hborne := borne_openActs w borneId
  generalize (openActs borneId w).foldl World.act w = w₁ at hsessions hbuffers hborne ⊢
  dsimp only
  cases hactive : (w.borne borneId).activeSessionId with
  | none =>
      dsimp only
      rw [run_markGameOver]
      exact iff_of_true rfl fun id h => by cases h
  | some id =>
      simp only [Option.some.injEq, forall_eq']
      rw [← hborne] at hactive
      have hread : w.readSession id = w₁.readSession id := by
        rw [World.readSession, World.readSession, hsessions]
      rw [World.unreadable, World.seen, hread, ← hbuffers, Prog.run_bind, Prog.run_perform, handle]
      rcases w₁.readSession_cases id with hok | ⟨-, e, herror⟩
      · rw [hok]
        dsimp only
        cases hseen : w₁.seen id with
        | none =>
            dsimp only
            rw [isOk_finishBorneGame hpg clock hactive, hseen]
            refine iff_of_true ⟨?_, fun s hs => by cases hs⟩ ⟨rfl, fun s hs => by cases hs⟩
            rw [World.unreadable, hok]
        | some s =>
            obtain rfl := World.seen_sessionId hseen
            simp only [Option.some.injEq, forall_eq', true_and]
            cases finalScore.asPyInt with
            | none =>
                obtain ⟨s₀, -, hreadable, hs⟩ := World.seen_eq_some.mp hseen
                have hint : s.score.isInt := hs ▸ Session.isInt_of_readable hreadable
                dsimp only
                rw [isOk_finishBorneGame hpg clock hactive, hseen, unreadable_of_seen hseen]
                simp [hint]
            | some n =>
                have hwritable := Session.writable_withScore (World.writable_of_seen hseen) n
                have hput := readSession_putSession hseen n
                dsimp only
                rw [Prog.run_bind, Prog.run_perform]
                by_cases hscore : n.fitsStr
                · rw [handle_sessionUpdate (hwritable.trans hscore)]
                  dsimp only
                  rw [isOk_finishBorneGame hpg clock (w := w₁.putSession { s with score := n })
                    hactive, World.unreadable, World.seen, hput, Session.readable, hwritable, hscore,
                    Bool.and_true]
                  by_cases hint : n.isInt <;> simp [hint, World.putSession]
                · rw [handle_sessionUpdate_error fun h => hscore (hwritable.symm.trans h)]
                  exact iff_of_false Bool.false_ne_true fun h =>
                    hscore (fitsStr_of_fitsInteger h.2.1)
      · rw [herror]
        exact iff_of_false Bool.false_ne_true fun h => by cases h.1

theorem isOk_relayEvent (hpg : ∀ x ∈ ctx.pg, x = none) (clock : Clock) (event : Dict) :
    ((relayEvent clock borneId event).run (handle ctx) w).1.isOk ↔
      hashableType event ∧ (isGameOver event →
        ∀ id, (w.borne borneId).activeSessionId = some id →
          w.unreadable id = false ∧ ∀ s, w.seen id = some s →
            ((relayedScore event).getD s.score).isInt ∧
              FitsColumns ((relayedScore event).getD s.score) (w.buffers id)) := by
  unfold relayEvent hashableType isGameOver relayedScore
  cases event.get "type" with
  | none => simp [Except.isOk, Except.toBool]
  | some type =>
      cases type with
      | str type =>
          dsimp only
          by_cases hover : type = "game:over"
          · subst hover
            rw [if_pos (by decide), if_pos rfl, Prog.run_bind, Prog.run_perform]
            dsimp only [handle]
            rw [if_pos rfl, isOk_finishBorneGameFromRelay hpg]
            simp
            rfl
          · rw [if_neg hover]
            have hover : (type == "game:over") = false := by simpa using hover
            rw [hover]
            refine iff_of_true ?_ ⟨rfl, fun h => by cases h⟩
            split
            · rw [Prog.run_bind, Prog.run_perform]
              rfl
            · rfl
      | arr _ => exact iff_of_false Bool.false_ne_true fun h => by cases h.1
      | obj _ => exact iff_of_false Bool.false_ne_true fun h => by cases h.1
      | _ => exact iff_of_true rfl ⟨rfl, fun h => by cases h⟩

end Results

/-! ## What changes -/

section Changes

variable {borneId : String} {w : World}

theorem Unchanged.refl (w : World) : Unchanged w w := ⟨fun _ => rfl, rfl, rfl, rfl, rfl, rfl⟩

/-- Reading a borne that is not there yet leaves it as it is read. -/
theorem unchanged_openActs (borneId : String) (w : World) :
    Unchanged w ((openActs borneId w).foldl World.act w) where
  bornes id := by
    rcases World.borne_foldl (openActs_enabled borneId w) id with heq | ⟨b, hb, -⟩
    · exact heq
    · cases mem_openActs hb
  sessions := (foldl_openActs borneId w).1
  buffers := (foldl_openActs borneId w).2
  db := by
    unfold openActs
    split <;> rfl
  outbox := by
    unfold openActs
    split <;> rfl
  tasks := by
    unfold openActs
    split <;> rfl

theorem Unchanged.trans {w' w'' : World} (h : Unchanged w w') (h' : Unchanged w' w'') :
    Unchanged w w'' where
  bornes id := (h'.bornes id).trans (h.bornes id)
  sessions := h'.sessions.trans h.sessions
  buffers := h'.buffers.trans h.buffers
  db := h'.db.trans h.db
  outbox := h'.outbox.trans h.outbox
  tasks := h'.tasks.trans h.tasks

/-- Marking the end of a game is seen where one is on the screens. -/
theorem unchanged_markGameOverActs_iff (borneId : String) (w : World) :
    Unchanged w ((markGameOverActs borneId w).foldl World.act w) ↔
      (w.borne borneId).nav ≠ .inGame := by
  rw [markGameOverActs, foldl_andThen, borne_openActs]
  have hopen := unchanged_openActs borneId w
  generalize (openActs borneId w).foldl World.act w = w₁ at hopen ⊢
  by_cases hnav : (w.borne borneId).nav = .inGame
  · rw [if_pos hnav]
    refine iff_of_false (fun h => ?_) fun h => h hnav
    have houtbox := h.outbox
    rw [← hopen.outbox, List.foldl_cons, List.foldl_nil, World.act_outbox] at houtbox
    simp [Act.sent] at houtbox
  · rw [if_neg hnav]
    exact iff_of_true hopen hnav

theorem switchActs_of_not_allowed {via : Switch} {broadcaster : Broadcaster} {id : String}
    (h : ∀ s, w.seen id = some s → via.allowed s.status = false) :
    switchActs via broadcaster id w = [] := by
  unfold switchActs
  cases hseen : w.seen id with
  | none => rfl
  | some s => exact if_neg (by simp [h s hseen])

/-- A command that is refused changes something exactly where it is an abandon
that finds a game on the screens. -/
theorem unchanged_matchCommandActs_iff {command : MatchCommand} {id : String}
    (hactive : (w.borne borneId).activeSessionId = some id)
    (h : ∀ s, w.seen id = some s → command.toSwitch.allowed s.status = false)
    (hread : w.unreadable id = false) :
    Unchanged w ((matchCommandActs borneId command w).foldl World.act w) ↔
      (command = .abandon → (w.borne borneId).nav ≠ .inGame) := by
  have hopen := unchanged_openActs borneId w
  have hseen := seen_openActs w borneId id
  have hreadable : ((openActs borneId w).foldl World.act w).unreadable id = false := by
    rw [World.unreadable, World.readSession, hopen.sessions]
    exact hread
  rw [matchCommandActs, foldl_andThen, borne_openActs, hactive]
  generalize (openActs borneId w).foldl World.act w = w₁ at hopen hseen hreadable ⊢
  rw [← hseen] at h
  dsimp only
  by_cases hcommand : command = .abandon
  · subst hcommand
    have hnone : switchActs .abandon [.borne] id w₁ = [] := switchActs_of_not_allowed h
    rw [if_pos ⟨rfl, hreadable⟩, foldl_andThen, hnone, List.foldl_nil, imp_iff_right rfl,
      ← hopen.bornes, ← unchanged_markGameOverActs_iff]
    refine ⟨fun hw => ?_, fun hw => hopen.trans hw⟩
    exact
      { bornes := fun id => (hw.bornes id).trans (hopen.bornes id).symm
        sessions := hw.sessions.trans hopen.sessions.symm
        buffers := hw.buffers.trans hopen.buffers.symm
        db := hw.db.trans hopen.db.symm
        outbox := hw.outbox.trans hopen.outbox.symm
        tasks := hw.tasks.trans hopen.tasks.symm }
  · rw [if_neg fun heq => hcommand heq.1, switchActs_of_not_allowed h]
    exact iff_of_true hopen fun heq => absurd heq hcommand

/-- An intent that is refused changes nothing, whether it raises or not. -/
theorem unchanged_intentActs {uuid action : String} {now : DateTime} {payload : Json}
    (h : Refused borneId w (.intent action payload)) :
    Unchanged w ((intentActs uuid now borneId action payload w).foldl World.act w) := by
  have hopen := unchanged_openActs borneId w
  have hborne := borne_openActs w borneId
  rw [intentActs, foldl_andThen]
  generalize (openActs borneId w).foldl World.act w = w₁ at hopen hborne ⊢
  rw [Refused, ← hborne] at h
  by_cases haction : action = playersValidated
  · rw [if_pos haction] at h ⊢
    unfold startGameActs
    split
    · next hnav =>
        have hpseudo := h hnav
        unfold validPseudo at hpseudo
        cases hextract : extractPseudo payload with
        | none => exact hopen
        | some pseudo =>
            rw [hextract] at hpseudo
            dsimp only
            cases hvalid : normalizeAndValidate pseudo with
            | error e => exact hopen
            | ok valid =>
                rw [Option.bind_some, hvalid] at hpseudo
                cases hpseudo
    · exact hopen
  · rw [if_neg haction] at h ⊢
    rw [h]
    exact hopen

/-- An event that is not passed on changes nothing. -/
theorem unchanged_relayActs {pg : List (Option Bool)} {clock : Clock} {event : Dict}
    (h : isRelayable event = false) :
    Unchanged w ((relayActs pg clock borneId event w).foldl World.act w) := by
  unfold isRelayable at h
  unfold relayActs
  split
  · next type htype =>
      rw [htype] at h
      rw [if_neg (by simpa using h)]
      exact Unchanged.refl w
  · exact Unchanged.refl w

end Changes

/-! ## Messages -/

section Messages

variable {borneId : String} {w : World} {clock : Clock} {uuid : String}

/-- The requests a message is routed to. -/
theorem screenRequest_cases {payload : Json} {request : Request}
    (h : screenRequest payload = some request) :
    (∃ action argument, request = .intent action argument) ∨
      (∃ command, request = .matchCommand command) ∨ ∃ event, request = .relay event := by
  unfold screenRequest at h
  split at h
  · split at h
    · split at h
      · split at h
        · exact Or.inl ⟨_, _, (Option.some.inj h).symm⟩
        · cases h
      · split at h
        · exact Or.inr (Or.inl ⟨_, (Option.some.inj h).symm⟩)
        · split at h
          · split at h
            · exact Or.inr (Or.inr ⟨_, (Option.some.inj h).symm⟩)
            · cases h
          · cases h
    · cases h
  · cases h

/-- A match command returns, and changes nothing where it is refused, exactly
where it can be handled. -/
theorem handled_matchCommand_iff (command : MatchCommand) :
    (((handleMatchCommand borneId command).run (handle {}) w).1.isOk ∧
        (Refused borneId w (.matchCommand command) →
          Unchanged w ((handleMatchCommand borneId command).run (handle {}) w).2)) ↔
      Handleable borneId w (.matchCommand command) := by
  rw [isOk_handleMatchCommand rfl, run_handleMatchCommand _ _ rfl]
  unfold Refused Handleable
  cases hactive : (w.borne borneId).activeSessionId with
  | none =>
      refine iff_of_true ⟨fun id h => (by cases h), fun _ => ?_⟩ fun id h => by cases h
      rw [matchCommandActs, foldl_andThen, borne_openActs, hactive]
      exact unchanged_openActs borneId w
  | some id =>
      simp only [Option.some.injEq, forall_eq']
      refine and_congr_right fun hread => ?_
      have hrefused : (∀ id' s, id = id' → w.seen id' = some s →
          command.toSwitch.allowed s.status = false) ↔
            ∀ s, w.seen id = some s → command.toSwitch.allowed s.status = false :=
        ⟨fun h s => h id s rfl, fun h id' s heq => heq ▸ h s⟩
      rw [hrefused]
      constructor
      · rintro h rfl hnav
        by_contra hnone
        push Not at hnone
        have hallowed : ∀ s, w.seen id = some s →
            MatchCommand.abandon.toSwitch.allowed s.status = false :=
          fun s hs => by simpa [MatchCommand.toSwitch, Switch.allowed] using hnone s hs
        exact (unchanged_matchCommandActs_iff hactive hallowed hread).mp (h hallowed) rfl hnav
      · rintro h hallowed
        refine (unchanged_matchCommandActs_iff hactive hallowed hread).mpr ?_
        rintro rfl hnav
        obtain ⟨s, hs, hterminatable⟩ := h rfl hnav
        have hnot := hallowed s hs
        rw [show MatchCommand.abandon.toSwitch.allowed s.status =
          terminatableStates.contains s.status from rfl, hterminatable] at hnot
        cases hnot

/-- A request of a screen returns, and changes nothing where it is refused,
exactly where it can be handled. -/
theorem handled_request_iff {payload : Json} {request : Request}
    (hrequest : screenRequest payload = some request) :
    (((Event.program borneId { request, clock, uuid }).run (handle {}) w).1.isOk ∧
        (Refused borneId w request →
          Unchanged w ((Event.program borneId { request, clock, uuid }).run (handle {}) w).2)) ↔
      Handleable borneId w request := by
  rcases screenRequest_cases hrequest with ⟨action, argument, rfl⟩ | ⟨command, rfl⟩ | ⟨event, rfl⟩
  · refine (and_iff_left fun h => ?_).trans (isOk_applyIntent _ _ _ _)
    exact (run_applyIntent {} w rfl _ _ _ _ _).symm ▸ unchanged_intentActs h
  · exact handled_matchCommand_iff command
  · refine (and_iff_left fun h => ?_).trans (isOk_relayEvent (by simp) _ _)
    exact (run_relayEvent {} w _ _ _).symm ▸ unchanged_relayActs h

end Messages

/-- With Redis and Postgres available, a message of a screen is handled without
raising, and changes nothing where it is malformed or not allowed, exactly where
it can be handled. -/
theorem handled_iff (borneId : String) (w : World) (raw : Except LoadsError Json) (uuid : String)
    (clock : Clock) :
    (((handleBorneIntent uuid clock borneId raw).run (handle {}) w).1.isOk ∧
        (RefusedMessage borneId w raw →
          Unchanged w ((handleBorneIntent uuid clock borneId raw).run (handle {}) w).2)) ↔
      HandleableMessage borneId w raw := by
  cases raw with
  | error e =>
      cases e with
      | jsonDecodeError => exact iff_of_true ⟨rfl, fun _ => Unchanged.refl w⟩ trivial
      | other e => exact iff_of_false (fun h => Bool.false_ne_true h.1) id
  | ok payload =>
      rw [handleBorneIntent_eq]
      unfold RefusedMessage HandleableMessage
      cases hrequest : screenRequest payload with
      | none =>
          refine iff_of_true ⟨rfl, fun _ => Unchanged.refl w⟩ fun request h => ?_
          cases hrequest.symm.trans h
      | some request =>
          have hall {P : Request → Prop} :
              (∀ request, screenRequest payload = some request → P request) ↔ P request :=
            ⟨fun h => h request hrequest,
              fun h request' h' => Option.some.inj (hrequest.symm.trans h') ▸ h⟩
          dsimp only
          rw [hall, hall]
          exact handled_request_iff hrequest

/-- Players validated with a pseudo of four letters, on the identification. -/
def longPseudo : Json :=
  .obj [("type", .str "intent"), ("action", .str playersValidated),
    ("payload", .obj [("pseudo", .str "abcd")])]

/-- The handler raises. -/
theorem longPseudo_raises :
    let w := ((borneGame "s").take 2).foldl (step "b") {}
    ((handleBorneIntent "s" default "b" (.ok longPseudo)).run (handle {}) w).1.isOk = false := by
  decide +kernel

end FlipperBack
