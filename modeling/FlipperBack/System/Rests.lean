import FlipperBack.System.Interleaving

/-!
# Requests that follow a protocol

Most calls of a request are of no concern to a protocol of the application: they
leave the request in the phase in which it waits. Where this holds of the plain
calls, and the parts of the requests that the protocol is about return to that
phase as well, every request does.
-/

namespace FlipperBack

open Effects Python

/-- A reading, a write of a session, a push to a buffer or a message to the borne
other than its navigation. -/
def Op.isPlain : Op → Bool
  | sessionGet _ => true
  | sessionUpdate _ => true
  | bufferPush _ _ => true
  | bufferReadAll _ => true
  | borneGetOrCreate _ => true
  | broadcastToBorne _ (.navState _ _) => false
  | broadcastToBorne _ _ => true
  | playerGetByPseudo _ => true
  | gameGetBestSoloScore _ => true
  | sleep => true
  | _ => false

/-- A message about a session. -/
def Op.tells : Op → Bool
  | broadcastToSession _ _ _ => true
  | _ => false

section Rests

variable {φ : Type} {P : Protocol Exc Op.Res φ} {q : φ}

theorem rests_plain (hplain : ∀ op : Op, op.isPlain → P.Leaves q op) {op : Op}
    (hop : op.isPlain = true) : Prog.Rests P q (await op) :=
  .perform (hplain op hop)

variable (hplain : ∀ op : Op, op.isPlain → P.Leaves q op)

include hplain

theorem rests_switchStatus (allowed : SessionStatus → Bool) (target : SessionStatus)
    {after : UseCase Unit} (hafter : Prog.Rests P q after) {broadcaster : Broadcaster}
    {sessionId : String}
    (htell : ∀ message, P.Leaves q (.broadcastToSession broadcaster sessionId message)) :
    Prog.Rests P q (switchStatus allowed target after broadcaster sessionId) := by
  refine .bind (rests_plain hplain rfl) fun session => ?_
  cases session with
  | none => rfl
  | some session =>
      dsimp only
      split
      · exact .bind (rests_plain hplain rfl) fun _ => .bind (.perform (htell _)) fun _ => hafter
      · rfl

theorem rests_countdownFrom {broadcaster : Broadcaster} {sessionId : String}
    (htell : ∀ message, P.Leaves q (.broadcastToSession broadcaster sessionId message))
    (values : List ℕ) : Prog.Rests P q (countdownFrom broadcaster sessionId values) := by
  induction values with
  | nil => exact rests_switchStatus hplain (· == .ready) .playing (.pure ()) htell
  | cons value values ih =>
      exact .bind (.perform (htell _)) fun _ => .bind (rests_plain hplain rfl) fun _ => ih

theorem rests_readyUp (hlaunch : ∀ startCountdown id, Prog.Rests P q (launch startCountdown id))
    {broadcaster : Broadcaster} {sessionId : String}
    (htell : ∀ message, P.Leaves q (.broadcastToSession broadcaster sessionId message))
    (onReady : Option Broadcaster) :
    Prog.Rests P q (readyUp broadcaster onReady sessionId) := by
  refine .bind (rests_plain hplain rfl) fun session => ?_
  cases session with
  | none => rfl
  | some session =>
      exact .bind (rests_plain hplain rfl) fun _ => .bind (.perform (htell _)) fun _ =>
        .bind (hlaunch _ _) fun _ => rfl

theorem rests_sessionCommand
    (hlaunch : ∀ startCountdown id, Prog.Rests P q (launch startCountdown id))
    {broadcaster : Broadcaster} {sessionId : String}
    (htell : ∀ message, P.Leaves q (.broadcastToSession broadcaster sessionId message))
    (command : MatchCommand) : Prog.Rests P q (sessionCommand broadcaster command sessionId) := by
  cases command with
  | pause => exact rests_switchStatus hplain (· == .playing) .paused (.pure ()) htell
  | resume =>
      exact rests_switchStatus hplain (· == .paused) .ready (hlaunch (some broadcaster) sessionId)
        htell
  | abandon =>
      exact rests_switchStatus hplain (terminatableStates.contains ·) .over (.pure ()) htell

/-- A flush returns to the phase where its three writes do. -/
theorem rests_finishAndPersist {sessionId : String}
    (hpersist : ∀ utcnow finished, P.Leaves q (.gamePersistFinishedSession sessionId utcnow finished))
    (hclear : P.Leaves q (.bufferClear sessionId)) (hdelete : P.Leaves q (.sessionDelete sessionId))
    (clock : Clock) : Prog.Rests P q (finishAndPersist clock sessionId) := by
  refine .bind (rests_plain hplain rfl) fun session => ?_
  cases session with
  | none => rfl
  | some session =>
      have hbest : Prog.Rests P q (previousBestFor session.pseudo session.mode) :=
        .of_all (fun op hop => hplain op (by cases op <;> first | rfl | cases hop))
          (previousBestFor_isLookup _ _)
      exact .bind (rests_plain hplain rfl) fun _ => .bind hbest fun _ =>
        .bind (.perform (hpersist _ _)) fun _ => .bind (.perform hclear) fun _ =>
          .bind (.perform hdelete) fun _ => rfl

theorem rests_handleBorneInput (borneId topic : String) (payload : Dict) :
    Prog.Rests P q (handleBorneInput borneId topic payload) := by
  unfold handleBorneInput handlePlunger handleButton
  repeat' split
  all_goals first | rfl | exact rests_plain hplain rfl

theorem rests_handleMqttEvent {callback : String → UseCase Unit}
    (hcallback : ∀ sessionId, Prog.Rests P q (callback sessionId)) {broadcaster : Broadcaster}
    {event : MqttEvent} (htell : ∀ id, event.sessionId? = some id →
      ∀ message, P.Leaves q (.broadcastToSession broadcaster id message))
    (now : DateTime) :
    Prog.Rests P q (handleMqttEvent broadcaster (some callback) now event) := by
  unfold handleMqttEvent
  cases hid : event.sessionId? with
  | none => rfl
  | some sessionId =>
      have htell := htell sessionId hid
      refine .bind (rests_plain hplain rfl) fun session => ?_
      cases session with
      | none => rfl
      | some session =>
          dsimp only
          split
          · refine .bind (.ofExcept _) fun applied => ?_
            rcases applied with _ | ⟨message, session'⟩
            · rfl
            · refine .bind (rests_plain hplain rfl) fun _ => .bind (rests_plain hplain rfl) fun _ =>
                .bind (.perform (htell _)) fun _ => ?_
              split
              · exact .bind (.perform (htell _)) fun _ => hcallback sessionId
              · rfl
          · rfl

/-! ## Requests on the borne -/

variable {borneId : String} (hmark : Prog.Rests P q (markGameOver borneId))
  {clock : Clock} (hflush : ∀ sessionId, Prog.Rests P q (finishAndPersist clock sessionId))

include hmark

theorem rests_handleMatchCommand {command : MatchCommand}
    (hcommand : ∀ sessionId, Prog.Rests P q (sessionCommand [.borne] command sessionId)) :
    Prog.Rests P q (handleMatchCommand borneId command) := by
  refine .bind (rests_plain hplain rfl) fun borne => ?_
  cases borne.activeSessionId with
  | none => rfl
  | some sessionId =>
      cases command with
      | pause => exact hcommand sessionId
      | resume => exact hcommand sessionId
      | abandon => exact .bind (hcommand sessionId) fun _ => hmark

include hflush

theorem rests_finishBorneGame (sessionId : String) :
    Prog.Rests P q (finishBorneGame clock borneId sessionId) := by
  refine .bind (rests_plain hplain rfl) fun borne => ?_
  split
  · refine .bind hmark fun _ => ?_
    refine Prog.Follows.tryCatch (Prog.Rests.bind (hflush sessionId) fun _ => rfl) ?_
    intro q e hq
    cases e <;> exact hq
  · rfl

theorem rests_relayEvent (event : Dict) : Prog.Rests P q (relayEvent clock borneId event) := by
  have hfinish (finalScore : Json) :
      Prog.Rests P q (finishBorneGameFromRelay clock borneId finalScore) := by
    refine .bind (rests_plain hplain rfl) fun borne => ?_
    cases borne.activeSessionId with
    | none => exact hmark
    | some sessionId =>
        have hgame := rests_finishBorneGame hplain hmark hflush sessionId
        refine .bind (rests_plain hplain rfl) fun session => ?_
        cases session with
        | none => exact hgame
        | some session =>
            cases finalScore.asPyInt with
            | none => exact hgame
            | some score => exact .bind (rests_plain hplain rfl) fun _ => hgame
  unfold relayEvent
  split
  · split
    · refine .bind (rests_plain hplain rfl) fun _ => ?_
      split
      · exact hfinish _
      · rfl
    · rfl
  all_goals rfl

theorem rests_mqtt {broadcaster : Broadcaster}
    (htell : ∀ id message, P.Leaves q (.broadcastToSession broadcaster id message))
    (topic : String) (payload : Option Json) :
    Prog.Rests P q (dispatch (mqttHandler broadcaster clock borneId) topic payload) := by
  unfold dispatch
  split
  · refine .bind (.attempt ?_) fun _ => rfl
    unfold mqttHandler
    split
    · exact rests_handleBorneInput hplain borneId _ _
    · exact rests_handleMqttEvent hplain (rests_finishBorneGame hplain hmark hflush)
        (fun id _ => htell id) _
  · rfl

end Rests

end FlipperBack
