import FlipperBack.Properties.Navigation
import FlipperBack.System.Calls

/-!
# Every session written can be read back

A session hash is read back as it was written where the score is an integer.
The use cases only write what they have read with integers in it, but for the
score that the playfield relays: a boolean passes for an integer there, and the
session written with it raises on every reading after. In a run, every update that
writes a hash is read back and every session stays readable exactly where no boolean
is relayed for a session that can be read (`sessions_read_back_iff`).
-/

namespace FlipperBack

open Effects Python

/-- A session that reads back as it is written. -/
def Session.Faithful (s : Session) : Prop := s.readBack = .ok s

theorem Session.faithful_iff {s : Session} :
    s.Faithful ↔ s.readable ∧ s.roomCode = noneIfEmpty s.roomCode := by
  unfold Session.Faithful
  by_cases hreadable : s.readable
  · rw [Session.readBack_of_readable hreadable]
    constructor
    · intro h
      exact ⟨hreadable, (congrArg Session.roomCode (Except.ok.inj h)).symm⟩
    · rintro ⟨-, h⟩
      rw [← h]
  · rw [Session.readBack_of_not_readable hreadable]
    constructor
    · intro h
      cases h
    · intro h
      exact absurd h.1 hreadable

theorem noneIfEmpty_idem (text : Option String) :
    noneIfEmpty (noneIfEmpty text) = noneIfEmpty text := by
  cases text with
  | none => rfl
  | some text =>
      by_cases h : text = ""
      · subst h
        rfl
      · rw [noneIfEmpty_of_ne h, noneIfEmpty_of_ne h]

/-- What a reading returns is faithful. -/
theorem Session.faithful_of_readBack {s₀ s : Session} (h : s₀.readBack = .ok s) :
    s.Faithful := by
  by_cases hreadable : s₀.readable
  · rw [Session.readBack_of_readable hreadable] at h
    obtain rfl := Except.ok.inj h
    exact Session.faithful_iff.mpr ⟨hreadable, (noneIfEmpty_idem _).symm⟩
  · rw [Session.readBack_of_not_readable hreadable] at h
    cases h

theorem Session.Faithful.withStatus {s : Session} (h : s.Faithful) (status : SessionStatus) :
    ({ s with status } : Session).Faithful :=
  have hs := Session.faithful_iff.mp h
  Session.faithful_iff.mpr ⟨hs.1, hs.2⟩

theorem Session.Faithful.withScore {s : Session} (h : s.Faithful) {score : PyInt}
    (hscore : score.isInt) (hwritable : ({ s with score }).writable) :
    ({ s with score } : Session).Faithful :=
  Session.faithful_iff.mpr
    ⟨Session.readable_of_isInt hscore hwritable, (Session.faithful_iff.mp h).2⟩

theorem Session.Faithful.applied {e : MqttEvent} {s s' : Session} {message : SessionMessage}
    (h : s.Faithful) (happly : applyEvent e s = .ok (some (message, s')))
    (hwritable : s'.writable) : s'.Faithful := by
  obtain ⟨hreadable, hroom⟩ := Session.faithful_iff.mp h
  have hscore := Session.isInt_of_readable hreadable
  rcases applyEvent_cases happly with
    ⟨-, points, -, rfl, -⟩ | ⟨-, points, -, rfl, -⟩ | ⟨-, rfl, -⟩ | ⟨-, rfl, -⟩
  · exact Session.faithful_iff.mpr ⟨Session.readable_of_isInt rfl hwritable, hroom⟩
  · exact Session.faithful_iff.mpr ⟨Session.readable_of_isInt rfl hwritable, hroom⟩
  · exact Session.faithful_iff.mpr ⟨Session.readable_of_isInt hscore hwritable, hroom⟩
  · exact Session.faithful_iff.mpr ⟨Session.readable_of_isInt hscore hwritable, hroom⟩

/-! ## What the programs write -/

/-- Sessions are read as they were written. -/
def ReadsFaithful : (op : Op) → Except Exc op.Res → Prop
  | .sessionGet _, .ok (some s) => s.Faithful
  | _, _ => True

/-- Sessions are written with an integer score, and updated as they can be read
back, unless `_to_hash` raises. -/
def Op.Writes : Op → Prop
  | sessionCreate s => s.score.isInt
  | sessionUpdate s => s.writable → s.Faithful
  | _ => True

theorem Op.writes_of_spares {op : Op} (h : op.spares = true) : op.Writes := by
  cases op with
  | sessionCreate s => cases h
  | sessionUpdate s => cases h
  | _ => trivial

/-- A use case that writes no session but as it can be read back. -/
abbrev WritesFaithful {α : Type} (p : UseCase α) : Prop := p.AllGiven ReadsFaithful Op.Writes

theorem writesFaithful_of_spares {α : Type} {p : UseCase α}
    (h : p.All fun op => op.spares = true) : WritesFaithful p :=
  (h.mono fun _ => Op.writes_of_spares).given

theorem writesFaithful_launch (startCountdown : Option Broadcaster) (sessionId : String) :
    WritesFaithful (launch startCountdown sessionId) := by
  cases startCountdown with
  | none => trivial
  | some broadcaster => exact Prog.All.given ((Prog.all_perform _ _).mpr trivial)

theorem writesFaithful_createSession (uuid : String) (now : DateTime) (pseudo : String)
    (mode : GameMode) (roomCode : Option String) :
    WritesFaithful (createSession uuid now pseudo mode roomCode) := by
  refine Prog.AllGiven.bind (Prog.All.given (Prog.all_ofExcept _ _)) fun pseudo => ?_
  exact Prog.AllGiven.perform_bind rfl fun _ _ => trivial

theorem writesFaithful_switchStatus {allowed : SessionStatus → Bool} {target : SessionStatus}
    {after : UseCase Unit} (hafter : WritesFaithful after) (broadcaster : Broadcaster)
    (sessionId : String) :
    WritesFaithful (switchStatus allowed target after broadcaster sessionId) := by
  refine Prog.AllGiven.perform_bind trivial fun found hfound => ?_
  cases found with
  | none => trivial
  | some s =>
      dsimp only
      split
      · refine Prog.AllGiven.perform_bind (fun _ => Session.Faithful.withStatus hfound target)
          fun _ _ => ?_
        exact Prog.AllGiven.perform_bind trivial fun _ _ => hafter
      · trivial

theorem writesFaithful_readyUp (broadcaster : Broadcaster) (onReady : Option Broadcaster)
    (sessionId : String) : WritesFaithful (readyUp broadcaster onReady sessionId) := by
  refine Prog.AllGiven.perform_bind trivial fun found hfound => ?_
  cases found with
  | none => trivial
  | some s =>
      refine Prog.AllGiven.perform_bind (fun _ => Session.Faithful.withStatus hfound .ready)
        fun _ _ => ?_
      refine Prog.AllGiven.perform_bind trivial fun _ _ => ?_
      exact (writesFaithful_launch _ _).bind fun _ => trivial

theorem writesFaithful_countdownFrom (broadcaster : Broadcaster) (sessionId : String)
    (values : List ℕ) : WritesFaithful (countdownFrom broadcaster sessionId values) := by
  induction values with
  | nil =>
      change WritesFaithful (finishCountdown broadcaster sessionId)
      unfold finishCountdown
      exact writesFaithful_switchStatus (Prog.all_pure _ ()).given _ _
  | cons value values ih =>
      refine Prog.AllGiven.perform_bind trivial fun _ _ => ?_
      exact Prog.AllGiven.perform_bind trivial fun _ _ => ih

theorem spares_handleBorneInput (borneId topic : String) (payload : Dict) :
    (handleBorneInput borneId topic payload).All fun op => op.spares = true := by
  unfold handleBorneInput
  split
  · unfold handlePlunger
    split
    · exact (Prog.all_perform _ _).mpr rfl
    · trivial
  · split
    · unfold handleButton
      split
      · split
        · split
          · split
            · exact (Prog.all_perform _ _).mpr rfl
            · trivial
          · exact (Prog.all_perform _ _).mpr rfl
        · trivial
      · trivial
    · trivial

theorem writesFaithful_handleMqttEvent (broadcaster : Broadcaster) (clock : Clock)
    (borneId : String) (event : MqttEvent) :
    WritesFaithful (handleMqttEvent broadcaster (some (finishBorneGame clock borneId)) clock.now
      event) := by
  unfold handleMqttEvent
  cases event.sessionId? with
  | none => trivial
  | some sessionId =>
      refine Prog.AllGiven.perform_bind trivial fun found hfound => ?_
      cases found with
      | none => trivial
      | some s =>
          dsimp only
          split
          · cases happly : applyEvent event s with
            | error e => trivial
            | ok out =>
                rcases out with - | ⟨message, s'⟩
                · trivial
                · refine Prog.AllGiven.perform_bind
                    (Session.Faithful.applied hfound happly) fun _ _ => ?_
                  refine Prog.AllGiven.perform_bind trivial fun _ _ => ?_
                  refine Prog.AllGiven.perform_bind trivial fun _ _ => ?_
                  split
                  · refine Prog.AllGiven.perform_bind trivial fun _ _ => ?_
                    exact writesFaithful_of_spares (spares_finishBorneGame _ _ _)
                  · trivial
          · trivial

theorem writesFaithful_dispatch {handler : MqttEvent → UseCase Unit}
    (hhandler : ∀ event, WritesFaithful (handler event)) (topic : String)
    (payload : Option Json) : WritesFaithful (dispatch handler topic payload) := by
  unfold dispatch
  split
  · refine Prog.AllGiven.bind ?_ fun _ => trivial
    exact Prog.AllGiven.tryCatch ((hhandler _).bind fun _ => trivial) fun _ => trivial
  · trivial

theorem writesFaithful_mqttHandler (broadcaster : Broadcaster) (clock : Clock) (borneId : String)
    (event : MqttEvent) : WritesFaithful (mqttHandler broadcaster clock borneId event) := by
  by_cases hinput : "/input/".toList <:+: event.topic.toList
  · rw [mqttHandler_of_input hinput]
    exact writesFaithful_of_spares (spares_handleBorneInput _ _ _)
  · rw [mqttHandler_of_not_input hinput]
    exact writesFaithful_handleMqttEvent _ _ _ _

theorem writesFaithful_startGame (uuid : String) (now : DateTime) (borne : Borne)
    (payload : Json) : WritesFaithful (startGame uuid now borne payload) := by
  unfold startGame
  split
  · cases extractPseudo payload with
    | none => trivial
    | some pseudo =>
        refine (writesFaithful_createSession _ _ _ _ _).bind fun session => ?_
        refine Prog.AllGiven.perform_bind trivial fun _ _ => ?_
        refine Prog.AllGiven.perform_bind trivial fun _ _ => ?_
        exact (writesFaithful_readyUp _ _ _).bind fun _ => trivial
  · trivial

theorem writesFaithful_applyIntent (uuid : String) (now : DateTime) (borneId action : String)
    (payload : Json) : WritesFaithful (applyIntent uuid now borneId action payload) := by
  refine Prog.AllGiven.perform_bind trivial fun borne _ => ?_
  split
  · exact writesFaithful_startGame _ _ _ _
  · split
    · trivial
    · exact Prog.AllGiven.perform_bind trivial fun _ _ =>
        writesFaithful_of_spares (spares_broadcastNav _)

theorem writesFaithful_handleMatchCommand (borneId : String) (command : MatchCommand) :
    WritesFaithful (handleMatchCommand borneId command) := by
  refine Prog.AllGiven.perform_bind trivial fun borne _ => ?_
  cases borne.activeSessionId with
  | none => trivial
  | some sessionId =>
      cases command with
      | pause => exact writesFaithful_switchStatus (Prog.all_pure _ ()).given _ _
      | resume => exact writesFaithful_switchStatus (writesFaithful_launch _ _) _ _
      | abandon =>
          exact (writesFaithful_switchStatus (Prog.all_pure _ ()).given _ _).bind fun _ =>
            writesFaithful_of_spares (spares_markGameOver borneId)

theorem writesFaithful_sessionCommand (broadcaster : Broadcaster) (command : MatchCommand)
    (sessionId : String) : WritesFaithful (sessionCommand broadcaster command sessionId) := by
  unfold sessionCommand
  cases command with
  | pause => exact writesFaithful_switchStatus (Prog.all_pure _ ()).given _ _
  | resume => exact writesFaithful_switchStatus (writesFaithful_launch _ _) _ _
  | abandon => exact writesFaithful_switchStatus (Prog.all_pure _ ()).given _ _

theorem writesFaithful_finishBorneGameFromRelay (clock : Clock) (borneId : String)
    {finalScore : Json} (hscore : ∀ n ∈ finalScore.asPyInt, n.isInt) :
    WritesFaithful (finishBorneGameFromRelay clock borneId finalScore) := by
  refine Prog.AllGiven.perform_bind trivial fun borne _ => ?_
  cases borne.activeSessionId with
  | none => exact writesFaithful_of_spares (spares_markGameOver borneId)
  | some sessionId =>
      refine Prog.AllGiven.perform_bind trivial fun found hfound => ?_
      split
      · next s n heq hn =>
          exact Prog.AllGiven.perform_bind (Session.Faithful.withScore hfound (hscore _ hn))
            fun _ _ => writesFaithful_of_spares (spares_finishBorneGame _ _ _)
      · exact writesFaithful_of_spares (spares_finishBorneGame _ _ _)

theorem writesFaithful_relayEvent (clock : Clock) (borneId : String) {event : Dict}
    (hscore : ∀ n ∈ relayedScore event, n.isInt) :
    WritesFaithful (relayEvent clock borneId event) := by
  unfold relayEvent
  unfold relayedScore at hscore
  cases htype : event.get "type" with
  | none => trivial
  | some type =>
      rw [htype] at hscore
      cases type with
      | str type =>
          dsimp only at hscore ⊢
          split
          · refine Prog.AllGiven.perform_bind trivial fun _ _ => ?_
            split
            · next hover =>
                rw [if_pos hover] at hscore
                exact writesFaithful_finishBorneGameFromRelay _ _ hscore
            · trivial
          · trivial
      | _ => trivial

/-- Unless it relays a boolean as the final score, a request writes no session
but as it can be read back. -/
theorem writesFaithful_program (borneId : String) {e : Event}
    (hscore : ∀ event, e.request = .relay event → ∀ n ∈ relayedScore event, n.isInt) :
    WritesFaithful (e.program borneId) := by
  obtain ⟨request, clock, uuid, pg⟩ := e
  cases request with
  | createSession pseudo mode roomCode =>
      exact (writesFaithful_createSession _ _ _ _ _).bind fun _ => trivial
  | readyUp broadcaster sessionId => exact (writesFaithful_readyUp _ _ _).bind fun _ => trivial
  | sessionCommand broadcaster command sessionId => exact writesFaithful_sessionCommand _ _ _
  | mqtt broadcaster topic payload =>
      exact writesFaithful_dispatch (writesFaithful_mqttHandler _ _ _) _ _
  | finish sessionId =>
      exact (writesFaithful_of_spares (spares_finishAndPersist _ _)).bind fun _ => trivial
  | intent action payload => exact writesFaithful_applyIntent _ _ _ _ _
  | matchCommand command => exact writesFaithful_handleMatchCommand _ _
  | relay event => exact writesFaithful_relayEvent _ _ (hscore event rfl)
  | countdown id => trivial

/-! ## Runs -/

/-- Every session stored can be read. -/
def World.Readable (w : World) : Prop :=
  ∀ id, (w.sessions id).isSome → ∃ s, w.readSession id = .ok (some s)

/-- Every session stored has an integer score, and integers that `str` writes. -/
def World.IntScores (w : World) : Prop := ∀ id s, w.sessions id = some s → s.readable

theorem World.readable_iff {w : World} : w.Readable ↔ w.IntScores := by
  constructor
  · intro h id s hs
    obtain ⟨s', hs'⟩ := h id (by simp [hs])
    have hseen : w.seen id = some s' := by rw [World.seen, hs']
    obtain ⟨s₀, hs₀, hscore, -⟩ := World.seen_eq_some.mp hseen
    rw [Option.some.inj (hs.symm.trans hs₀)]
    exact hscore
  · intro h id hid
    obtain ⟨s, hs⟩ := Option.isSome_iff_exists.mp hid
    rw [World.readSession_eq, hs]
    dsimp only
    rw [Session.readBack_of_readable (h id s hs)]
    exact ⟨_, rfl⟩

/-- The session with an id has an integer score, and integers that `str` writes, where it
is stored. -/
def World.IntScore (w : World) (id : String) : Prop :=
  ∀ s, w.sessions id = some s → s.readable

/-- What the calls that satisfy it write to a session is an integer score. -/
def Op.WritesInt (id : String) : Op → Prop
  | sessionCreate s => s.sessionId = id → s.writable → s.score.isInt
  | sessionUpdate s => s.sessionId = id → s.writable → s.score.isInt
  | _ => True

theorem Op.Writes.int {op : Op} (h : op.Writes) (id : String) : op.WritesInt id := by
  cases op with
  | sessionCreate s => exact fun _ _ => h
  | sessionUpdate s =>
      exact fun _ hwritable => Session.isInt_of_readable (Session.faithful_iff.mp (h hwritable)).1
  | _ => trivial

theorem intScore_put {w : World} {id : String} (h : w.IntScore id) {s : Session}
    (hs : s.sessionId = id → s.readable) : (w.putSession s).IntScore id := by
  intro s' hs'
  by_cases hid : id = s.sessionId
  · rw [hid, World.putSession, KeyedTable.get_put_self] at hs'
    rw [← Option.some.inj hs']
    exact hs hid.symm
  · rw [World.putSession, KeyedTable.get_put_of_ne _ hid] at hs'
    exact h s' hs'

theorem intScore_put_self (w : World) {s : Session} (hs : s.readable) :
    (w.putSession s).IntScore s.sessionId := by
  intro s' hs'
  rw [World.putSession, KeyedTable.get_put_self] at hs'
  exact Option.some.inj hs' ▸ hs

theorem intScore_erase {w : World} {id : String} (h : w.IntScore id) (sessionId : String) :
    (w.eraseSession sessionId).IntScore id := by
  intro s hs
  by_cases hid : id = sessionId
  · rw [hid, World.eraseSession, KeyedTable.get_erase_self] at hs
    cases hs
  · rw [World.eraseSession, KeyedTable.get_erase_of_ne _ hid] at hs
    exact h s hs

theorem intScore_handle {id : String} (ctx : Context) (op : Op) (w : World)
    (hop : op.WritesInt id) (h : w.IntScore id) : (handle ctx op w).2.IntScore id := by
  cases op with
  | sessionCreate s =>
      by_cases hwritable : s.writable
      · rw [handle_sessionCreate hwritable]
        exact intScore_put h fun hid => Session.readable_of_isInt (hop hid hwritable) hwritable
      · rwa [handle_sessionCreate_error hwritable]
  | sessionUpdate s =>
      by_cases hwritable : s.writable
      · rw [handle_sessionUpdate hwritable]
        exact intScore_put h fun hid => Session.readable_of_isInt (hop hid hwritable) hwritable
      · rwa [handle_sessionUpdate_error hwritable]
  | sessionDelete sessionId => exact intScore_erase h sessionId
  | borneGetOrCreate borneId =>
      unfold handle
      dsimp only
      split
      · exact h
      · exact h
  | _ => exact h

theorem intScores_handle (ctx : Context) (op : Op) (w : World) (hop : op.Writes)
    (h : w.IntScores) : (handle ctx op w).2.IntScores :=
  fun id => intScore_handle ctx op w (hop.int id) (h id)

theorem readsFaithful_handle (ctx : Context) (op : Op) (w : World) :
    ReadsFaithful op (handle ctx op w).1 := by
  cases op with
  | sessionGet sessionId =>
      change ReadsFaithful (.sessionGet sessionId) (w.readSession sessionId)
      rw [World.readSession_eq]
      cases w.sessions sessionId with
      | none => trivial
      | some s₀ =>
          dsimp only
          cases hread : s₀.readBack with
          | error e => trivial
          | ok s => exact Session.faithful_of_readBack hread
  | _ => trivial

/-- No boolean is relayed as the final score of a session that can be read. -/
def IntegerRelay (borneId : String) (w : World) (e : Event) : Prop :=
  match e.request with
  | .relay event => ∀ n ∈ relayedScore event, ∀ id ∈ (w.borne borneId).activeSessionId,
      (w.seen id).isSome → n.isInt
  | _ => True

/-- After each call of the step every session stored can be read, and an update that
writes a hash reads back as it was written. -/
def ReadsBack (borneId : String) (w : World) (e : Event) : Prop :=
  (∀ c ∈ e.calls borneId w, c.2.Readable ∧
      ∀ s, c.1 = .sessionUpdate s → s.writable →
        c.2.readSession s.sessionId = .ok (some s)) ∧
    (step borneId w e).Readable

section Steps

variable {borneId : String} {w : World} {e : Event}

/-- A world in which a faithful session has just been written. -/
theorem readSession_of_update {ctx : Context} {s : Session} (hs : s.Faithful) (w : World) :
    (handle ctx (.sessionUpdate s) w).2.readSession s.sessionId = .ok (some s) := by
  have hwritable := Session.writable_of_readable (Session.faithful_iff.mp hs).1
  have hput : (w.putSession s).sessions s.sessionId = some s := w.sessions.get_put_self s
  rw [handle_sessionUpdate hwritable, World.readSession_eq, hput]
  dsimp only
  rw [show s.readBack = .ok s from hs]
  rfl

/-- A call made as it can be read back leaves every session readable. -/
theorem readsBack_call {ctx : Context} {op : Op} {w : World} (hop : op.Writes) (h : w.IntScores) :
    (handle ctx op w).2.Readable ∧ ∀ s, op = .sessionUpdate s → s.writable →
      (handle ctx op w).2.readSession s.sessionId = .ok (some s) := by
  refine ⟨World.readable_iff.mpr (intScores_handle ctx op w hop h), ?_⟩
  rintro s rfl hwritable
  exact readSession_of_update (hop hwritable) w

theorem readSession_openBorne (ctx : Context) (w : World) (borneId id : String) :
    (handle ctx (.borneGetOrCreate borneId) w).2.readSession id = w.readSession id := by
  unfold handle
  dsimp only
  split <;> rfl

/-- A relayed score makes no difference where the session is gone. -/
theorem spares_log_of_unseen {ctx : Context} {clock : Clock} {finalScore : Json}
    (hunseen : ∀ id ∈ (w.borne borneId).activeSessionId, w.seen id = none) :
    ∀ c ∈ (finishBorneGameFromRelay clock borneId finalScore).log (handle ctx) w,
      c.1.spares = true := by
  intro c hc
  rw [finishBorneGameFromRelay, Prog.log_of_ok (w.readBorne_eq borneId)] at hc
  rcases List.mem_cons.mp hc with rfl | hc
  · rfl
  · cases hactive : (w.borne borneId).activeSessionId with
    | none =>
        rw [hactive] at hc
        exact (spares_markGameOver borneId).of_mem_log hc
    | some id =>
        rw [hactive] at hc hunseen
        rcases w.readSession_cases id with hread | ⟨-, e, hread⟩
        · rw [hunseen id rfl, ← readSession_openBorne ctx w borneId id] at hread
          dsimp only at hc
          rw [Prog.log_of_ok hread] at hc
          rcases List.mem_cons.mp hc with rfl | hc
          · rfl
          · exact (spares_finishBorneGame clock borneId id).of_mem_log hc
        · rw [← readSession_openBorne ctx w borneId id] at hread
          dsimp only at hc
          rw [Prog.log_of_error hread] at hc
          obtain rfl := List.mem_singleton.mp hc
          rfl

/-- What the event of a relay that carries a final score runs. -/
theorem relayEvent_of_score (borneId : String) (clock : Clock) {event : Dict} {n : PyInt}
    (hn : relayedScore event = some n) : ∃ finalScore : Json, finalScore.asPyInt = some n ∧
      relayEvent clock borneId event =
        (do await (.broadcastToBorne borneId (.relayed event))
            finishBorneGameFromRelay clock borneId finalScore) := by
  unfold relayedScore at hn
  unfold relayEvent
  cases htype : event.get "type" with
  | none =>
      rw [htype] at hn
      cases hn
  | some type =>
      rw [htype] at hn
      cases type with
      | str type =>
          dsimp only at hn ⊢
          split at hn
          · next hover =>
              subst hover
              exact ⟨_, hn, by rw [if_pos (by decide), if_pos rfl]⟩
          · cases hn
      | _ => cases hn

theorem readsBack_of_unseen {event : Dict} {n : PyInt} (hrequest : e.request = .relay event)
    (hn : relayedScore event = some n) (h : w.IntScores)
    (hunseen : ∀ id ∈ (w.borne borneId).activeSessionId, w.seen id = none) :
    ReadsBack borneId w e := by
  obtain ⟨request, clock, uuid, pg⟩ := e
  obtain rfl : request = .relay event := hrequest
  obtain ⟨finalScore, -, hprogram⟩ := relayEvent_of_score borneId clock hn
  have hlog : ∀ c ∈ (relayEvent clock borneId event).log (handle { pg }) w, c.1.Writes := by
    intro c hc
    rw [hprogram, Prog.log_perform_bind] at hc
    rcases List.mem_cons.mp hc with rfl | hc
    · trivial
    · exact Op.writes_of_spares (spares_log_of_unseen (w := w.emit _) hunseen c hc)
  obtain ⟨hrun, hcalls⟩ := Prog.run_of_log (intScores_handle { pg }) hlog h
  refine ⟨fun c hc => ?_, World.readable_iff.mpr hrun⟩
  obtain ⟨w', hw', heq⟩ := hcalls c hc
  rw [heq]
  exact readsBack_call (hlog c hc) hw'

theorem readsBack_step (h : w.IntScores) (hrelay : IntegerRelay borneId w e) :
    ReadsBack borneId w e := by
  by_cases hscore : ∀ event, e.request = .relay event → ∀ n ∈ relayedScore event, n.isInt
  · obtain ⟨hstep, hcalls⟩ := step_given (fun ctx op w _ => readsFaithful_handle ctx op w)
      intScores_handle (fun _ _ h => h) (fun _ _ _ => writesFaithful_countdownFrom _ _ _)
      (writesFaithful_program borneId hscore) h
    refine ⟨fun c hc => ?_, World.readable_iff.mpr hstep⟩
    obtain ⟨hop, ctx, w', hw', heq⟩ := hcalls c hc
    rw [heq]
    exact readsBack_call hop hw'
  · push Not at hscore
    obtain ⟨event, hrequest, n, hn, hbool⟩ := hscore
    refine readsBack_of_unseen hrequest hn h fun id hid => ?_
    rw [IntegerRelay, hrequest] at hrelay
    by_contra hseen
    exact hbool (hrelay n hn id hid (Option.isSome_iff_ne_none.mpr hseen))

/-- A relay writes the final score to the session it reads. -/
theorem update_mem_log (ctx : Context) (clock : Clock) {finalScore : Json} {n : PyInt} {id : String}
    {s : Session} (hfinal : finalScore.asPyInt = some n)
    (hactive : (w.borne borneId).activeSessionId = some id) (hs : w.seen id = some s) :
    ∃ w', (Op.sessionUpdate { s with score := n }, (handle ctx (.sessionUpdate
        { s with score := n }) w').2) ∈
      (finishBorneGameFromRelay clock borneId finalScore).log (handle ctx) w := by
  have hread : (handle ctx (.borneGetOrCreate borneId) w).2.readSession id = .ok (some s) := by
    rw [readSession_openBorne, World.readSession_of_seen hs]
  refine ⟨(handle ctx (.sessionGet id) (handle ctx (.borneGetOrCreate borneId) w).2).2, ?_⟩
  rw [finishBorneGameFromRelay, Prog.log_of_ok (w.readBorne_eq borneId), hactive]
  dsimp only
  rw [Prog.log_of_ok hread, hfinal]
  dsimp only
  rw [Prog.log_perform_bind]
  exact List.mem_cons_of_mem _ (List.mem_cons_of_mem _ List.mem_cons_self)

/-- A boolean relayed for a session that can be read makes it unreadable. -/
theorem not_readsBack (hrelay : ¬ IntegerRelay borneId w e) : ¬ ReadsBack borneId w e := by
  intro hreads
  apply hrelay
  obtain ⟨request, clock, uuid, pg⟩ := e
  cases request with
  | relay event =>
      intro n hn id hid hseen
      obtain ⟨s, hs⟩ := Option.isSome_iff_exists.mp hseen
      obtain ⟨finalScore, hfinal, hprogram⟩ :=
        relayEvent_of_score borneId clock hn
      obtain ⟨w', hmem⟩ := update_mem_log { pg } clock
        (w := w.emit (.borne borneId (.relayed event))) hfinal hid hs
      have hcall : (Op.sessionUpdate { s with score := n }, (handle { pg } (.sessionUpdate
          { s with score := n }) w').2) ∈ (relayEvent clock borneId event).log (handle { pg }) w := by
        rw [hprogram, Prog.log_perform_bind]
        exact List.mem_cons_of_mem _ hmem
      by_contra hbool
      have hwritable : ({ s with score := n }).writable :=
        (Session.writable_withScore (World.writable_of_seen hs) n).trans
          (PyInt.fitsStr_of_not_isInt hbool)
      have hback := (hreads.1 _ hcall).2 _ rfl hwritable
      have hput : (w'.putSession { s with score := n }).sessions s.sessionId =
          some { s with score := n } := w'.sessions.get_put_self ({ s with score := n } : Session)
      rw [handle_sessionUpdate hwritable, World.readSession_eq, hput] at hback
      dsimp only at hback
      rw [Session.readBack_of_not_readable fun h => hbool (Session.isInt_of_readable h)] at hback
      cases hback
  | _ => trivial

end Steps

/-- In a run, every session stored can be read and every update that writes a hash
reads back as it was written, as long as no boolean is relayed as the final score of a session
that can be read, and no longer. -/
theorem sessions_read_back_iff (borneId : String) (db : Database) (evs : List Event) :
    Runs.Along (step borneId) (ReadsBack borneId) { db } evs ↔
      Runs.Along (step borneId) (IntegerRelay borneId) { db } evs := by
  have hinit : World.IntScores { db } := by
    intro id s hs
    cases hs
  constructor
  · intro h
    exact h.mono fun w e hreads => by_contra fun hrelay => not_readsBack hrelay hreads
  · intro h
    exact h.imp (I := World.IntScores)
      (fun w e hw hrelay => World.readable_iff.mp (readsBack_step hw hrelay).2)
      (fun w e hw hrelay => readsBack_step hw hrelay) hinit

/-- A game of the borne whose end is relayed with a boolean score. -/
def relayedTrue : List Event :=
  (borneGame "s").take 3 ++
    [{ request := .relay [("type", .str "game:over"), ("finalScore", .bool true)] }]

/-- The session is stored and cannot be read any more. -/
theorem relayedTrue_unreadable :
    let w := relayedTrue.foldl (step "b") {}
    (w.sessions "s").isSome ∧ w.readSession "s" = .error (.python .valueError) := by
  decide +kernel

end FlipperBack
