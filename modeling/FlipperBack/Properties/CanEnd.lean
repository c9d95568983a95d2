import FlipperBack.Properties.BufferExpiry
import FlipperBack.Properties.Readable
import FlipperBack.System.Messages
import FlipperBack.System.Rests

/-!
# The game on the borne can be ended

The commands that end a game read its session first, and the reading of a session
whose score is no integer raises: such a game could not be left. The playfield
relays such scores, but the execution that writes one to a session then ends its
game as well, and the id of a session is attached to the borne only once. So in
every interleaving, with sessions that expire at any time, the session of the
game on the screens has an integer score once the requests in flight have ended
(`canEnd_of_allEnded`).
-/

namespace FlipperBack

open Effects Python

/-- The game on the screens, if there is one, is that of a session which is gone
or can be read. -/
def World.CanEnd (w : World) (borneId : String) : Prop :=
  (w.borne borneId).nav = .inGame →
    ∃ id, (w.borne borneId).activeSessionId = some id ∧ w.IntScore id

theorem intScore_advance {t : TimedWorld} {id : String} (h : t.world.IntScore id) (d : ℕ) :
    (t.advance d).world.IntScore id :=
  fun s hs => h s (KeyedTable.get_of_get_keep hs)

/-! ## The course of an execution -/

/-- What an execution has to do with the session on the screens. -/
inductive ExitPhase
  /-- It never moves the borne. -/
  | apart
  | free
  /-- It has an id to attach. -/
  | attaching (id : String)
  /-- It has read which session is active. -/
  | holds (active : Option String)
  /-- It has made a session unreadable, and has the game of it to end. -/
  | owes (id : String)

namespace ExitPhase

/-- The session that an execution goes on to write. -/
def held : ExitPhase → Option String
  | holds active => active
  | owes id => some id
  | _ => none

/-- What the reading of a borne tells an execution; one that has a game to end
is through with it once it is not on the screens. -/
def reads (b : Borne) (q q' : ExitPhase) : Prop :=
  q ≠ apart ∧ (b.nav = .inGame → ∀ id, b.activeSessionId = some id → q ≠ owes id) ∧
    (q' = free ∨ q' = holds b.activeSessionId)

/-- The execution has no game to end. -/
def Clear (q : ExitPhase) : Prop := ∀ id, q ≠ owes id

end ExitPhase

def exitProtocol (borneId : String) : Protocol Exc Op.Res ExitPhase where
  allowed
    | .apart, .borneUpdate _ => False
    | .attaching id, .borneUpdate b =>
        b.borneId = borneId ∧ b.nav = .inGame ∧ b.activeSessionId = some id
    | q, .borneUpdate b => b.borneId = borneId ∧ b.nav ≠ .inGame ∧
        (b.activeSessionId = none ∨ b.activeSessionId = q.held)
    | q, .sessionUpdate s => (s.writable → s.readable) ∨ q = .holds (some s.sessionId)
    | _, .sessionCreate s => s.score.isInt
    | _, _ => True
  answers
    | .sessionGet id, r => ∀ s, r = .ok (some s) → s.sessionId = id ∧ s.Faithful
    | .gamePersistFinishedSession _ _ _, _ => True
    | .sessionCreate s, r => s.writable → ∃ a, r = .ok a
    | .sessionUpdate s, r => (∃ a, r = .ok a) ↔ s.writable
    | .borneGetOrCreate id, r => ∃ b, r = .ok b ∧ b.borneId = id
    | _, r => ∃ a, r = .ok a
  next
    | q, .borneGetOrCreate id, r, q' =>
        q' = q ∨ id = borneId ∧ ∃ b, r = .ok b ∧ q.reads b q'
    | _, .borneUpdate _, _, q' => q' = .free
    | q, .sessionUpdate s, _, q' =>
        if s.writable → s.readable then q' = q else q' = .owes s.sessionId
    | q, _, _, q' => q' = q

/-- Its part about the calls whose writes read back. -/
abbrev intExitProtocol (borneId : String) : Protocol Exc Op.Res ExitPhase :=
  (exitProtocol borneId).assuming Op.Writes

theorem handle_exitAnswers (borneId : String) (c : Context) (op : Op) (w : World) :
    (exitProtocol borneId).answers op (handle c op w).1 := by
  cases op with
  | sessionGet id =>
      intro s hs
      have hseen : w.seen id = some s := by rw [World.seen, show w.readSession id = _ from hs]
      refine ⟨World.seen_sessionId hseen, ?_⟩
      have hfaithful := readsFaithful_handle c (.sessionGet id) w
      rw [hs] at hfaithful
      exact hfaithful
  | gamePersistFinishedSession id utcnow finished => trivial
  | sessionCreate s => exact fun hs => ⟨_, congrArg Prod.fst (handle_sessionCreate hs)⟩
  | sessionUpdate s =>
      refine ⟨?_, fun hs => ⟨_, congrArg Prod.fst (handle_sessionUpdate hs)⟩⟩
      rintro ⟨a, ha⟩
      by_contra hs
      rw [handle_sessionUpdate_error hs] at ha
      cases ha
  | borneGetOrCreate id => exact ⟨_, w.readBorne_eq id, w.borneId_borne id⟩
  | _ => exact ⟨_, rfl⟩

theorem exitAnswers_faithful {borneId : String} (op : Op) (r : Except Exc op.Res)
    (hr : (exitProtocol borneId).answers op r) : ReadsFaithful op r := by
  cases op with
  | sessionGet id =>
      rcases r with e | _ | s
      · trivial
      · trivial
      · exact (hr s rfl).2
  | _ => trivial

section Programs

variable {borneId : String}

/-- A call that does not write the borne leaves the phase. -/
theorem exit_leaves (q : ExitPhase) {op : Op} (h : ∀ b, op ≠ .borneUpdate b) :
    (intExitProtocol borneId).Leaves q op := by
  cases op with
  | borneUpdate b => exact absurd rfl (h b)
  | borneGetOrCreate id => exact ⟨fun _ => by cases q <;> trivial, fun _ _ _ => Or.inl rfl⟩
  | sessionCreate s => exact ⟨fun hwrites => by cases q <;> exact hwrites, fun _ _ _ => rfl⟩
  | sessionUpdate s =>
      have hreads (hwrites : Op.Writes (.sessionUpdate s)) (hs : s.writable) : s.readable :=
        (Session.faithful_iff.mp (hwrites hs)).1
      refine ⟨fun hwrites => ?_, fun _ _ hwrites => (if_pos (hreads hwrites)).mpr rfl⟩
      cases q <;> exact Or.inl (hreads hwrites)
  | _ => exact ⟨fun _ => by cases q <;> trivial, fun _ _ _ => rfl⟩

theorem exit_leaves_plain (q : ExitPhase) (op : Op) (h : op.isPlain = true) :
    (intExitProtocol borneId).Leaves q op := by
  refine exit_leaves q ?_
  rintro b rfl
  cases h

theorem exit_leaves_tell (q : ExitPhase) (broadcaster : Broadcaster) (id : String)
    (message : SessionMessage) :
    (intExitProtocol borneId).Leaves q (.broadcastToSession broadcaster id message) :=
  exit_leaves q (by simp)

theorem exit_launch (q : ExitPhase) (startCountdown : Option Broadcaster) (sessionId : String) :
    Prog.Rests (intExitProtocol borneId) q (launch startCountdown sessionId) := by
  cases startCountdown with
  | none => rfl
  | some broadcaster => exact .perform (exit_leaves q (by simp))

/-- An execution that reads the borne goes on in the phase it was in, or in one
that the reading leads to. -/
theorem exit_read {α : Type} {F E : ExitPhase → Prop} {q : ExitPhase} {f : Borne → UseCase α}
    (hf : ∀ b : Borne, b.borneId = borneId → ∃ q', (q' = q ∨ q.reads b q') ∧
      (f b).Follows (exitProtocol borneId) F E q') :
    (await (.borneGetOrCreate borneId) >>= f).Follows (exitProtocol borneId) F E q := by
  refine Prog.Follows.perform_bind (by cases q <;> trivial) (fun b hb => ?_) fun e he => ?_
  · obtain ⟨b, heq, hid⟩ := hb
    obtain rfl := Except.ok.inj heq
    obtain ⟨q', hq', hfollows⟩ := hf _ hid
    exact ⟨q', hq'.imp_right fun hreads => ⟨rfl, _, rfl, hreads⟩, hfollows⟩
  · obtain ⟨b, heq, -⟩ := he
    cases heq

/-- An execution that knows which session is active keeps it, or drops it,
moving the borne to a screen other than that of the game. -/
theorem exit_update {q : ExitPhase} (hq : q ≠ .apart ∧ ∀ id, q ≠ .attaching id) {b : Borne}
    (hid : b.borneId = borneId) (hnav : b.nav ≠ .inGame)
    (hactive : b.activeSessionId = none ∨ b.activeSessionId = q.held) :
    (do await (.borneUpdate b); broadcastNav b : UseCase Unit).Follows (exitProtocol borneId)
      (· = .free) (· = .free) q := by
  refine Prog.Follows.perform_bind ?_ (fun _ _ => ⟨.free, rfl, ?_⟩) fun _ h => nomatch h
  · cases q with
    | apart => exact absurd rfl hq.1
    | attaching id => exact absurd rfl (hq.2 id)
    | _ => exact ⟨hid, hnav, hactive⟩
  · exact ⟨trivial, fun r _ => ⟨.free, rfl, Prog.Rests.ofExcept r⟩⟩

/-- The end of a game, for an execution that may have one to end. -/
theorem exit_markGameOver {q : ExitPhase} (hq : q = .free ∨ ∃ id, q = .owes id) :
    (markGameOver borneId).Follows (exitProtocol borneId) (· = .free) (· = .free) q := by
  have hapart : q ≠ .apart := by rcases hq with rfl | ⟨id, rfl⟩ <;> simp
  refine exit_read fun b hid => ?_
  by_cases hnav : b.nav = .inGame
  · rw [if_pos hnav]
    by_cases howes : ∃ id, b.activeSessionId = some id ∧ q = .owes id
    · obtain ⟨id, hactive, rfl⟩ := howes
      exact ⟨.owes id, Or.inl rfl, exit_update (by simp) hid (by simp) (Or.inr hactive)⟩
    · push Not at howes
      exact ⟨.holds b.activeSessionId, Or.inr ⟨hapart, fun _ => howes, Or.inr rfl⟩,
        exit_update (by simp) hid (by simp) (Or.inr rfl)⟩
  · rw [if_neg hnav]
    exact ⟨.free, Or.inr ⟨hapart, fun h => absurd h hnav, Or.inl rfl⟩, rfl⟩

theorem exit_finishAndPersist (clock : Clock) (sessionId : String) :
    Prog.Rests (exitProtocol borneId) .free (finishAndPersist clock sessionId) :=
  Prog.Follows.of_assuming
    (rests_finishAndPersist (exit_leaves_plain .free) (fun _ _ => exit_leaves .free (by simp))
      (exit_leaves .free (by simp)) (exit_leaves .free (by simp)) clock)
    exitAnswers_faithful (writesFaithful_of_spares (spares_finishAndPersist clock sessionId))

/-- An execution that has made the session unreadable ends its game where it is
still on the screens. -/
theorem exit_finishBorneGame {q : ExitPhase} {sessionId : String}
    (hq : (∃ active, q = .holds active) ∨ q = .owes sessionId) (clock : Clock) :
    (finishBorneGame clock borneId sessionId).Follows (exitProtocol borneId) (· = .free) (· = .free)
      q := by
  refine exit_read fun b _ => ?_
  by_cases hactive : b.activeSessionId = some sessionId
  · have hread : ∃ q', (q' = q ∨ q.reads b q') ∧ (q' = .free ∨ ∃ id, q' = .owes id) := by
      rcases hq with ⟨active, rfl⟩ | rfl
      · exact ⟨.free, Or.inr ⟨by simp, by simp, Or.inl rfl⟩, Or.inl rfl⟩
      · exact ⟨.owes sessionId, Or.inl rfl, Or.inr ⟨sessionId, rfl⟩⟩
    obtain ⟨q', hq', hmark⟩ := hread
    rw [if_pos hactive]
    refine ⟨q', hq', (exit_markGameOver hmark).bind fun q _ hfree => ?_⟩
    rw [hfree]
    refine Prog.Follows.tryCatch ((exit_finishAndPersist clock sessionId).bind fun _ => rfl) ?_
    intro q e hfree
    cases e <;> exact hfree
  · rw [if_neg hactive]
    refine ⟨.free, Or.inr ⟨?_, fun _ id hid => ?_, Or.inl rfl⟩, rfl⟩
    · rcases hq with ⟨active, rfl⟩ | rfl <;> simp
    · rintro rfl
      rcases hq with ⟨active, hq⟩ | hq
      · cases hq
      · cases hq
        exact hactive hid

/-- The execution of a relay ends with no game to end. -/
theorem exit_relayEvent (clock : Clock) (event : Dict) :
    (relayEvent clock borneId event).Follows (exitProtocol borneId) ExitPhase.Clear ExitPhase.Clear
      .free := by
  have hclear {q : ExitPhase} (hq : q = .free) : q.Clear := by simp [hq, ExitPhase.Clear]
  have hfinish (finalScore : Json) : (finishBorneGameFromRelay clock borneId finalScore).Follows
      (exitProtocol borneId) ExitPhase.Clear ExitPhase.Clear .free := by
    refine exit_read fun b _ => ?_
    cases hactive : b.activeSessionId with
    | none =>
        exact ⟨.free, Or.inl rfl, (exit_markGameOver (Or.inl rfl)).mono (fun _ => hclear)
          fun _ => hclear⟩
    | some sessionId =>
        have hgame {q : ExitPhase} (hq : (∃ active, q = .holds active) ∨ q = .owes sessionId) :
            (finishBorneGame clock borneId sessionId).Follows (exitProtocol borneId)
              ExitPhase.Clear ExitPhase.Clear q :=
          (exit_finishBorneGame hq clock).mono (fun _ => hclear) fun _ => hclear
        refine ⟨.holds (some sessionId), Or.inr (by simp [ExitPhase.reads, hactive]), ?_⟩
        refine Prog.Follows.perform_bind trivial (fun found hfound => ⟨_, rfl, ?_⟩)
          fun _ _ => ⟨_, rfl, by simp [ExitPhase.Clear]⟩
        split
        · next s score _ =>
            obtain ⟨rfl, -⟩ := hfound s rfl
            -- A score that is no integer leaves the session unreadable; one that `str` refuses
            -- leaves it as it is.
            refine Prog.Follows.perform_bind (Or.inr rfl) (fun _ _ => ?_) fun e he => ?_
            · by_cases hreads : ({ s with score } : Session).writable →
                  ({ s with score } : Session).readable
              · exact ⟨_, (if_pos hreads).mpr rfl, hgame (Or.inl ⟨_, rfl⟩)⟩
              · exact ⟨_, (if_neg hreads).mpr rfl, hgame (Or.inr rfl)⟩
            · have hrefused : ¬ ({ s with score } : Session).writable := fun hs => by
                obtain ⟨_, h⟩ := he.mpr hs
                cases h
              exact ⟨_, (if_pos fun hs => absurd hs hrefused).mpr rfl, by simp [ExitPhase.Clear]⟩
        · exact hgame (Or.inl ⟨_, rfl⟩)
  unfold relayEvent
  split
  · split
    · refine Prog.Follows.perform_bind trivial (fun _ _ => ⟨.free, rfl, ?_⟩)
        fun _ h => nomatch h
      split
      · exact hfinish _
      · exact hclear rfl
    · exact hclear rfl
  all_goals exact hclear rfl

theorem exit_createSession (q : ExitPhase) (uuid : String) (now : DateTime) (pseudo : String)
    (mode : GameMode) (roomCode : Option String) :
    Prog.Rests (intExitProtocol borneId) q (createSession uuid now pseudo mode roomCode) :=
  .bind (.ofExcept _) fun _ => .bind (.perform (exit_leaves q (by simp))) fun _ => rfl

/-- The validation of the players attaches the id of its session. -/
theorem exit_startGame (uuid : String) (now : DateTime) {borne : Borne}
    (hid : borne.borneId = borneId) (payload : Json) :
    (startGame uuid now borne payload).Follows (exitProtocol borneId) ExitPhase.Clear
      ExitPhase.Clear (.attaching uuid) := by
  have hclear : ExitPhase.Clear (.attaching uuid) ∧ ExitPhase.Clear .free := by
    simp [ExitPhase.Clear]
  refine Prog.Follows.of_assuming ?_ exitAnswers_faithful (writesFaithful_startGame _ _ _ _)
  unfold startGame
  split
  · cases extractPseudo payload with
    | none => exact hclear.1
    | some pseudo =>
        dsimp only [createSession]
        cases normalizeAndValidate pseudo with
        | error e => exact hclear.1
        | ok pseudo =>
            refine ⟨fun hwrites => hwrites, fun r hr => ⟨.attaching uuid, fun _ => rfl, ?_⟩⟩
            obtain ⟨_, rfl⟩ := hr (Session.writable_of_readable newSession_readable)
            refine Prog.Follows.perform_bind (fun _ => ?_) (fun _ _ => ⟨.free, fun _ => rfl, ?_⟩)
              fun _ h => nomatch h
            · exact ⟨hid, rfl, rfl⟩
            · have hready : Prog.Rests (intExitProtocol borneId) .free
                  (readyUp [.borne] (some [.borne]) uuid) :=
                rests_readyUp (exit_leaves_plain .free) (exit_launch .free)
                  (exit_leaves_tell .free _ _) _
              refine Prog.Rests.follows (.bind (.perform ?_) fun _ => .bind hready fun _ => rfl)
                hclear.2 hclear.2
              exact exit_leaves .free (by simp)
  · exact hclear.1

/-- What the table leads to keeps the session that is active, or drops it. -/
theorem exit_applyIntent (uuid : String) (now : DateTime) {action : String}
    (haction : action ≠ playersValidated) (payload : Json) :
    (applyIntent uuid now borneId action payload).Follows (exitProtocol borneId) ExitPhase.Clear
      ExitPhase.Clear .free := by
  have hclear {q : ExitPhase} (hq : q = .free) : q.Clear := by simp [hq, ExitPhase.Clear]
  refine exit_read fun b hid => ?_
  rw [if_neg haction]
  cases htarget : nextNavState b.nav action with
  | none => exact ⟨.free, Or.inl rfl, hclear rfl⟩
  | some target =>
      refine ⟨.holds b.activeSessionId, Or.inr (by simp [ExitPhase.reads]), ?_⟩
      dsimp only
      refine (exit_update (q := .holds b.activeSessionId) (by simp) ?_ ?_ ?_).mono
        (fun _ => hclear) fun _ => hclear
      · exact hid
      · rintro rfl
        cases (nextNavState_cases htarget).1
      · dsimp only
        split
        · exact Or.inl rfl
        · exact Or.inr rfl

/-- The phase in which a request begins. -/
def Event.exitPhase (e : Event) : ExitPhase :=
  if e.validates then .attaching e.uuid else .free

theorem exit_request (e : Event) :
    (e.program borneId).Follows (exitProtocol borneId) ExitPhase.Clear ExitPhase.Clear
      e.exitPhase := by
  have hclear {q : ExitPhase} (hq : q = .free) : q.Clear := by simp [hq, ExitPhase.Clear]
  have hmark : Prog.Rests (intExitProtocol borneId) .free (markGameOver borneId) :=
    (exit_markGameOver (Or.inl rfl)).assuming _
  have hplain : ∀ op : Op, op.isPlain → (intExitProtocol borneId).Leaves .free op :=
    exit_leaves_plain .free
  have hcommand (broadcaster : Broadcaster) (sessionId : String) :=
    rests_sessionCommand hplain (exit_launch .free) (exit_leaves_tell .free broadcaster sessionId)
  have hrests {p : UseCase Unit} (hp : Prog.Rests (intExitProtocol borneId) .free p)
      (hwrites : WritesFaithful p) :
      p.Follows (exitProtocol borneId) ExitPhase.Clear ExitPhase.Clear .free :=
    (hp.follows (hclear rfl) (hclear rfl)).of_assuming exitAnswers_faithful hwrites
  by_cases hrelay : ∀ event, e.request ≠ .relay event
  · have hwrites := writesFaithful_program borneId (e := e) fun event h => absurd h (hrelay event)
    obtain ⟨request, clock, uuid, pg⟩ := e
    have hflush (sessionId : String) :
        Prog.Rests (intExitProtocol borneId) .free (finishAndPersist clock sessionId) :=
      (exit_finishAndPersist clock sessionId).assuming _
    cases request with
    | createSession pseudo mode roomCode =>
        exact hrests (.bind (exit_createSession _ _ _ _ _ _) fun _ => rfl) hwrites
    | readyUp broadcaster sessionId =>
        exact hrests (.bind (rests_readyUp hplain (exit_launch .free)
          (exit_leaves_tell .free _ _) _) fun _ => rfl) hwrites
    | sessionCommand broadcaster command sessionId => exact hrests (hcommand _ _ _) hwrites
    | mqtt broadcaster topic payload =>
        exact hrests (rests_mqtt hplain hmark hflush (exit_leaves_tell .free _) _ _) hwrites
    | finish sessionId => exact hrests (.bind (hflush _) fun _ => rfl) hwrites
    | intent action payload =>
        by_cases haction : action = playersValidated
        · subst haction
          exact exit_read fun b hid =>
            ⟨.attaching uuid, Or.inl rfl, exit_startGame uuid clock.now hid payload⟩
        · rw [Event.exitPhase, if_neg (by simpa [Event.validates] using haction)]
          exact exit_applyIntent uuid clock.now haction payload
    | matchCommand command =>
        exact hrests (rests_handleMatchCommand hplain hmark fun sessionId =>
          hcommand _ sessionId _) hwrites
    | relay event => exact absurd rfl (hrelay event)
    | countdown task => exact hclear rfl
  · push Not at hrelay
    obtain ⟨event, hrequest⟩ := hrelay
    obtain ⟨request, clock, uuid, pg⟩ := e
    obtain rfl : request = .relay event := hrequest
    exact exit_relayEvent clock event

/-- The phase in which a job begins. -/
def Job.exitPhase : Job → ExitPhase
  | request e => e.exitPhase
  | countdown _ _ _ => .apart

theorem exit_job (job : Job) : (job.program borneId).Follows (exitProtocol borneId) ExitPhase.Clear
    ExitPhase.Clear job.exitPhase := by
  cases job with
  | request e => exact exit_request e
  | countdown task broadcaster sessionId =>
      have hclear : ExitPhase.Clear .apart := by simp [ExitPhase.Clear]
      have hrests : Prog.Rests (intExitProtocol borneId) .apart
          (countdownFrom broadcaster sessionId countdownValues) :=
        rests_countdownFrom (exit_leaves_plain .apart) (exit_leaves_tell .apart _ _) _
      exact (hrests.follows hclear hclear).of_assuming exitAnswers_faithful
        (writesFaithful_countdownFrom _ _ _)

end Programs

/-! ## The invariant -/

/-- The id that the execution `i` has to attach is nobody else's, and its session
has an integer score. -/
structure Unused (borneId : String) (w : World) (phase : ℕ → ExitPhase) (i : ℕ) (id : String) :
    Prop where
  nonempty : id ≠ ""
  inactive : (w.borne borneId).activeSessionId ≠ some id
  int : w.IntScore id
  others : ∀ j ≠ i, phase j ≠ .attaching id ∧ (phase j).held ≠ some id

/-- The session of the game on the screens has an integer score, or an execution
has this game to end. -/
structure Endable (borneId : String) (w : World) (phase : ℕ → ExitPhase) : Prop where
  unused : ∀ i id, phase i = .attaching id → Unused borneId w phase i id
  game : (w.borne borneId).nav = .inGame → ∃ id, (w.borne borneId).activeSessionId = some id ∧
    (w.IntScore id ∨ ∃ i, phase i = .owes id)

namespace Endable

variable {borneId : String} {w w' : World} {b : Borne} {phase : ℕ → ExitPhase} {i : ℕ}
  {q : ExitPhase}

/-- The ids to attach are those of the executions that make no call. -/
theorem unused_update (h : Endable borneId w phase) (hq : ∀ id, q ≠ .attaching id)
    (hkeep : ∀ j id, Unused borneId w phase j id → j ≠ i → phase j = .attaching id →
      (w'.borne borneId).activeSessionId ≠ some id ∧ w'.IntScore id ∧ q.held ≠ some id) :
    ∀ j id, Function.update phase i q j = .attaching id →
      Unused borneId w' (Function.update phase i q) j id := by
  intro j id hj
  have hji : j ≠ i := by
    rintro rfl
    rw [Function.update_self] at hj
    exact hq id hj
  rw [Function.update_of_ne hji] at hj
  have hunused := h.unused j id hj
  obtain ⟨hinactive, hint, hheld⟩ := hkeep j id hunused hji hj
  refine ⟨hunused.nonempty, hinactive, hint, fun k hk => ?_⟩
  by_cases hki : k = i
  · rw [hki, Function.update_self]
    exact ⟨hq id, hheld⟩
  · rw [Function.update_of_ne hki]
    exact hunused.others k hk

/-- A call that leaves the borne and writes no score but an integer. -/
theorem keep (h : Endable borneId w phase) (hborne : w'.borne borneId = w.borne borneId)
    (hint : ∀ id, w.IntScore id → w'.IntScore id) : Endable borneId w' phase where
  unused j id hj := by
    have hunused := h.unused j id hj
    exact ⟨hunused.nonempty, hborne ▸ hunused.inactive, hint id hunused.int, hunused.others⟩
  game hnav := by
    rw [hborne] at hnav ⊢
    obtain ⟨id, hactive, hid⟩ := h.game hnav
    exact ⟨id, hactive, hid.imp_left (hint id)⟩

/-- What is read of the borne is not an id to attach, and a game to end stays so
while it is on the screens. -/
theorem read (h : Endable borneId w phase) (hq : (phase i).reads (w.borne borneId) q) :
    Endable borneId w (Function.update phase i q) := by
  obtain ⟨-, howes, hq⟩ := hq
  refine ⟨h.unused_update (by rcases hq with rfl | rfl <;> simp) ?_, fun hnav => ?_⟩
  · intro j id hunused hji hj
    refine ⟨hunused.inactive, hunused.int, ?_⟩
    rcases hq with rfl | rfl
    · simp [ExitPhase.held]
    · exact hunused.inactive
  · obtain ⟨id, hactive, hid⟩ := h.game hnav
    refine ⟨id, hactive, hid.imp_right fun ⟨j, hj⟩ => ⟨j, ?_⟩⟩
    rw [Function.update_of_ne, hj]
    rintro rfl
    exact howes hnav id hactive hj

/-- A score that is no integer is written to the session of an execution that
has it to end. -/
theorem spoil (h : Endable borneId w phase) {s : Session}
    (hi : phase i = .holds (some s.sessionId)) :
    Endable borneId (w.putSession s) (Function.update phase i (.owes s.sessionId)) := by
  have hother {id : String} (hne : s.sessionId ≠ id) (hid : w.IntScore id) :
      (w.putSession s).IntScore id := intScore_put hid fun heq => absurd heq hne
  refine ⟨h.unused_update (by simp) ?_, fun hnav => ?_⟩
  · intro j id hunused hji _
    have hne : s.sessionId ≠ id := by
      have hheld := (hunused.others i hji.symm).2
      rw [hi] at hheld
      exact fun heq => hheld (congrArg some heq)
    exact ⟨hunused.inactive, hother hne hunused.int, fun heq => hne (Option.some.inj heq)⟩
  · obtain ⟨id, hactive, hid⟩ := h.game hnav
    refine ⟨id, hactive, ?_⟩
    by_cases hne : s.sessionId = id
    · exact Or.inr ⟨i, by rw [Function.update_self, hne]⟩
    · refine hid.imp (hother hne) fun ⟨j, hj⟩ => ⟨j, ?_⟩
      rw [Function.update_of_ne, hj]
      rintro rfl
      rw [hi] at hj
      cases hj

/-- An id is attached that was nobody else's. -/
theorem attach (h : Endable b.borneId w phase) {id : String} (hi : phase i = .attaching id)
    (hactive : b.activeSessionId = some id) :
    Endable b.borneId (w.putBorne b) (Function.update phase i .free) := by
  have hunused := h.unused i id hi
  have hborne : ((w.putBorne b).borne b.borneId).activeSessionId = some id := by
    rw [World.borne_putBorne, ← hactive, Borne.readBack_of_ne]
    rw [hactive]
    exact fun heq => hunused.nonempty (Option.some.inj heq)
  refine ⟨h.unused_update (by simp) ?_, fun _ => ⟨id, hborne, Or.inl hunused.int⟩⟩
  intro j id' hunused' hji hj
  refine ⟨?_, hunused'.int, by simp [ExitPhase.held]⟩
  rw [hborne]
  intro heq
  exact (hunused.others j hji).1 (by rw [hj, Option.some.inj heq])

/-- The borne moves to a screen other than that of the game. -/
theorem leave (h : Endable b.borneId w phase) (hnav : b.nav ≠ .inGame)
    (hactive : b.activeSessionId = none ∨ b.activeSessionId = (phase i).held) :
    Endable b.borneId (w.putBorne b) (Function.update phase i .free) := by
  refine ⟨h.unused_update (by simp) ?_, fun hgame => ?_⟩
  · intro j id hunused hji hj
    refine ⟨fun heq => ?_, hunused.int, by simp [ExitPhase.held]⟩
    rw [World.borne_putBorne] at heq
    have hheld : b.activeSessionId = some id := eq_some_of_noneIfEmpty heq
    rcases hactive with hnone | hsame
    · rw [hnone] at hheld
      cases hheld
    · rw [hsame] at hheld
      exact (hunused.others i hji.symm).2 hheld
  · rw [World.borne_putBorne] at hgame
    exact absurd hgame hnav

/-- A call keeps the game on the screens one that can be ended. -/
theorem call (h : Endable borneId w phase) {c : Context} {op : Op}
    (hallowed : (exitProtocol borneId).allowed (phase i) op)
    (hnext : (exitProtocol borneId).next (phase i) op (handle c op w).1 q) :
    Endable borneId (handle c op w).2 (Function.update phase i q) := by
  have hself (hq : q = phase i) : Function.update phase i q = phase := by
    rw [hq, Function.update_eq_self]
  cases op with
  | sessionCreate s =>
      have hint : s.score.isInt := by cases hi : phase i <;> rw [hi] at hallowed <;> exact hallowed
      rw [hself hnext]
      exact h.keep (World.borne_handle (by simp) c w) fun id hid =>
        intScore_handle c _ w (fun _ _ => hint) hid
  | sessionUpdate s =>
      by_cases hreads : s.writable → s.readable
      · rw [hself ((if_pos hreads).mp hnext)]
        exact h.keep (World.borne_handle (by simp) c w) fun id hid =>
          intScore_handle c _ w (fun _ hs => Session.isInt_of_readable (hreads hs)) hid
      · obtain rfl : q = .owes s.sessionId := (if_neg hreads).mp hnext
        rw [handle_sessionUpdate (Classical.not_imp.mp hreads).1]
        refine h.spoil ?_
        cases hi : phase i <;> rw [hi] at hallowed <;> exact hallowed.resolve_left hreads
  | sessionDelete id =>
      rw [hself hnext]
      exact h.keep rfl fun id' hid => intScore_erase hid id
  | borneGetOrCreate id =>
      have hkept : Endable borneId (handle c (.borneGetOrCreate id) w).2 phase :=
        h.keep (World.borne_handle (by simp) c w) fun id' hid => intScore_handle c _ w trivial hid
      rcases hnext with hq | ⟨rfl, b, hb, hq⟩
      · rw [hself hq]
        exact hkept
      · have hread : (handle c (.borneGetOrCreate id) w).1 = .ok (w.borne id) := w.readBorne_eq id
        obtain rfl := Except.ok.inj (hread.symm.trans hb)
        refine hkept.read ?_
        rw [World.borne_handle (by simp) c w]
        exact hq
  | borneUpdate b =>
      obtain rfl : q = .free := hnext
      cases hi : phase i with
      | apart =>
          rw [hi] at hallowed
          exact hallowed.elim
      | attaching id =>
          rw [hi] at hallowed
          obtain ⟨rfl, -, hactive⟩ := hallowed
          exact h.attach hi hactive
      | _ =>
          rw [hi] at hallowed
          obtain ⟨rfl, hnav, hactive⟩ := hallowed
          exact h.leave hnav (hi ▸ hactive)
  | _ =>
      rw [hself hnext]
      exact h.keep rfl fun _ hid => hid

end Endable

/-- An execution that never moves the borne goes on so. -/
theorem exitProtocol_apart {borneId : String} {op : Op} {r : Except Exc op.Res} {q : ExitPhase}
    (hallowed : (exitProtocol borneId).allowed .apart op)
    (hnext : (exitProtocol borneId).next .apart op r q) : q = .apart := by
  cases op with
  | borneGetOrCreate id =>
      rcases hnext with hq | ⟨-, b, -, hapart, -⟩
      · exact hq
      · exact absurd rfl hapart
  | borneUpdate b => exact hallowed.elim
  | sessionUpdate s =>
      rcases hallowed with hreads | h
      · exact (if_pos hreads).mp hnext
      · cases h
  | _ => exact hnext

/-- The executions keep to the protocol, `phase` says how far each is, and those
of `apart` never move the borne. -/
structure Exits (borneId : String) (apart : ℕ → Prop) (pool : TimedExecutions)
    (phase : ℕ → ExitPhase) : Prop where
  follow : pool.Follow (exitProtocol borneId) ExitPhase.Clear phase
  idle : ∀ i, pool.threads[i]? = none → phase i = .apart
  apart : ∀ i, apart i → phase i = .apart
  endable : Endable borneId pool.state.world phase

namespace Exits

variable {borneId : String} {apart : ℕ → Prop} {pool : TimedExecutions} {phase : ℕ → ExitPhase}
  {ttl : ℕ}

theorem tick (h : Exits borneId apart pool phase) (ttl : ℕ) (tick : Tick) :
    ∃ phase', Exits borneId apart (timedStep ttl pool tick) phase' ∧
      ∀ j, tick ≠ .call j → phase' j = phase j := by
  cases tick with
  | advance d =>
      have hendable : Endable borneId (pool.state.advance d).world phase :=
        h.endable.keep rfl fun _ hid => intScore_advance hid d
      exact ⟨phase, ⟨h.follow, h.idle, h.apart, hendable⟩, fun _ _ => rfl⟩
  | call i =>
      rcases Pool.step_follows (h := timedHandle ttl) h.follow
        (fun c op t => handle_exitAnswers borneId c op t.world) i with
        heq | ⟨c, op, k, q, hthread, hallowed, hnext, hstate, hfollow⟩
      · refine ⟨phase, ?_, fun _ _ => rfl⟩
        rw [timedStep, heq]
        exact h
      refine ⟨Function.update phase i q, ⟨hfollow, fun j hj => ?_, fun j hj => ?_, ?_⟩,
        fun j hj => Function.update_of_ne (fun heq => hj (congrArg _ heq.symm)) _ _⟩
      · rw [timedStep, Pool.thread_step_eq_none] at hj
        rw [Function.update_of_ne]
        · exact h.idle j hj
        · rintro rfl
          rw [hthread] at hj
          cases hj
      · by_cases hji : j = i
        · subst hji
          rw [h.apart j hj] at hallowed hnext
          rw [Function.update_self]
          exact exitProtocol_apart hallowed hnext
        · rw [Function.update_of_ne hji]
          exact h.apart j hj
      · rw [timedStep, hstate]
        exact h.endable.call hallowed hnext

/-- An execution that makes no call stays where it is. -/
theorem run (h : Exits borneId apart pool phase) (ttl : ℕ) (ticks : List Tick) :
    ∃ phase', Exits borneId apart (ticks.foldl (timedStep ttl) pool) phase' ∧
      ∀ j, .call j ∉ ticks → phase' j = phase j := by
  induction ticks generalizing pool phase with
  | nil => exact ⟨phase, h, fun _ _ => rfl⟩
  | cons tick ticks ih =>
      obtain ⟨phase₁, h₁, hsame₁⟩ := h.tick ttl tick
      obtain ⟨phase₂, h₂, hsame₂⟩ := ih h₁
      refine ⟨phase₂, h₂, fun j hj => ?_⟩
      rw [hsame₂ j fun hmem => hj (List.mem_cons_of_mem _ hmem)]
      exact hsame₁ j fun heq => hj (heq ▸ List.mem_cons_self)

/-- An execution that has ended has no game to end. -/
theorem clear_of_next {i : ℕ} (h : Exits borneId apart pool phase) (hnext : pool.next i = none) :
    (phase i).Clear := by
  cases ht : pool.threads[i]? with
  | none => simp [h.idle i ht, ExitPhase.Clear]
  | some t =>
      obtain ⟨c, p⟩ := t
      have hfollow := h.follow i c p ht
      cases p with
      | ret a => exact hfollow
      | raise e => exact hfollow
      | call op k => simp [Pool.next, ht] at hnext

end Exits

/-! ## Every interleaving -/

/-- The players are validated under ids, and no two times under the same. -/
def FreshIds (jobs : List Job) : Prop :=
  (∀ job ∈ jobs, job.validates → job.uuid? ≠ some "") ∧
    jobs.Pairwise fun job job' => job.validates → job'.validates → job.uuid? ≠ job'.uuid?

instance (jobs : List Job) : Decidable (FreshIds jobs) :=
  inferInstanceAs (Decidable (_ ∧ _))

/-- Every request that has made a call has ended. -/
def AllEnded (jobs : List Job) (ticks : List Tick) (pool : TimedExecutions) : Prop :=
  ∀ i, .call i ∈ ticks → pool.next i = none ∨ jobs[i]?.any Job.isCountdown

/-- The request that makes a call, if it is one. -/
def Tick.request? (jobs : List Job) : Tick → Option ℕ
  | call i => if jobs[i]?.any Job.isCountdown then none else some i
  | advance _ => none

theorem mem_requests {jobs : List Job} {ticks : List Tick} {i : ℕ} :
    i ∈ ticks.filterMap (Tick.request? jobs) ↔
      .call i ∈ ticks ∧ ¬ jobs[i]?.any Job.isCountdown := by
  rw [List.mem_filterMap]
  constructor
  · rintro ⟨tick, htick, hi⟩
    cases tick with
    | advance d => cases hi
    | call j =>
        dsimp only [Tick.request?] at hi
        split at hi
        · cases hi
        · next hj =>
            obtain rfl := Option.some.inj hi
            exact ⟨htick, hj⟩
  · rintro ⟨htick, hi⟩
    exact ⟨.call i, htick, if_neg hi⟩

theorem allEnded_iff {jobs : List Job} {ticks : List Tick} {pool : TimedExecutions} :
    AllEnded jobs ticks pool ↔
      ∀ i ∈ ticks.filterMap (Tick.request? jobs), pool.next i = none := by
  constructor
  · intro h i hi
    obtain ⟨htick, hcountdown⟩ := mem_requests.mp hi
    exact (h i htick).resolve_right hcountdown
  · intro h i htick
    by_cases hcountdown : jobs[i]?.any Job.isCountdown
    · exact Or.inr hcountdown
    · exact Or.inl (h i (mem_requests.mpr ⟨htick, hcountdown⟩))

instance (jobs : List Job) (ticks : List Tick) (pool : TimedExecutions) :
    Decidable (AllEnded jobs ticks pool) :=
  decidable_of_iff' _ allEnded_iff

/-- The phases of jobs that have not made a call yet. -/
def firstExitPhase (jobs : List Job) (i : ℕ) : ExitPhase :=
  match jobs[i]? with
  | some job => job.exitPhase
  | none => .apart

/-- A job has an id to attach where it validates the players, and nothing else to
do with a session before it has made a call. -/
theorem firstExitPhase_cases (jobs : List Job) (i : ℕ) :
    (∃ job id, jobs[i]? = some job ∧ job.validates ∧ job.uuid? = some id ∧
        firstExitPhase jobs i = .attaching id) ∨
      firstExitPhase jobs i = .free ∨ firstExitPhase jobs i = .apart := by
  unfold firstExitPhase
  cases jobs[i]? with
  | none => exact Or.inr (Or.inr rfl)
  | some job =>
      cases job with
      | countdown task broadcaster sessionId => exact Or.inr (Or.inr rfl)
      | request e =>
          by_cases hvalidates : e.validates
          · exact Or.inl ⟨.request e, e.uuid, rfl, hvalidates, rfl, if_pos hvalidates⟩
          · exact Or.inr (Or.inl (if_neg hvalidates))

/-- Two jobs have different ids to attach. -/
theorem FreshIds.ne {jobs : List Job} (h : FreshIds jobs) {i j : ℕ} (hij : j ≠ i) {job job' : Job}
    (hi : jobs[i]? = some job) (hj : jobs[j]? = some job') (hjob : job.validates)
    (hjob' : job'.validates) : job'.uuid? ≠ job.uuid? := by
  obtain ⟨hilt, rfl⟩ := List.getElem?_eq_some_iff.mp hi
  obtain ⟨hjlt, rfl⟩ := List.getElem?_eq_some_iff.mp hj
  have hpair := List.pairwise_iff_getElem.mp h.2
  rcases Nat.lt_or_gt_of_ne hij with hlt | hlt
  · exact hpair j i hjlt hilt hlt hjob' hjob
  · exact (hpair i j hilt hjlt hlt hjob hjob').symm

theorem firstExitPhase_unused {jobs : List Job} (hfresh : FreshIds jobs) (borneId : String)
    {w : World} (hborne : (w.borne borneId).activeSessionId = none)
    (hsessions : ∀ id, w.sessions id = none) {i : ℕ} {id : String}
    (hi : firstExitPhase jobs i = .attaching id) :
    Unused borneId w (firstExitPhase jobs) i id := by
  rcases firstExitPhase_cases jobs i with ⟨job, id', hjob, hvalidates, huuid, hphase⟩ | h | h
  · obtain rfl : id' = id := by
      rw [hi] at hphase
      cases hphase
      rfl
    have hint : w.IntScore id' := by
      intro s hs
      rw [hsessions] at hs
      cases hs
    refine ⟨?_, by simp [hborne], hint, fun j hj => ?_⟩
    · rintro rfl
      exact hfresh.1 job (List.mem_of_getElem? hjob) hvalidates huuid
    · rcases firstExitPhase_cases jobs j with ⟨job', id'', hjob', hvalidates', huuid', h⟩ | h | h
      · rw [h]
        refine ⟨fun heq => ?_, by simp [ExitPhase.held]⟩
        cases heq
        exact hfresh.ne hj hjob hjob' hvalidates hvalidates' (huuid'.trans huuid.symm)
      · simp [h, ExitPhase.held]
      · simp [h, ExitPhase.held]
  · rw [hi] at h
    cases h
  · rw [hi] at h
    cases h

theorem exits_init {jobs : List Job} (hfresh : FreshIds jobs) (borneId : String) (db : Database) :
    Exits borneId (fun i => jobs[i]?.any Job.isCountdown) (timedExecutions borneId db jobs)
      (firstExitPhase jobs) where
  follow i c p hi := by
    rw [timedExecutions, List.getElem?_map] at hi
    obtain ⟨job, hjob, heq⟩ := Option.map_eq_some_iff.mp hi
    obtain ⟨-, rfl⟩ := Prod.mk.inj heq
    rw [firstExitPhase, hjob]
    exact exit_job job
  idle i hi := by
    rw [timedExecutions, List.getElem?_map, Option.map_eq_none_iff] at hi
    rw [firstExitPhase, hi]
  apart i hi := by
    obtain ⟨job, hjob, hcountdown⟩ := (Option.any_eq_true _ _).mp hi
    rw [firstExitPhase, hjob]
    cases job with
    | countdown task broadcaster sessionId => rfl
    | request e => cases hcountdown
  endable :=
    { unused := fun _ _ hi => firstExitPhase_unused hfresh borneId rfl (fun _ => rfl) hi
      game := fun hnav => by cases hnav }

/-- In every interleaving, once the requests in flight have ended, the game on the
screens is that of a session which is gone or can be read. -/
theorem canEnd_of_allEnded {jobs : List Job} (hfresh : FreshIds jobs) (ttl : ℕ) (borneId : String)
    (db : Database) {ticks : List Tick}
    (hended : AllEnded jobs ticks (ticks.foldl (timedStep ttl) (timedExecutions borneId db jobs))) :
    (ticks.foldl (timedStep ttl) (timedExecutions borneId db jobs)).state.world.CanEnd borneId := by
  obtain ⟨phase, hrun, hsame⟩ := (exits_init hfresh borneId db).run ttl ticks
  intro hnav
  obtain ⟨id, hactive, hid⟩ := hrun.endable.game hnav
  refine ⟨id, hactive, hid.resolve_right ?_⟩
  rintro ⟨i, hi⟩
  by_cases hmem : Tick.call i ∈ ticks
  · rcases hended i hmem with hnone | hcountdown
    · exact hrun.clear_of_next hnone id hi
    · rw [hrun.apart i hcountdown] at hi
      cases hi
  · rw [hsame i hmem] at hi
    rcases firstExitPhase_cases jobs i with ⟨job, id', -, -, -, h⟩ | h | h <;>
      · rw [hi] at h
        cases h

end FlipperBack
