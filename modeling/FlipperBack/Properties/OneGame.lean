import FlipperBack.Infrastructure.Persist
import FlipperBack.System.Invariants
import FlipperBack.System.Rests

/-!
# One game for a session

Nothing keeps two flushes of a session apart: both can read it before either
deletes it, and both insert a game. A session that an execution writes back after
its deletion can be flushed again as well. Where a flush begins only while no
other one is under way, and the session is written only while it is stored, every
interleaving inserts one game for it at most.
-/

namespace FlipperBack

open Effects Python

/-- A call that reads the session. -/
def Op.reads (id : String) : Op → Bool
  | sessionGet sessionId => sessionId == id
  | _ => false

/-- A call that only a flush of the session makes. -/
def Op.flushes (id : String) : Op → Bool
  | gamePersistFinishedSession sessionId _ _ => sessionId == id
  | bufferClear sessionId => sessionId == id
  | sessionDelete sessionId => sessionId == id
  | _ => false

/-- What is left of an execution that is flushing the session: it goes on with
the flush before it reads the session anew. -/
def flushing (id : String) (p : UseCase Unit) : Bool :=
  ((upcoming p).find? fun op => op.reads id || op.flushes id).any (Op.flushes id)

/-- The next call of the execution `i` is the reading that begins a flush of the
session. -/
def Executions.begins (pool : Executions) (id : String) (i : ℕ) : Bool :=
  match pool.threads[i]? with
  | some (_, .call (.sessionGet sessionId) k) =>
      sessionId == id && flushing id (k (pool.state.readSession sessionId))
  | _ => false

/-- A flush of the session begins only while no other one is under way, and the
session is written only while it is stored. -/
def OneAtATime (id : String) (pool : Executions) (i : ℕ) : Prop :=
  (pool.begins id i → ∀ t ∈ pool.others i, ¬ flushing id t.2) ∧
    ((pool.next i).any (Op.updates id) → (pool.state.sessions id).isSome)

instance (id : String) (pool : Executions) (i : ℕ) : Decidable (OneAtATime id pool i) :=
  inferInstanceAs (Decidable (_ ∧ _))

/-- The games inserted for the session. -/
def World.gamesOf (w : World) (id : String) : List GameRow :=
  w.persisted.flatMap fun p => if p.sessionId = id then p.games else []

/-- The transaction of a flush is atomic: one that raises has written nothing. -/
def Context.Atomic (c : Context) : Prop :=
  ∀ utcnow s db e, (persist c.pg utcnow s db).1 = .error e →
    (persist c.pg utcnow s db).2.rows = db.rows

/-- Where no statement fails, it is. -/
theorem Context.atomic_of_healthy {c : Context} (h : ∀ x ∈ c.pg, x = none) : c.Atomic :=
  fun _ _ _ _ he => persist_rows_of_error h he

/-! ## The course of a flush -/

/-- How far an execution is with a flush of the session. -/
inductive FlushPhase
  | out
  /-- It has read the session, and has a game to insert. -/
  | reading
  /-- It has inserted the game, and has the session to delete. -/
  | written
  deriving DecidableEq

/-- The calls on the session `id` in each phase of a flush. -/
def flushProtocol (id : String) : Protocol Exc Op.Res FlushPhase where
  allowed
    | _, .sessionCreate s => s.sessionId ≠ id
    | q, .sessionGet sessionId => sessionId = id → q = .out
    | q, .gamePersistFinishedSession sessionId _ _ => sessionId = id → q = .reading
    | q, .bufferClear sessionId => sessionId = id → q = .written
    | q, .sessionDelete sessionId => sessionId = id → q = .written
    | _, _ => True
  answers
    | .sessionGet _, _ => True
    | .sessionCreate _, _ => True
    | .sessionUpdate _, _ => True
    | .gamePersistFinishedSession _ _ _, _ => True
    | _, r => ∃ a, r = .ok a
  next
    | q, .sessionGet sessionId, r, q' =>
        q' = q ∨ sessionId = id ∧ q' = .reading ∧ ∃ s, r = .ok (some s)
    | q, .gamePersistFinishedSession sessionId _ _, r, q' =>
        if sessionId = id then q' = (match r with | .ok _ => .written | .error _ => .out)
        else q' = q
    | q, .sessionDelete sessionId, _, q' => q' = if sessionId = id then .out else q
    | q, _, _, q' => q' = q

/-- An execution keeps to the course of a flush from the phase `q` on, and does
not end in the middle of it. -/
abbrev Flushes {α : Type} (id : String) (q : FlushPhase) (p : UseCase α) : Prop :=
  p.Follows (flushProtocol id) (· = .out) (· = .out) q

theorem handle_answers (id : String) (c : Context) (op : Op) (w : World) :
    (flushProtocol id).answers op (handle c op w).1 := by
  cases op with
  | sessionGet sessionId => trivial
  | sessionCreate s => trivial
  | sessionUpdate s => trivial
  | gamePersistFinishedSession sessionId utcnow finished => trivial
  | borneGetOrCreate borneId => exact ⟨w.borne borneId, w.readBorne_eq borneId⟩
  | _ => exact ⟨_, rfl⟩

theorem calmAnswer_answers (id : String) (op : Op) :
    (flushProtocol id).answers op (calmAnswer op) := by
  cases op with
  | sessionGet sessionId => trivial
  | sessionCreate s => trivial
  | sessionUpdate s => trivial
  | gamePersistFinishedSession sessionId utcnow finished => trivial
  | _ => exact ⟨_, rfl⟩

/-- A call of no flush leaves the phase. -/
theorem flushProtocol_next_self {id : String} {q q' : FlushPhase} {op : Op}
    {r : Except Exc op.Res} (hreads : op.reads id = false) (hflushes : op.flushes id = false)
    (h : (flushProtocol id).next q op r q') : q' = q := by
  cases op with
  | sessionGet sessionId =>
      rcases h with h | ⟨rfl, -⟩
      · exact h
      · simp [Op.reads] at hreads
  | gamePersistFinishedSession sessionId utcnow finished =>
      have hne : sessionId ≠ id := by simpa [Op.flushes] using hflushes
      exact (if_neg hne).mp h
  | sessionDelete sessionId =>
      have hne : sessionId ≠ id := by simpa [Op.flushes] using hflushes
      exact h.trans (if_neg hne)
  | _ => exact h

/-- An execution is flushing the session where its course says so. -/
theorem flushing_iff {id : String} {q : FlushPhase} {p : UseCase Unit} (h : Flushes id q p) :
    flushing id p ↔ q ≠ .out := by
  induction p generalizing q with
  | ret a => simp [flushing, Prog.trace, show q = .out from h]
  | raise e => simp [flushing, Prog.trace, show q = .out from h]
  | call op k ih =>
      obtain ⟨hallowed, hnext⟩ := h
      obtain ⟨q', hq', hk⟩ := hnext _ (calmAnswer_answers id op)
      by_cases hflushes : op.flushes id
      · have hq : q ≠ .out := by
          cases op with
          | gamePersistFinishedSession sessionId utcnow finished =>
              rw [hallowed (by simpa [Op.flushes] using hflushes)]
              simp
          | bufferClear sessionId =>
              rw [hallowed (by simpa [Op.flushes] using hflushes)]
              simp
          | sessionDelete sessionId =>
              rw [hallowed (by simpa [Op.flushes] using hflushes)]
              simp
          | _ => cases hflushes
        simp [flushing, Prog.trace, hflushes, hq]
      · by_cases hreads : op.reads id
        · have hq : q = .out := by
            cases op with
            | sessionGet sessionId => exact hallowed (by simpa [Op.reads] using hreads)
            | _ => cases hreads
          simp [flushing, Prog.trace, hreads, hflushes, hq]
        · simp only [Bool.not_eq_true] at hflushes hreads
          obtain rfl := flushProtocol_next_self hreads hflushes hq'
          simpa [flushing, Prog.trace, hreads, hflushes] using ih _ hk

/-! ## Every execution keeps to it -/

section Programs

variable {id : String}

/-- A call that is made outside of a flush leaves the execution there. -/
theorem flushProtocol_next_out {op : Op} (h : (flushProtocol id).allowed .out op)
    (r : Except Exc op.Res) : (flushProtocol id).next .out op r .out := by
  cases op with
  | sessionGet sessionId => exact Or.inl rfl
  | gamePersistFinishedSession sessionId utcnow finished =>
      exact (if_neg fun heq => FlushPhase.noConfusion (h heq)).mpr rfl
  | sessionDelete sessionId => exact (if_neg fun heq => FlushPhase.noConfusion (h heq)).symm
  | _ => rfl

theorem flushProtocol_leaves {op : Op} (h : (flushProtocol id).allowed .out op) :
    (flushProtocol id).Leaves .out op :=
  ⟨h, fun r _ => flushProtocol_next_out h r⟩

theorem flushProtocol_leaves_plain (op : Op) (h : op.isPlain = true) :
    (flushProtocol id).Leaves .out op := by
  refine flushProtocol_leaves ?_
  cases op with
  | sessionGet sessionId => exact fun _ => rfl
  | _ => trivial

theorem flushProtocol_leaves_tell (broadcaster : Broadcaster) (sessionId : String)
    (message : SessionMessage) :
    (flushProtocol id).Leaves .out (.broadcastToSession broadcaster sessionId message) :=
  flushProtocol_leaves trivial

theorem flushes_createSession {uuid : String} (huuid : uuid ≠ id) (now : DateTime)
    (pseudo : String) (mode : GameMode) (roomCode : Option String) :
    Prog.Rests (flushProtocol id) .out (createSession uuid now pseudo mode roomCode) :=
  .bind (.ofExcept _) fun _ => .bind (.perform (flushProtocol_leaves huuid)) fun _ => rfl

theorem flushes_launch (startCountdown : Option Broadcaster) (sessionId : String) :
    Prog.Rests (flushProtocol id) .out (launch startCountdown sessionId) := by
  cases startCountdown with
  | none => rfl
  | some broadcaster => exact .perform (flushProtocol_leaves trivial)

/-- The update of the borne and its broadcast, which are no part of a flush. -/
theorem flushes_update (borne : Borne) :
    Prog.Rests (flushProtocol id) .out (do await (.borneUpdate borne); broadcastNav borne) :=
  .bind (.perform (flushProtocol_leaves trivial)) fun _ => .perform (flushProtocol_leaves trivial)

theorem flushes_markGameOver (borneId : String) :
    Prog.Rests (flushProtocol id) .out (markGameOver borneId) := by
  refine .bind (.perform (flushProtocol_leaves trivial)) fun borne => ?_
  dsimp only
  split
  · exact flushes_update _
  · rfl

theorem flushes_applyIntent {uuid : String} (huuid : uuid ≠ id) (now : DateTime)
    (borneId action : String) (payload : Json) :
    Prog.Rests (flushProtocol id) .out (applyIntent uuid now borneId action payload) := by
  refine .bind (.perform (flushProtocol_leaves trivial)) fun borne => ?_
  dsimp only
  split
  · unfold startGame
    split
    · cases extractPseudo payload with
      | none => rfl
      | some pseudo =>
          refine .bind (flushes_createSession huuid _ _ _ _) fun _ =>
            .bind (.perform (flushProtocol_leaves trivial)) fun _ =>
              .bind (.perform (flushProtocol_leaves trivial)) fun _ => ?_
          exact .bind (rests_readyUp flushProtocol_leaves_plain flushes_launch
            (flushProtocol_leaves_tell _ _) _) fun _ => rfl
    · rfl
  · cases nextNavState borne.nav action with
    | none => rfl
    | some target => exact flushes_update _

/-- While it reads, a flush looks up the best score so far. -/
theorem previousBestFor_follows (pseudo : String) (mode : GameMode) :
    (previousBestFor pseudo mode).Follows (flushProtocol id) (· = .reading) (· = .out) .reading := by
  unfold previousBestFor
  split
  · refine Prog.Follows.perform_bind trivial (fun player _ => ⟨.reading, rfl, ?_⟩)
      fun _ he => nomatch he
    cases player with
    | none => rfl
    | some player => exact ⟨trivial, fun r ⟨best, hr⟩ => ⟨.reading, rfl, by rw [hr]; rfl⟩⟩
  · rfl

/-- The flush of the session itself goes through the three phases. -/
theorem flushes_finishAndPersist_self (clock : Clock) :
    Flushes id .out (finishAndPersist clock id) := by
  refine Prog.Follows.perform_bind (fun _ => rfl) (fun session _ => ?_)
    fun _ _ => ⟨.out, Or.inl rfl, rfl⟩
  cases session with
  | none => exact ⟨.out, Or.inl rfl, rfl⟩
  | some session =>
      refine ⟨.reading, Or.inr ⟨rfl, rfl, session, rfl⟩, ?_⟩
      refine Prog.Follows.perform_bind trivial (fun events _ => ⟨.reading, rfl, ?_⟩)
        fun _ he => nomatch he
      refine Prog.Follows.bind (previousBestFor_follows _ _) fun q best hq => ?_
      rw [hq]
      refine Prog.Follows.perform_bind (fun _ => rfl) (fun ids _ => ⟨.written, ?_, ?_⟩)
        fun _ _ => ⟨.out, (if_pos rfl).mpr rfl, rfl⟩
      · exact (if_pos rfl).mpr rfl
      · refine Prog.Follows.perform_bind (fun _ => rfl) (fun _ _ => ⟨.written, rfl, ?_⟩)
          fun _ he => nomatch he
        exact Prog.Follows.perform_bind (fun _ => rfl)
          (fun _ _ => ⟨.out, (if_pos rfl).symm, rfl⟩) fun _ he => nomatch he

theorem flushes_finishAndPersist (clock : Clock) (sessionId : String) :
    Prog.Rests (flushProtocol id) .out (finishAndPersist clock sessionId) := by
  by_cases hid : sessionId = id
  · rw [hid]
    exact flushes_finishAndPersist_self clock
  · exact rests_finishAndPersist flushProtocol_leaves_plain
      (fun _ _ => flushProtocol_leaves fun heq => absurd heq hid)
      (flushProtocol_leaves fun heq => absurd heq hid)
      (flushProtocol_leaves fun heq => absurd heq hid) clock

/-- A job that does not draw the id of the session keeps to the course of its
flush. -/
theorem flushes_job (borneId : String) {job : Job} (huuid : job.uuid? ≠ some id) :
    Flushes id .out (job.program borneId) := by
  cases job with
  | countdown task broadcaster sessionId =>
      exact rests_countdownFrom flushProtocol_leaves_plain (flushProtocol_leaves_tell _ _) _
  | request e =>
      have huuid : e.uuid ≠ id := fun heq => huuid (congrArg some heq)
      have hplain : ∀ op : Op, op.isPlain → (flushProtocol id).Leaves .out op :=
        flushProtocol_leaves_plain
      have hcommand (broadcaster : Broadcaster) (sessionId : String) :=
        rests_sessionCommand hplain flushes_launch (flushProtocol_leaves_tell broadcaster sessionId)
      obtain ⟨request, clock, uuid, pg⟩ := e
      have hflush : ∀ sessionId, Prog.Rests (flushProtocol id) .out
          (finishAndPersist clock sessionId) := flushes_finishAndPersist clock
      cases request with
      | createSession pseudo mode roomCode =>
          exact Prog.Rests.bind (flushes_createSession huuid _ _ _ _) fun _ => rfl
      | readyUp broadcaster sessionId =>
          exact Prog.Rests.bind (rests_readyUp hplain flushes_launch
            (flushProtocol_leaves_tell _ _) _) fun _ => rfl
      | sessionCommand broadcaster command sessionId => exact hcommand _ _ _
      | mqtt broadcaster topic payload =>
          exact rests_mqtt hplain (flushes_markGameOver borneId) hflush
            (flushProtocol_leaves_tell _) _ _
      | finish sessionId => exact Prog.Rests.bind (hflush _) fun _ => rfl
      | intent action payload => exact flushes_applyIntent huuid _ _ _ _
      | matchCommand command =>
          exact rests_handleMatchCommand hplain (flushes_markGameOver borneId)
            fun sessionId => hcommand _ sessionId _
      | relay event =>
          exact rests_relayEvent hplain (flushes_markGameOver borneId) hflush _
      | countdown task => rfl

end Programs

/-! ## What the calls do to the games -/

theorem gamesOf_record {w : World} {sessionId id : String}
    {out : Except Exc (ℕ × ℕ × ℕ) × Database} :
    (w.record sessionId out).gamesOf id =
      w.gamesOf id ++ if sessionId = id then out.2.games.drop w.db.games.length else [] := by
  simp [World.gamesOf, World.record]

/-- A call with no part in the course of a flush leaves the games inserted for
the session. -/
theorem gamesOf_handle {id : String} {op : Op} (hflushes : op.flushes id = false) (c : Context)
    (w : World) : (handle c op w).2.gamesOf id = w.gamesOf id := by
  cases op with
  | gamePersistFinishedSession sessionId utcnow finished =>
      have hne : sessionId ≠ id := by simpa [Op.flushes] using hflushes
      simp [handle, gamesOf_record, hne]
  | borneGetOrCreate borneId =>
      dsimp only [handle]
      split <;> rfl
  | _ => rfl

/-- The transaction of a flush inserts one game, or raises and inserts none. -/
theorem gamesOf_persist {c : Context} (hc : c.Atomic) (id : String) (utcnow : DateTime)
    (finished : FinishedSession) (w : World) :
    let out := handle c (.gamePersistFinishedSession id utcnow finished) w
    (∃ ids game, out.1 = .ok ids ∧ out.2.gamesOf id = w.gamesOf id ++ [game]) ∨
      (∃ e, out.1 = .error e) ∧ out.2.gamesOf id = w.gamesOf id := by
  intro out
  obtain ⟨⟨result, db'⟩, hpersist⟩ : ∃ r, persist c.pg utcnow finished w.db = r := ⟨_, rfl⟩
  have hout : out = ((persist c.pg utcnow finished w.db).1,
      w.record id (persist c.pg utcnow finished w.db)) := rfl
  rw [hout, hpersist]
  cases result with
  | error e =>
      have hrows := hc utcnow finished w.db e (by rw [hpersist])
      rw [hpersist] at hrows
      have hgames : db'.games = w.db.games := congrArg (fun rows => rows.2.1) hrows
      exact Or.inr ⟨⟨e, rfl⟩, by simp [gamesOf_record, hgames]⟩
  | ok ids =>
      obtain ⟨playerId, gameId, count⟩ := ids
      obtain ⟨rows, -, -, hwritten⟩ := persist_ok hpersist
      exact Or.inl ⟨_, _, rfl, by
        rw [gamesOf_record, if_pos rfl, hwritten.games, List.drop_left]⟩

/-- A call of no flush that does not write the session leaves it. -/
theorem sessions_handle {id : String} {q : FlushPhase} {op : Op}
    (hallowed : (flushProtocol id).allowed q op) (hupdates : op.updates id = false)
    (hflushes : op.flushes id = false) (c : Context) (w : World) :
    (handle c op w).2.sessions id = w.sessions id := by
  cases op with
  | sessionCreate s => exact sessions_writeSession_of_ne hallowed
  | sessionUpdate s =>
      have hne : s.sessionId ≠ id := by simpa [Op.updates] using hupdates
      exact sessions_writeSession_of_ne hne
  | sessionDelete sessionId =>
      have hne : sessionId ≠ id := by simpa [Op.flushes] using hflushes
      exact w.sessions.get_erase_of_ne hne.symm
  | borneGetOrCreate borneId =>
      dsimp only [handle]
      split <;> rfl
  | _ => rfl

/-! ## The invariant -/

/-- Of the executions one at most is in the flush of the session, and once a game
of the session has been inserted the session is gone, or about to be. -/
structure OneGame (id : String) (w : World) (phase : ℕ → FlushPhase) : Prop where
  alone : ∀ i j, phase i ≠ .out → phase j ≠ .out → i = j
  reading : ∀ i, phase i = .reading → w.gamesOf id = []
  written : w.gamesOf id ≠ [] → w.sessions id = none ∨ ∃ i, phase i = .written
  games : (w.gamesOf id).length ≤ 1

section Steps

variable {id : String} {w w' : World} {phase : ℕ → FlushPhase} {i : ℕ}

/-- A call that inserts no game and does not bring the session back. -/
theorem OneGame.keep (h : OneGame id w phase) (hgames : w'.gamesOf id = w.gamesOf id)
    (hsession : w.gamesOf id ≠ [] → w.sessions id = none → w'.sessions id = none) :
    OneGame id w' phase where
  alone := h.alone
  reading j hj := hgames ▸ h.reading j hj
  written hne := by
    rw [hgames] at hne
    exact (h.written hne).imp_left (hsession hne)
  games := hgames ▸ h.games

/-- An execution reads the session to flush it, with no other one in the flush. -/
theorem OneGame.begin (h : OneGame id w phase) (halone : ∀ j, j ≠ i → phase j = .out)
    (hi : phase i = .out) (hstored : w.sessions id ≠ none) :
    OneGame id w (Function.update phase i .reading) := by
  have hgames : w.gamesOf id = [] := by
    by_contra hne
    rcases h.written hne with hnone | ⟨j, hj⟩
    · exact hstored hnone
    · by_cases hji : j = i
      · rw [hji, hi] at hj
        cases hj
      · rw [halone j hji] at hj
        cases hj
  have hout (j : ℕ) (hj : Function.update phase i .reading j ≠ .out) : j = i := by
    by_contra hji
    exact hj ((Function.update_of_ne hji _ _).trans (halone j hji))
  exact
    { alone := fun j k hj hk => (hout j hj).trans (hout k hk).symm
      reading := fun _ _ => hgames
      written := fun hne => absurd hgames hne
      games := by simp [hgames] }

/-- The execution in the flush inserts the game. -/
theorem OneGame.insert (h : OneGame id w phase) (hi : phase i = .reading) {game : GameRow}
    (hgames : w'.gamesOf id = w.gamesOf id ++ [game]) :
    OneGame id w' (Function.update phase i .written) := by
  have hout (j : ℕ) (hj : Function.update phase i .written j ≠ .out) : j = i := by
    by_contra hji
    rw [Function.update_of_ne hji] at hj
    exact hji (h.alone j i hj (by simp [hi]))
  exact
    { alone := fun j k hj hk => (hout j hj).trans (hout k hk).symm
      reading := fun j hj => by
        obtain rfl := hout j (by simp [hj])
        rw [Function.update_self] at hj
        cases hj
      written := fun _ => Or.inr ⟨i, Function.update_self i _ phase⟩
      games := by simp [hgames, h.reading i hi] }

/-- The execution in the flush leaves it, with no game inserted or the session
deleted. -/
theorem OneGame.leave (h : OneGame id w phase) (hi : phase i ≠ .out)
    (hgames : w'.gamesOf id = w.gamesOf id)
    (hgone : w.gamesOf id ≠ [] → w'.sessions id = none) :
    OneGame id w' (Function.update phase i .out) := by
  have hout (j : ℕ) : Function.update phase i .out j = .out := by
    by_cases hji : j = i
    · rw [hji, Function.update_self]
    · rw [Function.update_of_ne hji]
      by_contra hj
      exact hji (h.alone j i hj hi)
  exact
    { alone := fun j k hj => absurd (hout j) hj
      reading := fun j hj => by
        rw [hout j] at hj
        cases hj
      written := fun hne => Or.inl (hgone (hgames ▸ hne))
      games := hgames ▸ h.games }

end Steps

/-- Executions that keep to the course of a flush, in phases that meet
`OneGame`. -/
structure OnCourse (id : String) (pool : Executions) (phase : ℕ → FlushPhase) : Prop where
  follow : pool.Follow (flushProtocol id) (· = .out) phase
  idle : ∀ i : ℕ, pool.threads[i]? = none → phase i = .out
  atomic : ∀ (i : ℕ) t, pool.threads[i]? = some t → t.1.Atomic
  game : OneGame id pool.state phase

namespace OnCourse

variable {pool : Executions} {id : String} {phase : ℕ → FlushPhase} {i : ℕ} {c : Context}
  {q : FlushPhase}

/-- The reading of the session, which may begin a flush. -/
theorem read (h : OnCourse id pool phase) (hone : OneAtATime id pool i)
    {k : Except Exc (Option Session) → UseCase Unit}
    (hthread : pool.threads[i]? = some (c, .call (.sessionGet id) k)) (hi : phase i = .out)
    (hnext : (flushProtocol id).next (phase i) (.sessionGet id) (pool.state.readSession id) q)
    (hfollow : (Pool.step handle pool i).Follow (flushProtocol id) (· = .out)
      (Function.update phase i q)) :
    OneGame id pool.state (Function.update phase i q) := by
  rcases hnext with hq | ⟨-, rfl, s, hs⟩
  · rw [hq, Function.update_eq_self]
    exact h.game
  · have hflush : flushing id (k (pool.state.readSession id)) := by
      refine (flushing_iff (q := .reading) ?_).mpr (by simp)
      have hk := hfollow i c (k (pool.state.readSession id)) (by
        rw [Pool.step_of_thread hthread]
        exact Pool.set_self hthread)
      rwa [Function.update_self] at hk
    have hbegins : pool.begins id i := by simp [Executions.begins, hthread, hflush]
    refine h.game.begin (fun j hji => ?_) hi fun hnone => ?_
    · cases hj : pool.threads[j]? with
      | none => exact h.idle j hj
      | some t =>
          by_contra hne
          exact hone.1 hbegins t (Pool.mem_others.mpr ⟨j, hji, hj⟩)
            ((flushing_iff (h.follow j t.1 t.2 hj)).mpr hne)
    · rw [World.readSession_eq, hnone] at hs
      cases hs

/-- A call of the flush itself. -/
theorem flush (h : OnCourse id pool phase) {op : Op}
    {k : Except Exc op.Res → UseCase Unit} (hthread : pool.threads[i]? = some (c, .call op k))
    (hflushes : op.flushes id) (hallowed : (flushProtocol id).allowed (phase i) op)
    (hnext : (flushProtocol id).next (phase i) op (handle c op pool.state).1 q) :
    OneGame id (handle c op pool.state).2 (Function.update phase i q) := by
  cases op with
  | gamePersistFinishedSession sessionId utcnow finished =>
      obtain rfl : sessionId = id := by simpa [Op.flushes] using hflushes
      have hi := hallowed rfl
      have hq := (if_pos rfl).mp hnext
      rcases gamesOf_persist (h.atomic i _ hthread) sessionId utcnow finished pool.state with
        ⟨ids, game, hok, hgames⟩ | ⟨⟨e, he⟩, hgames⟩
      · rw [hok] at hq
        rw [hq]
        exact h.game.insert hi hgames
      · rw [he] at hq
        rw [hq]
        exact h.game.leave (by simp [hi]) hgames fun hne => absurd (h.game.reading i hi) hne
  | bufferClear sessionId =>
      rw [show q = phase i from hnext, Function.update_eq_self]
      exact h.game.keep rfl fun _ hnone => hnone
  | sessionDelete sessionId =>
      obtain rfl : sessionId = id := by simpa [Op.flushes] using hflushes
      rw [show q = .out from hnext.trans (if_pos rfl)]
      exact h.game.leave (by simp [hallowed rfl]) rfl fun _ => pool.state.sessions.get_erase_self _
  | _ => cases hflushes

/-- A call of an execution leaves the executions on course. -/
theorem step (h : OnCourse id pool phase) (hone : OneAtATime id pool i) :
    ∃ phase', OnCourse id (Pool.step handle pool i) phase' := by
  rcases Pool.step_follows h.follow (handle_answers id) i with
    heq | ⟨c, op, k, q, hthread, hallowed, hnext, hstate, hfollow⟩
  · exact ⟨phase, heq.symm ▸ h⟩
  have hlabels := Pool.labels_step handle pool i
  refine ⟨Function.update phase i q, hfollow, fun j hj => ?_, fun j t hj => ?_, ?_⟩
  · have hnone : pool.threads[j]? = none := by
      have hlabel := hlabels j
      rw [hj] at hlabel
      exact Option.map_eq_none_iff.mp hlabel.symm
    have hji : j ≠ i := by
      rintro rfl
      rw [hthread] at hnone
      cases hnone
    rw [Function.update_of_ne hji]
    exact h.idle j hnone
  · have hlabel := hlabels j
    rw [hj] at hlabel
    obtain ⟨t', hthread', heq⟩ := Option.map_eq_some_iff.mp hlabel.symm
    exact heq ▸ h.atomic j t' hthread'
  · rw [hstate]
    by_cases hflushes : op.flushes id
    · exact h.flush hthread hflushes hallowed hnext
    · simp only [Bool.not_eq_true] at hflushes
      by_cases hreads : op.reads id
      · cases op with
        | sessionGet sessionId =>
            obtain rfl : sessionId = id := by simpa [Op.reads] using hreads
            exact h.read hone hthread (hallowed rfl) hnext hfollow
        | _ => cases hreads
      · simp only [Bool.not_eq_true] at hreads
        rw [flushProtocol_next_self hreads hflushes hnext, Function.update_eq_self]
        refine h.game.keep (gamesOf_handle hflushes c _) fun _ hnone => ?_
        by_cases hupdates : op.updates id
        · have hstored := hone.2 (by simp [Pool.next, hthread, hupdates])
          rw [hnone] at hstored
          cases hstored
        · simp only [Bool.not_eq_true] at hupdates
          rw [sessions_handle hallowed hupdates hflushes]
          exact hnone

end OnCourse

/-! ## Every interleaving -/

/-- However the calls of requests and countdowns are interleaved, one game at
most is inserted for the session where each step flushes it one at a time. -/
theorem one_game (borneId id : String) (w : World) (hw : w.gamesOf id = []) (jobs : List Job)
    (hjobs : ∀ job ∈ jobs, job.uuid? ≠ some id ∧ job.context.Atomic) (schedule : List ℕ)
    (h : Runs.Along (Pool.step handle) (OneAtATime id) (executions borneId w jobs) schedule) :
    ((schedule.foldl (Pool.step handle) (executions borneId w jobs)).state.gamesOf id).length ≤ 1 := by
  have hthread {i : ℕ} {c : Context} {p : UseCase Unit}
      (hi : (executions borneId w jobs).threads[i]? = some (c, p)) :
      ∃ job ∈ jobs, c = job.context ∧ p = job.program borneId := by
    rw [executions, List.getElem?_map] at hi
    obtain ⟨job, hjob, heq⟩ := Option.map_eq_some_iff.mp hi
    obtain ⟨rfl, rfl⟩ := Prod.mk.inj heq
    exact ⟨job, List.mem_of_getElem? hjob, rfl, rfl⟩
  have hinit : OnCourse id (executions borneId w jobs) fun _ => .out :=
    { follow := fun i c p hi => by
        obtain ⟨job, hjob, -, rfl⟩ := hthread hi
        exact flushes_job borneId (hjobs job hjob).1
      idle := fun _ _ => rfl
      atomic := fun i t hi => by
        obtain ⟨job, hjob, hc, -⟩ := hthread hi
        rw [hc]
        exact (hjobs job hjob).2
      game :=
        { alone := fun i j hi => absurd rfl hi
          reading := fun i hi => by cases hi
          written := fun hne => absurd hw hne
          games := by simp [executions, hw] } }
  obtain ⟨phase, hrun⟩ := Runs.invariant (I := fun pool => ∃ phase, OnCourse id pool phase)
    (fun pool i ⟨_, hpool⟩ hone => hpool.step hone) ⟨_, hinit⟩ h
  exact hrun.game.games

/-- The end of a game played on the borne, reported by the sensor and by
`POST /scores`, and a command to pause it. -/
def endings : Executions :=
  executions "b" (((borneGame "s").take 8).foldl (step "b") {})
    [.request (sensorEvent [.session, .borne] topicGameOver "s" 0),
      .request { request := .finish "s" },
      .request { request := .sessionCommand [.session] .pause "s" }]

/-- The sensor and the command find the game played, and `POST /scores` comes
last. -/
theorem one_game_endings :
    let schedule := [0, 2, 0, 2, 2] ++ List.replicate 13 0 ++ List.replicate 6 1
    ((schedule.foldl (Pool.step handle) endings).state.gamesOf "s").length = 1 := by
  intro schedule
  have hjobs : ∀ job ∈ [Job.request (sensorEvent [.session, .borne] topicGameOver "s" 0),
      .request { request := .finish "s" },
      .request { request := .sessionCommand [.session] .pause "s" }],
      job.uuid? ≠ some "s" ∧ job.context.Atomic := by
    intro job hjob
    have hfresh : job.uuid? ≠ some "s" ∧ job.context.pg = [] := by
      simp only [List.mem_cons, List.not_mem_nil, or_false] at hjob
      rcases hjob with rfl | rfl | rfl <;> exact ⟨by decide, rfl⟩
    exact ⟨hfresh.1, Context.atomic_of_healthy (by simp [hfresh.2])⟩
  exact Nat.le_antisymm (one_game "b" "s" _ (by decide +kernel) _ hjobs schedule (by decide +kernel))
    (by decide +kernel)

/-- `POST /scores` reads the session between the reading and the deletion of the
flush that the sensor led to. -/
theorem endings_two_games :
    let schedule := List.replicate 10 0 ++ [1] ++ List.replicate 5 0 ++ List.replicate 6 1
    ((schedule.foldl (Pool.step handle) endings).state.gamesOf "s").length = 2 := by
  decide +kernel

end FlipperBack
