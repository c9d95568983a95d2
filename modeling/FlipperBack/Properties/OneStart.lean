import FlipperBack.System.Messages
import FlipperBack.System.Rests

/-!
# One session for each start of a game

Nothing keeps two validations of the players apart: both can read the borne on
the identification screen before either moves it, and both create a session and
start a countdown, one of them for a session that is attached to nothing. Where
the borne is left alone while a game is being started, and keeps its session
while a countdown of it runs, each move into a game comes from one execution,
which creates one session and starts one countdown for it (`one_start`).
-/

namespace FlipperBack

open Effects Python

/-! ## What is counted -/

/-- A call made by an execution, in the world it finds. -/
abbrev MadeCall : Type := Pool.Made Job Op World

/-- The session that a call creates, with the execution that makes it. -/
def MadeCall.created (m : MadeCall) : Option (ℕ × Option String) :=
  match m.op with
  | .sessionCreate s => some (m.index, some s.sessionId)
  | _ => none

/-- The session that the borne is in a game of, where a call moves it there from
the identification screen. -/
def MadeCall.entered (m : MadeCall) : Option (ℕ × Option String) :=
  match m.op with
  | .borneUpdate b =>
      if (m.before.borne b.borneId).nav = .identification ∧ b.nav = .inGame then
        some (m.index, b.activeSessionId)
      else none
  | _ => none

/-- The session that a validation of the players starts a countdown for. -/
def MadeCall.launched (m : MadeCall) : Option (ℕ × Option String) :=
  match m.op with
  | .createTask _ sessionId => if m.label.validates then some (m.index, some sessionId) else none
  | _ => none

/-! ## The condition -/

/-- The borne that a call stores. -/
def Op.updated? : Op → Option Borne
  | borneUpdate b => some b
  | _ => none

/-- The session that a call reads. -/
def Op.sessionRead? : Op → Option String
  | sessionGet id => some id
  | _ => none

/-- A call that moves the borne into a game. -/
def Op.entersGame : Op → Bool
  | borneUpdate b => b.nav == .inGame
  | _ => false

/-- A call that starts a countdown of the session. -/
def Op.launches (id : String) : Op → Bool
  | createTask _ sessionId => sessionId == id
  | _ => false

/-- What is left of an execution that has read the borne and has a game to move
it into. -/
def entering (p : UseCase Unit) : Bool := (p.trace luckyAnswer).any Op.entersGame

/-- What is left of an execution that is about to start a countdown of the
session. -/
def launching (id : String) (p : UseCase Unit) : Bool := (p.trace luckyAnswer).any (Op.launches id)

/-- A countdown of the session runs in the execution, or is about to be started by
it. -/
def UnderWay (id : String) (t : Job × UseCase Unit) : Prop :=
  launching id t.2 ∨ t.1.countsDown id ∧ t.2.head.isSome

instance (id : String) (t : Job × UseCase Unit) : Decidable (UnderWay id t) :=
  inferInstanceAs (Decidable (_ ∨ _))

/-- The borne is updated only while no other execution has a game to move it
into, and is left with its session while a countdown of it is under way in
another execution. A validation of the players finds the session that it has
attached. -/
def LeavesStart (borneId : String) (pool : Messages) (i : ℕ) : Prop :=
  (∀ b ∈ (pool.next i).bind Op.updated?, ∀ t ∈ pool.others i, entering t.2 = false ∧
    ∀ id ∈ (pool.state.borne borneId).activeSessionId, UnderWay id t → b.activeSessionId = some id) ∧
  ∀ t ∈ pool.threads[i]?, t.1.validates → ∀ id ∈ t.2.head.bind Op.sessionRead?,
    (pool.state.seen id).isSome

instance (borneId : String) (pool : Messages) (i : ℕ) : Decidable (LeavesStart borneId pool i) :=
  inferInstanceAs (Decidable ((∀ b ∈ (pool.next i).bind Op.updated?, _) ∧ _))

/-! ## The course of a start -/

/-- How far an execution is with the start of a game or of a countdown. -/
inductive StartPhase
  /-- It is not on its way to start one; whether it validates the players. -/
  | out (validates : Bool)
  /-- It never is. -/
  | apart
  /-- It has read the borne, and has a session to create. -/
  | validating (borne : Borne) (id : String)
  /-- It has created the session, and has it to attach. -/
  | created (borne : Borne) (id : String)
  /-- It has attached the session, and has its countdown to start. -/
  | attached (id : String)
  | launched (id : String)
  /-- It has found no session to make ready. -/
  | failed (id : String)
  /-- It has read that the session is active, and has its countdown to start. -/
  | resuming (id : String)

namespace StartPhase

/-- The phases in which an execution can end. -/
def Final : StartPhase → Prop
  | out _ => True
  | apart => True
  | launched _ => True
  | failed _ => True
  | _ => False

/-- The execution handles a validation of the players, if it is in a phase that
says so. -/
def Fits (validates : Bool) : StartPhase → Prop
  | out v => v = validates
  | apart => validates = false
  | resuming _ => validates = false
  | _ => validates = true

/-- The execution has a game to move the borne into. -/
def Enters : StartPhase → Prop
  | validating _ _ => True
  | created _ _ => True
  | _ => False

/-- The execution is about to start a countdown of the session. -/
def Launches (id : String) : StartPhase → Prop
  | validating _ id' => id' = id
  | created _ id' => id' = id
  | attached id' => id' = id
  | resuming id' => id' = id
  | _ => False

end StartPhase

/-- The calls that are made on the way to a countdown of the session `id`. -/
def Op.onTheWay (id : String) : Op → Prop
  | sessionGet id' => id' = id
  | sessionUpdate _ => True
  | broadcastToSession _ _ _ => True
  | broadcastToBorne _ _ => True
  | createTask _ id' => id' = id
  | _ => False

def startProtocol (borneId : String) : Protocol Exc Op.Res StartPhase where
  allowed
    | .out _, .borneUpdate b => b.borneId = borneId ∧ b.nav ≠ .inGame
    | .out _, .sessionCreate _ => False
    | .out _, .createTask _ _ => False
    | .out _, _ => True
    | .apart, op => op.isPlain = true ∨ op.tells = true
    | .validating _ id, op => ∃ s, op = .sessionCreate s ∧ s.sessionId = id
    | .created b id, op => op = .borneUpdate { b with activeSessionId := some id, nav := .inGame }
    | .attached id, op => op.onTheWay id
    | .resuming id, op => op.onTheWay id
    | _, _ => False
  answers
    | .sessionGet _, r => ∀ s, r = .ok (some s) → s.writable
    | .sessionCreate s, r => s.writable → ∃ a, r = .ok a
    | .sessionUpdate s, r => s.writable → ∃ a, r = .ok a
    | .gamePersistFinishedSession _ _ _, _ => True
    | .borneGetOrCreate borneId', r => ∃ b, r = .ok b ∧ b.borneId = borneId'
    | _, r => ∃ a, r = .ok a
  next
    | .out v, .borneGetOrCreate borneId', r, q' => q' = .out v ∨
        ∃ b id, r = .ok b ∧ borneId' = borneId ∧
          (v = true ∧ b.nav = .identification ∧ id ≠ "" ∧ q' = .validating b id ∨
            v = false ∧ b.activeSessionId = some id ∧ q' = .resuming id)
    | .validating b id, _, _, q' => q' = .created b id
    | .created _ id, _, _, q' => q' = .attached id
    | .attached id, .sessionGet _, r, q' =>
        q' = (match r with | .ok (some _) => .attached id | _ => .failed id)
    | .attached id, .createTask _ _, _, q' => q' = .launched id
    | .resuming id, .sessionGet _, r, q' =>
        q' = (match r with
          | .ok (some s) => if s.status = .paused then .resuming id else .out false
          | _ => .out false)
    | .resuming _, .createTask _ _, _, q' => q' = .out false
    | q, _, _, q' => q' = q

/-- An execution keeps to the course of a start from the phase `q` on. -/
abbrev Starts {α : Type} (borneId : String) (q : StartPhase) (p : UseCase α) : Prop :=
  p.Follows (startProtocol borneId) StartPhase.Final StartPhase.Final q

theorem handle_answers_start (borneId : String) (c : Context) (op : Op) (w : World) :
    (startProtocol borneId).answers op (handle c op w).1 := by
  cases op with
  | sessionGet sessionId =>
      intro s hs
      have hseen : w.seen sessionId = some s := by
        rw [World.seen, show w.readSession sessionId = _ from hs]
      exact World.writable_of_seen hseen
  | sessionCreate s => exact fun hs => ⟨_, congrArg Prod.fst (handle_sessionCreate hs)⟩
  | sessionUpdate s => exact fun hs => ⟨_, congrArg Prod.fst (handle_sessionUpdate hs)⟩
  | gamePersistFinishedSession sessionId utcnow finished => trivial
  | borneGetOrCreate borneId' => exact ⟨_, w.readBorne_eq borneId', w.borneId_borne borneId'⟩
  | _ => exact ⟨_, rfl⟩

theorem luckyAnswer_answers (borneId : String) (op : Op) :
    (startProtocol borneId).answers op (luckyAnswer op) := by
  cases op with
  | sessionGet sessionId =>
      intro s hs
      obtain rfl := Option.some.inj (Except.ok.inj hs)
      exact Session.writable_of_unplayed rfl rfl rfl
  | sessionCreate s => exact fun _ => ⟨_, rfl⟩
  | sessionUpdate s => exact fun _ => ⟨_, rfl⟩
  | gamePersistFinishedSession sessionId utcnow finished => trivial
  | borneGetOrCreate borneId' => exact ⟨_, rfl, rfl⟩
  | _ => exact ⟨_, rfl⟩

/-- A call that does not start anything. -/
structure Op.Passes (borneId : String) (q : StartPhase) (op : Op) : Prop where
  create : ∀ s, op ≠ .sessionCreate s
  launch : ∀ broadcaster id, op ≠ .createTask broadcaster id
  enter : op.entersGame = false
  update : ∀ b, op = .borneUpdate b → b.borneId = borneId ∧ ∃ v, q = .out v

/-- The steps of the course. -/
inductive StartStep (borneId : String) :
    StartPhase → (op : Op) → Except Exc op.Res → StartPhase → Prop
  | pass {q : StartPhase} {op : Op} (r : Except Exc op.Res) (h : op.Passes borneId q) :
      StartStep borneId q op r q
  | validate {b : Borne} {id : String} (hnav : b.nav = .identification) (hid : id ≠ "") :
      StartStep borneId (.out true) (.borneGetOrCreate borneId) (.ok b) (.validating b id)
  | resume {b : Borne} {id : String} (hactive : b.activeSessionId = some id) :
      StartStep borneId (.out false) (.borneGetOrCreate borneId) (.ok b) (.resuming id)
  | create (b : Borne) (s : Session) (r : Except Exc Unit) :
      StartStep borneId (.validating b s.sessionId) (.sessionCreate s) r (.created b s.sessionId)
  | attach (b : Borne) (id : String) (r : Except Exc Unit) :
      StartStep borneId (.created b id)
        (.borneUpdate { b with activeSessionId := some id, nav := .inGame }) r (.attached id)
  | launch (broadcaster : Broadcaster) (id : String) (r : Except Exc Unit) :
      StartStep borneId (.attached id) (.createTask broadcaster id) r (.launched id)
  | fail (id : String) {r : Except Exc (Option Session)} (hr : ∀ s, r ≠ .ok (some s)) :
      StartStep borneId (.attached id) (.sessionGet id) r (.failed id)
  | resumed (broadcaster : Broadcaster) (id : String) (r : Except Exc Unit) :
      StartStep borneId (.resuming id) (.createTask broadcaster id) r (.out false)
  | refuse (id : String) {r : Except Exc (Option Session)}
      (hr : ∀ s, r = .ok (some s) → s.status ≠ .paused) :
      StartStep borneId (.resuming id) (.sessionGet id) r (.out false)

section StartStep

variable {borneId id : String} {q' : StartPhase} {op : Op} {r : Except Exc op.Res}

/-- The steps out of a message that has not started anything. -/
theorem start_step_out {v : Bool} (hallowed : (startProtocol borneId).allowed (.out v) op)
    (hnext : (startProtocol borneId).next (.out v) op r q') :
    StartStep borneId (.out v) op r q' := by
  cases op with
  | borneUpdate b =>
      obtain rfl : q' = .out v := hnext
      refine .pass r ⟨by simp, by simp, ?_, ?_⟩
      · simpa [Op.entersGame] using hallowed.2
      · rintro b' ⟨⟩
        exact ⟨hallowed.1, v, rfl⟩
  | borneGetOrCreate borneId' =>
      rcases hnext with rfl | ⟨b, id, rfl, rfl, ⟨rfl, hnav, hid, rfl⟩ | ⟨rfl, hactive, rfl⟩⟩
      · exact .pass r ⟨by simp, by simp, rfl, by simp⟩
      · exact .validate hnav hid
      · exact .resume hactive
  | sessionCreate s => exact hallowed.elim
  | createTask broadcaster sessionId => exact hallowed.elim
  | _ =>
      obtain rfl : q' = .out v := hnext
      exact .pass r ⟨by simp, by simp, rfl, by simp⟩

/-- The steps of a session that is attached: it is read, made ready and its
countdown is started. -/
theorem start_step_attached (hallowed : (startProtocol borneId).allowed (.attached id) op)
    (hnext : (startProtocol borneId).next (.attached id) op r q') :
    StartStep borneId (.attached id) op r q' := by
  cases op with
  | createTask broadcaster sessionId =>
      obtain rfl : sessionId = id := hallowed
      obtain rfl : q' = .launched sessionId := hnext
      exact .launch broadcaster sessionId r
  | sessionGet sessionId =>
      obtain rfl : sessionId = id := hallowed
      rcases r with e | _ | s
      · obtain rfl : q' = .failed sessionId := hnext
        exact .fail sessionId (by simp)
      · obtain rfl : q' = .failed sessionId := hnext
        exact .fail sessionId (by simp)
      · obtain rfl : q' = .attached sessionId := hnext
        exact .pass _ ⟨by simp, by simp, rfl, by simp⟩
  | _ =>
      first
      | exact hallowed.elim
      | obtain rfl : q' = .attached id := hnext
        exact .pass r ⟨by simp, by simp, rfl, by simp⟩

/-- The steps of a session that is resumed, if it is found paused. -/
theorem start_step_resuming (hallowed : (startProtocol borneId).allowed (.resuming id) op)
    (hnext : (startProtocol borneId).next (.resuming id) op r q') :
    StartStep borneId (.resuming id) op r q' := by
  cases op with
  | createTask broadcaster sessionId =>
      obtain rfl : sessionId = id := hallowed
      obtain rfl : q' = .out false := hnext
      exact .resumed broadcaster sessionId r
  | sessionGet sessionId =>
      obtain rfl : sessionId = id := hallowed
      rcases r with e | _ | s
      · obtain rfl : q' = .out false := hnext
        exact .refuse sessionId (by simp)
      · obtain rfl : q' = .out false := hnext
        exact .refuse sessionId (by simp)
      · by_cases hpaused : s.status = .paused
        · obtain rfl : q' = .resuming sessionId := hnext.trans (if_pos hpaused)
          exact .pass _ ⟨by simp, by simp, rfl, by simp⟩
        · obtain rfl : q' = .out false := hnext.trans (if_neg hpaused)
          refine .refuse sessionId fun s' hs' => ?_
          obtain rfl := Option.some.inj (Except.ok.inj hs')
          exact hpaused
  | _ =>
      first
      | exact hallowed.elim
      | obtain rfl : q' = .resuming id := hnext
        exact .pass r ⟨by simp, by simp, rfl, by simp⟩

theorem start_step {q : StartPhase} (hallowed : (startProtocol borneId).allowed q op)
    (hnext : (startProtocol borneId).next q op r q') : StartStep borneId q op r q' := by
  cases q with
  | out v => exact start_step_out hallowed hnext
  | apart =>
      obtain rfl : q' = .apart := hnext
      cases op with
      | borneUpdate b => rcases hallowed with hallowed | hallowed <;> cases hallowed
      | createTask broadcaster sessionId =>
          rcases hallowed with hallowed | hallowed <;> cases hallowed
      | sessionCreate s => rcases hallowed with hallowed | hallowed <;> cases hallowed
      | _ => exact .pass r ⟨by simp, by simp, rfl, by simp⟩
  | validating b id =>
      obtain ⟨s, rfl, rfl⟩ := hallowed
      obtain rfl : q' = .created b s.sessionId := hnext
      exact .create b s r
  | created b id =>
      obtain rfl : op = _ := hallowed
      obtain rfl : q' = .attached id := hnext
      exact .attach b id r
  | attached id => exact start_step_attached hallowed hnext
  | resuming id => exact start_step_resuming hallowed hnext
  | launched id => exact hallowed.elim
  | failed id => exact hallowed.elim

end StartStep

/-! ### What is about to be done -/

section UnderWay

variable {borneId id : String} {q q' : StartPhase} {op : Op}

/-- A lucky answer leads on to the countdown. -/
theorem lucky_step (h : StartStep borneId q op (luckyAnswer op) q') :
    (op.entersGame ∨ q'.Enters ↔ q.Enters) ∧ (op.launches id ∨ q'.Launches id ↔ q.Launches id) := by
  generalize hr : luckyAnswer op = r at h
  cases h with
  | pass r h =>
      have hlaunches : op.launches id = false := by
        cases op with
        | createTask broadcaster sessionId => exact absurd rfl (h.launch broadcaster sessionId)
        | _ => rfl
      rw [h.enter, hlaunches]
      simp
  | validate hnav hid =>
      obtain rfl := Except.ok.inj hr
      cases hnav
  | resume hactive =>
      obtain rfl := Except.ok.inj hr
      cases hactive
  | fail id' hr' => exact absurd hr.symm (hr' _)
  | refuse id' hr' => exact absurd rfl (hr' _ hr.symm)
  | _ => simp [StartPhase.Enters, StartPhase.Launches, Op.entersGame, Op.launches]

theorem StartPhase.Final.not_enters {q : StartPhase} (hq : q.Final) : ¬ q.Enters := by
  cases q <;> first | exact fun h => h | exact hq.elim

theorem StartPhase.Final.not_launches {q : StartPhase} (hq : q.Final) : ¬ q.Launches id := by
  cases q <;> first | exact fun h => h | exact hq.elim

/-- What an execution is about to do is what its course says. -/
theorem entering_launching_iff (id : String) {p : UseCase Unit} (h : Starts borneId q p) :
    (entering p ↔ q.Enters) ∧ (launching id p ↔ q.Launches id) := by
  induction p generalizing q with
  | ret a =>
      exact ⟨iff_of_false Bool.false_ne_true h.not_enters,
        iff_of_false Bool.false_ne_true h.not_launches⟩
  | raise e =>
      exact ⟨iff_of_false Bool.false_ne_true h.not_enters,
        iff_of_false Bool.false_ne_true h.not_launches⟩
  | call op k ih =>
      obtain ⟨hallowed, hnext⟩ := h
      obtain ⟨q', hq', hk⟩ := hnext _ (luckyAnswer_answers borneId op)
      obtain ⟨henters, hlaunches⟩ := lucky_step (start_step hallowed hq')
      obtain ⟨hentering, hlaunching⟩ := ih _ hk
      constructor
      · rw [← henters, ← hentering, entering, Prog.trace, List.any_cons, Bool.or_eq_true]
        rfl
      · rw [← hlaunches, ← hlaunching, launching, Prog.trace, List.any_cons, Bool.or_eq_true]
        rfl

end UnderWay

/-! ## Every message keeps to it -/

section Programs

variable {borneId : String}

theorem start_leaves_plain (v : Bool) (op : Op) (h : op.isPlain = true) :
    (startProtocol borneId).Leaves (.out v) op := by
  cases op with
  | borneGetOrCreate borneId' => exact ⟨trivial, fun _ _ => Or.inl rfl⟩
  | _ => first | exact ⟨trivial, fun _ _ => rfl⟩ | cases h

theorem start_leaves_plain_apart (op : Op) (h : op.isPlain = true) :
    (startProtocol borneId).Leaves .apart op :=
  ⟨Or.inl h, fun _ _ => rfl⟩

theorem start_leaves_tell (v : Bool) (broadcaster : Broadcaster) (id : String)
    (message : SessionMessage) :
    (startProtocol borneId).Leaves (.out v) (.broadcastToSession broadcaster id message) :=
  ⟨trivial, fun _ _ => rfl⟩

theorem start_update {borne : Borne} (v : Bool) (hid : borne.borneId = borneId)
    (hnav : borne.nav ≠ .inGame) :
    Prog.Rests (startProtocol borneId) (.out v)
      (do await (.borneUpdate borne); broadcastNav borne) :=
  .bind (.perform ⟨⟨hid, hnav⟩, fun _ _ => rfl⟩) fun _ => .perform ⟨trivial, fun _ _ => rfl⟩

theorem start_markGameOver (v : Bool) :
    Prog.Rests (startProtocol borneId) (.out v) (markGameOver borneId) := by
  refine Prog.Follows.perform_bind trivial (fun borne hborne => ⟨.out v, Or.inl rfl, ?_⟩)
    fun _ _ => ⟨.out v, Or.inl rfl, rfl⟩
  obtain ⟨b, hb, hid⟩ := hborne
  obtain rfl := Except.ok.inj hb
  split
  · exact start_update v hid (by simp)
  · rfl

theorem start_finishAndPersist (v : Bool) (clock : Clock) (sessionId : String) :
    Prog.Rests (startProtocol borneId) (.out v) (finishAndPersist clock sessionId) :=
  rests_finishAndPersist (start_leaves_plain v) (fun _ _ => ⟨trivial, fun _ _ => rfl⟩)
    ⟨trivial, fun _ _ => rfl⟩ ⟨trivial, fun _ _ => rfl⟩ clock

/-- A session that has been read is written with another status. -/
theorem start_switch {α : Type} {q q' : StartPhase} {s : Session} {status : SessionStatus}
    {f : Unit → UseCase α} {F E : StartPhase → Prop} (hs : s.writable)
    (hallowed : (startProtocol borneId).allowed q (.sessionUpdate { s with status }))
    (hnext : (startProtocol borneId).next q (.sessionUpdate { s with status }) (.ok ()) q')
    (hf : (f ()).Follows (startProtocol borneId) F E q') :
    (await (.sessionUpdate { s with status }) >>= f).Follows (startProtocol borneId) F E q := by
  refine Prog.Follows.perform_bind hallowed (fun _ _ => ⟨q', hnext, hf⟩) fun e he => ?_
  obtain ⟨_, h⟩ := he hs
  cases h

/-- The resuming of a session, from where it has been read that it is active. -/
theorem start_resumeSession (sessionId : String) :
    (resumeSession [.borne] (some [.borne]) sessionId).Follows (startProtocol borneId)
      (· = .out false) (· = .out false) (.resuming sessionId) := by
  refine Prog.Follows.perform_bind rfl (fun session hread => ⟨_, rfl, ?_⟩)
    fun _ _ => ⟨.out false, rfl, rfl⟩
  cases session with
  | none => rfl
  | some session =>
      have hwritable := hread session rfl
      by_cases hpaused : session.status = .paused
      · have hallowed : (session.status == .paused) = true := by simp [hpaused]
        dsimp only
        rw [if_pos hpaused, if_pos hallowed]
        refine start_switch hwritable trivial rfl ?_
        refine Prog.Follows.perform_bind trivial (fun _ _ => ⟨_, rfl, ?_⟩) fun _ h => nomatch h
        exact ⟨rfl, fun r _ => ⟨.out false, rfl, Prog.Rests.ofExcept r⟩⟩
      · have hallowed : ¬ (session.status == .paused) = true := by simp [hpaused]
        dsimp only
        rw [if_neg hpaused, if_neg hallowed]
        rfl

theorem start_handleMatchCommand (command : MatchCommand) :
    Prog.Rests (startProtocol borneId) (.out false) (handleMatchCommand borneId command) := by
  have hplain : ∀ op : Op, op.isPlain → (startProtocol borneId).Leaves (.out false) op :=
    start_leaves_plain false
  cases command with
  | pause =>
      exact rests_handleMatchCommand hplain (start_markGameOver false) fun _ =>
        rests_switchStatus hplain (· == .playing) .paused (.pure ()) (start_leaves_tell false _ _)
  | abandon =>
      exact rests_handleMatchCommand hplain (start_markGameOver false) fun _ =>
        rests_switchStatus hplain (terminatableStates.contains ·) .over (.pure ())
          (start_leaves_tell false _ _)
  | resume =>
      refine Prog.Follows.perform_bind trivial (fun borne hborne => ?_)
        fun _ _ => ⟨.out false, Or.inl rfl, rfl⟩
      cases hactive : borne.activeSessionId with
      | none => exact ⟨.out false, Or.inl rfl, rfl⟩
      | some sessionId =>
          refine ⟨.resuming sessionId,
            Or.inr ⟨borne, sessionId, rfl, rfl, Or.inr ⟨rfl, hactive, rfl⟩⟩, ?_⟩
          exact start_resumeSession sessionId

/-- The readying of the session that has been attached. -/
theorem start_readyUp (id : String) :
    (readyUp [.borne] (some [.borne]) id).Follows (startProtocol borneId)
      (· = .launched id) StartPhase.Final (.attached id) := by
  refine Prog.Follows.perform_bind rfl (fun session hread => ⟨_, rfl, ?_⟩)
    fun _ _ => ⟨.failed id, rfl, trivial⟩
  cases session with
  | none => trivial
  | some session =>
      refine start_switch (hread session rfl) trivial rfl ?_
      refine Prog.Follows.perform_bind trivial (fun _ _ => ⟨_, rfl, ?_⟩) fun _ h => nomatch h
      exact Prog.Follows.perform_bind rfl (fun _ _ => ⟨.launched id, rfl, rfl⟩) fun _ h => nomatch h

/-- The rest of a start from where the session has been created. -/
theorem start_attach (borne : Borne) (id : String) :
    Starts borneId (.created borne id) (do
      let borne := { borne with activeSessionId := some id, nav := .inGame }
      await (.borneUpdate borne)
      broadcastNav borne
      let _ ← readyUp [.borne] (some [.borne]) id
      return) := by
  refine Prog.Follows.perform_bind rfl (fun _ _ => ⟨_, rfl, ?_⟩) fun _ h => nomatch h
  refine Prog.Follows.perform_bind trivial (fun _ _ => ⟨_, rfl, ?_⟩) fun _ h => nomatch h
  refine Prog.Follows.bind (start_readyUp id) fun q _ hq => ?_
  rw [hq]
  trivial

theorem start_applyIntent {uuid : String} (huuid : uuid ≠ "") (now : DateTime) (action : String)
    (payload : Json) :
    Starts borneId (.out (action == playersValidated))
      (applyIntent uuid now borneId action payload) := by
  refine Prog.Follows.perform_bind trivial (fun borne hborne => ?_)
    fun _ _ => ⟨.out _, Or.inl rfl, trivial⟩
  obtain ⟨b, hb, hid⟩ := hborne
  obtain rfl := Except.ok.inj hb
  by_cases haction : action = playersValidated
  · rw [if_pos haction, startGame]
    split
    · next hnav =>
        cases extractPseudo payload with
        | none => exact ⟨.out _, Or.inl rfl, trivial⟩
        | some pseudo =>
            dsimp only [createSession]
            cases normalizeAndValidate pseudo with
            | error e => exact ⟨.out _, Or.inl rfl, trivial⟩
            | ok pseudo =>
                refine ⟨.validating borne uuid, Or.inr ⟨borne, uuid, rfl, rfl, Or.inl ?_⟩, ?_⟩
                · exact ⟨by simp [haction], hnav, huuid, rfl⟩
                · refine ⟨⟨_, rfl, rfl⟩, fun r hr => ⟨_, rfl, ?_⟩⟩
                  obtain ⟨_, rfl⟩ := hr (Session.writable_of_unplayed rfl rfl rfl)
                  exact start_attach borne uuid
    · exact ⟨.out _, Or.inl rfl, trivial⟩
  · rw [if_neg haction]
    refine ⟨.out _, Or.inl rfl, ?_⟩
    cases htarget : nextNavState borne.nav action with
    | none => trivial
    | some target =>
        have hgame : target ≠ .inGame := by
          rintro rfl
          cases (nextNavState_cases htarget).1
        exact Prog.Rests.follows (start_update _ hid hgame) trivial trivial

/-- A message of a screen keeps to the course. -/
theorem start_message {e : Event} (huuid : e.uuid ≠ "") (hscreen : e.FromScreen) :
    Starts borneId (.out e.validates) (e.program borneId) := by
  obtain ⟨request, clock, uuid, pg⟩ := e
  cases request with
  | intent action payload => exact start_applyIntent huuid _ _ _
  | matchCommand command =>
      exact Prog.Rests.follows (start_handleMatchCommand command) trivial trivial
  | relay event =>
      exact Prog.Rests.follows (rests_relayEvent (start_leaves_plain false)
        (start_markGameOver false) (start_finishAndPersist false clock) event) trivial trivial
  | _ => exact hscreen.elim

theorem start_countdown (broadcaster : Broadcaster) (sessionId : String) (values : List ℕ) :
    Starts borneId .apart (countdownFrom broadcaster sessionId values) :=
  Prog.Rests.follows (rests_countdownFrom start_leaves_plain_apart
    (fun _ => ⟨Or.inr rfl, fun _ _ => rfl⟩) values) trivial trivial

end Programs

/-! ## What a phase says -/

namespace StartPhase

/-- What a phase says of the borne as it is stored. -/
def Holds (borne : Borne) : StartPhase → Prop
  | validating b id => borne = b ∧ b.nav = .identification ∧ id ≠ ""
  | created b id => borne = b ∧ b.nav = .identification ∧ id ≠ ""
  | attached id => borne.activeSessionId = some id
  | resuming id => borne.activeSessionId = some id
  | failed _ => False
  | _ => True

/-- The sessions that the execution `i` has created. -/
def createdBy (i : ℕ) : StartPhase → List (ℕ × Option String)
  | created _ id => [(i, some id)]
  | attached id => [(i, some id)]
  | launched id => [(i, some id)]
  | failed id => [(i, some id)]
  | _ => []

/-- The sessions that it has moved the borne into a game of. -/
def enteredBy (i : ℕ) : StartPhase → List (ℕ × Option String)
  | attached id => [(i, some id)]
  | launched id => [(i, some id)]
  | failed id => [(i, some id)]
  | _ => []

/-- The sessions that it has started a countdown for. -/
def launchedBy (i : ℕ) : StartPhase → List (ℕ × Option String)
  | launched id => [(i, some id)]
  | _ => []

end StartPhase

section Call

variable {borneId : String} {q q' : StartPhase} {c : Job} {op : Op} {w : World}

theorem fits_step {r : Except Exc op.Res} {v : Bool} (h : StartStep borneId q op r q')
    (hfits : q.Fits v) : q'.Fits v := by
  cases h with
  | pass r h => exact hfits
  | validate hnav hid => exact hfits.symm
  | resume hactive => exact hfits.symm
  | resumed broadcaster id r => exact Eq.symm hfits
  | refuse id hr => exact Eq.symm hfits
  | _ => exact hfits

/-- A call adds to what its execution has done what the new phase says. -/
theorem counts_step {r : Except Exc op.Res} (h : StartStep borneId q op r q') (i : ℕ)
    (hfits : q.Fits c.validates) (hholds : q.Holds (w.borne borneId)) :
    let m : MadeCall := { index := i, label := c, op, before := w }
    q'.createdBy i = q.createdBy i ++ m.created.toList ∧
      q'.enteredBy i = q.enteredBy i ++ m.entered.toList ∧
      q'.launchedBy i = q.launchedBy i ++ m.launched.toList := by
  intro m
  cases h with
  | pass r h =>
      have hcreated : m.created = none := by
        cases op with
        | sessionCreate s => exact absurd rfl (h.create s)
        | _ => rfl
      have hentered : m.entered = none := by
        cases op with
        | borneUpdate b =>
            have hnav : b.nav ≠ .inGame := by simpa [Op.entersGame] using h.enter
            exact if_neg fun h => hnav h.2
        | _ => rfl
      have hlaunched : m.launched = none := by
        cases op with
        | createTask broadcaster sessionId => exact absurd rfl (h.launch broadcaster sessionId)
        | _ => rfl
      simp [hcreated, hentered, hlaunched]
  | attach b id r =>
      have hid : b.borneId = borneId := by
        rw [← hholds.1]
        exact w.borneId_borne borneId
      have hentered : m.entered = some (i, some id) := by
        refine if_pos ⟨?_, rfl⟩
        rw [hid, hholds.1]
        exact hholds.2.1
      rw [hentered]
      exact ⟨rfl, rfl, rfl⟩
  | launch broadcaster id r =>
      have hlaunched : m.launched = some (i, some id) := if_pos hfits
      rw [hlaunched]
      exact ⟨rfl, rfl, rfl⟩
  | resumed broadcaster id r =>
      have hvalidates : c.validates = false := hfits
      have hlaunched : m.launched = none := if_neg (by simp [m, hvalidates])
      rw [hlaunched]
      exact ⟨rfl, rfl, rfl⟩
  | _ => exact ⟨rfl, rfl, rfl⟩

/-- The new phase says of the borne what is stored after the call. -/
theorem holds_step (h : StartStep borneId q op (handle c.context op w).1 q')
    (hfits : q.Fits c.validates) (hholds : q.Holds (w.borne borneId))
    (hfound : c.validates → ∀ id ∈ op.sessionRead?, (w.seen id).isSome) :
    q'.Holds ((handle c.context op w).2.borne borneId) := by
  generalize hr : (handle c.context op w).1 = r at h
  cases h with
  | pass r h =>
      by_cases hupdate : ∃ b, op = .borneUpdate b
      · obtain ⟨b, rfl⟩ := hupdate
        obtain ⟨-, v, rfl⟩ := h.update b rfl
        trivial
      · rw [World.borne_handle fun b hb => absurd ⟨b, hb⟩ hupdate]
        exact hholds
  | validate hnav hid =>
      obtain rfl := Except.ok.inj ((w.readBorne_eq borneId).symm.trans hr)
      rw [World.borne_handle (by simp)]
      exact ⟨rfl, hnav, hid⟩
  | resume hactive =>
      obtain rfl := Except.ok.inj ((w.readBorne_eq borneId).symm.trans hr)
      rw [World.borne_handle (by simp)]
      exact hactive
  | create b s r =>
      rw [World.borne_handle (by simp)]
      exact hholds
  | attach b id r =>
      obtain ⟨hb, -, hid⟩ := hholds
      obtain rfl : b.borneId = borneId := by
        rw [← hb]
        exact w.borneId_borne borneId
      have hback := w.borne_putBorne { b with activeSessionId := some id, nav := .inGame }
      rw [Borne.readBack_of_ne fun heq => hid (Option.some.inj heq)] at hback
      exact congrArg Borne.activeSessionId hback
  | launch broadcaster id r => trivial
  | fail id hr' =>
      obtain ⟨s, hs⟩ := Option.isSome_iff_exists.mp (hfound hfits id rfl)
      exact hr' s (hr.symm.trans (World.readSession_of_seen hs))
  | resumed broadcaster id r => trivial
  | refuse id hr' => trivial

end Call

/-! ## The invariant -/

/-- What calls give of the execution `i`. -/
def ofIndex (f : MadeCall → Option (ℕ × Option String)) (log : List MadeCall) (i : ℕ) :
    List (ℕ × Option String) :=
  (log.filterMap f).filter fun a => a.1 = i

theorem ofIndex_snoc {f : MadeCall → Option (ℕ × Option String)} {m : MadeCall}
    (hf : ∀ a ∈ f m, a.1 = m.index) (log : List MadeCall) (i : ℕ) :
    ofIndex f (log ++ [m]) i = ofIndex f log i ++ if m.index = i then (f m).toList else [] := by
  rw [ofIndex, List.filterMap_append, List.filter_append]
  congr 1
  cases hm : f m with
  | none => simp [hm]
  | some a =>
      have ha : a.1 = m.index := hf a hm
      simp [hm, ha, List.filter_cons]

namespace MadeCall

theorem created_index (m : MadeCall) : ∀ a ∈ m.created, a.1 = m.index := by
  intro a ha
  unfold created at ha
  split at ha
  · rw [← Option.some.inj ha]
  · cases ha

theorem entered_index (m : MadeCall) : ∀ a ∈ m.entered, a.1 = m.index := by
  intro a ha
  unfold entered at ha
  split at ha
  · split at ha
    · rw [← Option.some.inj ha]
    · cases ha
  · cases ha

theorem launched_index (m : MadeCall) : ∀ a ∈ m.launched, a.1 = m.index := by
  intro a ha
  unfold launched at ha
  split at ha
  · split at ha
    · rw [← Option.some.inj ha]
    · cases ha
  · cases ha

end MadeCall

/-- The calls made by each execution are those that its phase says. -/
structure Counted (log : List MadeCall) (phase : ℕ → StartPhase) : Prop where
  created : ∀ i, ofIndex MadeCall.created log i = (phase i).createdBy i
  entered : ∀ i, ofIndex MadeCall.entered log i = (phase i).enteredBy i
  launched : ∀ i, ofIndex MadeCall.launched log i = (phase i).launchedBy i

/-- The executions are on course: each phase says what is stored of the borne and
what its execution has done, and a countdown that runs is one of the active
session. -/
structure InCourse (borneId : String) (pool : Messages) (phase : ℕ → StartPhase)
    (log : List MadeCall) : Prop where
  follow : pool.Follow (startProtocol borneId) StartPhase.Final phase
  idle : ∀ i, pool.threads[i]? = none → phase i = .apart
  fits : ∀ i t, pool.threads[i]? = some t → (phase i).Fits t.1.validates
  countdown : ∀ i t, pool.threads[i]? = some t → t.1.isCountdown → phase i = .apart
  holds : ∀ i, (phase i).Holds (pool.state.borne borneId)
  running : ∀ t ∈ pool.threads, ∀ id, t.1.countsDown id → t.2.head.isSome →
    (pool.state.borne borneId).activeSessionId = some id
  counted : Counted log phase

namespace InCourse

variable {borneId : String} {pool : Messages} {phase : ℕ → StartPhase} {log : List MadeCall}
  {i : ℕ} {c : Job} {op : Op} {k : Except Exc op.Res → UseCase Unit} {q q' : StartPhase}

theorem borneId_of_update {b : Borne} {r : Except Exc Unit}
    (hstep : StartStep borneId q (.borneUpdate b) r q') {w : World}
    (hholds : q.Holds (w.borne borneId)) : b.borneId = borneId := by
  cases hstep with
  | pass r h => exact (h.update b rfl).1
  | attach b id r =>
      rw [← hholds.1]
      exact w.borneId_borne borneId

theorem active_of_launch {broadcaster : Broadcaster} {id : String} {r : Except Exc Unit}
    (hstep : StartStep borneId q (.createTask broadcaster id) r q') {b : Borne}
    (hholds : q.Holds b) : b.activeSessionId = some id := by
  cases hstep with
  | pass r h => exact absurd rfl (h.launch broadcaster id)
  | launch broadcaster id r => exact hholds
  | resumed broadcaster id r => exact hholds

/-- The active session stays where a countdown of it is under way in another
execution. -/
theorem keeps_active (h : InCourse borneId pool phase log) (hleaves : LeavesStart borneId pool i)
    (hthread : pool.threads[i]? = some (c, .call op k))
    (hstep : StartStep borneId (phase i) op (handle c.context op pool.state).1 q)
    {t : Job × UseCase Unit} (ht : t ∈ pool.others i) {id : String}
    (hactive : (pool.state.borne borneId).activeSessionId = some id) (hunder : UnderWay id t) :
    ((handle c.context op pool.state).2.borne borneId).activeSessionId = some id := by
  by_cases hupdate : ∃ b, op = .borneUpdate b
  · obtain ⟨b, rfl⟩ := hupdate
    obtain rfl := borneId_of_update hstep (h.holds i)
    have hnext : b ∈ (pool.next i).bind Op.updated? := by
      rw [Pool.next, hthread]
      rfl
    have hkept := ((hleaves.1 b hnext t ht).2 id hactive hunder)
    have hback := pool.state.borne_putBorne b
    rw [Borne.readBack_of_ne] at hback
    · exact (congrArg Borne.activeSessionId hback).trans hkept
    · rw [hkept, ← hactive]
      exact pool.state.activeSessionId_borne b.borneId
  · rw [World.borne_handle fun b hb => absurd ⟨b, hb⟩ hupdate]
    exact hactive

theorem thread_of_ne (h : InCourse borneId pool phase log) {j : ℕ} (hj : phase j ≠ .apart) :
    ∃ t, pool.threads[j]? = some t := by
  refine Option.ne_none_iff_exists'.mp fun hnone => hj (h.idle j hnone)

/-- What the phase of another execution says of the borne stays true. -/
theorem holds_other (h : InCourse borneId pool phase log) (hleaves : LeavesStart borneId pool i)
    (hthread : pool.threads[i]? = some (c, .call op k))
    (hstep : StartStep borneId (phase i) op (handle c.context op pool.state).1 q) {j : ℕ}
    (hij : j ≠ i) : (phase j).Holds ((handle c.context op pool.state).2.borne borneId) := by
  have hholds := h.holds j
  have hother {t : Job × UseCase Unit} (ht : pool.threads[j]? = some t) : t ∈ pool.others i :=
    Pool.mem_others.mpr ⟨j, hij, ht⟩
  -- Another start of a game excludes an update of the borne.
  have hentering (henters : (phase j).Enters) :
      (handle c.context op pool.state).2.borne borneId = pool.state.borne borneId := by
    refine World.borne_handle (fun b hb => ?_) _ _
    subst hb
    obtain ⟨t, ht⟩ := h.thread_of_ne fun hapart => by
      rw [hapart] at henters
      exact henters
    have hnext : b ∈ (pool.next i).bind Op.updated? := by
      rw [Pool.next, hthread]
      rfl
    have hentering := (entering_launching_iff "" (h.follow j t.1 t.2 ht)).1.mpr henters
    rw [(hleaves.1 b hnext t (hother ht)).1] at hentering
    cases hentering
  have hlaunching {id : String} (hlaunches : (phase j).Launches id)
      (hactive : (pool.state.borne borneId).activeSessionId = some id) :
      ((handle c.context op pool.state).2.borne borneId).activeSessionId = some id := by
    obtain ⟨t, ht⟩ := h.thread_of_ne fun hapart => by
      rw [hapart] at hlaunches
      exact hlaunches
    have hlaunching := (entering_launching_iff id (h.follow j t.1 t.2 ht)).2.mpr hlaunches
    exact h.keeps_active hleaves hthread hstep (hother ht) hactive (Or.inl hlaunching)
  cases hj : phase j with
  | validating b id =>
      rw [hj] at hholds hentering
      rw [hentering trivial]
      exact hholds
  | created b id =>
      rw [hj] at hholds hentering
      rw [hentering trivial]
      exact hholds
  | attached id =>
      rw [hj] at hholds hlaunching
      exact hlaunching rfl hholds
  | resuming id =>
      rw [hj] at hholds hlaunching
      exact hlaunching rfl hholds
  | failed id =>
      rw [hj] at hholds
      exact hholds
  | _ => trivial

/-- A countdown that runs after a call is one of the active session. -/
theorem running_step (h : InCourse borneId pool phase log) (hleaves : LeavesStart borneId pool i)
    (hthread : pool.threads[i]? = some (c, .call op k))
    (hstep : StartStep borneId (phase i) op (handle c.context op pool.state).1 q) :
    ∀ t ∈ (pool.step i).threads, ∀ id, t.1.countsDown id → t.2.head.isSome →
      ((handle c.context op pool.state).2.borne borneId).activeSessionId = some id := by
  intro t ht id hcounts hruns
  obtain ⟨j, hj⟩ := List.mem_iff_getElem?.mp ht
  rcases Pool.spawnStep_thread hthread hj with ⟨rfl, rfl⟩ | ⟨hij, hj⟩ | ⟨-, -, hmem⟩
  · have hcountdown : c.isCountdown := by
      cases c with
      | request e => cases hcounts
      | countdown task broadcaster sessionId => rfl
    have hapart := h.countdown j _ hthread hcountdown
    have hactive := h.running _ (List.mem_of_getElem? hthread) id hcounts rfl
    rw [hapart] at hstep
    rw [World.borne_handle]
    · exact hactive
    · rintro b rfl
      generalize (handle c.context (.borneUpdate b) pool.state).1 = r at hstep
      cases hstep with
      | pass r h => cases (h.update b rfl).2.choose_spec
  · have hactive := h.running t (List.mem_of_getElem? hj) id hcounts hruns
    exact h.keeps_active hleaves hthread hstep (Pool.mem_others.mpr ⟨j, hij, hj⟩) hactive
      (Or.inr ⟨hcounts, hruns⟩)
  · cases op with
    | createTask broadcaster sessionId =>
        obtain rfl := List.mem_singleton.mp hmem
        obtain rfl : sessionId = id := by simpa [Job.countsDown] using hcounts
        rw [World.borne_handle (by simp)]
        exact active_of_launch hstep (h.holds i)
    | _ => cases hmem

theorem counted_step (h : InCourse borneId pool phase log)
    (hthread : pool.threads[i]? = some (c, .call op k))
    (hstep : StartStep borneId (phase i) op (handle c.context op pool.state).1 q) :
    Counted (log ++ Pool.made pool i) (Function.update phase i q) := by
  have hcounts := counts_step hstep i (h.fits i _ hthread) (h.holds i)
  have hadd {f : MadeCall → Option (ℕ × Option String)}
      {did : ℕ → StartPhase → List (ℕ × Option String)} (hf : ∀ m, ∀ a ∈ f m, a.1 = m.index)
      (hold : ∀ j, ofIndex f log j = did j (phase j))
      (hnew : did i q = did i (phase i) ++
        (f { index := i, label := c, op, before := pool.state }).toList) (j : ℕ) :
      ofIndex f (log ++ Pool.made pool i) j = did j (Function.update phase i q j) := by
    rw [Pool.made_of_thread hthread, ofIndex_snoc (hf _), hold]
    by_cases hij : i = j
    · subst hij
      rw [if_pos rfl, Function.update_self, hnew]
    · rw [if_neg hij, List.append_nil, Function.update_of_ne fun heq => hij heq.symm]
  exact ⟨hadd MadeCall.created_index h.counted.created hcounts.1,
    hadd MadeCall.entered_index h.counted.entered hcounts.2.1,
    hadd MadeCall.launched_index h.counted.launched hcounts.2.2⟩

theorem step (h : InCourse borneId pool phase log) (hleaves : LeavesStart borneId pool i) :
    ∃ phase', InCourse borneId (pool.step i) phase' (log ++ Pool.made pool i) ∧
      ∀ j ≠ i, phase' j = phase j := by
  have hstarts : ∀ op w, ∀ t ∈ startedTasks op w,
      t.2.Follows (startProtocol borneId) StartPhase.Final StartPhase.Final .apart ∧
        t.1.validates = false := by
    intro op w t ht
    cases op with
    | createTask broadcaster sessionId =>
        obtain rfl := List.mem_singleton.mp ht
        exact ⟨start_countdown broadcaster sessionId _, rfl⟩
    | _ => cases ht
  rcases Pool.spawnStep_follows h.follow h.idle
    (fun job => handle_answers_start borneId job.context) (fun op w t ht => (hstarts op w t ht).1) i
    with hnext | ⟨c, op, k, q, hthread, hallowed, hnext, hfollow⟩
  · refine ⟨phase, ?_, fun _ _ => rfl⟩
    rw [Messages.step, Pool.spawnStep_of_next _ _ hnext, Pool.made_of_next hnext, List.append_nil]
    exact h
  have hstep := start_step hallowed hnext
  have hstate : (pool.step i).state = (handle c.context op pool.state).2 := by
    rw [Messages.step, Pool.spawnStep_of_thread hthread]
  refine ⟨Function.update phase i q, ?_, fun j hj => Function.update_of_ne hj _ _⟩
  exact
    { follow := hfollow
      idle := fun j hj => by
        have hnone := Pool.spawnStep_thread_eq_none hj
        rw [Function.update_of_ne]
        · exact h.idle j hnone
        · rintro rfl
          rw [hthread] at hnone
          cases hnone
      fits := fun j t hj => by
        rcases Pool.spawnStep_thread hthread hj with ⟨rfl, rfl⟩ | ⟨hij, hj⟩ | ⟨hij, hnone, hmem⟩
        · rw [Function.update_self]
          have hfits : (phase j).Fits c.validates := h.fits j _ hthread
          exact fits_step hstep hfits
        · rw [Function.update_of_ne hij]
          exact h.fits j t hj
        · rw [Function.update_of_ne hij, h.idle j hnone]
          exact (hstarts _ _ t hmem).2
      countdown := fun j t hj hcountdown => by
        rcases Pool.spawnStep_thread hthread hj with ⟨rfl, rfl⟩ | ⟨hij, hj⟩ | ⟨hij, hnone, -⟩
        · rw [h.countdown j _ hthread hcountdown] at hnext
          rw [Function.update_self]
          exact hnext
        · rw [Function.update_of_ne hij]
          exact h.countdown j t hj hcountdown
        · rw [Function.update_of_ne hij]
          exact h.idle j hnone
      holds := fun j => by
        rw [hstate]
        by_cases hij : j = i
        · subst hij
          rw [Function.update_self]
          refine holds_step hstep (h.fits j _ hthread) (h.holds j) fun hvalidates id hid => ?_
          exact hleaves.2 _ hthread hvalidates id hid
        · rw [Function.update_of_ne hij]
          exact h.holds_other hleaves hthread hstep hij
      running := by
        rw [hstate]
        exact h.running_step hleaves hthread hstep
      counted := h.counted_step hthread hstep }

theorem run (h : InCourse borneId pool phase log) {schedule : List ℕ}
    (hrun : Runs.Along Messages.step (LeavesStart borneId) pool schedule) :
    ∃ phase', InCourse borneId (schedule.foldl Messages.step pool) phase'
        (log ++ Pool.history Messages.step pool schedule) ∧
      ∀ j ∉ schedule, phase' j = phase j := by
  induction schedule generalizing pool phase log with
  | nil =>
      refine ⟨phase, ?_, fun _ _ => rfl⟩
      rw [Pool.history, List.append_nil]
      exact h
  | cons i schedule ih =>
      obtain ⟨phase₁, h₁, hsame₁⟩ := h.step hrun.1
      obtain ⟨phase₂, h₂, hsame₂⟩ := ih h₁ hrun.2
      refine ⟨phase₂, ?_, fun j hj => ?_⟩
      · rw [Pool.history, ← List.append_assoc]
        exact h₂
      · rw [hsame₂ j fun hmem => hj (List.mem_cons_of_mem i hmem)]
        exact hsame₁ j fun heq => hj (heq ▸ List.mem_cons_self)

end InCourse

/-! ## Every interleaving -/

/-- The execution `i` has a game to move the borne into. -/
def Messages.isEntering (pool : Messages) (i : ℕ) : Bool :=
  pool.threads[i]?.any fun t => entering t.2

/-- The execution `i` is about to start a countdown of the session. -/
def Messages.isLaunching (pool : Messages) (i : ℕ) (id : Option String) : Bool :=
  pool.threads[i]?.any fun t => id.any fun id => launching id t.2

/-- What has been started by the calls of `log`: the sessions created are those of
the moves into a game, and each has had its countdown started once, but for those
that their executions have yet to attach or to start one for; and every countdown
that runs is one of the active session. -/
structure StartedOnce (borneId : String) (pool : Messages) (log : List MadeCall) : Prop where
  created : ((log.filterMap MadeCall.created).filter fun a => ¬ pool.isEntering a.1).Perm
    (log.filterMap MadeCall.entered)
  launched : ((log.filterMap MadeCall.entered).filter fun a => ¬ pool.isLaunching a.1 a.2).Perm
    (log.filterMap MadeCall.launched)
  attached : ∀ t ∈ pool.threads, ∀ id, t.1.countsDown id → t.2.head.isSome →
    (pool.state.borne borneId).activeSessionId = some id

/-- Every message of the schedule has been handled. -/
def Answered (pool : Messages) (schedule : List ℕ) : Prop :=
  ∀ i ∈ schedule, pool.next i = none ∨ pool.threads[i]?.any fun t => t.1.isCountdown

instance (pool : Messages) (schedule : List ℕ) : Decidable (Answered pool schedule) :=
  inferInstanceAs (Decidable (∀ i ∈ schedule, _))

namespace InCourse

variable {borneId : String} {pool : Messages} {phase : ℕ → StartPhase} {log : List MadeCall}

theorem isEntering_iff (h : InCourse borneId pool phase log) (i : ℕ) :
    pool.isEntering i ↔ (phase i).Enters := by
  unfold Messages.isEntering
  cases ht : pool.threads[i]? with
  | none =>
      rw [h.idle i ht]
      exact iff_of_false Bool.false_ne_true fun h => h
  | some t => exact (entering_launching_iff "" (h.follow i t.1 t.2 ht)).1

theorem isLaunching_iff (h : InCourse borneId pool phase log) (i : ℕ) (id : String) :
    pool.isLaunching i (some id) ↔ (phase i).Launches id := by
  unfold Messages.isLaunching
  cases ht : pool.threads[i]? with
  | none =>
      rw [h.idle i ht]
      exact iff_of_false Bool.false_ne_true fun h => h
  | some t => exact (entering_launching_iff id (h.follow i t.1 t.2 ht)).2

theorem startedOnce (h : InCourse borneId pool phase log) : StartedOnce borneId pool log where
  created := by
    refine Pool.perm_of_filter_fst fun i => ?_
    rw [List.filter_comm]
    change (ofIndex MadeCall.created log i).filter _ = ofIndex MadeCall.entered log i
    have hentering := h.isEntering_iff i
    rw [h.counted.created i, h.counted.entered i]
    cases hphase : phase i <;> rw [hphase] at hentering <;>
      simp_all [StartPhase.createdBy, StartPhase.enteredBy, StartPhase.Enters]
  launched := by
    refine Pool.perm_of_filter_fst fun i => ?_
    rw [List.filter_comm]
    change (ofIndex MadeCall.entered log i).filter _ = ofIndex MadeCall.launched log i
    have hlaunching := h.isLaunching_iff i
    have hholds := h.holds i
    rw [h.counted.entered i, h.counted.launched i]
    cases hphase : phase i <;> rw [hphase] at hlaunching hholds <;>
      simp_all [StartPhase.enteredBy, StartPhase.launchedBy, StartPhase.Launches, StartPhase.Holds]
  attached := h.running

/-- Where every message has been handled, nothing is left to do. -/
theorem perm_of_answered (h : InCourse borneId pool phase log) {schedule : List ℕ}
    (hanswered : Answered pool schedule)
    (hidle : ∀ i ∉ schedule, ∃ v, phase i = .out v ∨ phase i = .apart) :
    (log.filterMap MadeCall.created).Perm (log.filterMap MadeCall.entered) ∧
      (log.filterMap MadeCall.launched).Perm (log.filterMap MadeCall.entered) := by
  have hrest (i : ℕ) : (phase i).Final := by
    by_cases hi : i ∈ schedule
    · rcases hanswered i hi with hnext | hcountdown
      · cases ht : pool.threads[i]? with
        | none =>
            rw [h.idle i ht]
            trivial
        | some t =>
            have hfollow := h.follow i t.1 t.2 ht
            rw [Pool.next, ht] at hnext
            cases hp : t.2 with
            | ret a =>
                rw [hp] at hfollow
                exact hfollow
            | raise e =>
                rw [hp] at hfollow
                exact hfollow
            | call op k =>
                rw [Option.bind_some, hp] at hnext
                cases hnext
      · obtain ⟨t, ht, hcountdown⟩ := (Option.any_eq_true _ _).mp hcountdown
        rw [h.countdown i t ht hcountdown]
        trivial
    · obtain ⟨v, hv | hv⟩ := hidle i hi
      · rw [hv]
        trivial
      · rw [hv]
        trivial
  refine ⟨Pool.perm_of_filter_fst fun i => ?_, Pool.perm_of_filter_fst fun i => ?_⟩
  · change ofIndex MadeCall.created log i = ofIndex MadeCall.entered log i
    have hfinal := hrest i
    rw [h.counted.created i, h.counted.entered i]
    cases hphase : phase i <;> rw [hphase] at hfinal <;> first | rfl | exact hfinal.elim
  · change ofIndex MadeCall.launched log i = ofIndex MadeCall.entered log i
    have hfinal := hrest i
    have hholds := h.holds i
    rw [h.counted.launched i, h.counted.entered i]
    cases hphase : phase i <;> rw [hphase] at hfinal hholds <;>
      first | rfl | exact hfinal.elim | exact hholds.elim

end InCourse

/-- The phases of messages that have not been handled yet. -/
def firstStartPhase (es : List Event) (i : ℕ) : StartPhase :=
  match es[i]? with
  | some e => .out e.validates
  | none => .apart

theorem inCourse_init (borneId : String) (w : World) (es : List Event)
    (hes : ∀ e ∈ es, e.FromScreen ∧ e.uuid ≠ "") :
    InCourse borneId (messages borneId w es) (firstStartPhase es) [] := by
  have hthread {i : ℕ} {t : Job × UseCase Unit} (ht : (messages borneId w es).threads[i]? = some t) :
      ∃ e, es[i]? = some e ∧ t = (.request e, e.program borneId) := by
    rw [messages, List.getElem?_map] at ht
    obtain ⟨e, he, heq⟩ := Option.map_eq_some_iff.mp ht
    exact ⟨e, he, heq.symm⟩
  have hcounted (i : ℕ) : (firstStartPhase es i).createdBy i = [] ∧
      (firstStartPhase es i).enteredBy i = [] ∧ (firstStartPhase es i).launchedBy i = [] := by
    unfold firstStartPhase
    cases es[i]? with
    | none => exact ⟨rfl, rfl, rfl⟩
    | some e => exact ⟨rfl, rfl, rfl⟩
  exact
    { follow := fun i c p hi => by
        obtain ⟨e, he, heq⟩ := hthread hi
        obtain ⟨-, rfl⟩ := Prod.mk.inj heq
        obtain ⟨hscreen, huuid⟩ := hes e (List.mem_of_getElem? he)
        rw [firstStartPhase, he]
        exact start_message huuid hscreen
      idle := fun i hi => by
        rw [messages, List.getElem?_map, Option.map_eq_none_iff] at hi
        rw [firstStartPhase, hi]
      fits := fun i t hi => by
        obtain ⟨e, he, rfl⟩ := hthread hi
        rw [firstStartPhase, he]
        rfl
      countdown := fun i t hi hcountdown => by
        obtain ⟨e, he, rfl⟩ := hthread hi
        cases hcountdown
      holds := fun i => by
        unfold firstStartPhase
        cases es[i]? with
        | none => trivial
        | some e => trivial
      running := fun t ht id hcounts => by
        obtain ⟨i, hi⟩ := List.mem_iff_getElem?.mp ht
        obtain ⟨e, he, rfl⟩ := hthread hi
        cases hcounts
      counted :=
        { created := fun i => (hcounted i).1.symm
          entered := fun i => (hcounted i).2.1.symm
          launched := fun i => (hcounted i).2.2.symm } }

/-- However the calls of messages of the screens and of the countdowns that they
start are interleaved, where every update of the borne leaves a start under way
alone, the sessions created are those of the moves of the borne into a game, each
has its countdown started once, and none is left by the borne while a countdown of
it runs. -/
theorem one_start (borneId : String) (w : World) (es : List Event)
    (hes : ∀ e ∈ es, e.FromScreen ∧ e.uuid ≠ "") (schedule : List ℕ)
    (h : Runs.Along Messages.step (LeavesStart borneId) (messages borneId w es) schedule) :
    let pool := schedule.foldl Messages.step (messages borneId w es)
    let log := Pool.history Messages.step (messages borneId w es) schedule
    StartedOnce borneId pool log ∧ (Answered pool schedule →
      (log.filterMap MadeCall.created).Perm (log.filterMap MadeCall.entered) ∧
        (log.filterMap MadeCall.launched).Perm (log.filterMap MadeCall.entered)) := by
  intro pool log
  obtain ⟨phase, hrun, hsame⟩ := (inCourse_init borneId w es hes).run h
  refine ⟨hrun.startedOnce, fun hanswered => hrun.perm_of_answered hanswered fun i hi => ?_⟩
  rw [hsame i hi, firstStartPhase]
  cases es[i]? with
  | none => exact ⟨false, Or.inr rfl⟩
  | some e => exact ⟨e.validates, Or.inl rfl⟩

/-- The borne "b" on the identification screen. -/
def onIdentification (w : World) : World := w.putBorne { borneId := "b", nav := .identification }

/-- The players are validated by a screen. -/
def validation (uuid : String) : Event :=
  { request := .intent playersValidated (.obj [("pseudo", .str "ADI")]), uuid }

/-- A second validation and a command to pause come while a game is started, and
the countdown runs. -/
theorem one_start_alone :
    let es := [validation "s", validation "t", { request := .matchCommand .pause, uuid := "u" }]
    let schedule := List.replicate 3 0 ++ [1, 2, 0, 2, 0, 0, 0, 0, 3, 3]
    StartedOnce "b" (schedule.foldl Messages.step (messages "b" (onIdentification {}) es))
        (Pool.history Messages.step (messages "b" (onIdentification {}) es) schedule) ∧
      Answered (schedule.foldl Messages.step (messages "b" (onIdentification {}) es)) schedule := by
  intro es schedule
  refine ⟨(one_start "b" (onIdentification {}) es ?_ schedule (by decide +kernel)).1, by decide +kernel⟩
  simp [es, validation, Event.FromScreen]

/-- Two screens validate the players, and both read the borne before it moves. -/
def bothValidate : List Event := [validation "s", validation "t"]

theorem bothValidate_two_sessions :
    let schedule := [0, 1] ++ List.replicate 7 0 ++ List.replicate 7 1
    let pool := schedule.foldl Messages.step (messages "b" (onIdentification {}) bothValidate)
    let log := Pool.history Messages.step (messages "b" (onIdentification {}) bothValidate) schedule
    Answered pool schedule ∧ (log.filterMap MadeCall.created).length = 2 ∧
      (log.filterMap MadeCall.entered).length = 1 ∧
        (pool.threads[2]?.any fun t => t.1.countsDown "s" && t.2.head.isSome) ∧
          (pool.state.borne "b").activeSessionId = some "t" := by
  decide +kernel

end FlipperBack
