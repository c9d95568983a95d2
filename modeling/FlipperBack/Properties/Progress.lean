import FlipperBack.Properties.NewPlayer
import FlipperBack.System.RestFlow

/-!
# No deadlock

Executions of the REST flow wait for connections of the pool and for transactions
that have inserted the value they insert, and hold their connection meanwhile. They
never wait for each other: one that holds a connection does not acquire another, and a
transaction inserts its player before its room (`executions_end`). `HoldPhase` says what
an execution holds; whoever waits, waits for one that is further.
-/

namespace FlipperBack

open Effects Python

/-! ## What an execution holds -/

/-- An execution holds no connection; or one for a single statement, to be made or
made; or one with a transaction to start, in progress or ended; or it has ended. In a
transaction at level 1 it has inserted a player, at level 2 a room. -/
inductive HoldPhase
  | outside
  | acquired
  | made
  | held
  | inTx (level : ℕ)
  | ending
  | answered
  deriving DecidableEq

/-- How far the insertion of a unique value brings a transaction. -/
def PgCall.level : PgCall → ℕ
  | stmt (.insertPlayer _) => 1
  | insertRoom _ _ _ => 2
  | _ => 0

/-- The calls of a use case inside its transaction. -/
def PgCall.InTransaction : PgCall → Prop
  | stmt (.selectPlayerId _) => True
  | stmt (.insertPlayer _) => True
  | stmt (.insertGame _) => True
  | stmt (.insertGameEvents _ _) => True
  | selectPlayer _ => True
  | selectRoom _ => True
  | insertRoom _ _ _ => True
  | insertGame _ _ _ _ _ => True
  | insertGameEvent _ _ _ => True
  | _ => False

/-- The calls that are one statement on a connection of the pool. -/
def PgCall.Single : PgCall → Prop
  | stmt (.insertPlayer _) => True
  | stmt _ => False
  | insertGame _ _ _ _ _ => False
  | respond _ => False
  | _ => True

namespace HoldPhase

/-- The execution is in its transaction. -/
def InTx (q : HoldPhase) : Prop := ∃ n, q = inTx n

/-- The execution holds a connection. -/
def Holds (q : HoldPhase) : Prop := q ≠ outside ∧ q ≠ answered

theorem not_holds_outside : ¬ outside.Holds :=
  fun hq => hq.1 rfl

theorem holds_acquired : acquired.Holds :=
  ⟨nofun, nofun⟩

theorem holds_made : made.Holds :=
  ⟨nofun, nofun⟩

theorem holds_held : held.Holds :=
  ⟨nofun, nofun⟩

theorem holds_inTx (level : ℕ) : (inTx level).Holds :=
  ⟨nofun, nofun⟩

theorem holds_ending : ending.Holds :=
  ⟨nofun, nofun⟩

theorem not_inTx {q : HoldPhase} (hq : ∀ level, q ≠ inTx level) : ¬ q.InTx :=
  fun ⟨level, heq⟩ => hq level heq

/-- The calls of a program in each phase, where a statement of its own leaves it
outside. -/
def Allows : HoldPhase → PgCall → Prop
  | outside, call => call = .stmt .acquire ∨ call.Single ∨ ∃ response, call = .respond response
  | held, call => call = .stmt .start
  | inTx n, call => call = .stmt .commit ∨ call = .stmt .rollback ∨
      call.InTransaction ∧ (call.level = 0 ∨ n < call.level)
  | ending, call => call = .stmt .release
  | _, _ => False

def after : HoldPhase → PgCall → HoldPhase
  | outside, .stmt .acquire => held
  | outside, .respond _ => answered
  | held, _ => inTx 0
  | inTx _, .stmt .commit => ending
  | inTx _, .stmt .rollback => ending
  | inTx n, call => inTx (max n call.level)
  | ending, _ => outside
  | q, _ => q

theorem after_inTx {n : ℕ} {call : PgCall} (hcall : call.InTransaction) :
    (inTx n).after call = inTx (max n call.level) := by
  cases call with
  | stmt s =>
      cases s with
      | commit => exact hcall.elim
      | rollback => exact hcall.elim
      | _ => rfl
  | _ => rfl

theorem after_single {call : PgCall} (hcall : call.Single) : outside.after call = outside := by
  cases call with
  | stmt s =>
      cases s with
      | insertPlayer pseudo => rfl
      | _ => exact hcall.elim
  | respond response => exact hcall.elim
  | _ => rfl

/-- How far an execution is on the way to release what others wait for. -/
def rank : HoldPhase → ℕ
  | outside => 0
  | acquired => 1
  | made => 1
  | held => 1
  | inTx n => 1 + min n 2
  | ending => 1
  | answered => 0

theorem rank_le (q : HoldPhase) : q.rank ≤ 3 := by
  cases q <;> simp only [rank] <;> omega

theorem rank_pos {q : HoldPhase} (hq : q.Holds) : 0 < q.rank := by
  cases q with
  | outside => exact absurd rfl hq.1
  | answered => exact absurd rfl hq.2
  | inTx n =>
      simp only [rank]
      omega
  | _ => exact Nat.zero_lt_one

end HoldPhase

def holding : Protocol Exc PgCall.Res HoldPhase where
  allowed := HoldPhase.Allows
  answers := PgCall.Answers
  next q call _ q' := q' = q.after call

/-- The protocol of the statements. -/
def holdingStmts : Protocol Exc Stmt.Res HoldPhase where
  allowed q stmt := q.Allows (.stmt stmt)
  answers stmt r := PgCall.Answers (.stmt stmt) r
  next q stmt _ q' := q' = q.after (.stmt stmt)

/-- A statement that only reads is made by an execution that holds no connection. -/
def restHolding : Protocol Exc RestOp.Res HoldPhase where
  allowed q
    | .pg call => q.Allows call
    | _ => q = .outside
  answers
    | .pg call, r => call.Answers r
    | _, _ => True
  next q
    | .pg call, _, q' => q' = q.after call
    | .view _, _, q' => q' = .answered
    | _, _, q' => q' = q

/-- The calls on the pool that are one statement on a connection. -/
def RestOp.Single : RestOp → Prop
  | pg call => call.Single
  | view _ => False
  | _ => True

/-- On the pool, a statement of its own is made by an execution that has acquired a
connection for it, and every other one by an execution that holds one. -/
def poolHolding : Protocol Exc (Acquiring.Res RestOp.Res) HoldPhase where
  allowed q
    | .acquire => q = .outside
    | .release => q = .made
    | .call op => q = .acquired ∧ op.Single ∨
        restHolding.allowed q op ∧ (op.connects = true → q.Holds)
  answers op r := restHolding.acquiring.answers op r
  next q
    | .acquire, _, q' => q' = .acquired
    | .release, _, q' => q' = .outside
    | .call op, r, q' => if q = .acquired then q' = .made else restHolding.next q op r q'

/-! ## The programs -/

theorem holding_leaves {call : PgCall} (hcall : call.Single) : holding.Leaves .outside call :=
  ⟨Or.inr (Or.inl hcall), fun _ _ => (HoldPhase.after_single hcall).symm⟩

section Transactions

variable {α : Type}

/-- Calls of a transaction whose insertions have a place in it. -/
theorem holding_perform {n : ℕ} (call : PgCall) (hcall : call.InTransaction)
    (hlevel : call.level = 0 ∨ n < call.level) :
    (pg call).Follows holding HoldPhase.InTx HoldPhase.InTx (.inTx n) := by
  refine ⟨Or.inr (Or.inr ⟨hcall, hlevel⟩), fun r _ => ⟨_, rfl, ?_⟩⟩
  rw [HoldPhase.after_inTx hcall]
  cases r <;> exact ⟨_, rfl⟩

theorem holding_unitOfWork {body : PgProg α}
    (hbody : body.Follows holding HoldPhase.InTx HoldPhase.InTx (.inTx 0)) :
    (unitOfWork body).Follows holding (· = .outside) (· = .outside) .outside := by
  refine ⟨Or.inl rfl, ?_⟩
  rintro _ rfl
  refine ⟨_, rfl, rfl, ?_⟩
  rintro _ rfl
  refine ⟨_, rfl, hbody.attempt_bind ?_ ?_⟩
  · rintro _ a ⟨n, rfl⟩
    refine ⟨Or.inl rfl, ?_⟩
    rintro _ rfl
    refine ⟨_, rfl, rfl, ?_⟩
    rintro _ rfl
    exact ⟨_, rfl, rfl⟩
  · rintro _ e ⟨n, rfl⟩
    refine ⟨Or.inr (Or.inl rfl), ?_⟩
    rintro _ rfl
    refine ⟨_, rfl, rfl, ?_⟩
    rintro _ rfl
    exact ⟨_, rfl, rfl⟩

theorem holding_transaction {body : SqlProg α}
    (hbody : body.Follows holdingStmts HoldPhase.InTx HoldPhase.InTx (.inTx 0)) :
    (transaction body).Follows holdingStmts (· = .ending) (· = .ending) .held := by
  refine ⟨rfl, ?_⟩
  rintro _ rfl
  refine ⟨_, rfl, hbody.attempt_bind ?_ ?_⟩
  · rintro _ a ⟨n, rfl⟩
    refine ⟨Or.inl rfl, ?_⟩
    rintro _ rfl
    exact ⟨_, rfl, rfl⟩
  · rintro _ e ⟨n, rfl⟩
    refine ⟨Or.inr (Or.inl rfl), ?_⟩
    rintro _ rfl
    exact ⟨_, rfl, rfl⟩

theorem holding_connection {body : SqlProg α}
    (hbody : body.Follows holdingStmts (· = .ending) (· = .ending) .held) :
    (withConnection body).Follows holdingStmts (· = .outside) (· = .outside) .outside := by
  refine ⟨Or.inl rfl, ?_⟩
  rintro _ rfl
  refine ⟨_, rfl, hbody.attempt_bind ?_ ?_⟩
  · rintro _ a rfl
    refine ⟨rfl, ?_⟩
    rintro _ rfl
    exact ⟨_, rfl, rfl⟩
  · rintro _ e rfl
    refine ⟨rfl, ?_⟩
    rintro _ rfl
    exact ⟨_, rfl, rfl⟩

end Transactions

/-- A new game: its player, its room, the game, then its first event. -/
theorem holding_startBody (hex pseudo : String) (mode : GameMode) (roomCode : Option String) :
    (startBody hex pseudo mode roomCode).Follows holding HoldPhase.InTx HoldPhase.InTx
      (.inTx 0) := by
  have hlogged (n : ℕ) (started : GameEventRow → Started) (gameId : ℕ) :
      Prog.Follows holding HoldPhase.InTx HoldPhase.InTx (.inTx n)
        (PgGameEventRepository.create gameId .gameStarted 0 >>= fun event => return started event) :=
    (holding_perform (.insertGameEvent gameId .gameStarted 0) trivial (Or.inl rfl)).bind
      fun _ _ hq => hq
  have hroom (n : ℕ) (hn : n < 2) :
      (startRoom hex mode roomCode).Follows holding HoldPhase.InTx HoldPhase.InTx (.inTx n) := by
    unfold startRoom
    dsimp only
    split
    · exact holding_perform (.insertRoom _ mode .waiting) trivial (Or.inr hn)
    · refine (holding_perform (.selectRoom _) trivial (Or.inl rfl)).bind fun _ found hq => ?_
      cases found <;> exact hq
  have hplayer : (startPlayer pseudo).Follows holding
      (fun q => ∃ n, q = .inTx n ∧ n < 2) HoldPhase.InTx (.inTx 0) := by
    refine Prog.Follows.perform_bind (Or.inr (Or.inr ⟨trivial, Or.inl rfl⟩)) (fun found _ => ?_)
      fun e _ => ⟨_, rfl, _, rfl⟩
    refine ⟨_, rfl, ?_⟩
    cases found with
    | some player => exact ⟨0, rfl, by omega⟩
    | none =>
        refine Prog.Follows.tryCatch (G := HoldPhase.InTx) ?_ fun _ e hq => ?_
        · refine Prog.Follows.perform_bind (Or.inr (Or.inr ⟨trivial, Or.inr Nat.zero_lt_one⟩))
            (fun id _ => ⟨_, rfl, 1, rfl, by omega⟩) fun e _ => ⟨_, rfl, 1, rfl⟩
        · split <;> exact hq
  refine hplayer.bind ?_
  rintro _ player ⟨n, rfl, hn⟩
  refine (hroom n hn).bind ?_
  rintro _ room ⟨n, rfl⟩
  refine (holding_perform (.insertGame _ _ mode 0 .playing) trivial (Or.inl rfl)).bind ?_
  rintro _ game ⟨n, rfl⟩
  exact hlogged n _ _

/-- A flush: its player, the game, then its events. -/
theorem holding_write (s : FinishedSession) (rows : List EventRow) :
    (writeFinishedSession s rows).Follows holdingStmts HoldPhase.InTx HoldPhase.InTx (.inTx 0) := by
  have hgame (n playerId : ℕ) :
      Prog.Follows holdingStmts HoldPhase.InTx HoldPhase.InTx (.inTx n) (do
      let gameId ← insertFinishedGame playerId s.mode s.score s.startedAt s.finishedAt
      let count ← insertEventRows gameId rows
      return (playerId, gameId, count)) := by
    refine ⟨Or.inr (Or.inr ⟨trivial, Or.inl rfl⟩), fun inserted _ => ⟨_, rfl, ?_⟩⟩
    rcases inserted with e | gameId
    · exact ⟨_, rfl⟩
    · cases rows with
      | nil => exact ⟨_, rfl⟩
      | cons row rows =>
          refine ⟨Or.inr (Or.inr ⟨trivial, Or.inl rfl⟩), fun logged _ => ⟨_, rfl, ?_⟩⟩
          rcases logged with e | u <;> exact ⟨_, rfl⟩
  refine ⟨Or.inr (Or.inr ⟨trivial, Or.inl rfl⟩), fun looked _ => ⟨_, rfl, ?_⟩⟩
  rcases looked with e | _ | playerId
  · exact ⟨_, rfl⟩
  · refine ⟨Or.inr (Or.inr ⟨trivial, Or.inr Nat.zero_lt_one⟩), fun inserted _ => ⟨_, rfl, ?_⟩⟩
    rcases inserted with e | playerId
    · exact ⟨_, rfl⟩
    · exact hgame _ playerId
  · exact hgame _ playerId

theorem holding_game (exec : GameExecution) :
    exec.prog.Follows holding (· = .answered) (· = .answered) .outside := by
  have hrespond {q : HoldPhase} (hq : q = .outside) (response : Response) :
      Prog.Follows holding (· = .answered) (· = .answered) q (pg (.respond response)) := by
    subst hq
    exact ⟨Or.inr (Or.inr ⟨response, rfl⟩), fun r _ => ⟨_, rfl, by cases r <;> rfl⟩⟩
  have hsingle {α : Type} {response : Except Exc α → Response} {p : PgProg α}
      (hp : p.Follows holding (· = .outside) (· = .outside) .outside) :
      (answering response p).Follows holding (· = .answered) (· = .answered) .outside :=
    answering_follows hp (fun _ _ hq => hrespond hq _) fun _ _ hq => hrespond hq _
  cases exec with
  | startGame hex pseudo mode roomCode =>
      exact hsingle (holding_unitOfWork (holding_startBody hex pseudo mode roomCode))
  | addGameEvent gameId type points =>
      refine hsingle (Prog.Rests.of_all (fun _ => holding_leaves) ?_)
      refine Prog.All.bind ((Prog.all_perform _ _).mpr trivial) fun found => ?_
      cases found with
      | none => trivial
      | some game =>
          dsimp only
          split
          · trivial
          · refine Prog.All.bind ((Prog.all_perform _ _).mpr trivial) fun event => ?_
            split
            · exact Prog.All.bind ((Prog.all_perform _ _).mpr trivial) fun game => trivial
            · trivial
  | finishGame gameId =>
      refine hsingle (Prog.Rests.of_all (fun _ => holding_leaves) ?_)
      refine Prog.All.bind ((Prog.all_perform _ _).mpr trivial) fun found => ?_
      cases found with
      | none => trivial
      | some game =>
          dsimp only
          split
          · trivial
          · refine Prog.All.bind ((Prog.all_perform _ _).mpr trivial) fun game => ?_
            exact Prog.All.bind ((Prog.all_perform _ _).mpr trivial) fun event => trivial

theorem holding_player (exec : PlayerExecution) :
    exec.prog.Follows holding (· = .answered) (· = .answered) .outside := by
  have hrespond {q : HoldPhase} (hq : q = .outside) (response : Response) :
      Prog.Follows holding (· = .answered) (· = .answered) q (pg (.respond response)) := by
    subst hq
    exact ⟨Or.inr (Or.inr ⟨response, rfl⟩), fun r _ => ⟨_, rfl, by cases r <;> rfl⟩⟩
  cases exec with
  | createOrGetPlayer rawPseudo =>
      refine answering_follows (G := (· = .outside)) (E := (· = .outside))
        (Prog.Rests.of_all (fun _ => holding_leaves) ?_) (fun _ _ hq => hrespond hq _)
        fun _ _ hq => hrespond hq _
      exact createOrGetPlayer_all (fun _ _ => trivial) fun _ _ => trivial
  | persistFinishedSession utcnow s =>
      have hpersist : (FlipperBack.persistFinishedSession utcnow s).Follows holdingStmts
          (· = .outside) (· = .outside) .outside := by
        unfold FlipperBack.persistFinishedSession
        cases liftPy (buildEventRows utcnow s.events) with
        | error e => exact rfl
        | ok rows => exact holding_connection (holding_transaction (holding_write s rows))
      have hembedded := hpersist.embed (Q := holding) (f := PgCall.stmt) (g := fun _ r => r)
        (fun _ _ h => h) (fun _ _ h => h) fun _ _ _ _ h => h
      exact answering_follows hembedded (fun _ _ hq => hrespond hq _) fun _ _ hq => hrespond hq _

/-- A program of the repositories that write, among those that read. -/
theorem holding_onPg {α : Type} {F E : HoldPhase → Prop} {q : HoldPhase} {p : PgProg α}
    (hp : p.Follows holding F E q) : (onPg p).Follows restHolding F E q :=
  hp.embed (Q := restHolding) (f := RestOp.pg) (g := fun _ r => r) (fun _ _ h => h) (fun _ _ h => h)
    fun _ _ _ _ h => h

theorem holding_viewing {α : Type} {view : Except Exc α → View} {p : RestProg α}
    (hp : Prog.Rests restHolding .outside p) :
    (viewing view p).Follows restHolding (· = .answered) (· = .answered) .outside := by
  have hview {q : HoldPhase} (hq : q = .outside) (view : View) :
      Prog.Follows restHolding (· = .answered) (· = .answered) q (rest (.view view)) := by
    subst hq
    exact ⟨rfl, fun r _ => ⟨_, rfl, by cases r <;> rfl⟩⟩
  exact Prog.Follows.attempt_bind hp (fun _ _ hq => hview hq _) fun _ _ hq => hview hq _

theorem holding_reads {α : Type} {p : RestProg α} (hp : p.All RestOp.Single) :
    Prog.Rests restHolding .outside p := by
  refine Prog.Rests.of_all (fun op hop => ?_) hp
  cases op with
  | pg call => exact holding_leaves hop
  | view view => exact hop.elim
  | _ => exact ⟨rfl, fun _ _ => rfl⟩

theorem onPg_reads {α : Type} {p : PgProg α} (hp : p.All PgCall.Single) :
    (onPg p).All RestOp.Single :=
  Prog.All.embed (P := PgCall.Single) (Q := RestOp.Single) (f := RestOp.pg) (g := fun _ r => r)
    (fun _ hcall => hcall) hp

theorem holding_read (exec : RestRead) :
    exec.prog.Follows restHolding (· = .answered) (· = .answered) .outside := by
  obtain ⟨α, view, p, hprog, hp⟩ := exec.prog_viewing
  rw [hprog]
  refine holding_viewing (holding_reads (hp.mono fun op hop => ?_))
  cases op with
  | pg call => cases call <;> trivial
  | _ => exact hop

theorem holding_prog (exec : RestExecution) :
    exec.prog.Follows restHolding (· = .answered) (· = .answered) .outside := by
  cases exec with
  | game exec => exact holding_onPg (holding_game exec)
  | player exec => exact holding_onPg (holding_player exec)
  | createRoom hex mode =>
      exact holding_viewing (holding_reads (onPg_reads ((Prog.all_perform _ _).mpr trivial)))
  | read exec => exact holding_read exec

/-! ### On the pool -/

/-- Who makes a statement and holds no connection makes it on the pool. -/
theorem single_of_connects {q : HoldPhase} {op : RestOp} (hallowed : restHolding.allowed q op)
    (hconnects : op.connects = true) (hq : ¬ q.Holds) : q = .outside ∧ op.Single := by
  cases op with
  | pg call =>
      have hallowed : q.Allows call := hallowed
      cases q with
      | outside =>
          rcases hallowed with rfl | hsingle | ⟨response, rfl⟩
          · cases hconnects
          · exact ⟨rfl, hsingle⟩
          · cases hconnects
      | held => exact absurd HoldPhase.holds_held hq
      | inTx level => exact absurd (HoldPhase.holds_inTx level) hq
      | ending => exact absurd HoldPhase.holds_ending hq
      | _ => exact hallowed.elim
  | view view => cases hconnects
  | _ => exact ⟨hallowed, trivial⟩

theorem ne_acquired {q : HoldPhase} {op : RestOp} (hallowed : restHolding.allowed q op) :
    q ≠ .acquired := by
  rintro rfl
  cases op with
  | pg call => exact hallowed
  | _ => cases hallowed

theorem single_connects {call : PgCall} (hcall : call.Single) :
    (RestOp.pg call).connects = true := by
  cases call with
  | stmt s =>
      cases s with
      | insertPlayer pseudo => rfl
      | _ => exact hcall.elim
  | insertGame playerId roomId mode score status => exact hcall.elim
  | respond response => exact hcall.elim
  | _ => rfl

theorem next_of_single {q' : HoldPhase} {op : RestOp} {r : Except Exc op.Res} (hop : op.Single)
    (hnext : restHolding.next .outside op r q') : q' = .outside := by
  cases op with
  | pg call => exact hnext.trans (HoldPhase.after_single hop)
  | view view => exact hop.elim
  | _ => exact hnext

/-- Whether an execution holds a connection is told by the calls it has made. -/
theorem connected_iff {q q' : HoldPhase} {op : RestOp} {r : Except Exc op.Res} {held : Bool}
    (hallowed : restHolding.allowed q op) (hnext : restHolding.next q op r q')
    (hheld : held = true ↔ q.Holds) (hconnects : op.connects = true → q.Holds) :
    op.connected held = true ↔ q'.Holds := by
  have houtside (hq : q = .outside) : held = false :=
    Bool.eq_false_iff.mpr fun h => HoldPhase.not_holds_outside (hq ▸ hheld.mp h)
  cases op with
  | pg call =>
      obtain rfl : q' = q.after call := hnext
      have hallowed : q.Allows call := hallowed
      cases q with
      | outside =>
          rcases hallowed with rfl | hsingle | ⟨response, rfl⟩
          · exact iff_of_true rfl HoldPhase.holds_held
          · exact absurd (hconnects (single_connects hsingle)) HoldPhase.not_holds_outside
          · refine iff_of_false ?_ fun hq => hq.2 rfl
            rw [houtside rfl]
            exact Bool.false_ne_true
      | held =>
          obtain rfl : call = .stmt .start := hallowed
          exact iff_of_true (hheld.mpr HoldPhase.holds_held) (HoldPhase.holds_inTx 0)
      | inTx level =>
          have hheld := hheld.mpr (HoldPhase.holds_inTx level)
          rcases hallowed with rfl | rfl | ⟨hbody, -⟩
          · exact iff_of_true hheld HoldPhase.holds_ending
          · exact iff_of_true hheld HoldPhase.holds_ending
          · rw [HoldPhase.after_inTx hbody]
            refine iff_of_true ?_ (HoldPhase.holds_inTx _)
            cases call with
            | stmt s => cases s <;> first | exact hheld | exact hbody.elim
            | _ => exact hheld
      | ending =>
          obtain rfl : call = .stmt .release := hallowed
          exact iff_of_false Bool.false_ne_true HoldPhase.not_holds_outside
      | _ => exact hallowed.elim
  | view view =>
      obtain rfl : q' = .answered := hnext
      refine iff_of_false ?_ fun hq => hq.2 rfl
      change ¬ held = true
      rw [houtside hallowed]
      exact Bool.false_ne_true
  | _ =>
      obtain rfl : q = .outside := hallowed
      exact absurd (hconnects rfl) HoldPhase.not_holds_outside

/-- A program that keeps to the protocol does so on the pool: by induction on it, a
statement that it makes outside a transaction is preceded by the acquisition of a
connection and followed by its release. -/
theorem poolHolding_acquiring {α : Type} {F E : HoldPhase → Prop} {p : RestProg α} {q : HoldPhase}
    (hp : p.Follows restHolding F E q) {held : Bool} (hheld : held = true ↔ q.Holds) :
    (p.acquiring RestOp.connects RestOp.connected held).Follows poolHolding F E q := by
  induction p generalizing q held with
  | ret a => exact hp
  | raise e => exact hp
  | call op k ih =>
      rw [Prog.acquiring]
      split
      · next hneeds =>
          obtain ⟨hconnects, hnot⟩ : op.connects = true ∧ held = false := by simpa using hneeds
          have hq : ¬ q.Holds := by
            rw [← hheld, hnot]
            exact Bool.false_ne_true
          obtain ⟨rfl, hsingle⟩ := single_of_connects hp.1 hconnects hq
          refine ⟨rfl, ?_⟩
          rintro _ rfl
          refine ⟨.acquired, rfl, Or.inl ⟨rfl, hsingle⟩, fun r hr => ⟨.made, rfl, rfl, ?_⟩⟩
          rintro _ rfl
          obtain ⟨q', hnext, hk⟩ := hp.2 r hr
          obtain rfl := next_of_single hsingle hnext
          exact ⟨.outside, rfl, ih r hk hheld⟩
      · next hneeds =>
          have hconnects (h : op.connects = true) : q.Holds := by
            rw [← hheld]
            simpa [h] using hneeds
          refine ⟨Or.inr ⟨hp.1, hconnects⟩, fun r hr => ?_⟩
          obtain ⟨q', hnext, hk⟩ := hp.2 r hr
          exact ⟨q', (if_neg (ne_acquired hp.1)).mpr hnext,
            ih r hk (connected_iff hp.1 hnext hheld hconnects)⟩

theorem poolHolding_onPool (exec : RestExecution) :
    exec.onPool.Follows poolHolding (· = .answered) (· = .answered) .outside :=
  poolHolding_acquiring (holding_prog exec)
    (iff_of_false Bool.false_ne_true HoldPhase.not_holds_outside)

/-! ## What a call adds to the unique columns -/

/-- A call that neither starts nor ends a transaction. -/
def PgCall.Plain : PgCall → Prop
  | stmt .start => False
  | stmt .commit => False
  | stmt .rollback => False
  | stmt .release => False
  | _ => True

/-- A statement of the connection `c` adds a player at level 1 and a room at level 2,
which are of its transaction where it is in one. -/
structure Postgres.AddsUnique (c level : ℕ) (s s' : Postgres) : Prop where
  inTransaction : s'.inTransaction = s.inTransaction
  players : ∀ x ∈ s'.players.rows, x ∈ s.players.rows ∨ x.1 = s.owner c ∧ level = 1
  rooms : ∀ x ∈ s'.rooms.rows, x ∈ s.rooms.rows ∨ x.1 = s.owner c ∧ level = 2

namespace Postgres.AddsUnique

variable {c level : ℕ} {s s' : Postgres}

theorem of_rows (hplayers : s'.players.rows = s.players.rows)
    (hrooms : s'.rooms.rows = s.rooms.rows)
    (htx : s'.inTransaction = s.inTransaction) : s.AddsUnique c level s' :=
  ⟨htx, fun _ hx => Or.inl (hplayers ▸ hx), fun _ hx => Or.inl (hrooms ▸ hx)⟩

theorem of_tables {games : List (Option ℕ × GameRow)} {events : List (Option ℕ × GameEventRow)}
    (htables : s'.tables = (s.players.rows, s.rooms.rows, games, events))
    (htx : s'.inTransaction = s.inTransaction) : s.AddsUnique c level s' := by
  simp only [Postgres.tables, Prod.mk.injEq] at htables
  exact of_rows htables.1 htables.2.1 htx

theorem insertGameEvents {gameId : ℕ} {rows : List EventRow}
    (h : s.insertGameEvents c gameId rows = .ok s') : s.AddsUnique c level s' := by
  induction rows generalizing s with
  | nil =>
      obtain rfl := Except.ok.inj h
      exact of_rows rfl rfl rfl
  | cons row rows ih =>
      unfold Postgres.insertGameEvents at h
      split at h
      · next e s₁ hinsert =>
          obtain ⟨-, -, -, htables, htx⟩ := Postgres.insertGameEvent_ok hinsert
          simp only [Postgres.tables, Prod.mk.injEq] at htables
          have howner : s₁.owner c = s.owner c := by rw [Postgres.owner, Postgres.owner, htx]
          obtain ⟨htx', hplayers, hrooms⟩ := ih h
          rw [htables.1, howner] at hplayers
          rw [htables.2.1, howner] at hrooms
          exact ⟨htx'.trans htx, hplayers, hrooms⟩
      · cases h

end Postgres.AddsUnique

theorem serve_addsUnique (c : ℕ) {call : PgCall} (hcall : call.Plain) (v : Server) :
    v.pg.AddsUnique c call.level (serve c call v).2.pg := by
  have hsame : v.pg.AddsUnique c call.level v.pg := .of_rows rfl rfl rfl
  have hplayer {pseudo : String} {id : ℕ} {s : Postgres}
      (hinsert : v.pg.insertPlayer c pseudo = .ok (id, s)) : v.pg.AddsUnique c 1 s := by
    obtain ⟨-, htables, htx⟩ := Postgres.insertPlayer_ok hinsert
    simp only [Postgres.tables, Prod.mk.injEq] at htables
    refine ⟨htx, fun x hx => ?_, fun x hx => Or.inl (htables.2.1 ▸ hx)⟩
    rw [htables.1] at hx
    exact (List.mem_append.mp hx).imp_right fun hx => by simp [List.mem_singleton.mp hx]
  cases call with
  | stmt s =>
      cases s with
      | insertPlayer pseudo => exact Server.write_pg hsame fun id s hinsert => hplayer hinsert
      | insertGame g =>
          refine Server.write_pg hsame fun id s hinsert => ?_
          obtain ⟨⟨row, s'⟩, hrow, heq⟩ := exists_of_map_ok hinsert
          obtain ⟨-, rfl⟩ := Prod.mk.inj heq
          obtain ⟨-, htables, htx⟩ := Postgres.insertGame_ok hrow
          exact .of_tables htables htx
      | insertGameEvents gameId rows =>
          refine Server.write_pg hsame fun u s hinsert => ?_
          obtain ⟨s', hrows, heq⟩ := exists_of_map_ok hinsert
          obtain ⟨-, rfl⟩ := Prod.mk.inj heq
          exact .insertGameEvents hrows
      | acquire => exact hsame
      | selectPlayerId pseudo => exact hsame
      | _ => exact hcall.elim
  | insertRoom code mode status =>
      refine Server.write_pg hsame fun room s hinsert => ?_
      obtain ⟨-, htables, htx⟩ := Postgres.insertRoom_ok hinsert
      simp only [Postgres.tables, Prod.mk.injEq] at htables
      refine ⟨htx, fun x hx => Or.inl (htables.1 ▸ hx), fun x hx => ?_⟩
      rw [htables.2.1] at hx
      refine (List.mem_append.mp hx).imp_right fun hx => ?_
      simp [List.mem_singleton.mp hx, PgCall.level]
  | insertGame playerId roomId mode score status =>
      refine Server.write_pg hsame fun row s hinsert => ?_
      obtain ⟨-, htables, htx⟩ := Postgres.insertGame_ok hinsert
      exact .of_tables htables htx
  | insertGameEvent gameId type points =>
      refine Server.write_pg hsame fun e s hinsert => ?_
      obtain ⟨-, -, -, htables, htx⟩ := Postgres.insertGameEvent_ok hinsert
      exact .of_tables htables htx
  | addPoints gameId points =>
      refine Server.write_pg hsame fun g s hadd => ?_
      obtain ⟨-, -, -, -, rfl⟩ := Postgres.addPoints_ok hadd
      exact .of_rows rfl rfl rfl
  | finishGame gameId =>
      refine Server.write_pg hsame fun g s hfinish => ?_
      obtain ⟨-, -, -, rfl⟩ := Postgres.finishGame_ok hfinish
      exact .of_rows rfl rfl rfl
  | selectPlayer pseudo => exact hsame
  | selectRoom code => exact hsame
  | selectGame gameId => exact hsame
  | respond response => exact hsame

/-! ## What the phases say of the server -/

/-- The execution has responded, or returned what it has read. -/
def Rest.Answered (v : Rest) (i : ℕ) : Prop :=
  (∃ response, (i, response) ∈ v.server.responses) ∨ ∃ view, (i, view) ∈ v.views

/-- The connections and the rows of open transactions belong to executions whose
phases say so, and those that have ended have answered. -/
structure Held (n : ℕ) (v : Rest) (phase : ℕ → HoldPhase) : Prop where
  holders : ∀ c, c ∈ v.holders ↔ (phase c).Holds
  nodup : v.holders.Nodup
  inTransaction : ∀ c, v.server.pg.inTransaction c = true ↔ (phase c).InTx
  players : ∀ x ∈ v.server.pg.players.rows, ∀ c, x.1 = some c →
    ∃ level, phase c = .inTx level ∧ 1 ≤ level
  rooms : ∀ x ∈ v.server.pg.rooms.rows, ∀ c, x.1 = some c →
    ∃ level, phase c = .inTx level ∧ 2 ≤ level
  answered : ∀ i, phase i = .answered → v.Answered i
  absent : ∀ i, n ≤ i → phase i = .outside

theorem Rest.Answered.mono {v v' : Rest} {i : ℕ} (h : v.Answered i)
    (hresponses : v.server.responses ⊆ v'.server.responses) (hviews : v.views ⊆ v'.views) :
    v'.Answered i :=
  h.imp (fun ⟨response, hmem⟩ => ⟨response, hresponses hmem⟩) fun ⟨view, hmem⟩ =>
    ⟨view, hviews hmem⟩

theorem serve_responses (c : ℕ) (call : PgCall) (v : Server) :
    v.responses ⊆ (serve c call v).2.responses := by
  have hwrite {α : Type} (r : Except Exc (α × Postgres)) : v.responses ⊆ (v.write r).2.responses := by
    rcases r with e | ⟨a, s⟩ <;> exact fun _ hr => hr
  cases call with
  | stmt s => rw [responses_stmt]; exact fun _ hr => hr
  | insertRoom code mode status => exact hwrite _
  | insertGame playerId roomId mode score status => exact hwrite _
  | insertGameEvent gameId type points => exact hwrite _
  | addPoints gameId points => exact hwrite _
  | finishGame gameId => exact hwrite _
  | respond response => exact List.subset_append_left _ _
  | _ => exact fun _ hr => hr

section Held

variable {tables : RestTables} {n i : ℕ} {v v' : Rest} {phase : ℕ → HoldPhase} {q : HoldPhase}

/-- What a call of the execution `i` has to keep for the others, and to establish for
its new phase. -/
theorem Held.move (h : Held n v phase) (hi : i < n)
    (hothers : ∀ c, c ≠ i → (c ∈ v'.holders ↔ c ∈ v.holders)) (hself : i ∈ v'.holders ↔ q.Holds)
    (hnodup : v'.holders.Nodup)
    (htx : ∀ c, c ≠ i → v'.server.pg.inTransaction c = v.server.pg.inTransaction c)
    (htxself : v'.server.pg.inTransaction i = true ↔ q.InTx)
    (hplayers : ∀ x ∈ v'.server.pg.players.rows, (x ∈ v.server.pg.players.rows ∧ x.1 ≠ some i) ∨
      x.1 = none ∨ x.1 = some i ∧ ∃ level, q = .inTx level ∧ 1 ≤ level)
    (hrooms : ∀ x ∈ v'.server.pg.rooms.rows, (x ∈ v.server.pg.rooms.rows ∧ x.1 ≠ some i) ∨
      x.1 = none ∨ x.1 = some i ∧ ∃ level, q = .inTx level ∧ 2 ≤ level)
    (hanswered : ∀ j, v.Answered j → v'.Answered j) (hended : q = .answered → v'.Answered i) :
    Held n v' (Function.update phase i q) where
  holders c := by
    by_cases hc : c = i
    · rw [hc, Function.update_self, hself]
    · rw [Function.update_of_ne hc, hothers c hc, h.holders c]
  nodup := hnodup
  inTransaction c := by
    by_cases hc : c = i
    · rw [hc, Function.update_self, htxself]
    · rw [Function.update_of_ne hc, htx c hc, h.inTransaction c]
  players x hx c hown := by
    rcases hplayers x hx with ⟨hx, hne⟩ | hnone | ⟨hself, hq⟩
    · have hc : c ≠ i := by
        rintro rfl
        exact hne hown
      rw [Function.update_of_ne hc]
      exact h.players x hx c hown
    · rw [hnone] at hown
      cases hown
    · obtain rfl : c = i := Option.some.inj (hown.symm.trans hself)
      rw [Function.update_self]
      exact hq
  rooms x hx c hown := by
    rcases hrooms x hx with ⟨hx, hne⟩ | hnone | ⟨hself, hq⟩
    · have hc : c ≠ i := by
        rintro rfl
        exact hne hown
      rw [Function.update_of_ne hc]
      exact h.rooms x hx c hown
    · rw [hnone] at hown
      cases hown
    · obtain rfl : c = i := Option.some.inj (hown.symm.trans hself)
      rw [Function.update_self]
      exact hq
  answered j hj := by
    by_cases hji : j = i
    · rw [hji, Function.update_self] at hj
      exact hji ▸ hended hj
    · rw [Function.update_of_ne hji] at hj
      exact hanswered j (h.answered j hj)
  absent j hj := by
    rw [Function.update_of_ne (by omega)]
    exact h.absent j hj

/-- Where the execution `i` is outside transactions or has inserted nothing that is
unique, no row is of its transaction. -/
theorem Held.players_ne (h : Held n v phase) (hq : ∀ level, phase i = .inTx level → level = 0) :
    (∀ x ∈ v.server.pg.players.rows, x.1 ≠ some i) ∧
      ∀ x ∈ v.server.pg.rooms.rows, x.1 ≠ some i := by
  constructor
  · intro x hx hown
    obtain ⟨level, hphase, hlevel⟩ := h.players x hx i hown
    have := hq level hphase
    omega
  · intro x hx hown
    obtain ⟨level, hphase, hlevel⟩ := h.rooms x hx i hown
    have := hq level hphase
    omega

/-- A call that does not touch the transactions, of an execution in the same state of
its own one. -/
theorem Held.plain (h : Held n v phase) (hi : i < n) {call : PgCall} (hcall : call.Plain)
    (hholders : call.holders i v.holders = v.holders) (hholds : (phase i).Holds ↔ q.Holds)
    (htx : (phase i).InTx ↔ q.InTx)
    (hlevel : ∀ level, phase i = .inTx level → q = .inTx (max level call.level))
    (hended : q = .answered → (serveRest tables i (.pg call) v).2.Answered i) :
    Held n (serveRest tables i (.pg call) v).2 (Function.update phase i q) := by
  have hadds := serve_addsUnique i hcall v.server
  have hresponses := serve_responses i call v.server
  have howner {x : Option ℕ} {level : ℕ} (hlevel' : call.level = level)
      (hx : x = v.server.pg.owner i) : x = none ∨ x = some i ∧ ∃ m, q = .inTx m ∧ level ≤ m := by
    cases hin : v.server.pg.inTransaction i with
    | false => exact Or.inl (hx.trans (Postgres.owner_of_not hin))
    | true =>
        obtain ⟨m, hm⟩ := (h.inTransaction i).mp hin
        exact Or.inr ⟨hx.trans (Postgres.owner_of_inTransaction hin), _, hlevel m hm, by omega⟩
  refine h.move hi (fun c _ => ?_) ?_ ?_ (fun c _ => congrFun hadds.inTransaction c) ?_ ?_ ?_ ?_
    hended
  · change c ∈ call.holders i v.holders ↔ _
    rw [hholders]
  · change i ∈ call.holders i v.holders ↔ _
    rw [hholders, h.holders i, hholds]
  · change (call.holders i v.holders).Nodup
    rw [hholders]
    exact h.nodup
  · change (serve i call v.server).2.pg.inTransaction i = true ↔ _
    rw [hadds.inTransaction, h.inTransaction i, htx]
  · intro x hx
    rcases hadds.players x hx with hx | ⟨hown, hone⟩
    · by_cases hself : x.1 = some i
      · obtain ⟨m, hm, hle⟩ := h.players x hx i hself
        exact Or.inr (Or.inr ⟨hself, _, hlevel m hm, by omega⟩)
      · exact Or.inl ⟨hx, hself⟩
    · exact Or.inr (howner hone hown)
  · intro x hx
    rcases hadds.rooms x hx with hx | ⟨hown, htwo⟩
    · by_cases hself : x.1 = some i
      · obtain ⟨m, hm, hle⟩ := h.rooms x hx i hself
        exact Or.inr (Or.inr ⟨hself, _, hlevel m hm, by omega⟩)
      · exact Or.inl ⟨hx, hself⟩
    · exact Or.inr (howner htwo hown)
  · exact fun j hj => hj.mono hresponses fun _ hview => hview

/-- A row that is of no transaction of the execution `i` after the call. -/
theorem kept_or_none {ρ : Type} {rows : List (Option ℕ × ρ)} {x : Option ℕ × ρ} {P : Prop}
    (h : x.1 ≠ some i ∧ (x ∈ rows ∨ x.1 = none)) :
    (x ∈ rows ∧ x.1 ≠ some i) ∨ x.1 = none ∨ P :=
  h.2.imp (fun hx => ⟨hx, h.1⟩) Or.inl

/-- The execution acquires a connection. -/
theorem Held.takes (h : Held n v phase) (hi : i < n) (hphase : phase i = .outside)
    (hholds : q.Holds) (htx : ¬ q.InTx) :
    Held n { v with holders := i :: v.holders } (Function.update phase i q) := by
  have hnot : i ∉ v.holders := by
    rw [h.holders, hphase]
    exact HoldPhase.not_holds_outside
  have hnone := h.players_ne (i := i) (by simp [hphase])
  refine h.move hi (fun c hc => ?_) (iff_of_true List.mem_cons_self hholds)
    (List.nodup_cons.mpr ⟨hnot, h.nodup⟩) (fun _ _ => rfl) ?_
    (fun x hx => Or.inl ⟨hx, hnone.1 x hx⟩) (fun x hx => Or.inl ⟨hx, hnone.2 x hx⟩)
    (fun _ hj => hj) fun hended => absurd hended hholds.2
  · exact List.mem_cons.trans (or_iff_right hc)
  · refine (h.inTransaction i).trans (iff_of_false ?_ htx)
    rw [hphase]
    exact HoldPhase.not_inTx nofun

/-- The execution releases its connection, on which no transaction is open. -/
theorem Held.gives (h : Held n v phase) (hi : i < n) {s : Postgres}
    (htx : ∀ c, c ≠ i → s.inTransaction c = v.server.pg.inTransaction c)
    (hself : s.inTransaction i = false)
    (hplayers : ∀ x ∈ s.players.rows, x.1 ≠ some i ∧ (x ∈ v.server.pg.players.rows ∨ x.1 = none))
    (hrooms : ∀ x ∈ s.rooms.rows, x.1 ≠ some i ∧ (x ∈ v.server.pg.rooms.rows ∨ x.1 = none)) :
    Held n { v with server := { v.server with pg := s }, holders := v.holders.erase i }
      (Function.update phase i .outside) := by
  refine h.move hi (fun c hc => List.mem_erase_of_ne hc) ?_ (h.nodup.erase i) htx ?_
    (fun x hx => kept_or_none (hplayers x hx)) (fun x hx => kept_or_none (hrooms x hx))
    (fun _ hj => hj) fun hended => by cases hended
  · refine iff_of_false (fun hmem => ?_) HoldPhase.not_holds_outside
    exact (h.nodup.mem_erase_iff.mp hmem).1 rfl
  · refine iff_of_false ?_ (HoldPhase.not_inTx nofun)
    change ¬ s.inTransaction i = true
    rw [hself]
    exact Bool.false_ne_true

/-- The execution makes a call that leaves the database alone. -/
theorem Held.rephase (h : Held n v phase) (hi : i < n) {views : List (ℕ × View)}
    (hphase : ∀ level, phase i ≠ .inTx level) (hholds : (phase i).Holds ↔ q.Holds) (htx : ¬ q.InTx)
    (hviews : v.views ⊆ views) (hended : q = .answered → Rest.Answered { v with views } i) :
    Held n { v with views } (Function.update phase i q) := by
  have hnone := h.players_ne (i := i) fun level hlevel => absurd hlevel (hphase level)
  refine h.move hi (fun _ _ => Iff.rfl) ((h.holders i).trans hholds) h.nodup (fun _ _ => rfl)
    ((h.inTransaction i).trans (iff_of_false ?_ htx))
    (fun x hx => Or.inl ⟨hx, hnone.1 x hx⟩) (fun x hx => Or.inl ⟨hx, hnone.2 x hx⟩)
    (fun j hj => hj.mono (fun _ hr => hr) hviews) hended
  rintro ⟨level, hlevel⟩
  exact hphase level hlevel

/-- The transaction of an execution ends, by a commit or not: no row is of it any
more. -/
theorem Held.ends (h : Held n v phase) (hi : i < n) {level : ℕ} (hphase : phase i = .inTx level)
    {s : Postgres} (htx : s.inTransaction = Function.update v.server.pg.inTransaction i false)
    (hplayers : ∀ x ∈ s.players.rows, x.1 ≠ some i ∧ (x ∈ v.server.pg.players.rows ∨ x.1 = none))
    (hrooms : ∀ x ∈ s.rooms.rows, x.1 ≠ some i ∧ (x ∈ v.server.pg.rooms.rows ∨ x.1 = none)) :
    Held n { v with server := { v.server with pg := s } } (Function.update phase i .ending) := by
  refine h.move hi (fun _ _ => Iff.rfl) ?_ h.nodup (fun c hc => ?_) ?_
    (fun x hx => kept_or_none (hplayers x hx)) (fun x hx => kept_or_none (hrooms x hx))
    (fun _ hj => hj) fun hended => by cases hended
  · rw [h.holders i, hphase]
    exact iff_of_true (HoldPhase.holds_inTx level) HoldPhase.holds_ending
  · exact (congrFun htx c).trans (Function.update_of_ne hc _ _)
  · change s.inTransaction i = true ↔ _
    rw [htx, Function.update_self]
    exact iff_of_false Bool.false_ne_true (HoldPhase.not_inTx nofun)

theorem mem_commit_ne {ρ : Type} {key : ρ → ℕ} {t : TxTable ℕ key} {x : Option ℕ × ρ}
    (hx : x ∈ (t.commit i).rows) : x.1 ≠ some i ∧ (x ∈ t.rows ∨ x.1 = none) := by
  rcases TxTable.mem_commit.mp hx with ⟨hx, hne⟩ | ⟨hnone, -⟩
  · exact ⟨hne, Or.inl hx⟩
  · exact ⟨by simp [hnone], Or.inr hnone⟩

theorem mem_rollback_ne {ρ : Type} {key : ρ → ℕ} {t : TxTable ℕ key} {x : Option ℕ × ρ}
    (hx : x ∈ (t.rollback i).rows) : x.1 ≠ some i ∧ (x ∈ t.rows ∨ x.1 = none) := by
  obtain ⟨hx, hne⟩ := TxTable.mem_rollback.mp hx
  exact ⟨hne, Or.inl hx⟩

/-- A call of the repositories that write, made by an execution that holds a connection
where the call is made on one. -/
theorem held_pg (h : Held n v phase) (hi : i < n) {call : PgCall}
    (hallowed : (phase i).Allows call)
    (hconnects : (RestOp.pg call).connects = true → (phase i).Holds) :
    Held n (serveRest tables i (.pg call) v).2
      (Function.update phase i ((phase i).after call)) := by
  cases hphase : phase i with
  | outside =>
      rw [hphase] at hallowed hconnects
      rcases hallowed with rfl | hsingle | ⟨response, rfl⟩
      · exact h.takes hi hphase HoldPhase.holds_held (HoldPhase.not_inTx nofun)
      · exact absurd (hconnects (single_connects hsingle)) HoldPhase.not_holds_outside
      · refine h.plain hi trivial rfl ?_ ?_ (by simp [hphase]) fun _ =>
          Or.inl ⟨response, List.mem_append_right _ (List.mem_singleton_self _)⟩
        · rw [hphase]
          exact iff_of_false HoldPhase.not_holds_outside fun hq => hq.2 rfl
        · rw [hphase]
          exact iff_of_false (HoldPhase.not_inTx nofun) (HoldPhase.not_inTx nofun)
  | held =>
      rw [hphase] at hallowed
      obtain rfl : call = .stmt .start := hallowed
      refine h.move hi (fun _ _ => Iff.rfl) ?_ h.nodup
        (fun c hc => Function.update_of_ne hc _ _) ?_ (fun x hx => ?_) (fun x hx => ?_)
        (fun _ hj => hj) fun hended => by cases hended
      · refine (h.holders i).trans ?_
        rw [hphase]
        exact iff_of_true HoldPhase.holds_held (HoldPhase.holds_inTx 0)
      · exact iff_of_true (Function.update_self ..) ⟨0, rfl⟩
      · exact Or.inl ⟨hx, (h.players_ne (by simp [hphase])).1 x hx⟩
      · exact Or.inl ⟨hx, (h.players_ne (by simp [hphase])).2 x hx⟩
  | inTx level =>
      rw [hphase] at hallowed
      rcases hallowed with rfl | rfl | ⟨hbody, -⟩
      · exact h.ends hi hphase rfl (fun _ => mem_commit_ne) fun _ => mem_commit_ne
      · exact h.ends hi hphase rfl (fun _ => mem_rollback_ne) fun _ => mem_rollback_ne
      · rw [HoldPhase.after_inTx hbody]
        have hplain : call.Plain ∧ call.holders i v.holders = v.holders := by
          cases call with
          | stmt s => cases s <;> first | exact ⟨trivial, rfl⟩ | exact hbody.elim
          | _ => exact ⟨trivial, rfl⟩
        refine h.plain hi hplain.1 hplain.2 ?_ ?_ ?_ fun hended => by cases hended
        · rw [hphase]
          exact iff_of_true (HoldPhase.holds_inTx _) (HoldPhase.holds_inTx _)
        · rw [hphase]
          exact iff_of_true ⟨_, rfl⟩ ⟨_, rfl⟩
        · intro level' hlevel'
          rw [hphase] at hlevel'
          cases hlevel'
          rfl
  | ending =>
      rw [hphase] at hallowed
      obtain rfl : call = .stmt .release := hallowed
      exact h.gives hi (fun c hc => Function.update_of_ne hc _ _)
        (by simp [Postgres.rollback]) (fun _ => mem_rollback_ne) fun _ => mem_rollback_ne
  | _ =>
      rw [hphase] at hallowed
      exact hallowed.elim

/-- A statement of its own, on the connection that has been acquired for it. -/
theorem held_single (h : Held n v phase) (hi : i < n) {op : RestOp} (hop : op.Single)
    (hphase : phase i = .acquired) :
    Held n (serveRest tables i op v).2 (Function.update phase i .made) := by
  have hholds : (phase i).Holds ↔ HoldPhase.made.Holds := by
    rw [hphase]
    exact iff_of_true HoldPhase.holds_acquired HoldPhase.holds_made
  have hnot : ¬ HoldPhase.made.InTx := HoldPhase.not_inTx nofun
  cases op with
  | pg call =>
      have hplain : call.Plain ∧ call.holders i v.holders = v.holders := by
        cases call with
        | stmt s => cases s <;> first | exact ⟨trivial, rfl⟩ | exact hop.elim
        | _ => exact ⟨trivial, rfl⟩
      refine h.plain hi hplain.1 hplain.2 hholds ?_ (by simp [hphase]) fun hended => by cases hended
      rw [hphase]
      exact iff_of_false (HoldPhase.not_inTx nofun) hnot
  | view view => exact hop.elim
  | _ =>
      exact h.rephase hi (by simp [hphase]) hholds hnot (fun _ hview => hview)
        fun hended => by cases hended

end Held

/-- A call of an execution keeps what the phases say of the server. -/
theorem held_servePool {tables : RestTables} {n i : ℕ} {op : Acquiring RestOp} {q : HoldPhase}
    {phase : ℕ → HoldPhase} {v : Rest} (hi : i < n) (h : Held n v phase)
    (hallowed : poolHolding.allowed (phase i) op)
    (hnext : poolHolding.next (phase i) op (servePool tables i op v).1 q) :
    Held n (servePool tables i op v).2 (Function.update phase i q) := by
  cases op with
  | acquire =>
      obtain rfl : q = .acquired := hnext
      exact h.takes hi hallowed HoldPhase.holds_acquired (HoldPhase.not_inTx nofun)
  | release =>
      obtain rfl : q = .outside := hnext
      have hphase : phase i = .made := hallowed
      have hnone := h.players_ne (i := i) (by simp [hphase])
      refine h.gives hi (fun _ _ => rfl) (Bool.eq_false_iff.mpr fun hin => ?_)
        (fun x hx => ⟨hnone.1 x hx, Or.inl hx⟩) fun x hx => ⟨hnone.2 x hx, Or.inl hx⟩
      obtain ⟨level, heq⟩ := (h.inTransaction i).mp hin
      rw [hphase] at heq
      cases heq
  | call op =>
      rcases hallowed with ⟨hphase, hsingle⟩ | ⟨hallowed, hconnects⟩
      · obtain rfl : q = .made := (if_pos hphase).mp hnext
        exact held_single h hi hsingle hphase
      · have hnext : restHolding.next (phase i) op (serveRest tables i op v).1 q :=
          (if_neg (ne_acquired hallowed)).mp hnext
        cases op with
        | pg call =>
            obtain rfl : q = (phase i).after call := hnext
            have hheld : Held n (serveRest tables i (.pg call) v).2
                (Function.update phase i ((phase i).after call)) :=
              held_pg h hi hallowed hconnects
            exact hheld
        | view view =>
            obtain rfl : q = .answered := hnext
            have hphase : phase i = .outside := hallowed
            refine h.rephase hi (by simp [hphase]) ?_ (HoldPhase.not_inTx nofun)
              (List.subset_append_left _ _) fun _ =>
                Or.inr ⟨view, List.mem_append_right _ (List.mem_singleton_self _)⟩
            rw [hphase]
            exact iff_of_false HoldPhase.not_holds_outside fun hq => hq.2 rfl
        | _ =>
            have hphase : phase i = .outside := hallowed
            rw [hphase] at hconnects
            exact absurd (hconnects rfl) HoldPhase.not_holds_outside

theorem serveRest_answers (tables : RestTables) (c : ℕ) (op : RestOp) (v : Rest) :
    restHolding.answers op (serveRest tables c op v).1 := by
  cases op with
  | pg call => exact serve_answers c call v.server
  | _ => trivial

theorem servePool_answers (tables : RestTables) (c : ℕ) (op : Acquiring RestOp) (v : Rest) :
    poolHolding.answers op (servePool tables c op v).1 :=
  acquiring_answers (serveRest_answers tables) c op v

/-! ## Who waits for whom -/

/-- The insertion of a unique value has its place before the further ones. -/
theorem HoldPhase.rank_le_level {q : HoldPhase} {call : PgCall}
    (hallowed : poolHolding.allowed q (.call (.pg call))) (hlevel : 0 < call.level) :
    q.rank ≤ call.level := by
  rcases hallowed with ⟨rfl, -⟩ | ⟨hallowed, -⟩
  · exact hlevel
  · have hallowed : q.Allows call := hallowed
    cases q with
    | outside => exact Nat.zero_le _
    | held =>
        obtain rfl : call = .stmt .start := hallowed
        exact absurd hlevel (Nat.lt_irrefl 0)
    | inTx n =>
        rcases hallowed with rfl | rfl | ⟨-, hn⟩
        · exact absurd hlevel (Nat.lt_irrefl 0)
        · exact absurd hlevel (Nat.lt_irrefl 0)
        · simp only [rank]
          omega
    | ending =>
        obtain rfl : call = .stmt .release := hallowed
        exact absurd hlevel (Nat.lt_irrefl 0)
    | _ => exact hallowed.elim

/-- Who acquires a connection for a transaction holds none. -/
theorem outside_of_acquire {q : HoldPhase}
    (hallowed : poolHolding.allowed q (.call (.pg (.stmt .acquire)))) : q = .outside := by
  rcases hallowed with ⟨-, hsingle⟩ | ⟨hallowed, -⟩
  · exact hsingle.elim
  · have hallowed : q.Allows (.stmt .acquire) := hallowed
    cases q with
    | outside => rfl
    | held => cases hallowed
    | inTx level =>
        rcases hallowed with heq | heq | ⟨hbody, -⟩
        · cases heq
        · cases heq
        · exact hbody.elim
    | ending => cases hallowed
    | _ => exact hallowed.elim

/-- The owner of a unique value that is not committed is further than its insertion. -/
theorem level_lt_rank {ρ : Type} {rows : List (Option ℕ × ρ)} {phase : ℕ → HoldPhase} {least : ℕ}
    (hleast : least ≤ 2)
    (hrows : ∀ x ∈ rows, ∀ c, x.1 = some c → ∃ level, phase c = .inTx level ∧ least ≤ level)
    {p : Option ℕ × ρ → Bool} (hp : ∀ x, p x = true → x.1 ≠ none) (hany : rows.any p = true) :
    ∃ j, least < (phase j).rank := by
  obtain ⟨x, hx, hpx⟩ := List.any_eq_true.mp hany
  obtain ⟨c, hc⟩ := Option.ne_none_iff_exists'.mp (hp x hpx)
  obtain ⟨level, hphase, hle⟩ := hrows x hx c hc
  refine ⟨c, ?_⟩
  rw [hphase]
  simp only [HoldPhase.rank]
  omega

/-- An execution that waits does so for one that is further. -/
theorem rank_lt_of_waits {size n i : ℕ} (hsize : 0 < size) {op : Acquiring RestOp}
    {phase : ℕ → HoldPhase} {v : Rest} (h : Held n v phase)
    (hallowed : poolHolding.allowed (phase i) op) (hwaits : waitsRest size i op v = true) :
    ∃ j, (phase i).rank < (phase j).rank := by
  have hfull (hfull : size ≤ v.holders.length) (hphase : phase i = .outside) :
      ∃ j, (phase i).rank < (phase j).rank := by
    obtain ⟨j, hj⟩ := List.exists_mem_of_length_pos (by omega : 0 < v.holders.length)
    rw [hphase]
    exact ⟨j, HoldPhase.rank_pos ((h.holders j).mp hj)⟩
  cases op with
  | acquire => exact hfull (of_decide_eq_true hwaits) hallowed
  | release => cases hwaits
  | call op =>
      cases op with
      | pg call =>
          cases call with
          | stmt s =>
              cases s with
              | acquire => exact hfull (of_decide_eq_true hwaits) (outside_of_acquire hallowed)
              | insertPlayer pseudo =>
                  obtain ⟨j, hj⟩ := level_lt_rank (by omega) h.players (fun x hx => by
                    simp only [decide_eq_true_eq] at hx
                    exact hx.2.1) hwaits
                  have hlevel : 0 < PgCall.level (.stmt (.insertPlayer pseudo)) := Nat.one_pos
                  exact ⟨j, Nat.lt_of_le_of_lt (HoldPhase.rank_le_level hallowed hlevel) hj⟩
              | _ => cases hwaits
          | insertRoom code mode status =>
              obtain ⟨j, hj⟩ := level_lt_rank (Nat.le_refl 2) h.rooms (fun x hx => by
                simp only [decide_eq_true_eq] at hx
                exact hx.2.1) hwaits
              have hlevel : 0 < PgCall.level (.insertRoom code mode status) := Nat.two_pos
              exact ⟨j, Nat.lt_of_le_of_lt (HoldPhase.rank_le_level hallowed hlevel) hj⟩
          | _ => cases hwaits
      | _ => cases hwaits

/-! ## Every interleaving -/

section Runs

variable {tables : RestTables} {size : ℕ} {s : Postgres} {execs : List RestExecution}

theorem held_start (hidle : ∀ c, s.Idle c) (execs : List RestExecution) :
    (RestPool.start s execs).Keeps poolHolding (· = .answered) (fun i => i) execs.length
      (Held execs.length) := by
  refine RestPool.keeps_start s execs (fun _ => .outside) (fun _ exec _ => poolHolding_onPool exec) ?_
  exact
    { holders := fun c => iff_of_false (by simp) fun hq => hq.1 rfl
      nodup := List.nodup_nil
      inTransaction := fun c => iff_of_false (by simp [(hidle c).inTransaction])
        (HoldPhase.not_inTx nofun)
      players := fun x hx c hown => absurd hown ((hidle c).players x hx)
      rooms := fun x hx c hown => absurd hown ((hidle c).rooms x hx)
      answered := fun i hi => by cases hi
      absent := fun _ _ => rfl }

theorem held_run (hidle : ∀ c, s.Idle c) (execs : List RestExecution) (schedule : List ℕ) :
    (schedule.foldl (RestPool.step tables size) (RestPool.start s execs)).Keeps poolHolding
      (· = .answered) (fun i => i) execs.length (Held execs.length) :=
  Pool.run_keeps (C := fun _ _ _ => True) (servePool_answers tables)
    (fun _ _ _ _ _ hi h hallowed _ _ hnext => held_servePool hi h hallowed hnext)
    (held_start hidle execs) (Runs.along_of_forall (fun _ _ _ _ => trivial) _ _)

/-- An execution that holds something has a call to make. -/
theorem next_of_rank {pool : RestPool} {phase : ℕ → HoldPhase}
    (hlength : pool.threads.length = execs.length)
    (hfollow : pool.Follow poolHolding (· = .answered) phase)
    (h : Held execs.length pool.state phase) {j : ℕ} (hj : 0 < (phase j).rank) :
    pool.next j ≠ none := by
  have hlt : j < pool.threads.length := by
    by_contra hge
    rw [h.absent j (by omega)] at hj
    exact absurd hj (Nat.lt_irrefl 0)
  obtain ⟨⟨c, p⟩, hthread⟩ : ∃ t, pool.threads[j]? = some t := ⟨_, List.getElem?_eq_getElem hlt⟩
  have hp := hfollow j c p hthread
  have hnot : phase j ≠ .answered := by
    intro hanswered
    rw [hanswered] at hj
    exact absurd hj (Nat.lt_irrefl 0)
  cases p with
  | ret u => exact absurd hp hnot
  | raise e => exact absurd hp hnot
  | call op k => simp [Pool.next, hthread]

/-- Whatever the executions, their interleaving and the connections of the pool, of
which there is one at least: as long as one of them has not ended, one of them can make
its next call; one that has ended has answered; and however they go on, they do not
do so forever. -/
theorem executions_end (tables : RestTables) (hsize : 0 < size) (hidle : ∀ c, s.Idle c)
    (execs : List RestExecution) (schedule : List ℕ) :
    let pool := schedule.foldl (RestPool.step tables size) (RestPool.start s execs)
    ((∃ i, pool.next i ≠ none) → ∃ i, pool.GoesOn (waitsRest size) i) ∧
      (∀ i < execs.length, pool.next i = none → pool.state.Answered i) ∧
        ∀ choice : ℕ → ℕ, ∃ n, ¬ (pool.chosen (waitsRest size) (servePool tables) choice n).GoesOn
          (waitsRest size) (choice n) := by
  intro pool
  obtain ⟨hlength, hlabel, phase, hfollow, hheld⟩ := held_run hidle execs schedule
  refine ⟨fun ⟨i, hi⟩ => ?_, fun i hi hended => ?_, pool.exists_not_goesOn⟩
  · refine Pool.exists_goesOn (fun i => (phase i).rank_le) (fun i c op k hthread hwaits => ?_) hi
    obtain rfl : c = i := hlabel i _ hthread
    obtain ⟨j, hj⟩ := rank_lt_of_waits hsize hheld (hfollow c c _ hthread).1 hwaits
    exact ⟨j, hj, next_of_rank hlength hfollow hheld (by omega)⟩
  · obtain ⟨⟨c, p⟩, hthread⟩ : ∃ t, pool.threads[i]? = some t :=
      ⟨_, List.getElem?_eq_getElem (hlength ▸ hi)⟩
    have hp := hfollow i c p hthread
    cases p with
    | ret u => exact hheld.answered i hp
    | raise e => exact hheld.answered i hp
    | call op k => simp [Pool.next, hthread] at hended

/-- A new player's game is being started, a player with the same pseudo waits for its
transaction with the second of two connections, and a listing for a connection. -/
theorem executions_end_waiting :
    let tables : RestTables :=
      { order := { rows := fun xs => xs, perm := fun _ => .refl _ }, createdAt := fun _ => default }
    let execs : List RestExecution := [.game (.startGame "1f2e3d4c" "ABC" .solo none),
      .player (.createOrGetPlayer "ABC"), .read (.listGames none)]
    let pool := [0, 0, 0, 0, 1, 1, 1, 1, 1, 2].foldl (RestPool.step tables 2)
      (RestPool.start { clock := fun _ => default } execs)
    ((∃ i, pool.next i ≠ none) → ∃ i, pool.GoesOn (waitsRest 2) i) ∧
      (∀ i < 3, pool.next i = none → pool.state.Answered i) ∧
        ∀ choice : ℕ → ℕ, ∃ n, ¬ (pool.chosen (waitsRest 2) (servePool tables) choice n).GoesOn
          (waitsRest 2) (choice n) :=
  executions_end _ Nat.two_pos (Postgres.idle_empty _) _ [0, 0, 0, 0, 1, 1, 1, 1, 1, 2]

end Runs

end FlipperBack
