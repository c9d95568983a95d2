import FlipperBack.Effects.Acquiring
import FlipperBack.Effects.Progress
import FlipperBack.UseCase.Executions
import FlipperBack.UseCase.Reads

/-!
# The REST flow on a pool of connections

The executions that use the database, those that write and those that read, each
under a number of its own. A pool of `size` connections lends one for a statement, which
has it until it has been answered, or for a transaction, until this has ended
(`RestExecution.onPool`). An execution that acquires a connection where none is free
waits, and so does one whose `INSERT` meets the value of another transaction: it keeps
its connection meanwhile.
-/

namespace FlipperBack

open Effects Python

/-- An execution that reads. -/
inductive RestRead
  | listRooms (status : Option String)
  | listGames (status : Option String)
  | joinRoom (roomCode : String)
  | roomState (roomCode : String) (eventsLimit : ℕ)
  | gameState (gameId : ℤ) (eventsLimit : ℕ)
  | player (playerId : ℤ)
  | playerByPseudo (rawPseudo : String)
  | history (playerId : ℤ) (mode : Option GameMode) (limit : ℕ)
  | leaderboard (mode : Option GameMode) (limit : ℕ)
  deriving DecidableEq

inductive RestExecution
  | game (exec : GameExecution)
  | player (exec : PlayerExecution)
  | createRoom (hex : String) (mode : GameMode)
  | read (exec : RestRead)

/-- Run a use case and return what it has read. -/
def viewing {α : Type} (view : Except Exc α → View) (p : RestProg α) : RestProg Unit := do
  let r ← p.attempt
  rest (.view (view r))

def RestRead.prog : RestRead → RestProg Unit
  | listRooms status => viewing .rooms (ListRooms.execute status)
  | listGames status => viewing .games (ListGames.execute status)
  | joinRoom roomCode => viewing .joined (JoinRoom.execute roomCode)
  | roomState roomCode eventsLimit => viewing .roomState (GetRoomState.execute roomCode eventsLimit)
  | gameState gameId eventsLimit => viewing .gameState (GetGameState.execute gameId eventsLimit)
  | player playerId => viewing .player (GetPlayer.executeById playerId)
  | playerByPseudo rawPseudo => viewing .player (GetPlayer.executeByPseudo rawPseudo)
  | history playerId mode limit =>
      viewing .history (GetPlayerHistory.executeOnPool playerId mode limit)
  | leaderboard mode limit => viewing .leaderboard (GetLeaderboard.execute mode limit)

def RestExecution.prog : RestExecution → RestProg Unit
  | game exec => onPg exec.prog
  | player exec => onPg exec.prog
  | createRoom hex mode => viewing .created (CreateRoom.execute hex mode)
  | read exec => exec.prog

/-! ## The calls of the executions that read -/

/-- The call is a query. -/
def RestOp.Selects : RestOp → Prop
  | pg (.selectPlayer _) => True
  | pg (.selectRoom _) => True
  | pg (.selectGame _) => True
  | pg _ => False
  | view _ => False
  | _ => True

theorem gamesOfEach_selects (statuses : List GameStatus) :
    (gamesOfEach statuses).All RestOp.Selects := by
  induction statuses with
  | nil => trivial
  | cons status statuses ih =>
      exact Prog.All.bind ((Prog.all_perform _ _).mpr trivial) fun _ =>
        Prog.All.bind ih fun _ => trivial

theorem roomsOfEach_selects (statuses : List RoomStatus) :
    (roomsOfEach statuses).All RestOp.Selects := by
  induction statuses with
  | nil => trivial
  | cons status statuses ih =>
      exact Prog.All.bind ((Prog.all_perform _ _).mpr trivial) fun _ =>
        Prog.All.bind ih fun _ => trivial

theorem eventsOfEach_selects (limit : ℕ) (games : List GameRow) :
    (eventsOfEach limit games).All RestOp.Selects := by
  induction games with
  | nil => trivial
  | cons game games ih =>
      exact Prog.All.bind ((Prog.all_perform _ _).mpr trivial) fun _ =>
        Prog.All.bind ih fun _ => trivial

theorem listRooms_selects (status : Option String) :
    (ListRooms.execute status).All RestOp.Selects := by
  unfold ListRooms.execute
  dsimp only
  split
  · exact roomsOfEach_selects _
  · split
    · exact (Prog.all_perform _ _).mpr trivial
    · trivial

theorem listGames_selects (status : Option String) :
    (ListGames.execute status).All RestOp.Selects := by
  unfold ListGames.execute
  dsimp only
  split
  · exact gamesOfEach_selects _
  · split
    · exact (Prog.all_perform _ _).mpr trivial
    · trivial

/-- An execution that reads makes queries and returns what it has read. -/
theorem RestRead.prog_viewing (exec : RestRead) :
    ∃ (α : Type) (view : Except Exc α → View) (p : RestProg α),
      exec.prog = viewing view p ∧ p.All RestOp.Selects := by
  have hcall (op : RestOp) (hop : op.Selects) : (rest op).All RestOp.Selects :=
    (Prog.all_perform _ _).mpr hop
  have hpg (call : PgCall) (hcall : (RestOp.pg call).Selects) : (onPg (pg call)).All RestOp.Selects :=
    Prog.All.embed (P := fun call => (RestOp.pg call).Selects) (Q := RestOp.Selects) (f := RestOp.pg)
      (g := fun _ r => r) (fun _ hop => hop) ((Prog.all_perform _ _).mpr hcall)
  cases exec with
  | listRooms status => exact ⟨_, _, _, rfl, listRooms_selects status⟩
  | listGames status => exact ⟨_, _, _, rfl, listGames_selects status⟩
  | joinRoom roomCode =>
      refine ⟨_, _, _, rfl, Prog.All.bind (hpg (.selectRoom _) trivial) fun found => ?_⟩
      cases found with
      | none => trivial
      | some room => exact Prog.All.bind (hcall _ trivial) fun _ => trivial
  | roomState roomCode eventsLimit =>
      refine ⟨_, _, _, rfl, Prog.All.bind (hpg (.selectRoom _) trivial) fun found => ?_⟩
      cases found with
      | none => trivial
      | some room =>
          exact Prog.All.bind (hcall _ trivial) fun games =>
            Prog.All.bind (eventsOfEach_selects eventsLimit games) fun _ => trivial
  | gameState gameId eventsLimit =>
      refine ⟨_, _, _, rfl, Prog.All.bind (hpg (.selectGame _) trivial) fun found => ?_⟩
      cases found with
      | none => trivial
      | some game => exact Prog.All.bind (hcall _ trivial) fun _ => trivial
  | player playerId =>
      refine ⟨_, _, _, rfl, Prog.All.bind (hcall _ trivial) fun found => ?_⟩
      cases found <;> trivial
  | playerByPseudo rawPseudo =>
      refine ⟨_, _, _, rfl, Prog.All.bind (Prog.all_ofExcept _ _) fun pseudo => ?_⟩
      refine Prog.All.bind (hpg (.selectPlayer pseudo) trivial) fun found => ?_
      cases found <;> trivial
  | history playerId mode limit =>
      refine ⟨_, _, _, rfl, Prog.All.bind (hcall _ trivial) fun found => ?_⟩
      cases found with
      | none => trivial
      | some player =>
          exact Prog.All.bind (hcall _ trivial) fun games =>
            Prog.All.bind (hcall _ trivial) fun _ => trivial
  | leaderboard mode limit => exact ⟨_, _, _, rfl, hcall _ trivial⟩

/-! ## The pool of connections -/

/-- Whether a call is made on a connection. -/
def RestOp.connects : RestOp → Bool
  | pg (.stmt .acquire) => false
  | pg (.respond _) => false
  | view _ => false
  | _ => true

/-- Whether an execution has a connection after a call, where `held` says whether it had
one before. -/
def RestOp.connected (held : Bool) : RestOp → Bool
  | pg (.stmt .acquire) => true
  | pg (.stmt .release) => false
  | _ => held

/-- The program of an execution whose repositories are on the pool or, in a unit of
work, on its connection: `acquire` of `_executor.py`. -/
def RestExecution.onPool (exec : RestExecution) : Prog Exc (Acquiring.Res RestOp.Res) Unit :=
  exec.prog.acquiring RestOp.connects RestOp.connected false

/-- What each call of the execution `c` answers and does. The connection of a
statement is in no transaction, so its release has nothing to roll back. -/
abbrev servePool (tables : RestTables) : ℕ → Handler Exc (Acquiring.Res RestOp.Res) Rest :=
  acquiringHandler (serveRest tables) (fun c v => { v with holders := c :: v.holders })
    fun c v => { v with holders := v.holders.erase c }

/-- Whether a call of the execution `c` waits: for a connection of the pool, or for
the end of the transaction of another one. -/
def waitsRest (size c : ℕ) (op : Acquiring RestOp) (v : Rest) : Bool :=
  match op with
  | .acquire => decide (size ≤ v.holders.length)
  | .call (.pg (.stmt .acquire)) => decide (size ≤ v.holders.length)
  | .call (.pg call) => waits c call v.server
  | _ => false

/-- Executions on the server, the execution `i` under the number `i`. -/
abbrev RestPool : Type := Pool Exc (Acquiring.Res RestOp.Res) ℕ Rest

namespace RestPool

/-- The executions before they have made any call. -/
def start (s : Postgres) (execs : List RestExecution) : RestPool where
  state := { server := { pg := s } }
  threads := execs.mapIdx fun i exec => (i, exec.onPool)

/-- The execution `i` makes its next call, if it has one that need not wait. -/
abbrev step (tables : RestTables) (size : ℕ) : RestPool → ℕ → RestPool :=
  Pool.tryStep (waitsRest size) (servePool tables)

theorem thread_start (s : Postgres) (execs : List RestExecution) (i : ℕ) :
    (start s execs).threads[i]? = execs[i]?.map fun exec => (i, exec.onPool) :=
  List.getElem?_mapIdx

/-- The executions follow a protocol where each of their programs does. -/
theorem keeps_start {φ : Type} {P : Protocol Exc (Acquiring.Res RestOp.Res) φ} {F : φ → Prop}
    {I : Rest → (ℕ → φ) → Prop} (s : Postgres) (execs : List RestExecution) (phase : ℕ → φ)
    (hprogs : ∀ (i : ℕ) (exec : RestExecution), execs[i]? = some exec →
      exec.onPool.Follows P F F (phase i))
    (hI : I { server := { pg := s } } phase) :
    (start s execs).Keeps P F (fun i => i) execs.length I := by
  refine ⟨List.length_mapIdx, fun i t ht => ?_, phase, fun i c p ht => ?_, hI⟩
  · rw [thread_start] at ht
    obtain ⟨exec, -, rfl⟩ := Option.map_eq_some_iff.mp ht
    rfl
  · rw [thread_start] at ht
    obtain ⟨exec, hexec, heq⟩ := Option.map_eq_some_iff.mp ht
    obtain ⟨-, rfl⟩ := Prod.mk.inj heq
    exact hprogs i exec hexec

end RestPool

end FlipperBack
