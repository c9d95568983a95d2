import FlipperBack.Effects.Waiting
import FlipperBack.UseCase.Games

/-!
# Executions side by side

Executions of the use cases run at once, each on a connection of its own, and
take turns call by call: a schedule says who makes the next one. An execution
whose call waits for a transaction of another one makes no step. Each ends by
responding with its outcome.
-/

namespace FlipperBack

open Effects Python

/-- Run a use case and respond with its outcome. -/
def answering {α : Type} (response : Except Exc α → Response) (p : PgProg α) : PgProg Unit := do
  let r ← p.attempt
  pg (.respond (response r))

theorem answering_all {α : Type} {C : PgCall → Prop} {response : Except Exc α → Response}
    {p : PgProg α} (hp : p.All C) (hrespond : ∀ r, C (.respond (response r))) :
    (answering response p).All C :=
  hp.attempt.bind fun r => (Prog.all_perform _ _).mpr (hrespond r)

/-- A use case ends in the phases that its responses lead to. -/
theorem answering_follows {α φ : Type} {P : Protocol Exc PgCall.Res φ} {F G E : φ → Prop} {q : φ}
    {response : Except Exc α → Response} {p : PgProg α} (hp : p.Follows P G E q)
    (hok : ∀ q a, G q → Prog.Follows P F F q (pg (.respond (response (.ok a)))))
    (herror : ∀ q e, E q → Prog.Follows P F F q (pg (.respond (response (.error e))))) :
    (answering response p).Follows P F F q :=
  hp.attempt_bind hok herror

/-- A use case that ends in the phase it started in does so with its response. -/
theorem answering_rests {α φ : Type} {P : Protocol Exc PgCall.Res φ} {q : φ}
    {response : Except Exc α → Response} {p : PgProg α} (hp : Prog.Rests P q p)
    (hrespond : ∀ r, P.Leaves q (.respond (response r))) : Prog.Rests P q (answering response p) :=
  Prog.Rests.bind (Prog.Rests.attempt hp) fun r => Prog.Rests.perform (hrespond r)

/-- An execution of the REST flow of games. -/
inductive GameExecution
  | startGame (hex pseudo : String) (mode : GameMode) (roomCode : Option String)
  | addGameEvent (gameId : ℤ) (type : GameEventType) (points : ℤ)
  | finishGame (gameId : ℤ)
  deriving DecidableEq

def GameExecution.prog : GameExecution → PgProg Unit
  | startGame hex pseudo mode roomCode =>
      answering .started (StartGame.execute hex pseudo mode roomCode)
  | addGameEvent gameId type points => answering .added (AddGameEvent.execute gameId type points)
  | finishGame gameId => answering .finished (FinishGame.execute gameId)

/-- An execution on a game that is there, of `AddGameEvent` or `FinishGame`. -/
def GameExecution.OnGame : GameExecution → Prop
  | startGame _ _ _ _ => False
  | _ => True

/-- An execution that stores a player where there is none. -/
inductive PlayerExecution
  | createOrGetPlayer (rawPseudo : String)
  | persistFinishedSession (utcnow : DateTime) (s : FinishedSession)

def PlayerExecution.prog : PlayerExecution → PgProg Unit
  | createOrGetPlayer rawPseudo => answering .player (CreateOrGetPlayer.execute rawPseudo)
  | persistFinishedSession utcnow s =>
      answering .persisted
        ((FlipperBack.persistFinishedSession utcnow s).embed .stmt fun _ r => r)

/-- Executions on the server, the execution `i` on the connection `i`. -/
abbrev PgPool : Type := Pool Exc PgCall.Res ℕ Server

namespace PgPool

/-- The executions before they have made any call. -/
def start (s : Postgres) (progs : List (PgProg Unit)) : PgPool where
  state := { pg := s }
  threads := progs.mapIdx Prod.mk

theorem thread_start (s : Postgres) (progs : List (PgProg Unit)) (i : ℕ) :
    (start s progs).threads[i]? = progs[i]?.map fun p => (i, p) :=
  List.getElem?_mapIdx

/-- The execution `i` makes its next call, if it has one that need not wait. -/
abbrev step : PgPool → ℕ → PgPool :=
  Pool.tryStep waits serve

/-- The executions follow a protocol where each of the programs does. -/
theorem keeps_start {φ : Type} {P : Protocol Exc PgCall.Res φ} {F : φ → Prop}
    {I : Server → (ℕ → φ) → Prop} (s : Postgres) {progs : List (PgProg Unit)} {n : ℕ}
    (hlength : progs.length = n) (phase : ℕ → φ)
    (hprogs : ∀ (i : ℕ) (p : PgProg Unit), progs[i]? = some p → p.Follows P F F (phase i))
    (hI : I { pg := s } phase) : (start s progs).Keeps P F (fun i => i) n I := by
  refine ⟨List.length_mapIdx.trans hlength, fun i t ht => ?_, phase, fun i c p ht => ?_, hI⟩
  · rw [thread_start] at ht
    obtain ⟨p, -, rfl⟩ := Option.map_eq_some_iff.mp ht
    rfl
  · rw [thread_start] at ht
    obtain ⟨p', hp', heq⟩ := Option.map_eq_some_iff.mp ht
    obtain ⟨-, rfl⟩ := Prod.mk.inj heq
    exact hprogs i p' hp'

end PgPool

end FlipperBack
