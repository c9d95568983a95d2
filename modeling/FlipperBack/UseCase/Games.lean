import FlipperBack.Domain.Pseudo
import FlipperBack.Infrastructure.PgRepositories

/-!
# Use cases of the REST flow

Players and games over HTTP. `StartGame` writes four tables in a unit of work;
`AddGameEvent` and `FinishGame` have their repositories on the pool, so that each
of their calls commits by itself.
-/

namespace FlipperBack

open Effects Python

/-- `CreateOrGetPlayerUseCase.execute`. -/
def CreateOrGetPlayer.execute (rawPseudo : String) : PgProg Player := do
  let pseudo ← Prog.ofExcept (normalizeAndValidate rawPseudo)
  match ← PgPlayerRepository.getByPseudo pseudo with
  | some existing => return existing
  | none =>
      tryCatch (PgPlayerRepository.create pseudo) fun e =>
        match e with
        | .playerAlreadyExists _ => do
            -- Another caller has inserted the pseudo in between.
            match ← PgPlayerRepository.getByPseudo pseudo with
            | some recovered => return recovered
            | none => throw (.playerNotFound
                s!"Player '{pseudo}' reported as duplicate but cannot be re-fetched")
        | e => throw e

/-- What is looked up and inserted is a value of its column. -/
theorem isVarchar_of_normalize {raw pseudo : String}
    (hraw : normalizeAndValidate raw = .ok pseudo) : isVarchar 50 pseudo = true := by
  unfold normalizeAndValidate at hraw
  split at hraw
  · cases hraw
  · split at hraw
    · next hpattern =>
        obtain rfl := Except.ok.inj hraw
        unfold pseudoPattern at hpattern
        rw [Bool.and_eq_true, beq_iff_eq, List.all_eq_true] at hpattern
        obtain ⟨hlength, hchars⟩ := hpattern
        have htext : fitsText (upper (strip raw)) = true := by
          refine List.all_eq_true.mpr fun c hc => ?_
          refine decide_eq_true fun hnul => ?_
          have hchar := hchars c hc
          rw [hnul] at hchar
          exact absurd hchar (by decide)
        rw [isVarchar, htext, hlength]
        rfl
    · cases hraw

/-- The room of a new game: the one of the code that is given, or a new one. -/
def startRoom (hex : String) (mode : GameMode) (roomCode : Option String) : PgProg RoomRow :=
  let code := roomCode.getD ""
  if code = "" then PgRoomRepository.create hex mode
  else do
    match ← PgRoomRepository.getByCode code with
    | some room => return room
    | none => throw (.roomNotFound s!"Room avec code '{code}' n'existe pas")

/-- The player of a new game: the one of the pseudo, or a new one. -/
def startPlayer (pseudo : String) : PgProg Player := do
  match ← PgPlayerRepository.getByPseudo pseudo with
  | some player => return player
  | none => PgPlayerRepository.create pseudo

/-- `StartGameUseCase.execute`, with the digits of the `uuid4` of a new room. -/
def StartGame.execute (hex pseudo : String) (mode : GameMode) (roomCode : Option String) :
    PgProg Started :=
  unitOfWork do
    let player ← startPlayer pseudo
    let room ← startRoom hex mode roomCode
    let game ← PgGameRepository.create player.id (some room.id) mode
    let event ← PgGameEventRepository.create game.id .gameStarted 0
    return { player, room, game, event }

/-- The text of a status in a message. -/
def GameStatus.text : GameStatus → String
  | playing => "GameStatus.PLAYING"
  | finished => "GameStatus.FINISHED"

/-- `AddGameEventUseCase.execute`. -/
def AddGameEvent.execute (gameId : ℤ) (type : GameEventType) (points : ℤ) :
    PgProg (GameRow × GameEventRow) := do
  match ← PgGameRepository.getById gameId with
  | none => throw (.gameNotFound s!"Game avec ID '{gameId}' n'existe pas")
  | some game =>
      if game.status ≠ .playing then
        throw (.gameNotPlayable
          s!"Impossible d'ajouter un événement à une game en état {game.status.text}")
      else
        let event ← PgGameEventRepository.create gameId type points
        if 0 < points then
          let game ← PgGameRepository.addPoints gameId points
          return (game, event)
        else
          return (game, event)

/-- `FinishGameUseCase.execute`. -/
def FinishGame.execute (gameId : ℤ) : PgProg (GameRow × GameEventRow) := do
  match ← PgGameRepository.getById gameId with
  | none => throw (.gameNotFound s!"Game avec ID '{gameId}' n'existe pas")
  | some game =>
      if game.status ≠ .playing then
        throw (.gameAlreadyFinished
          s!"Impossible de finir une game en état {game.status.text}")
      else
        let game ← PgGameRepository.finish gameId
        let event ← PgGameEventRepository.create gameId .gameOver 0
        return (game, event)

/-! ## The calls of a game that starts -/

/-- What `StartGame` does in its unit of work. -/
def startBody (hex pseudo : String) (mode : GameMode) (roomCode : Option String) :
    PgProg Started := do
  let player ← startPlayer pseudo
  let room ← startRoom hex mode roomCode
  let game ← PgGameRepository.create player.id (some room.id) mode
  let event ← PgGameEventRepository.create game.id .gameStarted 0
  return { player, room, game, event }

/-- A game is inserted without points, and so is its first event. -/
def PgCall.OfStart : PgCall → Prop
  | stmt (.insertPlayer _) => True
  | selectPlayer _ => True
  | selectRoom _ => True
  | insertRoom _ _ _ => True
  | insertGame _ _ _ score status => score = 0 ∧ status = .playing
  | insertGameEvent _ type points => type = .gameStarted ∧ points = 0
  | _ => False

theorem createPlayer_all {C : PgCall → Prop} {pseudo : String}
    (hinsert : C (.stmt (.insertPlayer pseudo))) : (PgPlayerRepository.create pseudo).All C := by
  refine Prog.All.tryCatch (Prog.All.bind ((Prog.all_perform _ _).mpr hinsert) ?_) ?_
  · exact fun _ => trivial
  · intro e
    split <;> trivial

theorem createOrGetPlayer_all {C : PgCall → Prop} {raw : String}
    (hselect : ∀ pseudo, normalizeAndValidate raw = .ok pseudo → C (.selectPlayer pseudo))
    (hinsert : ∀ pseudo, normalizeAndValidate raw = .ok pseudo →
      C (.stmt (.insertPlayer pseudo))) : (CreateOrGetPlayer.execute raw).All C := by
  rw [CreateOrGetPlayer.execute]
  cases hraw : normalizeAndValidate raw with
  | error e => trivial
  | ok pseudo =>
      have hlook : (PgPlayerRepository.getByPseudo pseudo).All C :=
        (Prog.all_perform _ _).mpr (hselect pseudo hraw)
      refine hlook.bind fun found => ?_
      cases found with
      | some player => trivial
      | none =>
          refine Prog.All.tryCatch (createPlayer_all (hinsert pseudo hraw)) fun e => ?_
          split
          · refine hlook.bind fun found => ?_
            cases found <;> trivial
          · trivial

theorem startPlayer_all {C : PgCall → Prop} {pseudo : String} (hselect : C (.selectPlayer pseudo))
    (hinsert : C (.stmt (.insertPlayer pseudo))) : (startPlayer pseudo).All C := by
  refine Prog.All.bind ((Prog.all_perform _ _).mpr hselect) fun found => ?_
  cases found with
  | some player => trivial
  | none => exact createPlayer_all hinsert

theorem startPlayer_calls (pseudo : String) : (startPlayer pseudo).All PgCall.OfStart :=
  startPlayer_all trivial trivial

theorem startRoom_all {C : PgCall → Prop} {mode : GameMode} (hselect : ∀ code, C (.selectRoom code))
    (hinsert : ∀ code, C (.insertRoom code mode .waiting)) (hex : String)
    (roomCode : Option String) : (startRoom hex mode roomCode).All C := by
  unfold startRoom
  dsimp only
  split
  · exact (Prog.all_perform _ _).mpr (hinsert _)
  · refine Prog.All.bind ((Prog.all_perform _ _).mpr (hselect _)) fun found => ?_
    cases found <;> trivial

theorem startRoom_calls (hex : String) (mode : GameMode) (roomCode : Option String) :
    (startRoom hex mode roomCode).All PgCall.OfStart :=
  startRoom_all (fun _ => trivial) (fun _ => trivial) hex roomCode

theorem startBody_calls (hex pseudo : String) (mode : GameMode) (roomCode : Option String) :
    (startBody hex pseudo mode roomCode).All PgCall.OfStart := by
  refine (startPlayer_calls pseudo).bind fun player => ?_
  refine (startRoom_calls hex mode roomCode).bind fun room => ?_
  refine Prog.All.bind ((Prog.all_perform _ _).mpr ⟨rfl, rfl⟩) fun game => ?_
  exact Prog.All.bind ((Prog.all_perform _ _).mpr ⟨rfl, rfl⟩) fun event => trivial

end FlipperBack
