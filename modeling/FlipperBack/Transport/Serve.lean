import FlipperBack.Infrastructure.Hub
import FlipperBack.Infrastructure.Postgres
import FlipperBack.System.Step
import FlipperBack.Transport.Handler

/-!
# The coroutines that serve the sockets

`_serve_borne`, `_serve_session` and `_serve_room` each open the socket, add it to
a hub, and then receive and handle frames inside a `try` until it is closed. They
are an `Endpoint`, run by one loop. `Sockets` has the coroutine of each socket, the
hubs, and whatever else there is, which a handler of the calls stands for; a step
is one call of one coroutine, or what it does between two of them.
-/

namespace FlipperBack

open Effects Python

/-- What a coroutine can raise: `WebSocketDisconnect`, or another exception. -/
inductive SocketExc
  | disconnect
  | exc (e : Exc)
  deriving DecidableEq, Repr

/-- The calls of the coroutine of a socket. The answer to a call of a use case is what
the use case sees of it. -/
inductive SocketOp
  | app (op : Op)
  | roomByCode (code : String)
  | accept
  | close
  | receiveText
  | sendNavState (nav : BorneNavState) (sessionId : Option String)
  /-- `di.get_event_buffer()`, `di.get_game_repo()` and `di.get_player_repo()`. -/
  | dependencies

@[reducible] def SocketOp.Res : SocketOp → Type
  | app op => Except Exc op.Res
  | roomByCode _ => Option RoomRow
  | receiveText => String
  | _ => Unit

abbrev SocketProg (α : Type) : Type := Prog SocketExc SocketOp.Res α

/-- Await one call. -/
abbrev socket (op : SocketOp) : SocketProg op.Res := Prog.perform op

/-- A use case inside a coroutine. -/
def useCase {α : Type} : UseCase α → SocketProg α
  | .ret a => .ret a
  | .raise e => .raise (.exc e)
  | .call op k => .call (.app op) fun r =>
      match r with
      | .ok answer => useCase (k answer)
      | .error e => .raise e

/-! ## The three endpoints -/

/-- `_handle_session_command`. -/
def handleSessionCommand (sessionId : String) (raw : Except LoadsError Json) : UseCase Unit :=
  match raw with
  | .error .jsonDecodeError => return
  | .error (.other e) => throw e
  | .ok (.obj payload) =>
      match Dict.get payload "type" with
      | some (.str type) =>
          match matchCommands.lookup type with
          | some command => sessionCommand [.session] command sessionId
          | none => return
      | _ => return
  | .ok _ => return

/-- The hub that a socket is added to. -/
inductive Channel
  | borne (borneId : String)
  | session (sessionId : String)
  | room (roomCode : String)
  deriving DecidableEq, Repr

/-- `json.loads`, and what a frame draws from outside. -/
structure Draws where
  loads : String → Except LoadsError Json
  clock : Clock := default
  uuid : String := ""

/-- What serves the sockets of a channel: the opening says whether the socket has been
accepted, the snapshot comes between `add_client` and the `try`. -/
structure Endpoint where
  opening : SocketProg Bool
  snapshot : SocketProg Unit
  handleFrame : Draws → String → SocketProg Unit

/-- `_serve_borne`. -/
def serveBorneSocket (expectedBorneId borneId : String) : Endpoint where
  opening := do
    if borneId ≠ expectedBorneId then
      socket .close
      return false
    else
      socket .accept
      return true
  snapshot := do
    let borne ← useCase (await (.borneGetOrCreate borneId))
    socket (.sendNavState borne.nav borne.activeSessionId)
    socket .dependencies
  handleFrame draws raw :=
    useCase (handleBorneIntent draws.uuid draws.clock borneId (draws.loads raw))

/-- `_serve_session`. -/
def serveSessionSocket (sessionId : String) : Endpoint where
  opening := do
    match ← useCase (await (.sessionGet sessionId)) with
    | none =>
        socket .close
        return false
    | some _ =>
        socket .accept
        return true
  snapshot := return
  handleFrame draws raw := useCase (handleSessionCommand sessionId (draws.loads raw))

/-- `_serve_room`. -/
def serveRoomSocket (roomCode : String) : Endpoint where
  opening := do
    match ← socket (.roomByCode roomCode) with
    | none =>
        socket .close
        return false
    | some _ =>
        socket .accept
        return true
  snapshot := return
  handleFrame _ _ := return

/-- The coroutine that `websocket_subscribe` chooses. -/
def Channel.endpoint (expectedBorneId : String) : Channel → Endpoint
  | borne borneId => serveBorneSocket expectedBorneId borneId
  | session sessionId => serveSessionSocket sessionId
  | room roomCode => serveRoomSocket roomCode

/-! ## The loop -/

/-- Where the coroutine of a socket is, with what it has yet to run there. -/
inductive Serving
  | opening (p : SocketProg Bool)
  | snapshot (p : SocketProg Unit)
  | receiving
  | handling (p : SocketProg Unit)
  | ended (e : Option SocketExc)

/-- The coroutine has not ended. -/
def Serving.running : Serving → Bool
  | ended _ => false
  | _ => true

structure Sockets (σ : Type) where
  served : List (Channel × Serving)
  hubs : Channel → ClientHub ℕ Dict := fun _ => {}
  rest : σ

namespace Sockets

variable {σ : Type}

/-- The coroutine of a socket goes on at `serving`. -/
def put (s : Sockets σ) (i : ℕ) (channel : Channel) (serving : Serving) : Sockets σ :=
  { s with served := s.served.set i (channel, serving) }

/-- It has awaited a call. -/
def answered {α : Type} (s : Sockets σ) (i : ℕ) (channel : Channel) (r : α × σ)
    (serving : α → Serving) : Sockets σ :=
  { s.put i channel (serving r.1) with rest := r.2 }

/-- `hub.add_client(websocket)`. -/
def addClient (s : Sockets σ) (i : ℕ) (channel : Channel) : Sockets σ :=
  { s with hubs := Function.update s.hubs channel ((s.hubs channel).addClient i) }

/-- `hub.remove_client(websocket)`. -/
def removeClient (s : Sockets σ) (i : ℕ) (channel : Channel) : Sockets σ :=
  { s with hubs := Function.update s.hubs channel ((s.hubs channel).removeClient i) }

/-- One step of the coroutine of the socket `i`. -/
def step (expectedBorneId : String) (h : Handler SocketExc SocketOp.Res σ) (s : Sockets σ)
    (a : ℕ × Draws) : Sockets σ :=
  match s.served[a.1]? with
  | none => s
  | some (channel, serving) =>
      match serving with
      | .opening (.ret true) =>
          (s.addClient a.1 channel).put a.1 channel
            (.snapshot (channel.endpoint expectedBorneId).snapshot)
      | .opening (.ret false) => s.put a.1 channel (.ended none)
      | .opening (.raise e) => s.put a.1 channel (.ended (some e))
      | .opening (.call op k) => s.answered a.1 channel (h op s.rest) fun r => .opening (k r)
      | .snapshot (.ret _) => s.put a.1 channel .receiving
      | .snapshot (.raise e) => s.put a.1 channel (.ended (some e))
      | .snapshot (.call op k) => s.answered a.1 channel (h op s.rest) fun r => .snapshot (k r)
      | .receiving =>
          s.answered a.1 channel (h .receiveText s.rest) fun r =>
            .handling (Prog.ofExcept r >>= (channel.endpoint expectedBorneId).handleFrame a.2)
      | .handling (.ret _) => s.put a.1 channel .receiving
      -- The `except WebSocketDisconnect` of the loop.
      | .handling (.raise .disconnect) => (s.removeClient a.1 channel).put a.1 channel (.ended none)
      | .handling (.raise (.exc e)) => s.put a.1 channel (.ended (some (.exc e)))
      | .handling (.call op k) => s.answered a.1 channel (h op s.rest) fun r => .handling (k r)
      | .ended _ => s

/-- Sockets that have just been connected. -/
def connected (expectedBorneId : String) (channels : List Channel) (rest : σ) : Sockets σ where
  served := channels.map fun channel =>
    (channel, .opening (channel.endpoint expectedBorneId).opening)
  rest := rest

end Sockets

end FlipperBack
