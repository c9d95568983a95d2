import FlipperBack.System.Interleaving

/-!
# The screens of the borne

A screen that connects is added to the hub of the borne, and only then is the
borne read and its navigation sent to it. `Displays` has, beside the stores, the
clients of that hub and the last `nav:state` each screen has received, and
`screenExecutions` the sockets that are opened and closed among the executions in
flight. A broadcast to the borne is one call, which reaches every client of the
hub.
-/

namespace FlipperBack

open Effects Python

/-- The content of a `nav:state`. -/
abbrev NavState : Type := BorneNavState × Option String

/-- The calls of the application and those on the hub of the borne and on one of
its sockets. -/
inductive ScreenOp
  | app (op : Op)
  | addClient (screen : ℕ)
  | removeClient (screen : ℕ)
  | sendNavState (screen : ℕ) (state : NavState)

@[reducible] def ScreenOp.Res : ScreenOp → Type
  | app op => op.Res
  | _ => Unit

/-- Await one call. -/
abbrev awaitScreen (op : ScreenOp) : Prog Exc ScreenOp.Res op.Res := Prog.perform op

/-- `_serve_borne`, up to the messages of the screen. -/
def serveBorne (expectedBorneId borneId : String) (screen : ℕ) : Prog Exc ScreenOp.Res Unit :=
  if borneId = expectedBorneId then do
    awaitScreen (.addClient screen)
    let borne ← awaitScreen (.app (.borneGetOrCreate borneId))
    awaitScreen (.sendNavState screen (borne.nav, borne.activeSessionId))
  else
    return

/-! ## The state behind the sockets -/

structure Displays where
  world : World := {}
  clients : List ℕ := []
  lastNavState : ℕ → Option NavState := fun _ => none

namespace Displays

/-- What the stores say of the navigation of the borne. -/
def nav (d : Displays) (borneId : String) : NavState :=
  ((d.world.borne borneId).nav, (d.world.borne borneId).activeSessionId)

/-- Screens receive a `nav:state`. -/
def receive (d : Displays) (screens : List ℕ) (state : NavState) : Displays :=
  { d with lastNavState := fun s => if s ∈ screens then some state else d.lastNavState s }

end Displays

/-- The `nav:state` that a call broadcasts to the borne. -/
def Op.navState? (borneId : String) : Op → Option NavState
  | broadcastToBorne borneId' (.navState nav sessionId) =>
      if borneId' = borneId then some (nav, sessionId) else none
  | _ => none

/-- What each call answers and does, with the screens of one borne. -/
def display (borneId : String) (ctx : Context) : Handler Exc ScreenOp.Res Displays
  | .app op, d =>
      let d' := { d with world := (handle ctx op d.world).2 }
      ((handle ctx op d.world).1,
        match op.navState? borneId with
        | some state => d'.receive d.clients state
        | none => d')
  | .addClient screen, d => (.ok (), { d with clients := d.clients ++ [screen] })
  | .removeClient screen, d => (.ok (), { d with clients := d.clients.erase screen })
  | .sendNavState screen state, d => (.ok (), d.receive [screen] state)

section Display

variable {borneId : String} {c : Context} {op : Op} {d : Displays}

theorem display_app_clients : (display borneId c (.app op) d).2.clients = d.clients := by
  dsimp only [display]
  cases op.navState? borneId with
  | none => rfl
  | some state => rfl

theorem display_app_nav (h : ∀ b, op = .borneUpdate b → b.borneId ≠ borneId) :
    (display borneId c (.app op) d).2.nav borneId = d.nav borneId := by
  have hworld : (display borneId c (.app op) d).2.world = (handle c op d.world).2 := by
    dsimp only [display]
    cases op.navState? borneId with
    | none => rfl
    | some state => rfl
  rw [Displays.nav, hworld, World.borne_handle h]
  rfl

theorem display_app_lastNavState (h : op.navState? borneId = none) :
    (display borneId c (.app op) d).2.lastNavState = d.lastNavState := by
  dsimp only [display]
  rw [h]

end Display

/-! ## Executions -/

abbrev ScreenExecutions : Type := Pool Exc ScreenOp.Res Context Displays

inductive ScreenJob
  | connect (borneId : String) (screen : ℕ)
  | disconnect (screen : ℕ)
  /-- A message of a screen, another request or a countdown. -/
  | job (job : Job)

namespace ScreenJob

def program (borneId : String) : ScreenJob → Prog Exc ScreenOp.Res Unit
  | connect borneId' screen => serveBorne borneId borneId' screen
  | disconnect screen => awaitScreen (.removeClient screen)
  | job j => (j.program borneId).embed .app fun _ r => r

def context : ScreenJob → Context
  | job j => j.context
  | _ => {}

def isCountdown : ScreenJob → Bool
  | job (.countdown _ _ _) => true
  | _ => false

/-- The id that a job has drawn from `uuid4`. -/
def uuid? : ScreenJob → Option String
  | job j => j.uuid?
  | _ => none

end ScreenJob

/-- Jobs that have not made a call yet. -/
def screenExecutions (borneId : String) (d : Displays) (jobs : List ScreenJob) :
    ScreenExecutions :=
  { state := d, threads := jobs.map fun job => (job.context, job.program borneId) }

end FlipperBack
