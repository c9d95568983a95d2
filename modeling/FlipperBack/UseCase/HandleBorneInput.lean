import FlipperBack.Domain.Ports

/-!
# Physical inputs of the borne

Buttons and plunger are relayed to the three screens as they are pressed and
released. A navigation button counts when it is pressed only.
-/

namespace FlipperBack

open Effects Python

/-- `_BUTTON_MAP`. -/
def buttonMap : List (String × String × String) :=
  [("L1", "flipper", "left"), ("R2", "flipper", "right"), ("L2", "nav", "left"),
    ("R1", "nav", "right"), ("top", "nav", "confirm"), ("bottom", "nav", "back"),
    ("middle", "nav", "help")]

/-- `value == n` in Python. -/
def equalsInt (n : Int) : Json → Bool
  | .bool b => (if b then 1 else 0) == n
  | .int m => m == n
  | .float (.finite q) => q == n
  | _ => false

/-- The value of `payload.get("state")` where it is in `(0, 1)`: whether it
is 1. -/
def inputState (payload : Dict) : Option Bool :=
  match payload.get "state" with
  | none => none
  | some state =>
      if equalsInt 0 state then some false
      else if equalsInt 1 state then some true
      else none

/-- `_handle_button`. -/
def handleButton (borneId : String) (payload : Dict) : UseCase Unit :=
  match payload.get "id" with
  | some (.str buttonId) =>
      match buttonMap.lookup buttonId, inputState payload with
      | some (kind, value), some pressed =>
          if kind = "nav" then
            if pressed then await (.broadcastToBorne borneId (.controlNav value)) else return
          else
            await (.broadcastToBorne borneId
              (.controlFlipper value (if pressed then "press" else "release")))
      | _, _ => return
  | _ => return

/-- `_handle_plunger`. -/
def handlePlunger (borneId : String) (payload : Dict) : UseCase Unit :=
  match inputState payload with
  | some pressed =>
      await (.broadcastToBorne borneId (.controlPlunger (if pressed then "charge" else "release")))
  | none => return

/-- `HandleBorneInputUseCase.handle`. -/
def handleBorneInput (borneId : String) (topic : String) (payload : Dict) : UseCase Unit :=
  if "/plunger".toList.isSuffixOf topic.toList then
    handlePlunger borneId payload
  else if "/button".toList.isSuffixOf topic.toList then
    handleButton borneId payload
  else
    return

end FlipperBack
