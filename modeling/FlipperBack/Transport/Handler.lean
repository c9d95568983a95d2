import FlipperBack.UseCase.Borne

/-!
# Messages on the socket of the borne

`_handle_borne_intent` parses the text of a message and routes it to the
navigation, to the match commands or to the relay. What `json.loads` makes of the
text is the argument of `handleBorneIntent`: a value, the error the handler
catches, or another exception.
-/

namespace FlipperBack

open Effects Python

/-- What `json.loads` raises: `JSONDecodeError`, or what is no decoding error,
such as the `ValueError` of an integer with too many digits and the
`RecursionError` of a value nested too deep. -/
inductive LoadsError
  | jsonDecodeError
  | other (e : Exc)

/-- The commands of a match and their types. -/
def matchCommands : List (String × MatchCommand) :=
  [("cmd:pause", .pause), ("cmd:resume", .resume), ("cmd:abandon", .abandon)]

/-- `_handle_borne_intent`. -/
def handleBorneIntent (uuid : String) (clock : Clock) (borneId : String)
    (raw : Except LoadsError Json) : UseCase Unit :=
  match raw with
  | .error .jsonDecodeError => return
  | .error (.other e) => throw e
  | .ok (.obj payload) =>
      match Dict.get payload "type" with
      | some (.str type) =>
          if type = "intent" then
            match Dict.get payload "action" with
            | some (.str action) =>
                applyIntent uuid clock.now borneId action ((Dict.get payload "payload").getD .null)
            | _ => return
          else
            match matchCommands.lookup type with
            | some command => handleMatchCommand borneId command
            | none =>
                if type = "borne:relay" then
                  match Dict.get payload "event" with
                  | some (.obj event) => relayEvent clock borneId event
                  | _ => return
                else
                  return
      | _ => return
  | .ok _ => return

end FlipperBack
