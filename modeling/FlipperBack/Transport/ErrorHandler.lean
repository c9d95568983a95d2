import FlipperBack.Domain.Entities

/-!
# Error handlers

How the HTTP API answers an exception of a use case. A domain error has the handler of
its class; the errors of the database and of the standard library have none, and
the framework answers them with 500.
-/

namespace FlipperBack

/-- The class of a domain error. -/
def Exc.domainError : Exc → Option String
  | sessionNotFound _ => some "SessionNotFoundError"
  | playerNotFound _ => some "PlayerNotFoundError"
  | playerAlreadyExists _ => some "PlayerAlreadyExistsError"
  | roomNotFound _ => some "RoomNotFoundError"
  | gameNotFound _ => some "GameNotFoundError"
  | gameNotPlayable _ => some "GameNotPlayableError"
  | gameAlreadyFinished _ => some "GameAlreadyFinishedError"
  | invalidPseudo _ => some "InvalidPseudoError"
  | _ => none

/-- `_NOT_FOUND_EXCEPTIONS`. -/
def notFoundExceptions : List String :=
  ["PlayerNotFoundError", "RoomNotFoundError", "GameNotFoundError", "SessionNotFoundError"]

/-- `_CONFLICT_EXCEPTIONS`. -/
def conflictExceptions : List String :=
  ["PlayerAlreadyExistsError", "GameAlreadyFinishedError", "GameNotPlayableError"]

/-- `_UNPROCESSABLE_EXCEPTIONS`. -/
def unprocessableExceptions : List String :=
  ["InvalidPseudoError"]

/-- The status code of the handler that `register_error_handlers` registers for a class
of `DomainError`: its own, or that of `DomainError`. -/
def handlerStatus (name : String) : ℕ :=
  if name ∈ notFoundExceptions then 404
  else if name ∈ conflictExceptions then 409
  else if name ∈ unprocessableExceptions then 422
  else 400

/-- The status code that an exception is answered with. -/
def Exc.statusCode (e : Exc) : ℕ :=
  match e.domainError with
  | some name => handlerStatus name
  | none => 500

/-- A request is refused where it is answered with a 4xx. -/
def Exc.Refuses (e : Exc) : Prop :=
  400 ≤ e.statusCode ∧ e.statusCode < 500

theorem Exc.refuses_iff {e : Exc} : e.Refuses ↔ e.domainError.isSome := by
  unfold Refuses statusCode
  cases e <;> simp [domainError, handlerStatus, notFoundExceptions, conflictExceptions,
    unprocessableExceptions]

end FlipperBack
