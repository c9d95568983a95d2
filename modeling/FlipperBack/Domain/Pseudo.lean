import FlipperBack.Domain.Entities

/-!
# Pseudos

A pseudo is three alphanumeric characters, in upper case. The pattern is
checked after the text has been stripped and upper-cased.
-/

namespace FlipperBack

open Python

/-- One character of the pattern `[A-Z0-9]`. -/
def pseudoChar (c : Char) : Bool :=
  ('A' ≤ c && c ≤ 'Z') || ('0' ≤ c && c ≤ '9')

/-- `_PATTERN.fullmatch`: exactly three characters of the pattern. -/
def pseudoPattern (s : String) : Bool :=
  s.toList.length == 3 && s.toList.all pseudoChar

/-- Upper-case and validate a pseudo. -/
def normalizeAndValidate (raw : String) : Except Exc String :=
  if raw = "" then
    .error (.invalidPseudo .empty)
  else if pseudoPattern (upper (strip raw)) then
    .ok (upper (strip raw))
  else
    .error (.invalidPseudo (.badFormat raw))

example : normalizeAndValidate " ab1 " = .ok "AB1" := by decide

end FlipperBack
