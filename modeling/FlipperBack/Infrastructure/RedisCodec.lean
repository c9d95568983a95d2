import FlipperBack.Domain.Entities

/-!
# Redis hashes of sessions and bornes

Redis keeps strings only. `Session.toHash` and `Borne.toHash` are the fields
written by `HSET`, `fromHash` is the reading of `HGETALL`; `readBack` is what one
gets of the value last written, without the strings: an empty text stands for
`None`, and a score that is a boolean is written as a word and cannot be read. A
session with an integer of too many digits for `str` is not written at all.
-/

namespace FlipperBack

open Python

/-- The fields of a Redis hash. -/
abbrev Hash : Type := List (String × String)

namespace Hash

/-- `data[key]`. -/
def index (data : Hash) (key : String) : Except PyError String :=
  match data.lookup key with
  | some text => .ok text
  | none => .error .keyError

/-- `int(text)`. -/
def int (text : String) : Except PyError Int :=
  match intOfString text with
  | some n => .ok n
  | none => .error .valueError

/-- A conversion that raises `ValueError`. -/
def valued {α : Type} : Option α → Except PyError α
  | some a => .ok a
  | none => .error .valueError

theorem int_repr (n : ℤ) :
    int n.repr = if fitsStr n then .ok n else .error .valueError := by
  rw [int, intOfString_repr]
  by_cases hn : fitsStr n = true
  · rw [if_pos hn, if_pos hn]
  · rw [if_neg hn, if_neg hn]

@[simp] theorem valued_some {α : Type} (a : α) : valued (some a) = .ok a := rfl

end Hash

/-- `text or None`. -/
def noneIfEmpty : Option String → Option String
  | some "" => none
  | text => text

@[simp] theorem noneIfEmpty_none : noneIfEmpty none = none := rfl

theorem noneIfEmpty_of_ne {text : String} (h : text ≠ "") :
    noneIfEmpty (some text) = some text := by
  unfold noneIfEmpty
  split
  · next heq => exact absurd (Option.some.inj heq) h
  · rfl

theorem noneIfEmpty_ne (text : Option String) : noneIfEmpty text ≠ some "" := by
  cases text with
  | none => simp
  | some text =>
      unfold noneIfEmpty
      split
      · simp
      · next h => simpa using h

@[simp] theorem noneIfEmpty_noneIfEmpty (text : Option String) :
    noneIfEmpty (noneIfEmpty text) = noneIfEmpty text := by
  have hne := noneIfEmpty_ne text
  cases h : noneIfEmpty text with
  | none => rfl
  | some text => exact noneIfEmpty_of_ne fun heq => hne (heq ▸ h)

theorem eq_some_of_noneIfEmpty {text : Option String} {t : String}
    (h : noneIfEmpty text = some t) : text = some t := by
  cases text with
  | none => cases h
  | some text =>
      by_cases hempty : text = ""
      · subst hempty
        cases h
      · rwa [noneIfEmpty_of_ne hempty] at h

theorem noneIfEmpty_getD (text : Option String) :
    (if text.getD "" = "" then none else some (text.getD "")) = noneIfEmpty text := by
  cases text with
  | none => rfl
  | some text =>
      by_cases h : text = ""
      · subst h
        rfl
      · simp [h, noneIfEmpty_of_ne h]

namespace Session

/-- `RedisSessionStore._to_hash`. -/
def toHash (s : Session) : Except PyError Hash := do
  let score ← s.score.str
  let lives ← strOfInt s.lives
  let combo ← strOfInt s.combo
  return [("session_id", s.sessionId), ("pseudo", s.pseudo), ("score", score), ("lives", lives),
    ("combo", combo), ("status", s.status.value), ("mode", s.mode.value),
    ("room_code", s.roomCode.getD ""), ("created_at", isoformat s.createdAt)]

/-- The fields of a hash of the session, whatever the digits of its integers. -/
def fields (s : Session) : Hash :=
  [("session_id", s.sessionId), ("pseudo", s.pseudo), ("score", s.score.repr),
    ("lives", s.lives.repr), ("combo", s.combo.repr), ("status", s.status.value),
    ("mode", s.mode.value), ("room_code", s.roomCode.getD ""),
    ("created_at", isoformat s.createdAt)]

/-- Whether `str` writes the integers of the session. -/
def writable (s : Session) : Bool :=
  s.score.fitsStr && fitsStr s.lives && fitsStr s.combo

/-- Whether the session is read back once it is written. -/
def readable (s : Session) : Bool :=
  s.score.isInt && s.writable

theorem writable_of_readable {s : Session} (h : s.readable) : s.writable :=
  (Bool.and_eq_true _ _ ▸ h).2

theorem isInt_of_readable {s : Session} (h : s.readable) : s.score.isInt :=
  (Bool.and_eq_true _ _ ▸ h).1

theorem readable_of_isInt {s : Session} (hscore : s.score.isInt) (h : s.writable) :
    s.readable := by
  rw [readable, hscore, h]
  rfl

/-- A session that has not been played is written. -/
theorem writable_of_unplayed {s : Session} (hscore : s.score = .int 0)
    (hlives : s.lives = defaultLives) (hcombo : s.combo = 0) : s.writable := by
  rw [writable, hscore, hlives, hcombo]
  decide

/-- A session is written with another score where `str` writes the score. -/
theorem writable_withScore {s : Session} (h : s.writable) (score : PyInt) :
    ({ s with score }).writable = score.fitsStr := by
  simp only [writable, Bool.and_eq_true] at h
  rw [writable, h.1.2, h.2, Bool.and_true, Bool.and_true]

theorem toHash_eq (s : Session) :
    s.toHash = if s.writable then .ok s.fields else .error .valueError := by
  rw [toHash, writable, PyInt.str_eq, strOfInt, strOfInt]
  by_cases hscore : s.score.fitsStr = true
  · by_cases hlives : fitsStr s.lives = true
    · by_cases hcombo : fitsStr s.combo = true
      · simp only [hscore, hlives, hcombo]
        rfl
      · simp only [hscore, hlives, hcombo]
        rfl
    · simp only [hscore, hlives]
      rfl
  · simp only [hscore]
    rfl

/-- `RedisSessionStore._from_hash`. -/
def fromHash (data : Hash) : Except PyError Session := do
  let sessionId ← data.index "session_id"
  let pseudo ← data.index "pseudo"
  let score ← Hash.int (← data.index "score")
  let lives ← match data.lookup "lives" with
    | some text => Hash.int text
    | none => pure 3
  let combo ← match data.lookup "combo" with
    | some text => Hash.int text
    | none => pure 0
  let status ← Hash.valued (SessionStatus.ofValue (← data.index "status"))
  let mode ← Hash.valued (GameMode.ofValue ((data.lookup "mode").getD GameMode.solo.value))
  let room := (data.lookup "room_code").getD ""
  let createdAt ← Hash.valued (fromisoformat (← data.index "created_at"))
  return { sessionId, pseudo, score := .int score, lives, combo, status, mode,
           roomCode := if room = "" then none else some room, createdAt }

/-- What `get` returns of a session that `update` has written. -/
def readBack (s : Session) : Except Exc Session :=
  if s.readable then .ok { s with roomCode := noneIfEmpty s.roomCode }
  else .error (.python .valueError)

theorem readBack_of_readable {s : Session} (h : s.readable) :
    s.readBack = .ok { s with roomCode := noneIfEmpty s.roomCode } :=
  if_pos h

theorem readBack_of_not_readable {s : Session} (h : ¬ s.readable) :
    s.readBack = .error (.python .valueError) :=
  if_neg h

/-- Reading the fields back gives what was written, or raises where the score was a
boolean or an integer has too many digits. -/
theorem fromHash_fields (s : Session) : liftPy (fromHash s.fields) = s.readBack := by
  have hscore := s.score.intOfString_repr
  cases hs : s.score with
  | int n =>
      have hint (n : ℤ) : Hash.int n.repr = if fitsStr n then .ok n else .error .valueError :=
        Hash.int_repr n
      rw [readBack, readable, writable, hs]
      by_cases hn : fitsStr n = true
      · by_cases hlives : fitsStr s.lives = true
        · by_cases hcombo : fitsStr s.combo = true
          · simp [fromHash, fields, Hash.index, List.lookup_cons, hs, PyInt.repr, PyInt.isInt,
              hint, hn, hlives, hcombo, fromisoformat_isoformat, noneIfEmpty_getD, pure,
              Except.pure, bind, Except.bind]
          · simp [fromHash, fields, Hash.index, List.lookup_cons, hs, PyInt.repr, hint, hn, hlives,
              hcombo, bind, Except.bind]
        · simp [fromHash, fields, Hash.index, List.lookup_cons, hs, PyInt.repr, hint, hn, hlives,
            bind, Except.bind]
      · simp [fromHash, fields, Hash.index, List.lookup_cons, hs, PyInt.repr, hint, hn, bind,
          Except.bind]
  | bool b =>
      rw [hs] at hscore
      simp [fromHash, fields, Hash.index, Hash.int, readBack, readable, PyInt.isInt, hs, hscore,
        List.lookup_cons, bind, Except.bind]

end Session

namespace Borne

/-- `RedisBorneStore._to_hash`. -/
def toHash (b : Borne) : Hash :=
  [("borne_id", b.borneId), ("nav", b.nav.value), ("active_session_id", b.activeSessionId.getD "")]

/-- `RedisBorneStore._from_hash`. -/
def fromHash (data : Hash) : Except PyError Borne := do
  let borneId ← data.index "borne_id"
  let nav ← Hash.valued (BorneNavState.ofValue (← data.index "nav"))
  let active := (data.lookup "active_session_id").getD ""
  return { borneId, nav, activeSessionId := if active = "" then none else some active }

/-- What `get_or_create` returns of a borne that `update` has written. -/
def readBack (b : Borne) : Borne :=
  { b with activeSessionId := noneIfEmpty b.activeSessionId }

/-- A session id that is not empty is read back as it was written. -/
theorem readBack_of_ne {b : Borne} (h : b.activeSessionId ≠ some "") : b.readBack = b := by
  obtain ⟨borneId, nav, active⟩ := b
  cases active with
  | none => rfl
  | some sessionId =>
      rw [readBack, noneIfEmpty_of_ne fun heq => h (congrArg some heq)]

theorem fromHash_toHash (b : Borne) : fromHash b.toHash = .ok b.readBack := by
  simp [fromHash, toHash, Hash.index, readBack, List.lookup_cons,
    noneIfEmpty_getD, pure, Except.pure, bind, Except.bind]

end Borne

end FlipperBack
