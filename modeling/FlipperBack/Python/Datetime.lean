import Mathlib.Algebra.Ring.Nat
import Mathlib.Data.List.Basic

/-!
# Python dates

`DateTime` is a `datetime.datetime` that is naive or in UTC: the only time zone
a program gets from `datetime.now(timezone.utc)` and `datetime.utcnow()`.
`isoformat` writes `YYYY-MM-DDTHH:MM:SS[.ffffff][+00:00]` and `fromisoformat`
reads the texts of that shape; any other text is a `ValueError` here.
-/

namespace Python

/-- A date and time, with `utc` telling `tzinfo = timezone.utc` from
`tzinfo = None`. -/
structure DateTime where
  year : Fin 10000
  month : Fin 13
  day : Fin 32
  hour : Fin 24
  minute : Fin 60
  second : Fin 60
  microsecond : Fin 1000000
  utc : Bool
  deriving DecidableEq, Repr, Inhabited

namespace DateTime

/-- `d.replace(tzinfo=None)`. -/
def naive (d : DateTime) : DateTime :=
  { d with utc := false }

end DateTime

/-! ## Fixed-width fields -/

/-- The last `w` decimal digits of `n`, most significant first. -/
def padded : ℕ → ℕ → List Char
  | 0, _ => []
  | w + 1, n => padded w (n / 10) ++ [Nat.digitChar (n % 10)]

/-- Read a number of exactly `w` digits. -/
def field (w : ℕ) (cs : List Char) : Option (ℕ × List Char) :=
  if (cs.take w).length = w ∧ (cs.take w).all Char.isDigit then
    some (Nat.ofDigitChars 10 (cs.take w) 0, cs.drop w)
  else
    none

/-- Read one given character. -/
def lit (c : Char) : List Char → Option (List Char)
  | [] => none
  | x :: xs => if x = c then some xs else none

/-- Read a number below `k` off a field. -/
def bounded (k n : ℕ) : Option (Fin k) :=
  if h : n < k then some ⟨n, h⟩ else none

@[simp] theorem length_padded (w n : ℕ) : (padded w n).length = w := by
  induction w generalizing n with
  | zero => rfl
  | succ w ih => simp [padded, ih]

theorem isDigit_of_mem_padded {w n : ℕ} {c : Char} (hc : c ∈ padded w n) :
    c.isDigit = true := by
  induction w generalizing n with
  | zero => simp [padded] at hc
  | succ w ih =>
      rcases List.mem_append.mp hc with hc | hc
      · exact ih hc
      · obtain rfl := List.mem_singleton.mp hc
        simp [Nat.isDigit_digitChar, Nat.mod_lt]

theorem ofDigitChars_padded (w n : ℕ) (hn : n < 10 ^ w) :
    Nat.ofDigitChars 10 (padded w n) 0 = n := by
  induction w generalizing n with
  | zero => simp_all [padded]
  | succ w ih =>
      have hdiv : n / 10 < 10 ^ w := by
        rw [Nat.div_lt_iff_lt_mul (by decide)]
        simpa [Nat.pow_succ] using hn
      rw [padded, Nat.ofDigitChars_append, ih _ hdiv,
        Nat.ofDigitChars_cons_digitChar_of_lt_ten (Nat.mod_lt n (by decide)),
        Nat.ofDigitChars_nil]
      omega

/-- A field reads back what was written, and leaves the rest. -/
theorem field_padded (w n : ℕ) (hn : n < 10 ^ w) (rest : List Char) :
    field w (padded w n ++ rest) = some (n, rest) := by
  have htake : (padded w n ++ rest).take w = padded w n := by
    rw [List.take_append_of_le_length (by simp), List.take_of_length_le (by simp)]
  have hdrop : (padded w n ++ rest).drop w = rest := by
    rw [List.drop_append_of_le_length (by simp), List.drop_of_length_le (by simp),
      List.nil_append]
  have hall : (padded w n).all Char.isDigit = true :=
    List.all_eq_true.mpr fun c hc => isDigit_of_mem_padded hc
  rw [field, htake, hdrop, if_pos ⟨length_padded w n, hall⟩, ofDigitChars_padded w n hn]

@[simp] theorem lit_cons (c : Char) (cs : List Char) : lit c (c :: cs) = some cs := by
  simp [lit]

@[simp] theorem bounded_val {k : ℕ} (n : Fin k) : bounded k n.val = some n := by
  simp [bounded]

/-! ## ISO 8601 texts -/

/-- The text of `isoformat` after the seconds. -/
def isoTail (d : DateTime) : List Char :=
  (if d.microsecond.val = 0 then [] else '.' :: padded 6 d.microsecond.val) ++
    if d.utc then ['+', '0', '0', ':', '0', '0'] else []

/-- The characters of `d.isoformat()`. -/
def isoChars (d : DateTime) : List Char :=
  padded 4 d.year ++ '-' :: (padded 2 d.month ++ '-' :: (padded 2 d.day ++ 'T' ::
    (padded 2 d.hour ++ ':' :: (padded 2 d.minute ++ ':' :: (padded 2 d.second ++ isoTail d)))))

/-- `d.isoformat()`. -/
def isoformat (d : DateTime) : String :=
  String.ofList (isoChars d)

/-- Read the optional microseconds. -/
def fraction : List Char → Option (ℕ × List Char)
  | '.' :: cs => field 6 cs
  | cs => some (0, cs)

/-- Read the optional UTC offset, up to the end of the text. -/
def offset : List Char → Option Bool
  | [] => some false
  | ['+', '0', '0', ':', '0', '0'] => some true
  | _ => none

/-- `datetime.fromisoformat`, `none` where it raises `ValueError`. -/
def fromisoformat (s : String) : Option DateTime := do
  let (year, cs) ← field 4 s.toList
  let cs ← lit '-' cs
  let (month, cs) ← field 2 cs
  let cs ← lit '-' cs
  let (day, cs) ← field 2 cs
  let cs ← lit 'T' cs
  let (hour, cs) ← field 2 cs
  let cs ← lit ':' cs
  let (minute, cs) ← field 2 cs
  let cs ← lit ':' cs
  let (second, cs) ← field 2 cs
  let (microsecond, cs) ← fraction cs
  let utc ← offset cs
  return { year := ← bounded _ year, month := ← bounded _ month, day := ← bounded _ day,
           hour := ← bounded _ hour, minute := ← bounded _ minute,
           second := ← bounded _ second, microsecond := ← bounded _ microsecond, utc }

/-- The microseconds and the offset are read back from the end of the text. -/
theorem fraction_isoTail (d : DateTime) :
    ∃ cs, fraction (isoTail d) = some (d.microsecond.val, cs) ∧ offset cs = some d.utc := by
  refine ⟨if d.utc then ['+', '0', '0', ':', '0', '0'] else [], ?_, ?_⟩
  · by_cases hz : d.microsecond.val = 0
    · cases hu : d.utc <;> simp [isoTail, hz, hu, fraction]
    · simp only [isoTail, hz, if_false, List.cons_append, fraction]
      exact field_padded 6 _ (by omega) _
  · cases d.utc <;> rfl

theorem bind_of_eq_some {α β : Type} {x : Option α} {a : α} (hx : x = some a)
    (f : α → Option β) : x >>= f = f a := by
  rw [hx]
  rfl

/-- `datetime.fromisoformat(d.isoformat()) = d`. -/
theorem fromisoformat_isoformat (d : DateTime) : fromisoformat (isoformat d) = some d := by
  obtain ⟨cs, hfraction, hoffset⟩ := fraction_isoTail d
  rw [fromisoformat, isoformat, isoChars, String.toList_ofList]
  refine (bind_of_eq_some (field_padded 4 d.year (by omega) _) _).trans ?_
  refine (bind_of_eq_some (lit_cons '-' _) _).trans ?_
  refine (bind_of_eq_some (field_padded 2 d.month (by omega) _) _).trans ?_
  refine (bind_of_eq_some (lit_cons '-' _) _).trans ?_
  refine (bind_of_eq_some (field_padded 2 d.day (by omega) _) _).trans ?_
  refine (bind_of_eq_some (lit_cons 'T' _) _).trans ?_
  refine (bind_of_eq_some (field_padded 2 d.hour (by omega) _) _).trans ?_
  refine (bind_of_eq_some (lit_cons ':' _) _).trans ?_
  refine (bind_of_eq_some (field_padded 2 d.minute (by omega) _) _).trans ?_
  refine (bind_of_eq_some (lit_cons ':' _) _).trans ?_
  refine (bind_of_eq_some (field_padded 2 d.second (by omega) _) _).trans ?_
  refine (bind_of_eq_some hfraction _).trans ?_
  refine (bind_of_eq_some hoffset _).trans ?_
  simp only [bounded_val, Option.bind_eq_bind, Option.bind_some, Option.pure_def]

end Python
