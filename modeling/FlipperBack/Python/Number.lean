import FlipperBack.Python.Text
import Mathlib.Data.Rat.Floor

/-!
# Python numbers and JSON values

`Json` is what `json.loads` returns: integers are unbounded, and a float is a
finite value, an infinity or a NaN (`json` reads and writes `Infinity` and
`NaN`). `toInt` is the built-in `int` on such a value, with the exception it
raises on each value it refuses. A Python `bool` is an `int`, so the values that
pass `isinstance(x, int)` form a type of their own, `PyInt`; the two differ in
`str`, which writes an integer in decimal and a boolean as a word that `int`
does not read back.
-/

namespace Python

/-- The built-in exceptions that conversions and lookups raise. -/
inductive PyError
  | typeError
  | valueError
  | overflowError
  | keyError
  | attributeError
  deriving DecidableEq, Repr

/-- A conversion followed by another succeeds through a value of the first. -/
theorem bind_eq_ok {ε α β : Type} {x : Except ε α} {f : α → Except ε β} {b : β} :
    x >>= f = .ok b ↔ ∃ a, x = .ok a ∧ f a = .ok b := by
  cases x with
  | ok a => exact ⟨fun h => ⟨a, rfl, h⟩, fun ⟨_, ha, h⟩ => Except.ok.inj ha ▸ h⟩
  | error e => exact ⟨nofun, fun ⟨_, ha, _⟩ => nomatch ha⟩

/-! ## Decimal text -/

/-- The most digits of an integer that `int` reads and `str` writes. -/
def maxStrDigits : ℕ := 4300

/-- The white space that `int` skips: not the four separators before the space. -/
def isIntSpace (c : Char) : Bool :=
  isSpace c && !(0x1C ≤ c.toNat && c.toNat ≤ 0x1F)

/-- Digits after a first digit, with single underscores between digits. -/
def digitsFrom (acc : ℕ) : List Char → Option ℕ
  | [] => some acc
  | '_' :: c :: cs => (decimal c).bind fun d => digitsFrom (10 * acc + d) cs
  | c :: cs => (decimal c).bind fun d => digitsFrom (10 * acc + d) cs

/-- A nonempty run of decimal digits, `maxStrDigits` at most. -/
def digits : List Char → Option ℕ
  | [] => none
  | c :: cs =>
      if (c :: cs).countP (· ≠ '_') ≤ maxStrDigits then
        (decimal c).bind fun d => digitsFrom d cs
      else none

/-- `int` on a string, `none` where it raises `ValueError`. -/
def intOfString (s : String) : Option Int :=
  match trim isIntSpace s.toList with
  | '-' :: cs => (digits cs).map fun n : ℕ => -(n : ℤ)
  | '+' :: cs => (digits cs).map fun n : ℕ => (n : ℤ)
  | cs => (digits cs).map fun n : ℕ => (n : ℤ)

theorem decimal_of_isDigit {c : Char} (hc : c.isDigit = true) :
    decimal c = some (c.toNat - '0'.toNat) := by
  have hrange : 48 ≤ c.toNat ∧ c.toNat ≤ 57 := by
    simpa [Char.isDigit, UInt32.le_iff_toNat_le] using hc
  have hhit : (decide (0x30 ≤ c.toNat) && decide (c.toNat < 0x30 + 10)) = true := by
    simp only [Bool.and_eq_true, decide_eq_true_eq]
    omega
  simp [decimal, decimalZeros, hhit]

theorem isSpace_of_isDigit {c : Char} (hc : c.isDigit = true) : isSpace c = false := by
  have hrange : 48 ≤ c.toNat ∧ c.toNat ≤ 57 := by
    simpa [Char.isDigit, UInt32.le_iff_toNat_le] using hc
  simp only [isSpace, Bool.or_eq_false_iff, Bool.and_eq_false_iff, beq_eq_false_iff_ne,
    decide_eq_false_iff_not]
  omega

theorem digitsFrom_of_isDigit (cs : List Char) (hcs : ∀ c ∈ cs, c.isDigit = true) (acc : ℕ) :
    digitsFrom acc cs = some (Nat.ofDigitChars 10 cs acc) := by
  induction cs generalizing acc with
  | nil => simp [digitsFrom]
  | cons c cs ih =>
      have hc : c.isDigit = true := hcs c (by simp)
      have hne : c ≠ '_' := by
        rintro rfl
        exact absurd hc (by decide)
      have hrest := ih (fun c' hc' => hcs c' (by simp [hc']))
      rw [digitsFrom, decimal_of_isDigit hc, Option.bind_some, hrest, Nat.ofDigitChars_cons]
      intro _ _ h
      exact absurd h hne

theorem digits_of_isDigit {cs : List Char} (hne : cs ≠ []) (hcs : ∀ c ∈ cs, c.isDigit = true) :
    digits cs = if cs.length ≤ maxStrDigits then some (Nat.ofDigitChars 10 cs 0) else none := by
  have hcount : cs.countP (· ≠ '_') = cs.length := List.countP_eq_length.mpr fun c hc => by
    have hdigit := hcs c hc
    refine decide_eq_true fun heq => ?_
    rw [heq] at hdigit
    exact absurd hdigit (by decide)
  cases cs with
  | nil => exact absurd rfl hne
  | cons c cs =>
      have hc : c.isDigit = true := hcs c (by simp)
      rw [digits, hcount, decimal_of_isDigit hc, Option.bind_some,
        digitsFrom_of_isDigit cs (fun c' hc' => hcs c' (by simp [hc'])), Nat.ofDigitChars_cons,
        Nat.mul_zero, Nat.zero_add]

theorem dropWhile_of_head {p : Char → Bool} (cs : List Char)
    (hcs : ∀ c ∈ cs.head?, p c = false) : cs.dropWhile p = cs := by
  cases cs with
  | nil => rfl
  | cons c cs => simp [hcs c (by simp)]

/-- Text without blanks is left alone. -/
theorem trim_of_forall {blank : Char → Bool} {cs : List Char} (hcs : ∀ c ∈ cs, blank c = false) :
    trim blank cs = cs := by
  have hfront : cs.dropWhile blank = cs :=
    dropWhile_of_head cs fun c hc => hcs c (List.mem_of_mem_head? hc)
  have hback : cs.reverse.dropWhile blank = cs.reverse :=
    dropWhile_of_head cs.reverse fun c hc =>
      hcs c (List.mem_reverse.mp (List.mem_of_mem_head? hc))
  rw [trim, hfront, hback, List.reverse_reverse]

/-- Text without white space is left alone by `strip`. -/
theorem stripChars_of_forall {cs : List Char} (hcs : ∀ c ∈ cs, isSpace c = false) :
    stripChars cs = cs :=
  trim_of_forall hcs

theorem isDigit_of_mem_repr {n : ℕ} {c : Char} (hc : c ∈ n.repr.toList) : c.isDigit = true :=
  Nat.isDigit_of_mem_toDigits (b := 10) (n := n) (by decide) (by decide) (by simpa using hc)

/-! ## Integers as text -/

/-- Whether `str` writes an integer: it refuses one of more digits. -/
def fitsStr (n : ℤ) : Bool :=
  (Nat.toDigits 10 n.natAbs).length ≤ maxStrDigits

theorem fitsStr_iff {n : ℤ} : fitsStr n = true ↔ n.natAbs < 10 ^ maxStrDigits :=
  decide_eq_true_iff.trans (Nat.length_toDigits_le_iff (by decide) (by decide))

theorem fitsStr_of_le {m n : ℤ} (h : m.natAbs ≤ n.natAbs) (hn : fitsStr n = true) :
    fitsStr m = true :=
  fitsStr_iff.mpr (h.trans_lt (fitsStr_iff.mp hn))

theorem natAbs_ten_pow (k : ℕ) : (10 ^ k : ℤ).natAbs = 10 ^ k :=
  Int.natAbs_pow 10 k

/-- The first integer that `str` refuses. -/
theorem fitsStr_pow : fitsStr (10 ^ maxStrDigits) = false := by
  rw [← Bool.not_eq_true, fitsStr_iff, natAbs_ten_pow]
  exact lt_irrefl _

theorem fitsStr_pow_sub_one : fitsStr (10 ^ maxStrDigits - 1) = true := by
  have hpos : (0 : ℤ) < 10 ^ maxStrDigits := pow_pos (by decide) _
  rw [fitsStr_iff, ← natAbs_ten_pow]
  generalize (10 ^ maxStrDigits : ℤ) = x at hpos ⊢
  omega

/-- `str(n)`. -/
def strOfInt (n : ℤ) : Except PyError String :=
  if fitsStr n then .ok n.repr else .error .valueError

theorem length_toList_repr (n : ℕ) : n.repr.toList.length = (Nat.toDigits 10 n).length := by
  simp

/-- `int(str(n)) = n`; `int` refuses the digits that `str` does not write. -/
theorem intOfString_repr (n : ℤ) :
    intOfString n.repr = if fitsStr n then some n else none := by
  have hfits (m : ℤ) : fitsStr m = true ↔ m.natAbs.repr.toList.length ≤ maxStrDigits := by
    rw [length_toList_repr]
    exact decide_eq_true_iff
  have hspace {c : Char} (hc : c.isDigit = true) : isIntSpace c = false := by
    rw [isIntSpace, isSpace_of_isDigit hc, Bool.false_and]
  cases n with
  | ofNat n =>
      have hall : ∀ c ∈ n.repr.toList, c.isDigit = true := fun c hc => isDigit_of_mem_repr hc
      have hne : n.repr.toList ≠ [] := by simp
      have hval : Nat.ofDigitChars 10 n.repr.toList 0 = n := by simp
      have hstr : (Int.ofNat n).repr = n.repr := rfl
      rw [intOfString, hstr, trim_of_forall fun c hc => hspace (hall c hc)]
      split
      · next cs hcs => exact absurd (hall '-' (by simp [hcs])) (by decide)
      · next cs hcs => exact absurd (hall '+' (by simp [hcs])) (by decide)
      · rw [digits_of_isDigit hne hall, hval]
        have hiff : fitsStr (Int.ofNat n) = true ↔ n.repr.toList.length ≤ maxStrDigits := hfits _
        by_cases hlength : n.repr.toList.length ≤ maxStrDigits
        · rw [if_pos hlength, if_pos (hiff.mpr hlength)]
          rfl
        · rw [if_neg hlength, if_neg (hiff.not.mpr hlength)]
          rfl
  | negSucc n =>
      have hall : ∀ c ∈ (n + 1).repr.toList, c.isDigit = true := fun c hc => isDigit_of_mem_repr hc
      have hne : (n + 1).repr.toList ≠ [] := by simp
      have hval : Nat.ofDigitChars 10 (n + 1).repr.toList 0 = n + 1 := by simp
      have hstr : (Int.negSucc n).repr.toList = '-' :: (n + 1).repr.toList := by
        have : (Int.negSucc n).repr = "-" ++ (n + 1).repr := rfl
        rw [this, String.toList_append]
        rfl
      have hblank : ∀ c ∈ '-' :: (n + 1).repr.toList, isIntSpace c = false := by
        intro c hc
        rcases List.mem_cons.mp hc with rfl | hc
        · decide
        · exact hspace (hall c hc)
      rw [intOfString, hstr, trim_of_forall hblank]
      simp only [digits_of_isDigit hne hall, hval]
      have hiff : fitsStr (Int.negSucc n) = true ↔ (n + 1).repr.toList.length ≤ maxStrDigits :=
        hfits _
      by_cases hlength : (n + 1).repr.toList.length ≤ maxStrDigits
      · rw [if_pos hlength, if_pos (hiff.mpr hlength)]
        rfl
      · rw [if_neg hlength, if_neg (hiff.not.mpr hlength)]
        rfl

/-! ## Digits bound a number -/

theorem decimal_lt {c : Char} {d : ℕ} (h : decimal c = some d) : d < 10 := by
  unfold decimal at h
  obtain ⟨z, hz, rfl⟩ := Option.map_eq_some_iff.mp h
  have hrange := List.find?_some hz
  simp only [Bool.and_eq_true, decide_eq_true_eq] at hrange
  omega

theorem decimal_underscore : decimal '_' = none := by decide

theorem digitsFrom_lt {acc n : ℕ} {cs : List Char} (h : digitsFrom acc cs = some n) :
    n < (acc + 1) * 10 ^ cs.countP (· ≠ '_') := by
  -- One more digit makes one more power of ten.
  have hstep {acc n d k : ℕ} (hd : d < 10) (hn : n < (10 * acc + d + 1) * 10 ^ k) :
      n < (acc + 1) * 10 ^ (k + 1) := by
    calc n < (10 * acc + d + 1) * 10 ^ k := hn
      _ ≤ ((acc + 1) * 10) * 10 ^ k := Nat.mul_le_mul_right _ (by omega)
      _ = (acc + 1) * 10 ^ (k + 1) := by rw [Nat.pow_succ, Nat.mul_assoc, Nat.mul_comm 10]
  induction acc, cs using digitsFrom.induct generalizing n with
  | case1 acc =>
      obtain rfl : acc = n := Option.some.inj h
      simp
  | case2 acc c cs ih =>
      obtain ⟨d, hd, hrest⟩ := Option.bind_eq_some_iff.mp h
      have hc : c ≠ '_' := by
        rintro rfl
        cases decimal_underscore.symm.trans hd
      simpa [hc] using hstep (decimal_lt hd) (ih d hrest)
  | case3 acc c cs hne ih =>
      have heq := digitsFrom.eq_3 acc c cs hne
      rw [heq] at h
      obtain ⟨d, hd, hrest⟩ := Option.bind_eq_some_iff.mp h
      have hc : c ≠ '_' := by
        rintro rfl
        cases decimal_underscore.symm.trans hd
      simpa [hc] using hstep (decimal_lt hd) (ih d hrest)

/-! ## JSON values -/

/-- A float as `json` reads it. -/
inductive PyFloat
  | finite (q : ℚ)
  | inf (negative : Bool)
  | nan
  deriving DecidableEq

/-- A value returned by `json.loads`; an object is read by its first entry for
a key. -/
inductive Json
  | null
  | bool (b : Bool)
  | int (n : Int)
  | float (x : PyFloat)
  | str (s : String)
  | arr (xs : List Json)
  | obj (fields : List (String × Json))

/-- A dict with string keys. -/
abbrev Dict : Type := List (String × Json)

/-- `d.get(key)`, with `none` for an absent key. -/
def Dict.get (d : Dict) (key : String) : Option Json :=
  d.lookup key

namespace Json

/-- The built-in `int` on a JSON value. -/
def toInt : Json → Except PyError Int
  | null => .error .typeError
  | bool b => .ok (if b then 1 else 0)
  | int n => .ok n
  | float (.finite q) => .ok (q.num.tdiv q.den)
  | float (.inf _) => .error .overflowError
  | float .nan => .error .valueError
  | str s =>
      match intOfString s with
      | some n => .ok n
      | none => .error .valueError
  | arr _ => .error .typeError
  | obj _ => .error .typeError

/-- Infinite values are the ones whose conversion overflows. -/
theorem toInt_error {value : Json} {e : PyError} (h : value.toInt = .error e) :
    e = .typeError ∨ e = .valueError ∨
      e = .overflowError ∧ ∃ negative, value = .float (.inf negative) := by
  unfold toInt at h
  split at h
  · exact Or.inl (Except.error.inj h).symm
  · cases h
  · cases h
  · cases h
  · exact Or.inr (Or.inr ⟨(Except.error.inj h).symm, _, rfl⟩)
  · exact Or.inr (Or.inl (Except.error.inj h).symm)
  · split at h
    · cases h
    · exact Or.inr (Or.inl (Except.error.inj h).symm)
  · exact Or.inl (Except.error.inj h).symm
  · exact Or.inl (Except.error.inj h).symm

/-- The truth value of a JSON value. -/
def truthy : Json → Bool
  | null => false
  | bool b => b
  | int n => n != 0
  | float (.finite q) => q != 0
  | float _ => true
  | str s => s != ""
  | arr xs => !xs.isEmpty
  | obj fields => !fields.isEmpty

end Json

/-! ## Values that are instances of `int` -/

/-- A Python `int`, a `bool` included. -/
inductive PyInt
  | int (n : Int)
  | bool (b : Bool)
  deriving DecidableEq, Repr

namespace PyInt

/-- The value in arithmetic. -/
def val : PyInt → Int
  | int n => n
  | bool b => if b then 1 else 0

/-- `x + n` for an integer `n`; the sum is never a boolean. -/
def add (x : PyInt) (n : Int) : PyInt :=
  int (x.val + n)

/-- `str(x)`. -/
def str : PyInt → Except PyError String
  | int n => strOfInt n
  | bool true => .ok "True"
  | bool false => .ok "False"

/-- Whether `x` is an integer proper. -/
def isInt : PyInt → Bool
  | int _ => true
  | bool _ => false

@[simp] theorem val_int (n : Int) : (int n).val = n := rfl

/-- Whether `str` writes `x`. -/
def fitsStr : PyInt → Bool
  | int n => Python.fitsStr n
  | bool _ => true

@[simp] theorem fitsStr_int (n : ℤ) : (int n).fitsStr = Python.fitsStr n := rfl

theorem fitsStr_of_not_isInt {x : PyInt} (h : ¬ x.isInt) : x.fitsStr := by
  cases x with
  | int n => exact absurd rfl h
  | bool b => rfl

/-- The text of `x`, whatever its length. -/
def repr : PyInt → String
  | int n => n.repr
  | bool true => "True"
  | bool false => "False"

theorem str_eq (x : PyInt) :
    x.str = if x.fitsStr then .ok x.repr else .error .valueError := by
  cases x with
  | int n => rfl
  | bool b => cases b <;> rfl

/-- `int(str(x))` gives an integer back and raises on a boolean. -/
theorem intOfString_repr (x : PyInt) :
    intOfString x.repr = match x with
      | int n => if Python.fitsStr n then some n else none
      | bool _ => none := by
  cases x with
  | int n => exact Python.intOfString_repr n
  | bool b => cases b <;> decide

end PyInt

/-- `isinstance(x, int)` on a JSON value, with the value it then has. -/
def Json.asPyInt : Json → Option PyInt
  | .int n => some (.int n)
  | .bool b => some (.bool b)
  | _ => none

end Python
