import FlipperBack.Python.Float
import Mathlib.Tactic.Ring
import Mathlib.Tactic.FieldSimp
import Mathlib.Tactic.Linarith

/-!
# The numbers of a JSON text

`Json.number` is what the scanner of `json.loads` makes of a number: an integer
part without leading zeros, then a fraction and an exponent, each of which makes
it a float. An integer and a float are read back as they are written
(`number_intText`, `number_floatText`).
-/

namespace Python

/-- `-x`. -/
def PyFloat.neg : PyFloat → PyFloat
  | finite q => finite (-q)
  | inf negative => inf !negative
  | nan => nan

namespace Json

/-! ## Writing -/

/-- `int.__repr__`. -/
def intText (n : ℤ) : List Char :=
  n.repr.toList

/-- `float.__repr__`, with the names that `json.dumps` gives to the values that
are not finite. -/
def floatText : PyFloat → List Char
  | .finite q => if q < 0 then '-' :: floatRepr (-q) else floatRepr q
  | .inf false => ['I', 'n', 'f', 'i', 'n', 'i', 't', 'y']
  | .inf true => ['-', 'I', 'n', 'f', 'i', 'n', 'i', 't', 'y']
  | .nan => ['N', 'a', 'N']

/-! ## Reading -/

/-- A zero, or digits that do not start with one. -/
def integerPart : List Char → Option (List Char × List Char)
  | [] => none
  | c :: cs =>
      if c = '0' then some (['0'], cs)
      else if c.isDigit then some (c :: cs.takeWhile Char.isDigit, cs.dropWhile Char.isDigit)
      else none

/-- The digits after a decimal point, if there are any. -/
def fractionPart : List Char → List Char × List Char
  | '.' :: cs =>
      if cs.takeWhile Char.isDigit = [] then ([], '.' :: cs)
      else (cs.takeWhile Char.isDigit, cs.dropWhile Char.isDigit)
  | cs => ([], cs)

/-- The digits of an exponent, if there are any. -/
def exponentDigits (cs : List Char) : Option (ℕ × List Char) :=
  if cs.takeWhile Char.isDigit = [] then none
  else some (Nat.ofDigitChars 10 (cs.takeWhile Char.isDigit) 0, cs.dropWhile Char.isDigit)

/-- An exponent after its letter. -/
def signedExponent : List Char → Option (ℤ × List Char)
  | '-' :: cs => (exponentDigits cs).map fun (e, rest) => (-(e : ℤ), rest)
  | '+' :: cs => (exponentDigits cs).map fun (e, rest) => ((e : ℤ), rest)
  | cs => (exponentDigits cs).map fun (e, rest) => ((e : ℤ), rest)

/-- The exponent, if there is one. -/
def exponentPart : List Char → Option ℤ × List Char
  | [] => (none, [])
  | c :: cs =>
      if c = 'e' ∨ c = 'E' then
        match signedExponent cs with
        | some (e, rest) => (some e, rest)
        | none => (none, c :: cs)
      else (none, c :: cs)

/-- The float nearest to a number, with its sign. -/
def signedFloat (negative : Bool) (q : ℚ) : Json :=
  .float (if negative then (toDouble q).neg else toDouble q)

/-- A number without its sign; `int` refuses an integer of too many digits. -/
def unsigned (negative : Bool) (cs : List Char) : Option (Json × List Char) :=
  match integerPart cs with
  | none => none
  | some (whole, cs) =>
      let (fraction, cs) := fractionPart cs
      let (exponent, cs) := exponentPart cs
      if fraction = [] ∧ exponent = none then
        let n : ℤ := Nat.ofDigitChars 10 whole 0
        if whole.length ≤ maxStrDigits then some (.int (if negative then -n else n), cs) else none
      else
        some (signedFloat negative (decimalValue
          (Nat.ofDigitChars 10 (whole ++ fraction) 0, exponent.getD 0 - fraction.length)), cs)

/-- The number that a text starts with. -/
def number : List Char → Option (Json × List Char)
  | '-' :: cs => unsigned true cs
  | cs => unsigned false cs

/-! ## Digits -/

/-- A text that does not go on with a digit. -/
def NoDigit (cs : List Char) : Prop := ∀ c ∈ cs.head?, c.isDigit = false

/-- A text that does not go on with a number. -/
def NoNumber (cs : List Char) : Prop :=
  ∀ c ∈ cs.head?, c.isDigit = false ∧ c ≠ '.' ∧ c ≠ 'e' ∧ c ≠ 'E'

theorem NoNumber.noDigit {cs : List Char} (h : NoNumber cs) : NoDigit cs := fun c hc => (h c hc).1

theorem noNumber_nil : NoNumber [] := by simp [NoNumber]

theorem takeWhile_digits {ds cs : List Char} (hds : ∀ c ∈ ds, c.isDigit = true) (hcs : NoDigit cs) :
    (ds ++ cs).takeWhile Char.isDigit = ds := by
  rw [List.takeWhile_append_of_pos hds]
  cases cs with
  | nil => simp
  | cons c cs => simp [hcs c (by simp)]

theorem dropWhile_digits {ds cs : List Char} (hds : ∀ c ∈ ds, c.isDigit = true) (hcs : NoDigit cs) :
    (ds ++ cs).dropWhile Char.isDigit = cs := by
  rw [List.dropWhile_append_of_pos hds]
  cases cs with
  | nil => simp
  | cons c cs => simp [hcs c (by simp)]

/-- The digits of a positive number do not start with a zero. -/
theorem head_repr {n : ℕ} (hn : 0 < n) : ∃ c cs, n.repr.toList = c :: cs ∧ c ≠ '0' := by
  rw [Nat.toList_repr]
  induction n using Nat.strongRecOn with
  | ind n ih =>
      rw [Nat.toDigits_eq_if (by decide)]
      split
      · next hlt =>
          have hdigit : ∀ m : Fin 10, 0 < m.val → m.val.digitChar ≠ '0' := by decide
          exact ⟨n.digitChar, [], rfl, hdigit ⟨n, hlt⟩ hn⟩
      · next hge =>
          obtain ⟨c, cs, hdigits, hc⟩ := ih (n / 10) (by omega) (by omega)
          exact ⟨c, cs ++ [(n % 10).digitChar], by rw [hdigits]; rfl, hc⟩

theorem ofDigitChars_repr (n : ℕ) : Nat.ofDigitChars 10 n.repr.toList 0 = n := by simp

/-! ## The parts of a number -/

/-- The integer part of a number: a zero, or digits that do not start with one. -/
def Whole (ds : List Char) : Prop :=
  (∀ c ∈ ds, c.isDigit = true) ∧ (ds = ['0'] ∨ ∃ c cs, ds = c :: cs ∧ c ≠ '0')

theorem whole_repr {n : ℕ} : Whole n.repr.toList := by
  refine ⟨fun c hc => isDigit_of_mem_repr hc, ?_⟩
  rcases Nat.eq_zero_or_pos n with rfl | hn
  · exact Or.inl rfl
  · exact Or.inr (head_repr hn)

theorem integerPart_append {ds cs : List Char} (hds : Whole ds) (hcs : NoDigit cs) :
    integerPart (ds ++ cs) = some (ds, cs) := by
  obtain ⟨hdigits, rfl | ⟨c, ds, rfl, hc⟩⟩ := hds
  · rfl
  · obtain ⟨hc', hds⟩ := List.forall_mem_cons.mp hdigits
    rw [List.cons_append, integerPart, if_neg hc, if_pos hc', takeWhile_digits hds hcs,
      dropWhile_digits hds hcs]

theorem fractionPart_append {ds cs : List Char} (hds : ∀ c ∈ ds, c.isDigit = true) (hne : ds ≠ [])
    (hcs : NoDigit cs) : fractionPart ('.' :: (ds ++ cs)) = (ds, cs) := by
  rw [fractionPart, takeWhile_digits hds hcs, dropWhile_digits hds hcs, if_neg hne]

theorem fractionPart_of_ne {cs : List Char} (h : ∀ c ∈ cs.head?, c ≠ '.') :
    fractionPart cs = ([], cs) := by
  unfold fractionPart
  split
  · exact absurd rfl (h '.' (by simp))
  · rfl

theorem exponentDigits_append {ds cs : List Char} (hds : ∀ c ∈ ds, c.isDigit = true) (hne : ds ≠ [])
    (hcs : NoDigit cs) : exponentDigits (ds ++ cs) = some (Nat.ofDigitChars 10 ds 0, cs) := by
  rw [exponentDigits, takeWhile_digits hds hcs, dropWhile_digits hds hcs, if_neg hne]

/-- The digits of an exponent as they are written, two at least. -/
theorem exponentDigits_padded (n : ℕ) {cs : List Char} (hcs : NoDigit cs) :
    exponentDigits ((if n < 10 then '0' :: n.repr.toList else n.repr.toList) ++ cs) =
      some (n, cs) := by
  have hdigits : ∀ c ∈ n.repr.toList, c.isDigit = true := fun c hc => isDigit_of_mem_repr hc
  split
  · rw [exponentDigits_append (List.forall_mem_cons.mpr ⟨rfl, hdigits⟩) (by simp) hcs,
      Nat.ofDigitChars_cons]
    simp
  · rw [exponentDigits_append hdigits (by simp) hcs, ofDigitChars_repr]

theorem signedExponent_text (e : ℤ) {cs : List Char} (hcs : NoDigit cs) :
    signedExponent (exponentText e ++ cs) = some (e, cs) := by
  unfold exponentText
  split
  · next hneg =>
      rw [List.cons_append, signedExponent, exponentDigits_padded _ hcs, Option.map_some]
      simp only [Option.some.injEq, Prod.mk.injEq, and_true]
      omega
  · next hpos =>
      rw [List.cons_append, signedExponent, exponentDigits_padded _ hcs, Option.map_some]
      simp only [Option.some.injEq, Prod.mk.injEq, and_true]
      omega

theorem exponentPart_text (e : ℤ) {cs : List Char} (hcs : NoDigit cs) :
    exponentPart ('e' :: (exponentText e ++ cs)) = (some e, cs) := by
  rw [exponentPart, if_pos (Or.inl rfl), signedExponent_text e hcs]

theorem exponentPart_of_ne {cs : List Char} (h : ∀ c ∈ cs.head?, c ≠ 'e' ∧ c ≠ 'E') :
    exponentPart cs = (none, cs) := by
  cases cs with
  | nil => rfl
  | cons c cs =>
      obtain ⟨he, hE⟩ := h c (by simp)
      rw [exponentPart, if_neg (by simp [he, hE])]

/-! ## Reading back -/

theorem NoNumber.integer {cs : List Char} (h : NoNumber cs) (negative : Bool) {ds : List Char}
    (hds : Whole ds) (hlength : ds.length ≤ maxStrDigits) :
    unsigned negative (ds ++ cs) =
      some (.int (if negative then -(Nat.ofDigitChars 10 ds 0 : ℤ) else Nat.ofDigitChars 10 ds 0),
        cs) := by
  have hpoint : fractionPart cs = ([], cs) := fractionPart_of_ne fun c hc => (h c hc).2.1
  have hexp : exponentPart cs = (none, cs) := exponentPart_of_ne fun c hc => (h c hc).2.2
  rw [unsigned, integerPart_append hds h.noDigit]
  simp [hpoint, hexp, hlength]

/-- A number with a fraction or an exponent is the float of its value. -/
theorem unsigned_float (negative : Bool) {text cs₁ cs₂ rest whole fraction : List Char}
    {exponent : Option ℤ} {q : ℚ} (hwhole : integerPart text = some (whole, cs₁))
    (hfraction : fractionPart cs₁ = (fraction, cs₂))
    (hexponent : exponentPart cs₂ = (exponent, rest))
    (hfloat : ¬(fraction = [] ∧ exponent = none))
    (hq : decimalValue (Nat.ofDigitChars 10 (whole ++ fraction) 0,
      exponent.getD 0 - fraction.length) = q) :
    unsigned negative text = some (signedFloat negative q, rest) := by
  subst hq
  rw [unsigned, hwhole]
  simp only [hfraction, hexponent, if_neg hfloat]

theorem decimalValue_shift (n k : ℕ) (e : ℤ) :
    decimalValue (n * 10 ^ k, e) = decimalValue (n, e + k) := by
  rw [decimalValue, decimalValue, zpow_add₀ (by norm_num), zpow_natCast]
  push_cast
  ring

theorem ofDigitChars_append_zeros (ds : List Char) (k : ℕ) :
    Nat.ofDigitChars 10 (ds ++ List.replicate k '0') 0 = Nat.ofDigitChars 10 ds 0 * 10 ^ k := by
  rw [Nat.ofDigitChars_append, Nat.ofDigitChars_replicate_zero, Nat.mul_comm]

theorem ofDigitChars_zeros_append (k : ℕ) (ds : List Char) :
    Nat.ofDigitChars 10 (List.replicate k '0' ++ ds) 0 = Nat.ofDigitChars 10 ds 0 := by
  rw [Nat.ofDigitChars_append, Nat.ofDigitChars_replicate_zero, Nat.mul_zero]

theorem isDigit_of_mem_zeros {k : ℕ} {c : Char} (hc : c ∈ List.replicate k '0') :
    c.isDigit = true := by
  rw [List.eq_of_mem_replicate hc]
  rfl

section Positional

variable {first : Char} {ds cs : List Char} (negative : Bool)

/-- A number below one: zeros stand before its digits. -/
theorem unsigned_below_one (hds : ∀ c ∈ ds, c.isDigit = true) (hne : ds ≠ []) (hcs : NoNumber cs)
    (zeros : ℕ) :
    unsigned negative (['0', '.'] ++ List.replicate zeros '0' ++ ds ++ cs) =
      some (signedFloat negative
        (decimalValue (Nat.ofDigitChars 10 ds 0, -((zeros + ds.length : ℕ) : ℤ))), cs) := by
  have hfraction : ∀ c ∈ List.replicate zeros '0' ++ ds, c.isDigit = true := by
    intro c hc
    exact (List.mem_append.mp hc).elim isDigit_of_mem_zeros (hds c)
  have hvalue : Nat.ofDigitChars 10 (['0'] ++ (List.replicate zeros '0' ++ ds)) 0 =
      Nat.ofDigitChars 10 ds 0 := by
    rw [← ofDigitChars_zeros_append (zeros + 1) ds, List.replicate_succ]
    rfl
  have htext : ['0', '.'] ++ List.replicate zeros '0' ++ ds ++ cs =
      '0' :: '.' :: (List.replicate zeros '0' ++ ds ++ cs) := by simp
  rw [htext]
  refine unsigned_float negative rfl (fractionPart_append hfraction (by simp [hne]) hcs.noDigit)
    (exponentPart_of_ne fun c hc => (hcs c hc).2.2) (by simp [hne]) ?_
  rw [hvalue]
  simp

/-- A number without a fraction: zeros stand after its digits. -/
theorem unsigned_whole (hds : Whole (first :: ds)) (hfirst : first ≠ '0') (hcs : NoNumber cs)
    (zeros : ℕ) :
    unsigned negative (first :: ds ++ List.replicate zeros '0' ++ ['.', '0'] ++ cs) =
      some (signedFloat negative (decimalValue (Nat.ofDigitChars 10 (first :: ds) 0, zeros)), cs) := by
  have hwhole : Whole (first :: ds ++ List.replicate zeros '0') := by
    refine ⟨?_, Or.inr ⟨first, ds ++ List.replicate zeros '0', rfl, hfirst⟩⟩
    intro c hc
    exact (List.mem_append.mp hc).elim (hds.1 c) isDigit_of_mem_zeros
  rw [List.append_assoc]
  have hfraction : fractionPart ('.' :: (['0'] ++ cs)) = (['0'], cs) :=
    fractionPart_append (by simp) (by simp) hcs.noDigit
  refine unsigned_float negative (integerPart_append hwhole (by simp [NoDigit])) hfraction
    (exponentPart_of_ne fun c hc => (hcs c hc).2.2) (by simp) ?_
  have hzeros : ['0'] = List.replicate 1 '0' := rfl
  rw [hzeros, List.append_assoc, ← List.replicate_add, ofDigitChars_append_zeros, decimalValue_shift]
  simp

/-- A number with digits on both sides of its point, and perhaps an exponent. -/
theorem unsigned_split {fraction : List Char} {exponent : Option ℤ} {rest : List Char}
    (hds : Whole ds) (hfraction : ∀ c ∈ fraction, c.isDigit = true) (hne : fraction ≠ [])
    (hrest : exponentPart rest = (exponent, cs)) (hdigit : NoDigit rest) :
    unsigned negative (ds ++ '.' :: fraction ++ rest) =
      some (signedFloat negative (decimalValue (Nat.ofDigitChars 10 (ds ++ fraction) 0,
        exponent.getD 0 - fraction.length)), cs) := by
  rw [List.append_assoc]
  exact unsigned_float negative (integerPart_append hds (by simp [NoDigit]))
    (fractionPart_append hfraction hne hdigit) hrest (by simp [hne]) rfl

/-- A digit and an exponent. -/
theorem unsigned_scientific (hds : Whole ds) (e : ℤ) (hcs : NoDigit cs) :
    unsigned negative (ds ++ 'e' :: exponentText e ++ cs) =
      some (signedFloat negative (decimalValue (Nat.ofDigitChars 10 ds 0, e)), cs) := by
  rw [List.append_assoc]
  refine unsigned_float negative (integerPart_append hds (by simp [NoDigit]))
    (fractionPart_of_ne (by simp)) (exponentPart_text e hcs) (by simp) ?_
  simp

end Positional

/-- Wherever the point is placed, a text of `n` and an exponent has one value. -/
theorem unsigned_placePoint (negative : Bool) {n : ℕ} (hn : 0 < n) (e : ℤ) {cs : List Char}
    (hcs : NoNumber cs) :
    unsigned negative (placePoint n.repr.toList (n.repr.toList.length + e) ++ cs) =
      some (signedFloat negative (decimalValue (n, e)), cs) := by
  obtain ⟨first, ds, htext, hfirst⟩ := head_repr hn
  have hdigits : ∀ c ∈ first :: ds, c.isDigit = true := fun c hc => by
    rw [← htext] at hc
    exact isDigit_of_mem_repr hc
  have hvalue : Nat.ofDigitChars 10 (first :: ds) 0 = n := by rw [← htext, ofDigitChars_repr]
  have hwhole (ds : List Char) (h : ∀ c ∈ first :: ds, c.isDigit = true) : Whole (first :: ds) :=
    ⟨h, Or.inr ⟨first, ds, rfl, hfirst⟩⟩
  have hend : exponentPart cs = (none, cs) := exponentPart_of_ne fun c hc => (hcs c hc).2.2
  rw [htext, placePoint]
  split
  · next hrange =>
      split
      · next hbelow =>
          have hexp : -(((((first :: ds).length : ℕ) + e).natAbs + (first :: ds).length : ℕ) : ℤ) =
              e := by omega
          rw [unsigned_below_one negative hdigits (by simp) hcs, hvalue, hexp]
      · next habove =>
          split
          · next hright =>
              have hexp : (((((first :: ds).length : ℕ) + e).natAbs - (first :: ds).length : ℕ) :
                  ℤ) = e := by omega
              rw [unsigned_whole negative (hwhole ds hdigits) hfirst hcs, hvalue, hexp]
          · next hinside =>
              obtain ⟨k, hk⟩ : ∃ k : ℕ, (((first :: ds).length : ℕ) + e).natAbs = k + 1 :=
                ⟨_, (Nat.succ_pred_eq_of_pos (by omega)).symm⟩
              have hlength : k + 1 < (first :: ds).length := by omega
              have hne : (first :: ds).drop (k + 1) ≠ [] := by
                rw [Ne, List.drop_eq_nil_iff]
                omega
              have hexp : (none : Option ℤ).getD 0 - (((first :: ds).drop (k + 1)).length : ℕ) =
                  e := by
                rw [Option.getD_none, List.length_drop]
                omega
              rw [hk, List.take_succ_cons, unsigned_split negative
                (hwhole _ fun c hc => hdigits c (List.mem_of_mem_take (i := k + 1) hc))
                (fun c hc => hdigits c (List.mem_of_mem_drop hc)) hne hend hcs.noDigit,
                ← List.take_succ_cons, List.take_append_drop, hvalue, hexp]
  · next hrange =>
      split
      · next hsingle =>
          obtain rfl : ds = [] := by simpa using hsingle
          rw [List.append_nil, List.take_of_length_le (by simp),
            unsigned_scientific negative (hwhole [] hdigits) _ hcs.noDigit, hvalue]
          simp
      · next hmany =>
          have hne : (first :: ds).drop 1 ≠ [] := by simpa using hmany
          have htext : (first :: ds).take 1 ++ '.' :: (first :: ds).drop 1 ++
              'e' :: exponentText (((first :: ds).length : ℕ) + e - 1) ++ cs =
              [first] ++ '.' :: (first :: ds).drop 1 ++
                ('e' :: (exponentText (((first :: ds).length : ℕ) + e - 1) ++ cs)) := by simp
          rw [htext, unsigned_split negative (hwhole [] (by simpa using hdigits first (by simp)))
            (fun c hc => hdigits c (List.mem_of_mem_drop hc)) hne (exponentPart_text _ hcs.noDigit)
            (by simp [NoDigit])]
          have hexp : (some (((first :: ds).length : ℕ) + e - 1)).getD 0 -
              (((first :: ds).drop 1).length : ℕ) = e := by
            rw [Option.getD_some, List.length_drop, List.length_cons]
            omega
          rw [hexp, List.singleton_append, List.drop_one, List.tail_cons, hvalue]

theorem number_minus (cs : List Char) : number ('-' :: cs) = unsigned true cs := rfl

theorem number_of_unsigned {cs : List Char} {r : Json × List Char}
    (h : unsigned false cs = some r) : number cs = some r := by
  unfold number
  split
  · next cs => exact absurd h (by simp [unsigned, integerPart])
  · exact h

/-- `int.__repr__` is read back. -/
theorem number_intText {n : ℤ} (hn : fitsStr n = true) {cs : List Char} (hcs : NoNumber cs) :
    number (intText n ++ cs) = some (.int n, cs) := by
  have hlength : n.natAbs.repr.toList.length ≤ maxStrDigits := by
    rw [length_toList_repr]
    exact decide_eq_true_iff.mp hn
  cases n with
  | ofNat n =>
      refine number_of_unsigned ?_
      have htext : intText (Int.ofNat n) = n.repr.toList := rfl
      have hlength : n.repr.toList.length ≤ maxStrDigits := hlength
      rw [htext, hcs.integer false whole_repr hlength, ofDigitChars_repr]
      simp
  | negSucc n =>
      have htext : intText (Int.negSucc n) = '-' :: (n + 1).repr.toList := by
        have : (Int.negSucc n).repr = "-" ++ (n + 1).repr := rfl
        rw [intText, this, String.toList_append]
        rfl
      have hlength : (n + 1).repr.toList.length ≤ maxStrDigits := hlength
      rw [htext, List.cons_append, number, hcs.integer true whole_repr hlength, ofDigitChars_repr]
      rfl

theorem toDouble_zero : toDouble 0 = .finite 0 := rfl

theorem decimalValue_exactDecimal {q : ℚ} (hq : 0 < q) (hden : q.den = 2 ^ q.den.log2) :
    decimalValue (exactDecimal q) = q := by
  have hnum : (q.num.natAbs : ℚ) = q.num := by
    rw [← Int.cast_natCast, Int.natAbs_of_nonneg (Rat.num_nonneg.mpr hq.le)]
  have hten : (10 : ℚ) ^ q.den.log2 = 2 ^ q.den.log2 * 5 ^ q.den.log2 := by
    rw [← mul_pow]
    norm_num
  have hdiv : (q.num : ℚ) / 2 ^ q.den.log2 = q := by
    have := Rat.num_div_den q
    rwa [hden, Nat.cast_pow, Nat.cast_ofNat] at this
  rw [decimalValue, exactDecimal, zpow_neg, zpow_natCast, hten]
  push_cast
  rw [hnum]
  conv_rhs => rw [← hdiv]
  field_simp

/-- The digits that are written are read back as the number. -/
theorem toDouble_shortestDecimal {q : ℚ} (hq : 0 < q) (hdouble : IsDouble q) :
    toDouble (decimalValue (shortestDecimal q)) = .finite q := by
  rw [shortestDecimal]
  cases hfind : ((List.range 17).flatMap fun n => decimalsAround q (n + 1)).find? fun d =>
      decide (toDouble (decimalValue d) = .finite q) with
  | some d => simpa using List.find?_some hfind
  | none =>
      rw [Option.getD_none, decimalValue_exactDecimal hq hdouble.2]
      simpa [abs_of_pos hq] using hdouble.1

theorem shortestDecimal_pos {q : ℚ} (hq : 0 < q) (hdouble : IsDouble q) :
    0 < (shortestDecimal q).1 := by
  refine Nat.pos_of_ne_zero fun hzero => ?_
  have hread := toDouble_shortestDecimal hq hdouble
  rw [decimalValue, hzero, Nat.cast_zero, zero_mul, toDouble_zero, PyFloat.finite.injEq] at hread
  exact hq.ne hread

/-- `float.__repr__` is read back. -/
theorem unsigned_floatRepr (negative : Bool) {q : ℚ} (hq : 0 ≤ q) (hdouble : IsDouble q)
    {cs : List Char} (hcs : NoNumber cs) :
    unsigned negative (floatRepr q ++ cs) =
      some (.float (.finite (if negative then -q else q)), cs) := by
  rw [floatRepr]
  split
  · next hzero =>
      have hend : exponentPart cs = (none, cs) := exponentPart_of_ne fun c hc => (hcs c hc).2.2
      have hwhole : Whole ['0'] := ⟨by simp, Or.inl rfl⟩
      rw [hzero]
      refine (unsigned_split negative hwhole hwhole.1 (by simp) hend hcs.noDigit).trans ?_
      have hvalue : decimalValue (Nat.ofDigitChars 10 (['0'] ++ ['0']) 0,
          (none : Option ℤ).getD 0 - ((['0'].length : ℕ) : ℤ)) = 0 := by
        rw [decimalValue]
        exact zero_mul _
      rw [hvalue, signedFloat, toDouble_zero]
      cases negative <;> simp [PyFloat.neg]
  · next hzero =>
      have hpos : 0 < q := lt_of_le_of_ne hq (Ne.symm hzero)
      rw [unsigned_placePoint negative (shortestDecimal_pos hpos hdouble) _ hcs, signedFloat,
        toDouble_shortestDecimal hpos hdouble]
      cases negative <;> rfl

/-- A binary64 number is read back as it is written. -/
theorem number_floatText {q : ℚ} (hq : IsDouble q) {cs : List Char} (hcs : NoNumber cs) :
    number (floatText (.finite q) ++ cs) = some (.float (.finite q), cs) := by
  rcases lt_or_ge q 0 with hneg | hpos
  · have hdouble : IsDouble (-q) := by
      rw [IsDouble, abs_neg, Rat.neg_den]
      exact hq
    have hread := unsigned_floatRepr true (neg_nonneg.mpr hneg.le) hdouble hcs
    have htext : floatText (.finite q) = '-' :: floatRepr (-q) := if_pos hneg
    rw [htext, List.cons_append, number_minus, hread, if_pos rfl, neg_neg]
  · have htext : floatText (.finite q) = floatRepr q := if_neg (not_lt.mpr hpos)
    rw [htext]
    exact number_of_unsigned (unsigned_floatRepr false hpos hq hcs)

end Json

end Python
