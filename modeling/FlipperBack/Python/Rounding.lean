import FlipperBack.Python.Float
import Mathlib.Algebra.Order.Floor.Ring
import Mathlib.Data.Nat.Prime.Basic
import Mathlib.Data.Rat.Lemmas
import Mathlib.Tactic.FieldSimp
import Mathlib.Tactic.Linarith
import Mathlib.Tactic.Positivity
import Mathlib.Tactic.Ring

/-!
# What is rounded is a binary64 number

`toDouble` gives back what it has rounded once, so that every finite value that it
makes is a binary64 number (`isDouble_of_toDouble`).
-/

namespace Python

/-! ## Rounding to an integer -/

theorem roundHalfEven_intCast (n : ℤ) : roundHalfEven n = n := by
  simp [roundHalfEven]

theorem le_roundHalfEven {n : ℤ} {q : ℚ} (h : n ≤ q) : n ≤ roundHalfEven q := by
  have hbelow : n ≤ ⌊q⌋ := Int.le_floor.mpr h
  unfold roundHalfEven
  dsimp only
  split_ifs <;> omega

theorem roundHalfEven_le {n : ℤ} {q : ℚ} (h : q ≤ n) : roundHalfEven q ≤ n := by
  have hbelow : ⌊q⌋ ≤ n := by exact_mod_cast (Int.floor_le q).trans h
  unfold roundHalfEven
  dsimp only
  rcases hbelow.lt_or_eq with hlt | heq
  · split_ifs <;> omega
  · have hexact : q - ⌊q⌋ < 1 / 2 := by
      rw [heq]
      linarith
    rw [if_pos hexact, heq]

/-! ## The first binary digit -/

/-- A positive number against the powers of two of its numerator and denominator. -/
theorem pow_le_and_lt {q : ℚ} (hq : 0 < q) {guess : ℤ}
    (hguess : guess = (q.num.natAbs.log2 : ℤ) - q.den.log2) :
    (2 : ℚ) ^ (guess - 1) ≤ q ∧ q < 2 ^ (guess + 1) := by
  have hnumpos : q.num.natAbs ≠ 0 := Int.natAbs_ne_zero.mpr (Rat.num_pos.mpr hq).ne'
  have hnum : (q.num.natAbs : ℚ) = q * q.den := by
    rw [Rat.mul_den_eq_num, Nat.cast_natAbs, abs_of_pos (Rat.num_pos.mpr hq)]
  have hden : (0 : ℚ) < q.den := by exact_mod_cast q.den_pos
  have hnumle : (2 : ℚ) ^ (q.num.natAbs.log2 : ℤ) ≤ q.num.natAbs := by
    exact_mod_cast Nat.log2_self_le hnumpos
  have hnumlt : (q.num.natAbs : ℚ) < 2 ^ ((q.num.natAbs.log2 : ℤ) + 1) := by
    exact_mod_cast Nat.lt_log2_self
  have hdenle : (2 : ℚ) ^ (q.den.log2 : ℤ) ≤ q.den := by
    exact_mod_cast Nat.log2_self_le q.den_ne_zero
  have hdenlt : (q.den : ℚ) < 2 ^ ((q.den.log2 : ℤ) + 1) := by
    exact_mod_cast Nat.lt_log2_self
  constructor
  · refine le_of_mul_le_mul_right ?_ hden
    calc (2 : ℚ) ^ (guess - 1) * q.den
        ≤ 2 ^ (guess - 1) * 2 ^ ((q.den.log2 : ℤ) + 1) :=
          mul_le_mul_of_nonneg_left hdenlt.le (zpow_nonneg zero_le_two _)
      _ = 2 ^ (q.num.natAbs.log2 : ℤ) := by
          rw [← zpow_add₀ two_ne_zero]
          congr 1
          omega
      _ ≤ q * q.den := hnum ▸ hnumle
  · refine lt_of_mul_lt_mul_right ?_ hden.le
    calc q * q.den < 2 ^ ((q.num.natAbs.log2 : ℤ) + 1) := hnum ▸ hnumlt
      _ = 2 ^ (guess + 1) * 2 ^ (q.den.log2 : ℤ) := by
          rw [← zpow_add₀ two_ne_zero]
          congr 1
          omega
      _ ≤ 2 ^ (guess + 1) * q.den := mul_le_mul_of_nonneg_left hdenle (zpow_nonneg zero_le_two _)

theorem binaryExponent_le {q : ℚ} (hq : 0 < q) : 2 ^ binaryExponent q ≤ q := by
  unfold binaryExponent
  dsimp only
  split
  · exact (pow_le_and_lt hq rfl).1
  · next hge => exact not_lt.mp hge

theorem lt_binaryExponent {q : ℚ} (hq : 0 < q) : q < 2 ^ (binaryExponent q + 1) := by
  unfold binaryExponent
  dsimp only
  split
  · next hlt => simpa using hlt
  · exact (pow_le_and_lt hq rfl).2

theorem binaryExponent_lt {q : ℚ} (hq : 0 < q) {e : ℤ} (h : q < 2 ^ e) : binaryExponent q < e :=
  (zpow_lt_zpow_iff_right₀ one_lt_two).mp ((binaryExponent_le hq).trans_lt h)

/-! ## Rounding twice -/

/-- The power of two in which a number is rounded. -/
theorem toDouble_eq {q r : ℚ} (hq : q ≠ 0) (h : toDouble q = .finite r) :
    r = roundHalfEven (q / 2 ^ max (-1074) (binaryExponent q - 52)) *
      2 ^ max (-1074) (binaryExponent q - 52) ∧ r < 2 ^ 1024 := by
  rw [toDouble, if_neg hq] at h
  dsimp only at h
  split at h
  · next hlt =>
      obtain rfl := PyFloat.finite.inj h
      exact ⟨rfl, hlt⟩
  · cases h

/-- A multiple of a power of two that is not below its last digit is rounded to itself. -/
theorem toDouble_of_multiple {r : ℚ} (hr : r < 2 ^ 1024) {m ulp : ℤ} (hm : r = m * 2 ^ ulp)
    (hulp : max (-1074) (binaryExponent r - 52) ≤ ulp) : toDouble r = .finite r := by
  unfold toDouble
  dsimp only
  set ulp' : ℤ := max (-1074) (binaryExponent r - 52)
  have hpow : (2 : ℚ) ^ ulp' ≠ 0 := zpow_ne_zero _ two_ne_zero
  have hdiv : r / 2 ^ ulp' = ((m * 2 ^ (ulp - ulp').toNat : ℤ) : ℚ) := by
    rw [div_eq_iff hpow, hm, Int.cast_mul, mul_assoc, Int.cast_pow, Int.cast_ofNat,
      ← zpow_natCast, ← zpow_add₀ two_ne_zero]
    congr 2
    omega
  split
  · next hzero => rw [hzero]
  · rw [hdiv, roundHalfEven_intCast, ← hdiv, div_mul_cancel₀ r hpow, if_pos hr]

/-- What is rounded once is a multiple of a power of two, and is rounded to itself. -/
theorem toDouble_toDouble {q r : ℚ} (hq : 0 ≤ q) (h : toDouble q = .finite r) :
    0 ≤ r ∧ toDouble r = .finite r ∧ ∃ m ulp : ℤ, r = m * 2 ^ ulp := by
  rcases hq.eq_or_lt with rfl | hq
  · obtain rfl : 0 = r := PyFloat.finite.inj h
    exact ⟨le_rfl, h, 0, 0, by simp⟩
  · obtain ⟨hr, hlt⟩ := toDouble_eq hq.ne' h
    set ulp : ℤ := max (-1074) (binaryExponent q - 52)
    set m : ℤ := roundHalfEven (q / 2 ^ ulp)
    have hpow : (0 : ℚ) < 2 ^ ulp := zpow_pos two_pos _
    have hm₀ : 0 ≤ m := le_roundHalfEven (by
      rw [Int.cast_zero]
      exact div_nonneg hq.le hpow.le)
    have hm₁ : m ≤ 2 ^ 53 := by
      refine roundHalfEven_le ?_
      rw [div_le_iff₀ hpow]
      calc q ≤ 2 ^ (binaryExponent q + 1) := (lt_binaryExponent hq).le
        _ ≤ 2 ^ (53 + ulp) := zpow_le_zpow_right₀ one_le_two (by omega)
        _ = ((2 ^ 53 : ℤ) : ℚ) * 2 ^ ulp := by
            rw [zpow_add₀ two_ne_zero]
            norm_num
    have hr₀ : 0 ≤ r := hr ▸ mul_nonneg (by exact_mod_cast hm₀) hpow.le
    refine ⟨hr₀, ?_, m, ulp, hr⟩
    rcases hr₀.eq_or_lt with hzero | hpos
    · rw [← hzero]
      rfl
    · rcases hm₁.lt_or_eq with hm₂ | hm₂
      · have hlast : r < 2 ^ (53 + ulp) := by
          rw [hr, zpow_add₀ two_ne_zero]
          exact mul_lt_mul_of_pos_right (by exact_mod_cast hm₂) hpow
        have hexp := binaryExponent_lt hpos hlast
        exact toDouble_of_multiple hlt hr (by omega)
      · -- The rounding has gone up to the next power of two.
        have hr' : r = (2 ^ 52 : ℤ) * 2 ^ (ulp + 1) := by
          rw [hr, hm₂, zpow_add₀ two_ne_zero]
          norm_num
          ring
        have hlast : r < 2 ^ (54 + ulp) := by
          rw [hr, hm₂, zpow_add₀ two_ne_zero]
          refine mul_lt_mul_of_pos_right ?_ hpow
          norm_num
        have hexp := binaryExponent_lt hpos hlast
        exact toDouble_of_multiple hlt hr' (by omega)

/-- A multiple of a power of two is dyadic. -/
theorem den_of_multiple {r : ℚ} {m ulp : ℤ} (hr : r = m * 2 ^ ulp) :
    r.den = 2 ^ r.den.log2 := by
  have hdvd : r.den ∣ 2 ^ (-ulp).toNat := by
    have hfrac : r = Rat.divInt (m * 2 ^ ulp.toNat) (2 ^ (-ulp).toNat) := by
      have hpow : ((2 ^ (-ulp).toNat : ℤ) : ℚ) ≠ 0 := by
        rw [Int.cast_pow]
        exact pow_ne_zero _ two_ne_zero
      rw [Rat.divInt_eq_div, eq_div_iff hpow, hr, mul_assoc, Int.cast_mul, Int.cast_pow,
        Int.cast_pow, Int.cast_ofNat, ← zpow_natCast, ← zpow_natCast, ← zpow_add₀ two_ne_zero]
      congr 2
      omega
    have hden := Rat.den_dvd (m * 2 ^ ulp.toNat) (2 ^ (-ulp).toNat)
    rw [← hfrac] at hden
    exact_mod_cast hden
  obtain ⟨k, -, hk⟩ := (Nat.dvd_prime_pow Nat.prime_two).mp hdvd
  rw [hk, Nat.log2_two_pow]

/-- What is rounded to a number is rounded to a binary64 number. -/
theorem isDouble_of_toDouble {q r : ℚ} (hq : 0 ≤ q) (h : toDouble q = .finite r) :
    IsDouble r := by
  obtain ⟨hr, htwice, m, ulp, hm⟩ := toDouble_toDouble hq h
  exact ⟨by rwa [abs_of_nonneg hr], den_of_multiple hm⟩

theorem IsDouble.neg {q : ℚ} (h : IsDouble q) : IsDouble (-q) := by
  rw [IsDouble, abs_neg, Rat.neg_den]
  exact h

end Python
