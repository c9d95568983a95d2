import FlipperBack.Python.Text
import Mathlib.Algebra.Ring.Nat
import Mathlib.Data.List.Basic

/-!
# Text whose upper case is ASCII

The upper case of a text is made of ASCII letters and digits where each of its
characters is one of them or one of the ten of `upperAscii`
(`upperChar_alphanum_iff`).
-/

namespace Python

/-- The characters outside ASCII whose upper case is ASCII letters, with the
number of these. -/
def upperAscii : List (Char × ℕ) :=
  [('ß', 2), ('ı', 1), ('ſ', 1), ('ﬀ', 2), ('ﬁ', 2), ('ﬂ', 2), ('ﬃ', 3), ('ﬄ', 3), ('ﬅ', 2),
    ('ﬆ', 2)]

/-- How many ASCII letters and digits a character becomes, where it becomes some. -/
def asciiLength (c : Char) : ℕ :=
  (upperAscii.lookup c).getD 1

variable {c : Char}

/-! ## ASCII -/

theorem isAlphanum_iff : c.isAlphanum ↔ (0x41 ≤ c.toNat ∧ c.toNat ≤ 0x5A) ∨
    (0x61 ≤ c.toNat ∧ c.toNat ≤ 0x7A) ∨ (0x30 ≤ c.toNat ∧ c.toNat ≤ 0x39) := by
  change (decide ('A' ≤ c ∧ c ≤ 'Z') || decide ('a' ≤ c) && decide (c ≤ 'z') ||
    decide ('0' ≤ c) && decide (c ≤ '9')) = true ↔ _
  simp only [Bool.or_eq_true, Bool.and_eq_true, decide_eq_true_eq, or_assoc]
  rfl

theorem toNat_toUpper (c : Char) : c.toUpper.toNat =
    if 0x61 ≤ c.toNat ∧ c.toNat ≤ 0x7A then c.toNat - 32 else c.toNat := by
  unfold Char.toUpper
  split
  · next h =>
      have hlower : 0x61 ≤ c.toNat ∧ c.toNat ≤ 0x7A := h
      rw [if_pos hlower, Char.toNat_mk, UInt32.toNat_add, Char.toNat_val]
      change (c.toNat + 4294967264) % 4294967296 = c.toNat - 32
      omega
  · next h => exact (if_neg h).symm

theorem toUpper_toUpper (c : Char) : c.toUpper.toUpper = c.toUpper := by
  refine Char.toNat_inj.mp ?_
  rw [toNat_toUpper c.toUpper, toNat_toUpper c]
  split
  · split
    · omega
    · rfl
  · omega

theorem toUpper_eq_iff : c.toUpper = c ↔ ¬ (0x61 ≤ c.toNat ∧ c.toNat ≤ 0x7A) := by
  rw [← Char.toNat_inj, toNat_toUpper]
  split <;> omega

theorem isAlphanum_toUpper (hc : c.isAlphanum) : c.toUpper.isAlphanum := by
  rw [isAlphanum_iff] at hc ⊢
  rw [toNat_toUpper]
  split <;> omega

theorem isSpace_of_isAlphanum (hc : c.isAlphanum) : isSpace c = false := by
  rw [isAlphanum_iff] at hc
  simp only [isSpace, Bool.or_eq_false_iff, Bool.and_eq_false_iff, decide_eq_false_iff_not,
    beq_eq_false_iff_ne]
  omega

theorem asciiLength_of_isAlphanum (hc : c.isAlphanum) : asciiLength c = 1 := by
  have houtside : ∀ r ∈ upperAscii, 0x7A < r.1.toNat := by decide
  have hnone : upperAscii.lookup c = none := by
    rw [List.lookup_eq_none_iff]
    intro r hr
    have hlarge := houtside r hr
    rw [isAlphanum_iff] at hc
    have hne : c ≠ r.1 := fun h => by
      rw [h] at hc
      omega
    exact bne_iff_ne.mpr hne
  rw [asciiLength, hnone]
  rfl

/-- The ASCII letters are the only block of the table in ASCII, and its upper case is in
ASCII for two others. -/
theorem upperRanges_cases : ∀ r ∈ upperRanges, r = (0x61, 26, 1, -32) ∨
    0x7A < r.1 ∧ (0x7A < (r.1 : ℤ) + r.2.2.2 ∨ r = (0x131, 1, 1, -232) ∨
      r = (0x17F, 1, 1, -300)) := by
  decide +kernel

theorem upperChar_of_isAlphanum (hc : c.isAlphanum) : upperChar c = [c.toUpper] := by
  have hspecial : ∀ r ∈ upperSpecial, 0x7A < r.1 := by decide
  rw [isAlphanum_iff] at hc
  have hnone : upperSpecial.lookup c.toNat = none := by
    rw [List.lookup_eq_none_iff]
    intro r hr
    have hlarge := hspecial r hr
    have hne : c.toNat ≠ r.1 := by omega
    exact bne_iff_ne.mpr hne
  rw [upperChar, hnone]
  dsimp only
  split
  · next hrange =>
      have hbounds := List.find?_some hrange
      simp only [Bool.and_eq_true, decide_eq_true_eq] at hbounds
      rcases upperRanges_cases _ (List.mem_of_find?_eq_some hrange) with hletters | ⟨hlarge, -⟩
      · cases hletters
        rw [← Char.ofNat_toNat c.toUpper, toNat_toUpper, if_pos (by omega)]
        congr 2
        omega
      · dsimp only at hlarge
        omega
  · next hrange =>
      have hupper : ¬ (0x61 ≤ c.toNat ∧ c.toNat ≤ 0x7A) := by
        intro hlower
        refine List.find?_eq_none.mp hrange (0x61, 26, 1, -32) List.mem_cons_self ?_
        simp only [Bool.and_eq_true, decide_eq_true_eq, Nat.mod_one, beq_self_eq_true, and_true]
        omega
      rw [toUpper_eq_iff.mpr hupper]

/-- The upper case of a character is that of its ASCII upper case. -/
theorem upperChar_toUpper (c : Char) : upperChar c.toUpper = upperChar c := by
  by_cases hc : c.isAlphanum
  · rw [upperChar_of_isAlphanum hc, upperChar_of_isAlphanum (isAlphanum_toUpper hc),
      toUpper_toUpper]
  · have hsame : c.toUpper = c := toUpper_eq_iff.mpr fun hlower => hc (isAlphanum_iff.mpr (by omega))
    rw [hsame]

/-! ## Outside ASCII -/

/-- The ten characters. -/
theorem upperChar_of_upperAscii (hc : c ∈ upperAscii.map Prod.fst) :
    ¬ c.isAlphanum ∧ (∀ u ∈ upperChar c, u.isAlphanum ∧ u.toUpper = u) ∧
      (upperChar c).length = asciiLength c := by
  have hall : (upperAscii.map Prod.fst).all fun c => !c.isAlphanum &&
      ((upperChar c).all fun u => u.isAlphanum && u.toUpper = u) &&
      (upperChar c).length = asciiLength c := by decide
  have hcase := List.all_eq_true.mp hall c hc
  simpa [and_assoc] using hcase

theorem isAlphanum_ofNat_le {n : ℕ} (h : (Char.ofNat n).isAlphanum) : n ≤ 0x7A := by
  by_cases hvalid : n.isValidChar
  · have htoNat : (Char.ofNat n).toNat = n := by
      rw [Char.ofNat, dif_pos hvalid]
      rfl
    rw [isAlphanum_iff, htoNat] at h
    omega
  · rw [Char.ofNat, dif_neg hvalid] at h
    exact absurd h (by decide)

theorem upperAscii_of_special {us : List ℕ} (h : upperSpecial.lookup c.toNat = some us)
    (hus : ∀ u ∈ us.map Char.ofNat, u.isAlphanum) : c ∈ upperAscii.map Prod.fst := by
  have hmem : (c.toNat, us) ∈ upperSpecial := by
    obtain ⟨l₁, l₂, heq, -⟩ := List.lookup_eq_some_iff.mp h
    simp [heq]
  have hcases : ∀ r ∈ upperSpecial, (r.2.map Char.ofNat).all Char.isAlphanum →
      Char.ofNat r.1 ∈ upperAscii.map Prod.fst := by decide
  have hc := hcases _ hmem (List.all_eq_true.mpr hus)
  rwa [Char.ofNat_toNat] at hc

/-- A block whose upper case is in ASCII is that of the ASCII letters, or one of two
characters. -/
theorem upperAscii_of_range {first count stride : ℕ} {shift : ℤ}
    (hmem : (first, count, stride, shift) ∈ upperRanges) (hfirst : first ≤ c.toNat)
    (hlast : c.toNat < first + count * stride)
    (hu : (Char.ofNat ((c.toNat : ℤ) + shift).toNat).isAlphanum) :
    c.isAlphanum ∨ c ∈ upperAscii.map Prod.fst := by
  rcases upperRanges_cases _ hmem with hblock | ⟨-, hlarge | hblock | hblock⟩
  · cases hblock
    exact Or.inl (isAlphanum_iff.mpr (by omega))
  · have hle := isAlphanum_ofNat_le hu
    dsimp only at hlarge
    omega
  · cases hblock
    have hc : c = 'ı' := Char.toNat_inj.mp (show c.toNat = 0x131 by omega)
    exact Or.inr (hc ▸ by decide)
  · cases hblock
    have hc : c = 'ſ' := Char.toNat_inj.mp (show c.toNat = 0x17F by omega)
    exact Or.inr (hc ▸ by decide)

theorem upperChar_alphanum_iff (c : Char) :
    (∀ u ∈ upperChar c, u.isAlphanum) ↔ c.isAlphanum ∨ c ∈ upperAscii.map Prod.fst := by
  constructor
  · intro h
    unfold upperChar at h
    split at h
    · next hspecial => exact Or.inr (upperAscii_of_special hspecial h)
    · split at h
      · next hrange =>
          have hbounds := List.find?_some hrange
          simp only [Bool.and_eq_true, decide_eq_true_eq] at hbounds
          exact upperAscii_of_range (List.mem_of_find?_eq_some hrange) hbounds.1.1 hbounds.1.2
            (h _ (List.mem_singleton_self _))
      · exact Or.inl (h c (List.mem_singleton_self c))
  · rintro (hc | hc) u hu
    · rw [upperChar_of_isAlphanum hc, List.mem_singleton] at hu
      exact hu ▸ isAlphanum_toUpper hc
    · exact ((upperChar_of_upperAscii hc).2.1 u hu).1

/-! ## Texts -/

/-- The letters are upper case. -/
theorem toUpper_of_mem_upperChar (hc : c.isAlphanum ∨ c ∈ upperAscii.map Prod.fst) {u : Char}
    (hu : u ∈ upperChar c) : u.toUpper = u := by
  rcases hc with hc | hc
  · rw [upperChar_of_isAlphanum hc, List.mem_singleton] at hu
    exact hu ▸ toUpper_toUpper c
  · exact ((upperChar_of_upperAscii hc).2.1 u hu).2

theorem length_upperChar (hc : c.isAlphanum ∨ c ∈ upperAscii.map Prod.fst) :
    (upperChar c).length = asciiLength c := by
  rcases hc with hc | hc
  · rw [upperChar_of_isAlphanum hc, asciiLength_of_isAlphanum hc]
    rfl
  · exact (upperChar_of_upperAscii hc).2.2

theorem length_flatMap_upperChar {cs : List Char}
    (h : ∀ c ∈ cs, c.isAlphanum ∨ c ∈ upperAscii.map Prod.fst) :
    (cs.flatMap upperChar).length = (cs.map asciiLength).sum := by
  rw [List.length_flatMap]
  congr 1
  exact List.map_congr_left fun c hc => length_upperChar (h c hc)

theorem flatMap_upperChar_of_isAlphanum {cs : List Char} (h : ∀ c ∈ cs, c.isAlphanum) :
    cs.flatMap upperChar = cs.map Char.toUpper := by
  rw [List.map_eq_flatMap]
  exact List.flatMap_congr fun c hc => upperChar_of_isAlphanum (h c hc)

theorem map_asciiLength_of_isAlphanum {cs : List Char} (h : ∀ c ∈ cs, c.isAlphanum) :
    (cs.map asciiLength).sum = cs.length := by
  rw [List.map_congr_left fun c hc => asciiLength_of_isAlphanum (h c hc)]
  simp

theorem flatMap_upperChar_congr {cs cs' : List Char}
    (h : cs.map Char.toUpper = cs'.map Char.toUpper) :
    cs.flatMap upperChar = cs'.flatMap upperChar := by
  have hupper (xs : List Char) : xs.flatMap upperChar = (xs.map Char.toUpper).flatMap upperChar := by
    rw [List.flatMap_map]
    exact List.flatMap_congr fun c _ => (upperChar_toUpper c).symm
  rw [hupper cs, hupper cs', h]

end Python
