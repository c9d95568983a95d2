import FlipperBack.Domain.Pseudo
import FlipperBack.Python.Number
import FlipperBack.Python.UpperAscii

/-!
# Pseudos that are accepted

`normalizeAndValidate` is to accept the texts of three ASCII letters or digits,
white space around them apart. It checks the length and the characters of the
upper-cased text, so that it also accepts some texts with characters whose upper
case is in ASCII while they are not, and of other lengths
(`normalizeAndValidate_ascii`).
-/

namespace FlipperBack

open Python

/-- Three ASCII letters or digits. -/
def ThreeAscii (cs : List Char) : Prop :=
  cs.length = 3 ∧ ∀ c ∈ cs, c.isAlphanum

/-- The characters of a text but for the white space around them. -/
def stripped (raw : String) : List Char :=
  stripChars raw.toList

/-- The text is a pseudo where it is three ASCII letters or digits, and is refused
where it is not. -/
structure Specified (raw : String) : Prop where
  accepted : ThreeAscii (stripped raw) →
    normalizeAndValidate raw = .ok (String.ofList ((stripped raw).map Char.toUpper))
  refused : ¬ ThreeAscii (stripped raw) →
    ∃ reason, normalizeAndValidate raw = .error (.invalidPseudo reason)

/-- The text has one of the characters of `upperAscii`, otherwise ASCII letters and
digits only, and is three characters long where each of these counts for its letters. -/
structure Folded (raw : String) : Prop where
  outside : ∃ c ∈ stripped raw, c ∈ upperAscii.map Prod.fst
  others : ∀ c ∈ stripped raw, c.isAlphanum ∨ c ∈ upperAscii.map Prod.fst
  length : ((stripped raw).map asciiLength).sum = 3

/-! ## The pattern -/

theorem pseudoChar_iff {c : Char} : pseudoChar c ↔ c.isAlphanum ∧ c.toUpper = c := by
  rw [isAlphanum_iff, toUpper_eq_iff]
  simp only [pseudoChar, Bool.or_eq_true, Bool.and_eq_true, decide_eq_true_eq, Char.le_def,
    UInt32.le_iff_toNat_le, Char.toNat_val]
  change (0x41 ≤ c.toNat ∧ c.toNat ≤ 0x5A) ∨ (0x30 ≤ c.toNat ∧ c.toNat ≤ 0x39) ↔ _
  omega

theorem pseudoPattern_iff {s : String} :
    pseudoPattern s ↔ ThreeAscii s.toList ∧ ∀ c ∈ s.toList, c.toUpper = c := by
  rw [pseudoPattern, Bool.and_eq_true, beq_iff_eq, List.all_eq_true, ThreeAscii, and_assoc]
  simp only [pseudoChar_iff, forall_and]

theorem toList_upper_strip (raw : String) :
    (upper (strip raw)).toList = (stripped raw).flatMap upperChar := by
  rw [upper, String.toList_ofList, strip, String.toList_ofList, stripped]

/-- The upper case of a text is a pseudo where its characters become ASCII letters
and digits and there are three of these. -/
theorem pseudoPattern_upper_iff (raw : String) :
    pseudoPattern (upper (strip raw)) ↔
      (∀ c ∈ stripped raw, c.isAlphanum ∨ c ∈ upperAscii.map Prod.fst) ∧
        ((stripped raw).map asciiLength).sum = 3 := by
  rw [pseudoPattern_iff, ThreeAscii, toList_upper_strip]
  constructor
  · rintro ⟨⟨hlength, hall⟩, -⟩
    have hchars : ∀ c ∈ stripped raw, c.isAlphanum ∨ c ∈ upperAscii.map Prod.fst :=
      fun c hc => (upperChar_alphanum_iff c).mp fun u hu => hall u (List.mem_flatMap_of_mem hc hu)
    rw [length_flatMap_upperChar hchars] at hlength
    exact ⟨hchars, hlength⟩
  · rintro ⟨hchars, hlength⟩
    refine ⟨⟨(length_flatMap_upperChar hchars).trans hlength, fun u hu => ?_⟩, fun u hu => ?_⟩
    · obtain ⟨c, hc, hu⟩ := List.mem_flatMap.mp hu
      exact (upperChar_alphanum_iff c).mpr (hchars c hc) u hu
    · obtain ⟨c, hc, hu⟩ := List.mem_flatMap.mp hu
      exact toUpper_of_mem_upperChar (hchars c hc) hu

/-- What a call returns, in terms of the pattern. -/
theorem normalizeAndValidate_cases (raw : String) :
    pseudoPattern (upper (strip raw)) ∧
        normalizeAndValidate raw = .ok (upper (strip raw)) ∨
      ¬ pseudoPattern (upper (strip raw)) ∧
        ∃ reason, normalizeAndValidate raw = .error (.invalidPseudo reason) := by
  unfold normalizeAndValidate
  split
  · next hempty => exact Or.inr ⟨hempty ▸ by decide, _, rfl⟩
  · split
    · next hpattern => exact Or.inl ⟨hpattern, rfl⟩
    · next hpattern => exact Or.inr ⟨hpattern, _, rfl⟩

/-! ## The texts -/

/-- The texts on which the code does what is specified. -/
theorem specified_iff (raw : String) : Specified raw ↔ ¬ Folded raw := by
  constructor
  · rintro ⟨-, hrefused⟩ ⟨⟨c, hc, houtside⟩, hothers, hlength⟩
    have hthree : ¬ ThreeAscii (stripped raw) :=
      fun hthree => (upperChar_of_upperAscii houtside).1 (hthree.2 c hc)
    obtain ⟨reason, hreason⟩ := hrefused hthree
    have hpattern := (pseudoPattern_upper_iff raw).mpr ⟨hothers, hlength⟩
    rcases normalizeAndValidate_cases raw with ⟨-, hok⟩ | ⟨hnot, -⟩
    · rw [hok] at hreason
      cases hreason
    · exact hnot hpattern
  · intro hfolded
    constructor
    · rintro ⟨hlength, hall⟩
      have hpattern : pseudoPattern (upper (strip raw)) :=
        (pseudoPattern_upper_iff raw).mpr ⟨fun c hc => Or.inl (hall c hc),
          (map_asciiLength_of_isAlphanum hall).trans hlength⟩
      rcases normalizeAndValidate_cases raw with ⟨-, hok⟩ | ⟨hnot, -⟩
      · rw [hok, ← flatMap_upperChar_of_isAlphanum hall, ← toList_upper_strip, String.ofList_toList]
      · exact absurd hpattern hnot
    · intro hthree
      rcases normalizeAndValidate_cases raw with ⟨hpattern, -⟩ | ⟨-, hrefused⟩
      · obtain ⟨hothers, hlength⟩ := (pseudoPattern_upper_iff raw).mp hpattern
        exfalso
        by_cases hall : ∀ c ∈ stripped raw, c.isAlphanum
        · exact hthree ⟨(map_asciiLength_of_isAlphanum hall).symm.trans hlength, hall⟩
        · push Not at hall
          obtain ⟨c, hc, hnot⟩ := hall
          exact hfolded ⟨⟨c, hc, (hothers c hc).resolve_left hnot⟩, hothers, hlength⟩
      · exact hrefused

/-- What is returned is a fixed point. -/
theorem normalizeAndValidate_idem {raw pseudo : String}
    (h : normalizeAndValidate raw = .ok pseudo) : normalizeAndValidate pseudo = .ok pseudo := by
  rcases normalizeAndValidate_cases raw with ⟨hpattern, hok⟩ | ⟨-, reason, herror⟩
  · obtain rfl := Except.ok.inj (hok.symm.trans h)
    obtain ⟨⟨hlength, hall⟩, hupper⟩ := pseudoPattern_iff.mp hpattern
    generalize upper (strip raw) = pseudo at hlength hall hupper
    have hstripped : stripped pseudo = pseudo.toList :=
      stripChars_of_forall fun c hc => isSpace_of_isAlphanum (hall c hc)
    have hspec : Specified pseudo := by
      refine (specified_iff pseudo).mpr fun hfolded => ?_
      obtain ⟨c, hc, houtside⟩ := hfolded.outside
      rw [hstripped] at hc
      exact (upperChar_of_upperAscii houtside).1 (hall c hc)
    have haccepted := hspec.accepted (hstripped ▸ ⟨hlength, hall⟩)
    rwa [hstripped, List.map_congr_left hupper, List.map_id', String.ofList_toList] at haccepted
  · rw [herror] at h
    cases h

/-- Texts that are the same up to ASCII case and to the white space around them are
the same pseudo. -/
theorem normalizeAndValidate_congr {raw raw' : String}
    (h : (stripped raw).map Char.toUpper = (stripped raw').map Char.toUpper) :
    (normalizeAndValidate raw).toOption = (normalizeAndValidate raw').toOption := by
  have hupper : upper (strip raw) = upper (strip raw') := by
    rw [← String.toList_inj, toList_upper_strip, toList_upper_strip]
    exact flatMap_upperChar_congr h
  rcases normalizeAndValidate_cases raw with ⟨hpattern, hok⟩ | ⟨hpattern, reason, herror⟩ <;>
    rcases normalizeAndValidate_cases raw' with ⟨hpattern', hok'⟩ | ⟨hpattern', reason', herror'⟩
  · rw [hok, hok', hupper]
  · rw [hupper] at hpattern
    exact absurd hpattern hpattern'
  · rw [← hupper] at hpattern'
    exact absurd hpattern' hpattern
  · rw [herror, herror']
    rfl

/-- A text is treated as specified where it is not `Folded`, and no more; what is
returned is a fixed point, and the ASCII case of a text and the white space around it
do not count. -/
theorem normalizeAndValidate_ascii (raw : String) :
    (Specified raw ↔ ¬ Folded raw) ∧
      (∀ pseudo, normalizeAndValidate raw = .ok pseudo →
        normalizeAndValidate pseudo = .ok pseudo) ∧
      ∀ raw', (stripped raw).map Char.toUpper = (stripped raw').map Char.toUpper →
        (normalizeAndValidate raw).toOption = (normalizeAndValidate raw').toOption :=
  ⟨specified_iff raw, fun _ => normalizeAndValidate_idem, fun _ => normalizeAndValidate_congr⟩

/-- Two characters, and one, that are accepted. -/
theorem normalizeAndValidate_folded :
    normalizeAndValidate "ß1" = .ok "SS1" ∧ normalizeAndValidate "ﬃ" = .ok "FFI" ∧
      ¬ Specified "ß1" ∧ ¬ Specified "ﬃ" := by
  have hsharp : normalizeAndValidate "ß1" = .ok "SS1" := by decide +kernel
  have hffi : normalizeAndValidate "ﬃ" = .ok "FFI" := by decide +kernel
  refine ⟨hsharp, hffi, fun hspec => ?_, fun hspec => ?_⟩
  · obtain ⟨reason, herror⟩ := hspec.refused fun hthree => absurd hthree.1 (by decide +kernel)
    rw [hsharp] at herror
    cases herror
  · obtain ⟨reason, herror⟩ := hspec.refused fun hthree => absurd hthree.1 (by decide +kernel)
    rw [hffi] at herror
    cases herror

end FlipperBack
