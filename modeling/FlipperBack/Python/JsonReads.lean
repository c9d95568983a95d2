import FlipperBack.Python.JsonText
import FlipperBack.Python.Rounding

/-!
# What a JSON text is read as

Whatever the text, `json.loads` makes a value that a program can hold and write: its
floats are binary64 numbers, its integers have not too many digits and its objects have
distinct keys (`loads_wellFormed`). So what is read
once is read back as it is written again (`loads_dumps_of_loads`).
-/

namespace Python

namespace Json

/-! ## Words and numbers -/

theorem wellFormed_word {cs : List Char} {r : Json × List Char} (h : word cs = some r) :
    WellFormed r.1 := by
  obtain ⟨⟨w, j⟩, hw, hr⟩ := List.exists_of_findSome?_eq_some h
  obtain ⟨rest, -, rfl⟩ := Option.map_eq_some_iff.mp hr
  simp only [words, List.mem_cons, List.not_mem_nil, or_false, Prod.mk.injEq] at hw
  rcases hw with ⟨-, rfl⟩ | ⟨-, rfl⟩ | ⟨-, rfl⟩ | ⟨-, rfl⟩ | ⟨-, rfl⟩ | ⟨-, rfl⟩
  · exact .null
  · exact .bool true
  · exact .bool false
  · exact .nan
  · exact .inf false
  · exact .inf true

theorem wellFormed_signedFloat (negative : Bool) {q : ℚ} (hq : 0 ≤ q) :
    WellFormed (signedFloat negative q) := by
  unfold signedFloat
  cases hx : toDouble q with
  | finite r =>
      have hdouble := isDouble_of_toDouble hq hx
      cases negative with
      | false => exact .finite hdouble
      | true => exact .finite hdouble.neg
  | inf sign =>
      cases negative with
      | false => exact .inf sign
      | true => exact .inf !sign
  | nan =>
      cases negative with
      | false => exact .nan
      | true => exact .nan

theorem decimalValue_nonneg (d : ℕ × ℤ) : 0 ≤ decimalValue d :=
  mul_nonneg (Nat.cast_nonneg _) (zpow_nonneg (by norm_num) _)

theorem isDigit_of_integerPart {cs whole rest : List Char}
    (h : integerPart cs = some (whole, rest)) : ∀ c ∈ whole, c.isDigit = true := by
  cases cs with
  | nil => cases h
  | cons d ds =>
      rw [integerPart] at h
      split at h
      · obtain ⟨rfl, -⟩ := Prod.mk.inj (Option.some.inj h)
        exact List.forall_mem_singleton.mpr rfl
      · split at h
        · next hd =>
            obtain ⟨rfl, -⟩ := Prod.mk.inj (Option.some.inj h)
            intro c hc
            rcases List.mem_cons.mp hc with rfl | hc
            · exact hd
            · exact List.all_eq_true.mp List.all_takeWhile c hc
        · cases h

/-- The value of at most `maxStrDigits` digits. -/
theorem fitsStr_ofDigitChars {ds : List Char} (hds : ∀ c ∈ ds, c.isDigit = true)
    (hlength : ds.length ≤ maxStrDigits) (negative : Bool) :
    fitsStr (if negative then -(Nat.ofDigitChars 10 ds 0 : ℤ) else Nat.ofDigitChars 10 ds 0) =
      true := by
  have hlt : Nat.ofDigitChars 10 ds 0 < 10 ^ maxStrDigits := by
    have hdigits := digitsFrom_lt (digitsFrom_of_isDigit ds hds 0)
    rw [Nat.zero_add, Nat.one_mul] at hdigits
    exact hdigits.trans_le (Nat.pow_le_pow_right (by decide) (List.countP_le_length.trans hlength))
  refine fitsStr_iff.mpr ?_
  cases negative with
  | false => simpa using hlt
  | true => simpa using hlt

theorem wellFormed_unsigned {negative : Bool} {cs : List Char} {r : Json × List Char}
    (h : unsigned negative cs = some r) : WellFormed r.1 := by
  unfold unsigned at h
  split at h
  · cases h
  · next whole rest hwhole =>
    dsimp only at h
    split at h
    · split at h
      · next hlength =>
          obtain rfl := Option.some.inj h
          exact .int (fitsStr_ofDigitChars (isDigit_of_integerPart hwhole) hlength negative)
      · cases h
    · obtain rfl := Option.some.inj h
      exact wellFormed_signedFloat negative (decimalValue_nonneg _)

theorem wellFormed_number {cs : List Char} {r : Json × List Char} (h : number cs = some r) :
    WellFormed r.1 := by
  unfold number at h
  split at h
  · exact wellFormed_unsigned h
  · exact wellFormed_unsigned h

/-! ## The members of an object -/

theorem keys_insertMember {d : Dict} (m : String × Json) (h : (d.map Prod.fst).Nodup) :
    ((insertMember d m).map Prod.fst).Nodup := by
  unfold insertMember
  split
  · have hkeys : (d.map fun n => if n.1 = m.1 then m else n).map Prod.fst = d.map Prod.fst := by
      rw [List.map_map]
      refine List.map_congr_left fun n _ => ?_
      rw [Function.comp_apply]
      split
      · next heq => exact heq.symm
      · rfl
    rwa [hkeys]
  · next hnone =>
      rw [List.map_append, List.nodup_append]
      refine ⟨h, by simp, fun k hk k' hk' heq => ?_⟩
      obtain ⟨n, hn, rfl⟩ := List.mem_map.mp hk
      obtain rfl : k' = m.1 := by simpa using hk'
      exact hnone (List.any_eq_true.mpr ⟨n, hn, by simpa using heq⟩)

theorem mem_insertMember {d : Dict} {m n : String × Json} (h : n ∈ insertMember d m) :
    n = m ∨ n ∈ d := by
  unfold insertMember at h
  split at h
  · obtain ⟨n', hn', rfl⟩ := List.mem_map.mp h
    split
    · exact Or.inl rfl
    · exact Or.inr hn'
  · rcases List.mem_append.mp h with h | h
    · exact Or.inr h
    · exact Or.inl (List.mem_singleton.mp h)

theorem wellFormed_dictOf {ms : List (String × Json)} (h : ∀ m ∈ ms, WellFormed m.2) :
    WellFormed (.obj (dictOf ms)) := by
  have hfold (d : Dict) (hd : (d.map Prod.fst).Nodup) (hvalues : ∀ m ∈ d, WellFormed m.2) :
      WellFormed (.obj (ms.foldl insertMember d)) := by
    induction ms generalizing d with
    | nil => exact .obj hd hvalues
    | cons m ms ih =>
        obtain ⟨hm, hms⟩ := List.forall_mem_cons.mp h
        refine ih hms _ (keys_insertMember m hd) fun n hn => ?_
        rcases mem_insertMember hn with rfl | hn
        · exact hm
        · exact hvalues n hn
  exact hfold [] List.nodup_nil (by simp)

/-! ## Values -/

/-- What each part of the parser makes is well formed, with so much fuel. -/
structure ReadsWellFormed (fuel : ℕ) : Prop where
  value : ∀ cs r, value fuel cs = some r → WellFormed r.1
  elements : ∀ cs r, elements fuel cs = some r → ∀ x ∈ r.1, WellFormed x
  member : ∀ cs r, member fuel cs = some r → WellFormed r.1.2
  members : ∀ cs r, members fuel cs = some r → ∀ m ∈ r.1, WellFormed m.2

namespace ReadsWellFormed

variable {fuel : ℕ}

theorem value_succ (h : ReadsWellFormed fuel) {cs : List Char} {r : Json × List Char}
    (hr : Json.value (fuel + 1) cs = some r) : WellFormed r.1 := by
  cases cs with
  | nil => cases hr
  | cons c cs =>
      rw [Json.value] at hr
      split at hr
      · obtain ⟨⟨ds, rest⟩, -, hr⟩ := Option.bind_eq_some_iff.mp hr
        obtain rfl := Option.some.inj hr
        exact .str _
      · split at hr
        · split at hr
          · obtain rfl := Option.some.inj hr
            exact .arr (by simp)
          · obtain ⟨⟨x, rest⟩, hx, hr⟩ := Option.bind_eq_some_iff.mp hr
            obtain ⟨⟨xs, rest'⟩, hxs, hr⟩ := Option.bind_eq_some_iff.mp hr
            obtain rfl := Option.some.inj hr
            exact .arr (List.forall_mem_cons.mpr ⟨h.value _ _ hx, h.elements _ _ hxs⟩)
        · split at hr
          · split at hr
            · obtain rfl := Option.some.inj hr
              exact .obj List.nodup_nil (by simp)
            · obtain ⟨⟨m, rest⟩, hm, hr⟩ := Option.bind_eq_some_iff.mp hr
              obtain ⟨⟨ms, rest'⟩, hms, hr⟩ := Option.bind_eq_some_iff.mp hr
              obtain rfl := Option.some.inj hr
              exact wellFormed_dictOf
                (List.forall_mem_cons.mpr ⟨h.member _ _ hm, h.members _ _ hms⟩)
          · rcases Option.or_eq_some_iff.mp hr with hr | ⟨-, hr⟩
            · exact wellFormed_word hr
            · exact wellFormed_number hr

theorem elements_succ (h : ReadsWellFormed fuel) {cs : List Char} {r : List Json × List Char}
    (hr : Json.elements (fuel + 1) cs = some r) : ∀ x ∈ r.1, WellFormed x := by
  rw [Json.elements] at hr
  split at hr
  · obtain rfl := Option.some.inj hr
    simp
  · obtain ⟨⟨x, rest⟩, hx, hr⟩ := Option.bind_eq_some_iff.mp hr
    obtain ⟨⟨xs, rest'⟩, hxs, hr⟩ := Option.bind_eq_some_iff.mp hr
    obtain rfl := Option.some.inj hr
    exact List.forall_mem_cons.mpr ⟨h.value _ _ hx, h.elements _ _ hxs⟩
  · cases hr

theorem member_succ (h : ReadsWellFormed fuel) {cs : List Char}
    {r : (String × Json) × List Char} (hr : Json.member (fuel + 1) cs = some r) :
    WellFormed r.1.2 := by
  unfold Json.member at hr
  split at hr
  · cases hr
  · next hfuel =>
      obtain rfl := Nat.succ.inj hfuel
      obtain ⟨⟨key, rest⟩, -, hr⟩ := Option.bind_eq_some_iff.mp hr
      dsimp only at hr
      split at hr
      · obtain ⟨⟨v, rest'⟩, hv, hr⟩ := Option.bind_eq_some_iff.mp hr
        obtain rfl := Option.some.inj hr
        exact h.value _ _ hv
      · cases hr
  · cases hr

theorem members_succ (h : ReadsWellFormed fuel) {cs : List Char}
    {r : List (String × Json) × List Char} (hr : Json.members (fuel + 1) cs = some r) :
    ∀ m ∈ r.1, WellFormed m.2 := by
  rw [Json.members] at hr
  split at hr
  · obtain rfl := Option.some.inj hr
    simp
  · obtain ⟨⟨m, rest⟩, hm, hr⟩ := Option.bind_eq_some_iff.mp hr
    obtain ⟨⟨ms, rest'⟩, hms, hr⟩ := Option.bind_eq_some_iff.mp hr
    obtain rfl := Option.some.inj hr
    exact List.forall_mem_cons.mpr ⟨h.member _ _ hm, h.members _ _ hms⟩
  · cases hr

end ReadsWellFormed

theorem readsWellFormed (fuel : ℕ) : ReadsWellFormed fuel := by
  induction fuel with
  | zero =>
      exact ⟨by simp [Json.value], by simp [Json.elements], by simp [Json.member],
        by simp [Json.members]⟩
  | succ fuel ih =>
      exact ⟨fun _ _ => ih.value_succ, fun _ _ => ih.elements_succ, fun _ _ => ih.member_succ,
        fun _ _ => ih.members_succ⟩

theorem loads_wellFormed {s : String} {j : Json} (h : loads s = .ok j) : WellFormed j := by
  unfold loads at h
  split at h
  · next r rest hvalue =>
      split at h
      · obtain rfl := Except.ok.inj h
        exact (readsWellFormed _).value _ _ hvalue
      · cases h
  · cases h

/-- What is read from a text is read back as it is written. -/
theorem loads_dumps_of_loads {s : String} {j : Json} (h : loads s = .ok j) :
    loads j.dumps = .ok j :=
  loads_dumps (loads_wellFormed h)

end Json

end Python
