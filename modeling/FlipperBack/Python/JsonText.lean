import FlipperBack.Python.JsonNumber
import FlipperBack.Python.JsonString

/-!
# The texts of JSON values

`dumps` is `json.dumps` with its defaults and `loads` is `json.loads`. A value
that a program can hold and write, whose floats are binary64 numbers, whose integers
have not too many digits and whose objects have distinct keys, is read back as it was
written (`loads_dumps`).
-/

namespace Python

namespace Json

/-! ## Writing -/

mutual

/-- The text of a value. -/
def text : Json → List Char
  | .null => ['n', 'u', 'l', 'l']
  | .bool true => ['t', 'r', 'u', 'e']
  | .bool false => ['f', 'a', 'l', 's', 'e']
  | .int n => intText n
  | .float x => floatText x
  | .str s => stringText s
  | .arr [] => ['[', ']']
  | .arr (x :: xs) => '[' :: (text x ++ elementsText xs)
  | .obj [] => ['\x7b', '\x7d']
  | .obj (m :: ms) => '\x7b' :: (memberText m ++ membersText ms)

/-- The text of an array after its first element. -/
def elementsText : List Json → List Char
  | [] => [']']
  | x :: xs => ',' :: ' ' :: (text x ++ elementsText xs)

/-- The text of a key and its value. -/
def memberText : String × Json → List Char
  | (key, v) => stringText key ++ ':' :: ' ' :: text v

/-- The text of an object after its first member. -/
def membersText : List (String × Json) → List Char
  | [] => ['\x7d']
  | m :: ms => ',' :: ' ' :: (memberText m ++ membersText ms)

end

/-! ## Reading -/

/-- The white space of JSON. -/
def isBlank (c : Char) : Bool :=
  c = ' ' || c = '\t' || c = '\n' || c = '\r'

def skipBlank (cs : List Char) : List Char :=
  cs.dropWhile isBlank

/-- The values that are written as words. -/
def words : List (List Char × Json) :=
  [(['n', 'u', 'l', 'l'], .null), (['t', 'r', 'u', 'e'], .bool true),
    (['f', 'a', 'l', 's', 'e'], .bool false), (['N', 'a', 'N'], .float .nan),
    (['I', 'n', 'f', 'i', 'n', 'i', 't', 'y'], .float (.inf false)),
    (['-', 'I', 'n', 'f', 'i', 'n', 'i', 't', 'y'], .float (.inf true))]

/-- The word that a text starts with. -/
def word (cs : List Char) : Option (Json × List Char) :=
  words.findSome? fun (w, j) => (cs.dropPrefix? w).map fun rest => (j, rest)

/-- `d[key] = v`. -/
def insertMember (d : Dict) (m : String × Json) : Dict :=
  if d.any (·.1 = m.1) then d.map fun n => if n.1 = m.1 then m else n else d ++ [m]

/-- The dict of some members: the last value of a key is the one that stays. -/
def dictOf (ms : List (String × Json)) : Dict :=
  ms.foldl insertMember []

mutual

/-- The value that a text starts with. -/
def value : ℕ → List Char → Option (Json × List Char)
  | 0, _ => none
  | _ + 1, [] => none
  | fuel + 1, c :: cs =>
      if c = '"' then do
        let (ds, rest) ← scanString cs.length cs
        return (.str (String.ofList ds), rest)
      else if c = '[' then
        match skipBlank cs with
        | ']' :: rest => some (.arr [], rest)
        | cs => do
          let (x, rest) ← value fuel cs
          let (xs, rest) ← elements fuel rest
          return (.arr (x :: xs), rest)
      else if c = '\x7b' then
        match skipBlank cs with
        | '\x7d' :: rest => some (.obj [], rest)
        | cs => do
          let (m, rest) ← member fuel cs
          let (ms, rest) ← members fuel rest
          return (.obj (dictOf (m :: ms)), rest)
      else (word (c :: cs)).or (number (c :: cs))

/-- The elements of an array after its first one. -/
def elements : ℕ → List Char → Option (List Json × List Char)
  | 0, _ => none
  | fuel + 1, cs =>
      match skipBlank cs with
      | ']' :: rest => some ([], rest)
      | ',' :: rest => do
        let (x, rest) ← value fuel (skipBlank rest)
        let (xs, rest) ← elements fuel rest
        return (x :: xs, rest)
      | _ => none

/-- A key and its value. -/
def member : ℕ → List Char → Option ((String × Json) × List Char)
  | 0, _ => none
  | fuel + 1, '"' :: cs => do
      let (key, rest) ← scanString cs.length cs
      match skipBlank rest with
      | ':' :: rest =>
          let (v, rest) ← value fuel (skipBlank rest)
          return ((String.ofList key, v), rest)
      | _ => none
  | _ + 1, _ => none

/-- The members of an object after its first one. -/
def members : ℕ → List Char → Option (List (String × Json) × List Char)
  | 0, _ => none
  | fuel + 1, cs =>
      match skipBlank cs with
      | '\x7d' :: rest => some ([], rest)
      | ',' :: rest => do
        let (m, rest) ← member fuel (skipBlank rest)
        let (ms, rest) ← members fuel rest
        return (m :: ms, rest)
      | _ => none

end

/-- `json.dumps`, on a value that it can write. -/
def dumps (j : Json) : String :=
  String.ofList j.text

/-- `json.loads`. -/
def loads (s : String) : Except PyError Json :=
  match value (s.toList.length + 1) (skipBlank s.toList) with
  | some (j, rest) => if skipBlank rest = [] then .ok j else .error .valueError
  | none => .error .valueError

/-! ## Reading back -/

/-- The values that a program can hold and write: floats are binary64 numbers, `str`
writes the integers, and the keys of an object are distinct. -/
inductive WellFormed : Json → Prop
  | null : WellFormed .null
  | bool (b : Bool) : WellFormed (.bool b)
  | int {n : ℤ} (hn : fitsStr n = true) : WellFormed (.int n)
  | finite {q : ℚ} (hq : IsDouble q) : WellFormed (.float (.finite q))
  | inf (negative : Bool) : WellFormed (.float (.inf negative))
  | nan : WellFormed (.float .nan)
  | str (s : String) : WellFormed (.str s)
  | arr {xs : List Json} (hxs : ∀ x ∈ xs, WellFormed x) : WellFormed (.arr xs)
  | obj {ms : List (String × Json)} (hkeys : (ms.map Prod.fst).Nodup)
      (hvalues : ∀ m ∈ ms, WellFormed m.2) : WellFormed (.obj ms)

/-- A text that no blank or closing bracket opens. -/
def Opens (cs : List Char) : Prop := ∀ c ∈ cs.head?, isBlank c = false ∧ c ≠ ']'

theorem skipBlank_cons {c : Char} {cs : List Char} (h : isBlank c = false) :
    skipBlank (c :: cs) = c :: cs := by
  rw [skipBlank, List.dropWhile_cons_of_neg (by simp [h])]

/-- A number starts with a digit, after its sign. -/
theorem number_digit {cs : List Char} {r : Json × List Char} (h : number cs = some r) :
    ∃ d rest, d.isDigit = true ∧ (cs = d :: rest ∨ cs = '-' :: d :: rest) := by
  have hinteger (negative : Bool) {cs : List Char} (h : unsigned negative cs = some r) :
      ∃ d rest, d.isDigit = true ∧ cs = d :: rest := by
    cases cs with
    | nil => simp [unsigned, integerPart] at h
    | cons d rest =>
        refine ⟨d, rest, ?_, rfl⟩
        by_contra hd
        have hzero : d ≠ '0' := by
          rintro rfl
          exact hd rfl
        simp [unsigned, integerPart, hzero, hd] at h
  unfold number at h
  split at h
  · obtain ⟨d, rest, hd, rfl⟩ := hinteger true h
    exact ⟨d, rest, hd, Or.inr rfl⟩
  · obtain ⟨d, rest, hd, rfl⟩ := hinteger false h
    exact ⟨d, rest, hd, Or.inl rfl⟩

theorem ne_of_isDigit {c d : Char} (hd : d.isDigit = true) (hc : c.isDigit = false) : d ≠ c := by
  rintro rfl
  exact Bool.noConfusion (hd.symm.trans hc)

theorem isBlank_of_isDigit {d : Char} (hd : d.isDigit = true) : isBlank d = false := by
  simp [isBlank, ne_of_isDigit hd]

/-- A text that starts with a number is read as the number. -/
theorem value_of_number {cs : List Char} {r : Json × List Char} (h : number cs = some r)
    (fuel : ℕ) : value (fuel + 1) cs = some r := by
  obtain ⟨d, rest, hd, rfl | rfl⟩ := number_digit h
  · have hword : word (d :: rest) = none := by
      simp [word, words, List.dropPrefix?, ne_of_isDigit hd]
    rw [value, if_neg (ne_of_isDigit hd rfl), if_neg (ne_of_isDigit hd rfl),
      if_neg (ne_of_isDigit hd rfl), hword, Option.none_or, h]
  · have hword : word ('-' :: d :: rest) = none := by
      simp [word, words, List.dropPrefix?, ne_of_isDigit hd]
    rw [value, if_neg (by decide), if_neg (by decide), if_neg (by decide), hword, Option.none_or, h]

/-- What is read of the text of a value, whatever text comes after it. -/
structure ReadsBack (j : Json) : Prop where
  opens : Opens j.text
  nonempty : j.text ≠ []
  value_append : ∀ {fuel : ℕ} {cs : List Char}, j.text.length ≤ fuel → NoNumber cs →
    value fuel (j.text ++ cs) = some (j, cs)

/-- A value whose text is a number. -/
theorem ReadsBack.of_number {j : Json}
    (h : ∀ {cs : List Char}, NoNumber cs → number (j.text ++ cs) = some (j, cs)) :
    ReadsBack j := by
  obtain ⟨d, rest, hd, htext⟩ := number_digit (h noNumber_nil)
  rw [List.append_nil] at htext
  refine ⟨?_, ?_, fun {fuel cs} hfuel hcs => ?_⟩
  · rcases htext with htext | htext
    · rw [htext]
      rintro c ⟨⟩
      exact ⟨isBlank_of_isDigit hd, ne_of_isDigit hd rfl⟩
    · rw [htext]
      rintro c ⟨⟩
      decide
  · rintro hnil
    simp [hnil] at htext
  · obtain ⟨fuel, rfl⟩ : ∃ k, fuel = k + 1 := by
      refine Nat.exists_eq_succ_of_ne_zero fun hzero => ?_
      rcases htext with htext | htext <;> simp [htext, hzero] at hfuel
    exact value_of_number (h hcs) fuel

/-- A value that is read whatever text comes after its own. -/
theorem ReadsBack.of_value {j : Json} (hopens : Opens j.text) (hne : j.text ≠ [])
    (h : ∀ (fuel : ℕ) (cs : List Char), value (fuel + 1) (j.text ++ cs) = some (j, cs)) :
    ReadsBack j := by
  refine ⟨hopens, hne, fun {fuel cs} hfuel _ => ?_⟩
  obtain ⟨fuel, rfl⟩ : ∃ k, fuel = k + 1 := by
    refine Nat.exists_eq_succ_of_ne_zero fun hzero => hne ?_
    exact List.length_eq_zero_iff.mp (Nat.le_zero.mp (hzero ▸ hfuel))
  exact h fuel cs

/-- A value whose text is a word. -/
theorem ReadsBack.of_word {j : Json} {c : Char} {ds : List Char} (htext : j.text = c :: ds)
    (hopens : isBlank c = false ∧ c ≠ ']') (hc : c ≠ '"' ∧ c ≠ '[' ∧ c ≠ '\x7b')
    (h : ∀ cs : List Char, word (c :: (ds ++ cs)) = some (j, cs)) : ReadsBack j := by
  obtain ⟨hquote, hbracket, hbrace⟩ := hc
  refine .of_value ?_ (by simp [htext]) fun fuel cs => ?_
  · rw [htext]
    rintro d ⟨⟩
    exact hopens
  · rw [htext, List.cons_append, value, if_neg hquote, if_neg hbracket, if_neg hbrace, h,
      Option.some_or]

theorem ReadsBack.skipBlank_append {j : Json} (h : ReadsBack j) (cs : List Char) :
    ∃ c rest, j.text ++ cs = c :: rest ∧ c ≠ ']' ∧ skipBlank (j.text ++ cs) = c :: rest := by
  obtain ⟨hopens, hne, -⟩ := h
  cases htext : j.text with
  | nil => exact absurd htext hne
  | cons c rest =>
      obtain ⟨hblank, hbracket⟩ := hopens c (by simp [htext])
      exact ⟨c, rest ++ cs, rfl, hbracket, skipBlank_cons hblank⟩

theorem noNumber_elementsText (xs : List Json) (cs : List Char) :
    NoNumber (elementsText xs ++ cs) := by
  cases xs <;> (rw [elementsText]; rintro c ⟨⟩; decide)

theorem noNumber_membersText (ms : List (String × Json)) (cs : List Char) :
    NoNumber (membersText ms ++ cs) := by
  cases ms <;> (rw [membersText]; rintro c ⟨⟩; decide)

theorem elements_append {xs : List Json} (hxs : ∀ x ∈ xs, ReadsBack x) {fuel : ℕ}
    {cs : List Char} (hfuel : (elementsText xs).length ≤ fuel) :
    elements fuel (elementsText xs ++ cs) = some (xs, cs) := by
  induction xs generalizing fuel with
  | nil =>
      obtain ⟨fuel, rfl⟩ := Nat.exists_eq_add_of_le' hfuel
      rfl
  | cons x xs ih =>
      obtain ⟨hx, hxs⟩ := List.forall_mem_cons.mp hxs
      rw [elementsText, List.length_cons, List.length_cons, List.length_append] at hfuel
      obtain ⟨fuel, rfl⟩ : ∃ k, fuel = k + 1 := ⟨fuel - 1, by omega⟩
      obtain ⟨c, rest, htext, -, hskip⟩ := hx.skipBlank_append (elementsText xs ++ cs)
      have hblank : skipBlank (' ' :: (x.text ++ (elementsText xs ++ cs))) =
          x.text ++ (elementsText xs ++ cs) := hskip.trans htext.symm
      have hcomma : skipBlank (elementsText (x :: xs) ++ cs) =
          ',' :: ' ' :: (x.text ++ (elementsText xs ++ cs)) := by
        rw [elementsText, List.cons_append, skipBlank_cons rfl, List.cons_append, List.append_assoc]
      have hfirst : value fuel (x.text ++ (elementsText xs ++ cs)) = some (x, elementsText xs ++ cs) :=
        hx.value_append (by omega) (noNumber_elementsText xs cs)
      have hothers : elements fuel (elementsText xs ++ cs) = some (xs, cs) := ih hxs (by omega)
      rw [elements, hcomma]
      simp only [hblank, hfirst, Option.bind_eq_bind, Option.bind_some, hothers]
      rfl

theorem member_append {m : String × Json} (hm : ReadsBack m.2) {fuel : ℕ} {cs : List Char}
    (hfuel : (memberText m).length ≤ fuel) (hcs : NoNumber cs) :
    member fuel (memberText m ++ cs) = some (m, cs) := by
  obtain ⟨key, v⟩ := m
  rw [memberText, List.length_append, List.length_cons, List.length_cons] at hfuel
  obtain ⟨fuel, rfl⟩ : ∃ k, fuel = k + 1 := ⟨fuel - 1, by omega⟩
  obtain ⟨text, htext, hscan⟩ := scanString_stringText key (':' :: ' ' :: v.text ++ cs)
  obtain ⟨c, rest, hvalue, -, hskip⟩ := hm.skipBlank_append cs
  have hblank : skipBlank (' ' :: (v.text ++ cs)) = v.text ++ cs := hskip.trans hvalue.symm
  have hcolon : skipBlank (':' :: ' ' :: v.text ++ cs) = ':' :: ' ' :: (v.text ++ cs) :=
    skipBlank_cons rfl
  rw [memberText, List.append_assoc, htext, member, hscan]
  simp only [Option.bind_eq_bind, Option.bind_some, hcolon, hblank,
    hm.value_append (by omega : v.text.length ≤ fuel) hcs, String.ofList_toList]
  rfl

theorem memberText_cons (m : String × Json) : ∃ cs, memberText m = '"' :: cs := by
  obtain ⟨key, v⟩ := m
  rw [memberText, stringText]
  exact ⟨_, rfl⟩

theorem members_append {ms : List (String × Json)} (hms : ∀ m ∈ ms, ReadsBack m.2) {fuel : ℕ}
    {cs : List Char} (hfuel : (membersText ms).length ≤ fuel) :
    members fuel (membersText ms ++ cs) = some (ms, cs) := by
  induction ms generalizing fuel with
  | nil =>
      obtain ⟨fuel, rfl⟩ := Nat.exists_eq_add_of_le' hfuel
      rfl
  | cons m ms ih =>
      obtain ⟨hm, hms⟩ := List.forall_mem_cons.mp hms
      rw [membersText, List.length_cons, List.length_cons, List.length_append] at hfuel
      obtain ⟨fuel, rfl⟩ : ∃ k, fuel = k + 1 := ⟨fuel - 1, by omega⟩
      obtain ⟨text, htext⟩ := memberText_cons m
      have hblank : skipBlank (' ' :: (memberText m ++ (membersText ms ++ cs))) =
          memberText m ++ (membersText ms ++ cs) := by
        rw [htext]
        rfl
      have hcomma : skipBlank (membersText (m :: ms) ++ cs) =
          ',' :: ' ' :: (memberText m ++ (membersText ms ++ cs)) := by
        rw [membersText, List.cons_append, skipBlank_cons rfl, List.cons_append, List.append_assoc]
      have hfirst : member fuel (memberText m ++ (membersText ms ++ cs)) =
          some (m, membersText ms ++ cs) :=
        member_append hm (by omega) (noNumber_membersText ms cs)
      have hothers : members fuel (membersText ms ++ cs) = some (ms, cs) := ih hms (by omega)
      rw [members, hcomma]
      simp only [hblank, hfirst, Option.bind_eq_bind, Option.bind_some, hothers]
      rfl

/-- Members with distinct keys are the dict. -/
theorem dictOf_of_nodup {ms : List (String × Json)} (hkeys : (ms.map Prod.fst).Nodup) :
    dictOf ms = ms := by
  have hfold : ∀ d : Dict, ((d ++ ms).map Prod.fst).Nodup → ms.foldl insertMember d = d ++ ms := by
    induction ms with
    | nil => simp
    | cons m ms ih =>
        intro d hd
        have hfresh : ¬d.any (·.1 = m.1) = true := by
          simp only [List.any_eq_true, decide_eq_true_eq, not_exists, not_and]
          intro n hn heq
          rw [List.map_append, List.map_cons, List.nodup_append] at hd
          exact hd.2.2 n.1 (List.mem_map_of_mem hn) m.1 (by simp) heq
        have hsplit : d ++ m :: ms = d ++ [m] ++ ms := by simp
        rw [List.foldl_cons, insertMember, if_neg hfresh,
          ih (List.nodup_cons.mp hkeys).2 _ (hsplit ▸ hd), hsplit]
  exact hfold [] hkeys

theorem value_arr_nil (fuel : ℕ) (cs : List Char) :
    value (fuel + 1) ((arr []).text ++ cs) = some (arr [], cs) := by
  have hopen : (arr []).text ++ cs = '[' :: ']' :: cs := rfl
  have hskip : skipBlank (']' :: cs) = ']' :: cs := rfl
  rw [hopen, value, if_neg (by decide), if_pos rfl, hskip]
  rfl

theorem value_arr {x : Json} {xs : List Json} (hx : ReadsBack x) (hxs : ∀ x ∈ xs, ReadsBack x)
    {fuel : ℕ} {cs : List Char} (hfuel : x.text.length + (elementsText xs).length ≤ fuel) :
    value (fuel + 1) ((arr (x :: xs)).text ++ cs) = some (arr (x :: xs), cs) := by
  obtain ⟨c, rest, htext, hbracket, hskip⟩ := hx.skipBlank_append (elementsText xs ++ cs)
  have hopen : (arr (x :: xs)).text ++ cs = '[' :: (x.text ++ (elementsText xs ++ cs)) := by
    rw [text, List.cons_append, List.append_assoc]
  have hfirst : value fuel (x.text ++ (elementsText xs ++ cs)) = some (x, elementsText xs ++ cs) :=
    hx.value_append (by omega) (noNumber_elementsText xs cs)
  have hothers : elements fuel (elementsText xs ++ cs) = some (xs, cs) :=
    elements_append hxs (by omega)
  rw [hopen, value, if_neg (by decide), if_pos rfl, hskip]
  split
  · next heq => exact absurd (List.cons.inj heq).1 hbracket
  · rw [← htext]
    simp only [hfirst, Option.bind_eq_bind, Option.bind_some, hothers]
    rfl

theorem value_obj_nil (fuel : ℕ) (cs : List Char) :
    value (fuel + 1) ((obj []).text ++ cs) = some (obj [], cs) := by
  have hopen : (obj []).text ++ cs = '\x7b' :: '\x7d' :: cs := rfl
  have hskip : skipBlank ('\x7d' :: cs) = '\x7d' :: cs := rfl
  rw [hopen, value, if_neg (by decide), if_neg (by decide), if_pos rfl, hskip]
  rfl

theorem value_obj {m : String × Json} {ms : List (String × Json)}
    (hkeys : ((m :: ms).map Prod.fst).Nodup) (hm : ReadsBack m.2) (hms : ∀ m ∈ ms, ReadsBack m.2)
    {fuel : ℕ} {cs : List Char} (hfuel : (memberText m).length + (membersText ms).length ≤ fuel) :
    value (fuel + 1) ((obj (m :: ms)).text ++ cs) = some (obj (m :: ms), cs) := by
  obtain ⟨rest, htext⟩ := memberText_cons m
  have hopen : (obj (m :: ms)).text ++ cs =
      '\x7b' :: (memberText m ++ (membersText ms ++ cs)) := by
    rw [text, List.cons_append, List.append_assoc]
  have hskip : skipBlank (memberText m ++ (membersText ms ++ cs)) =
      '"' :: (rest ++ (membersText ms ++ cs)) := by
    rw [htext]
    rfl
  have hfirst : member fuel (memberText m ++ (membersText ms ++ cs)) =
      some (m, membersText ms ++ cs) :=
    member_append hm (by omega) (noNumber_membersText ms cs)
  have hothers : members fuel (membersText ms ++ cs) = some (ms, cs) :=
    members_append hms (by omega)
  rw [hopen, value, if_neg (by decide), if_neg (by decide), if_pos rfl, hskip]
  split
  · next heq => exact absurd (List.cons.inj heq).1 (by decide)
  · rw [htext, List.cons_append] at hfirst
    simp only [hfirst, Option.bind_eq_bind, Option.bind_some, hothers, dictOf_of_nodup hkeys]
    rfl

/-- Every text of a value is read back as the value. -/
theorem WellFormed.readsBack {j : Json} (h : WellFormed j) : ReadsBack j := by
  induction h with
  | null => exact .of_word rfl (by decide) (by decide) (by simp [word, words, List.dropPrefix?])
  | bool b =>
      cases b with
      | true => exact .of_word rfl (by decide) (by decide) (by simp [word, words, List.dropPrefix?])
      | false => exact .of_word rfl (by decide) (by decide) (by simp [word, words, List.dropPrefix?])
  | int hn => exact .of_number fun hcs => number_intText hn hcs
  | finite hq => exact .of_number fun hcs => number_floatText hq hcs
  | inf negative =>
      cases negative with
      | true => exact .of_word rfl (by decide) (by decide) (by simp [word, words, List.dropPrefix?])
      | false => exact .of_word rfl (by decide) (by decide) (by simp [word, words, List.dropPrefix?])
  | nan => exact .of_word rfl (by decide) (by decide) (by simp [word, words, List.dropPrefix?])
  | str s =>
      refine .of_value (by rintro c ⟨⟩; decide) (by simp [text, stringText]) fun fuel cs => ?_
      obtain ⟨rest, htext, hscan⟩ := scanString_stringText s cs
      rw [text, htext, value, if_pos rfl, hscan]
      simp only [Option.bind_eq_bind, Option.bind_some, String.ofList_toList]
      rfl
  | @arr xs hxs ih =>
      cases xs with
      | nil =>
          refine .of_value (by rintro c ⟨⟩; decide) (by decide) fun fuel cs => ?_
          exact value_arr_nil fuel cs
      | cons x xs =>
          obtain ⟨hx, hxs⟩ := List.forall_mem_cons.mp ih
          refine ⟨by rintro c ⟨⟩; decide, by simp [text], fun {fuel cs} hfuel hcs => ?_⟩
          rw [text, List.length_cons, List.length_append] at hfuel
          obtain ⟨fuel, rfl⟩ : ∃ k, fuel = k + 1 := ⟨fuel - 1, by omega⟩
          exact value_arr hx hxs (by omega)
  | @obj ms hkeys hvalues ih =>
      cases ms with
      | nil =>
          refine .of_value (by rintro c ⟨⟩; decide) (by decide) fun fuel cs => ?_
          exact value_obj_nil fuel cs
      | cons m ms =>
          obtain ⟨hm, hms⟩ := List.forall_mem_cons.mp ih
          refine ⟨by rintro c ⟨⟩; decide, by simp [text], fun {fuel cs} hfuel hcs => ?_⟩
          rw [text, List.length_cons, List.length_append] at hfuel
          obtain ⟨fuel, rfl⟩ : ∃ k, fuel = k + 1 := ⟨fuel - 1, by omega⟩
          exact value_obj hkeys hm hms (by omega)

/-- `json.loads(json.dumps(j)) = j`. -/
theorem loads_dumps {j : Json} (h : WellFormed j) : loads j.dumps = .ok j := by
  obtain ⟨c, rest, htext, -, hskip⟩ := h.readsBack.skipBlank_append []
  have hread := h.readsBack.value_append (Nat.le_succ j.text.length) noNumber_nil
  rw [List.append_nil] at htext hskip hread
  rw [loads, dumps, String.toList_ofList, hskip, ← htext, hread]
  rfl

end Json

end Python
