import Mathlib.Data.List.Basic
import Mathlib.Data.Nat.Notation

/-!
# The strings of a JSON text

`escape` is what `json.dumps` writes for a character when it keeps to ASCII: the
short escapes, the printable characters, and `\u` with four hexadecimal digits
for the others, twice for a character beyond the first 65536. `scanString` is the
reading of `json.loads`, after the opening quote, in its strict mode: a control
character is refused. A `\u` escape of half a surrogate pair stands for no
character here and is refused; Python keeps it.
-/

namespace Python

namespace Json

/-! ## Writing -/

/-- Four hexadecimal digits. -/
def hexText (n : ℕ) : List Char :=
  [(n / 0x1000).digitChar, (n / 0x100 % 0x10).digitChar, (n / 0x10 % 0x10).digitChar,
    (n % 0x10).digitChar]

/-- The escape of a number by four hexadecimal digits. -/
def unicodeEscape (n : ℕ) : List Char :=
  '\\' :: 'u' :: hexText n

/-- The escape of a character with `ensure_ascii`. -/
def escape (c : Char) : List Char :=
  if c = '"' then ['\\', '"']
  else if c = '\\' then ['\\', '\\']
  else if c = '\n' then ['\\', 'n']
  else if c = '\r' then ['\\', 'r']
  else if c = '\t' then ['\\', 't']
  else if c = '\x0c' then ['\\', 'f']
  else if c = '\x08' then ['\\', 'b']
  else if 0x20 ≤ c.toNat ∧ c.toNat ≤ 0x7e then [c]
  else if c.toNat < 0x10000 then unicodeEscape c.toNat
  else unicodeEscape (0xd800 + (c.toNat - 0x10000) / 0x400) ++
    unicodeEscape (0xdc00 + (c.toNat - 0x10000) % 0x400)

/-- A string in quotes. -/
def stringText (s : String) : List Char :=
  '"' :: (s.toList.flatMap escape ++ ['"'])

/-! ## Reading -/

/-- The value of a hexadecimal digit. -/
def hexDigit (c : Char) : Option ℕ :=
  if 0x30 ≤ c.toNat ∧ c.toNat ≤ 0x39 then some (c.toNat - 0x30)
  else if 0x61 ≤ c.toNat ∧ c.toNat ≤ 0x66 then some (c.toNat - 0x61 + 10)
  else if 0x41 ≤ c.toNat ∧ c.toNat ≤ 0x46 then some (c.toNat - 0x41 + 10)
  else none

/-- Four hexadecimal digits. -/
def hexDigits : List Char → Option (ℕ × List Char)
  | a :: b :: c :: d :: rest => do
      let a ← hexDigit a
      let b ← hexDigit b
      let c ← hexDigit c
      let d ← hexDigit d
      return (a * 0x1000 + b * 0x100 + c * 0x10 + d, rest)
  | _ => none

/-- The second half of a surrogate pair. -/
def lowSurrogate : List Char → Option (ℕ × List Char)
  | '\\' :: 'u' :: rest => do
      let (low, rest) ← hexDigits rest
      if 0xdc00 ≤ low ∧ low ≤ 0xdfff then return (low - 0xdc00, rest) else none
  | _ => none

/-- The character of a `\u` escape, after its letter. -/
def unicodeChar (cs : List Char) : Option (Char × List Char) := do
  let (n, rest) ← hexDigits cs
  if 0xd800 ≤ n ∧ n ≤ 0xdbff then
    let (low, rest) ← lowSurrogate rest
    return (Char.ofNat (0x10000 + (n - 0xd800) * 0x400 + low), rest)
  else if 0xdc00 ≤ n ∧ n ≤ 0xdfff then none
  else return (Char.ofNat n, rest)

/-- The character of an escape, after its backslash. -/
def escapedChar : List Char → Option (Char × List Char)
  | [] => none
  | c :: rest =>
      if c = '"' then some ('"', rest)
      else if c = '\\' then some ('\\', rest)
      else if c = '/' then some ('/', rest)
      else if c = 'n' then some ('\n', rest)
      else if c = 'r' then some ('\r', rest)
      else if c = 't' then some ('\t', rest)
      else if c = 'f' then some ('\x0c', rest)
      else if c = 'b' then some ('\x08', rest)
      else if c = 'u' then unicodeChar rest
      else none

/-- One character of a string. -/
def scanChar : List Char → Option (Char × List Char)
  | [] => none
  | c :: rest =>
      if c = '\\' then escapedChar rest
      else if c.toNat < 0x20 then none
      else some (c, rest)

/-- The characters up to the closing quote. -/
def scanString : ℕ → List Char → Option (List Char × List Char)
  | 0, _ => none
  | _ + 1, [] => none
  | fuel + 1, c :: cs =>
      if c = '"' then some ([], cs)
      else do
        let (d, rest) ← scanChar (c :: cs)
        let (ds, rest) ← scanString fuel rest
        return (d :: ds, rest)

/-! ## Reading back -/

theorem hexDigit_digitChar {n : ℕ} (hn : n < 0x10) : hexDigit n.digitChar = some n := by
  have hall : ∀ m : Fin 0x10, hexDigit m.val.digitChar = some m.val := by decide
  exact hall ⟨n, hn⟩

theorem hexDigits_hexText {n : ℕ} (hn : n < 0x10000) (rest : List Char) :
    hexDigits (hexText n ++ rest) = some (n, rest) := by
  have hvalue : n / 0x1000 * 0x1000 + n / 0x100 % 0x10 * 0x100 + n / 0x10 % 0x10 * 0x10 +
      n % 0x10 = n := by omega
  rw [hexText, List.cons_append, List.cons_append, List.cons_append, List.cons_append,
    List.nil_append, hexDigits, hexDigit_digitChar (by omega), hexDigit_digitChar (by omega),
    hexDigit_digitChar (by omega), hexDigit_digitChar (by omega)]
  exact congrArg (fun m => some (m, rest)) hvalue

/-- A character is not a surrogate. -/
theorem toNat_valid (c : Char) : c.toNat < 0xd800 ∨ 0xdfff < c.toNat ∧ c.toNat < 0x110000 :=
  c.valid

theorem unicodeChar_single {c : Char} (hc : c.toNat < 0x10000) (rest : List Char) :
    unicodeChar (hexText c.toNat ++ rest) = some (c, rest) := by
  have hvalid := toNat_valid c
  have hhigh : ¬(0xd800 ≤ c.toNat ∧ c.toNat ≤ 0xdbff) := by omega
  have hlow : ¬(0xdc00 ≤ c.toNat ∧ c.toNat ≤ 0xdfff) := by omega
  rw [unicodeChar, hexDigits_hexText hc]
  simp only [Option.bind_eq_bind, Option.bind_some, if_neg hhigh, if_neg hlow, Char.ofNat_toNat]
  rfl

theorem lowSurrogate_escape {low : ℕ} (hlow : 0xdc00 ≤ low ∧ low ≤ 0xdfff) (rest : List Char) :
    lowSurrogate (unicodeEscape low ++ rest) = some (low - 0xdc00, rest) := by
  rw [unicodeEscape, List.cons_append, List.cons_append, lowSurrogate,
    hexDigits_hexText (by omega)]
  simp only [Option.bind_eq_bind, Option.bind_some, if_pos hlow]
  rfl

theorem unicodeChar_pair {c : Char} {high low : ℕ} (hhigh : 0xd800 ≤ high ∧ high ≤ 0xdbff)
    (hlow : 0xdc00 ≤ low ∧ low ≤ 0xdfff)
    (hc : 0x10000 + (high - 0xd800) * 0x400 + (low - 0xdc00) = c.toNat) (rest : List Char) :
    unicodeChar (hexText high ++ (unicodeEscape low ++ rest)) = some (c, rest) := by
  rw [unicodeChar, hexDigits_hexText (by omega)]
  simp only [Option.bind_eq_bind, Option.bind_some, if_pos hhigh, lowSurrogate_escape hlow, hc,
    Char.ofNat_toNat]
  rfl

/-- An escape is read back as its character. -/
theorem scanChar_escape (c : Char) (rest : List Char) :
    scanChar (escape c ++ rest) = some (c, rest) := by
  unfold escape
  split
  · next h => subst h; rfl
  split
  · next h => subst h; rfl
  split
  · next h => subst h; rfl
  split
  · next h => subst h; rfl
  split
  · next h => subst h; rfl
  split
  · next h => subst h; rfl
  split
  · next h => subst h; rfl
  split
  · next hslash _ _ _ _ _ hprintable =>
      have hcontrol : ¬c.toNat < 0x20 := by omega
      rw [List.cons_append, List.nil_append, scanChar, if_neg hslash, if_neg hcontrol]
  split
  · next hlow =>
      exact unicodeChar_single hlow rest
  · next hhigh =>
      have hvalid := toNat_valid c
      rw [List.append_assoc]
      exact unicodeChar_pair (by omega) (by omega) (by omega) rest

/-- An escape does not start with a quote. -/
theorem escape_cons (c : Char) : ∃ d ds, escape c = d :: ds ∧ d ≠ '"' := by
  unfold escape
  split
  · exact ⟨_, _, rfl, by decide⟩
  · next hquote =>
      iterate 6 (split; · exact ⟨_, _, rfl, by decide⟩)
      split
      · exact ⟨c, [], rfl, hquote⟩
      split
      · exact ⟨_, _, rfl, by decide⟩
      · exact ⟨_, _, rfl, by decide⟩

theorem scanString_escape (ds rest : List Char) {fuel : ℕ} (hfuel : ds.length < fuel) :
    scanString fuel (ds.flatMap escape ++ '"' :: rest) = some (ds, rest) := by
  induction ds generalizing fuel with
  | nil =>
      obtain ⟨fuel, rfl⟩ := Nat.exists_eq_succ_of_ne_zero (Nat.ne_of_gt hfuel)
      rfl
  | cons c ds ih =>
      obtain ⟨fuel, rfl⟩ := Nat.exists_eq_succ_of_ne_zero (Nat.ne_zero_of_lt hfuel)
      obtain ⟨d, cs, htext, hd⟩ := escape_cons c
      have hread := scanChar_escape c (ds.flatMap escape ++ '"' :: rest)
      rw [htext, List.cons_append] at hread
      rw [List.flatMap_cons, List.append_assoc, htext, List.cons_append, scanString, if_neg hd,
        hread]
      simp only [Option.bind_eq_bind, Option.bind_some, ih (Nat.lt_of_succ_lt_succ hfuel)]
      rfl

theorem length_le_flatMap_escape (ds : List Char) : ds.length ≤ (ds.flatMap escape).length := by
  induction ds with
  | nil => simp
  | cons c ds ih =>
      obtain ⟨d, cs, htext, -⟩ := escape_cons c
      rw [List.flatMap_cons, htext, List.length_append, List.length_cons, List.length_cons]
      omega

/-- A string is read back as it is written. -/
theorem scanString_stringText (s : String) (rest : List Char) :
    ∃ cs, stringText s ++ rest = '"' :: cs ∧
      scanString cs.length cs = some (s.toList, rest) := by
  refine ⟨s.toList.flatMap escape ++ '"' :: rest, by simp [stringText], ?_⟩
  refine scanString_escape s.toList rest ?_
  have := length_le_flatMap_escape s.toList
  rw [List.length_append, List.length_cons]
  omega

end Json

end Python
