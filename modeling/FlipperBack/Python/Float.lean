import FlipperBack.Python.Number

/-!
# Python floats and their texts

A finite `float` is a rational that is a binary64 number. `toDouble` is the
rounding to the nearest one, ties to even; `floatRepr` is `float.__repr__` on the
numbers that are not negative: the shortest digits that are read back as the
number, the nearest to it among them, in positional notation for the exponents
from -4 to 15 and in scientific notation beyond. The two zeros are one number
here.
-/

namespace Python

/-! ## Rounding -/

/-- Round to an integer, half to even. -/
def roundHalfEven (q : ℚ) : ℤ :=
  let below := ⌊q⌋
  if q - below < 1 / 2 then below
  else if 1 / 2 < q - below then below + 1
  else if below % 2 = 0 then below else below + 1

/-- The exponent of the binary digit a positive number starts with. -/
def binaryExponent (q : ℚ) : ℤ :=
  let guess : ℤ := (q.num.natAbs.log2 : ℤ) - q.den.log2
  if q < 2 ^ guess then guess - 1 else guess

/-- The nearest binary64 number to one that is not negative. -/
def toDouble (q : ℚ) : PyFloat :=
  if q = 0 then .finite 0
  else
    let ulp : ℤ := max (-1074) (binaryExponent q - 52)
    let rounded : ℚ := roundHalfEven (q / 2 ^ ulp) * 2 ^ ulp
    if rounded < 2 ^ 1024 then .finite rounded else .inf false

/-- Whether a number is a binary64 number, which is dyadic. -/
def IsDouble (q : ℚ) : Prop :=
  toDouble |q| = .finite |q| ∧ q.den = 2 ^ q.den.log2

/-! ## The digits of a float -/

/-- The exponent of the decimal digit a positive number starts with. -/
def decimalExponent (q : ℚ) : ℤ :=
  let guess : ℤ := (q.num.natAbs.repr.length : ℤ) - q.den.repr.length
  if q < 10 ^ guess then guess - 1 else guess

/-- An integer times a power of ten. -/
def decimalValue (d : ℕ × ℤ) : ℚ :=
  d.1 * 10 ^ d.2

/-- The two decimals of `n` digits around a positive number, the nearest first. -/
def decimalsAround (q : ℚ) (n : ℕ) : List (ℕ × ℤ) :=
  let e := decimalExponent q - (n - 1)
  let below := ⌊q / 10 ^ e⌋
  let near := roundHalfEven (q / 10 ^ e)
  let far := if near = below then below + 1 else below
  [near, far].map fun m =>
    if m = 10 ^ n then (10 ^ (n - 1), e + 1) else (m.toNat, e)

/-- All the digits of a dyadic number. -/
def exactDecimal (q : ℚ) : ℕ × ℤ :=
  (q.num.natAbs * 5 ^ q.den.log2, -(q.den.log2 : ℤ))

/-- The shortest decimal that is read back as a positive number. -/
def shortestDecimal (q : ℚ) : ℕ × ℤ :=
  (((List.range 17).flatMap fun n => decimalsAround q (n + 1)).find? fun d =>
    toDouble (decimalValue d) = .finite q).getD (exactDecimal q)

/-- The sign and the digits of an exponent, two at least. -/
def exponentText (e : ℤ) : List Char :=
  (if e < 0 then '-' else '+') ::
    (if e.natAbs < 10 then '0' :: e.natAbs.repr.toList else e.natAbs.repr.toList)

/-- Digits with the decimal point after the first `point` of them. -/
def placePoint (digits : List Char) (point : ℤ) : List Char :=
  if -4 < point ∧ point ≤ 16 then
    if point ≤ 0 then
      ['0', '.'] ++ List.replicate point.natAbs '0' ++ digits
    else if digits.length ≤ point then
      digits ++ List.replicate (point.natAbs - digits.length) '0' ++ ['.', '0']
    else
      digits.take point.natAbs ++ '.' :: digits.drop point.natAbs
  else
    digits.take 1 ++ (if digits.length ≤ 1 then [] else '.' :: digits.drop 1) ++
      'e' :: exponentText (point - 1)

/-- `float.__repr__` on a number that is not negative. -/
def floatRepr (q : ℚ) : List Char :=
  if q = 0 then ['0', '.', '0']
  else
    let d := shortestDecimal q
    placePoint d.1.repr.toList (d.1.repr.toList.length + d.2)

end Python
