import Mathlib.Data.Int.Notation
import Mathlib.Data.List.Basic

/-!
# Python strings: white space, digits and upper case

`strip`, `upper` and `decimal` are `str.strip`, `str.upper` and
`unicodedata.decimal` on strings of Unicode scalar values. Upper-casing is the
full case mapping, so one character may become several. The tables are those of
Unicode 15: a row `(first, count, stride, shift)` of `upperRanges` sends each of
the `count` characters `first`, `first + stride`, ... to the one `shift` further.
-/

namespace Python

/-- `str.isspace` on one character. -/
def isSpace (c : Char) : Bool :=
  let n := c.toNat
  (0x9 ≤ n && n ≤ 0xD) || (0x1C ≤ n && n ≤ 0x20) || n == 0x85 || n == 0xA0 || n == 0x1680 ||
    (0x2000 ≤ n && n ≤ 0x200A) || n == 0x2028 || n == 0x2029 || n == 0x202F || n == 0x205F ||
    n == 0x3000

/-- The characters between the ones at the ends that are `blank`. -/
def trim (blank : Char → Bool) (cs : List Char) : List Char :=
  ((cs.dropWhile blank).reverse.dropWhile blank).reverse

/-- The characters of `str.strip`. -/
def stripChars (cs : List Char) : List Char :=
  trim isSpace cs

/-- `str.strip()`. -/
def strip (s : String) : String :=
  String.ofList (stripChars s.toList)

/-- The zeros of the blocks of ten decimal digits. -/
def decimalZeros : List ℕ :=
  [0x30, 0x660, 0x6F0, 0x7C0, 0x966, 0x9E6, 0xA66, 0xAE6, 0xB66, 0xBE6, 0xC66, 0xCE6, 0xD66,
    0xDE6, 0xE50, 0xED0, 0xF20, 0x1040, 0x1090, 0x17E0, 0x1810, 0x1946, 0x19D0, 0x1A80, 0x1A90,
    0x1B50, 0x1BB0, 0x1C40, 0x1C50, 0xA620, 0xA8D0, 0xA900, 0xA9D0, 0xA9F0, 0xAA50, 0xABF0,
    0xFF10, 0x104A0, 0x10D30, 0x11066, 0x110F0, 0x11136, 0x111D0, 0x112F0, 0x11450, 0x114D0,
    0x11650, 0x116C0, 0x11730, 0x118E0, 0x11950, 0x11C50, 0x11D50, 0x11DA0, 0x11F50, 0x16A60,
    0x16AC0, 0x16B50, 0x1D7CE, 0x1D7D8, 0x1D7E2, 0x1D7EC, 0x1D7F6, 0x1E140, 0x1E2F0, 0x1E4F0,
    0x1E950, 0x1FBF0]

/-- `unicodedata.decimal`: the value of a decimal digit. -/
def decimal (c : Char) : Option ℕ :=
  (decimalZeros.find? fun z => z ≤ c.toNat && c.toNat < z + 10).map (c.toNat - ·)

/-- The characters whose upper case is one character. -/
def upperRanges : List (ℕ × ℕ × ℕ × ℤ) :=
  [(0x61, 26, 1, -32), (0xB5, 1, 1, 743), (0xE0, 23, 1, -32), (0xF8, 7, 1, -32),
    (0xFF, 1, 1, 121), (0x101, 24, 2, -1), (0x131, 1, 1, -232), (0x133, 3, 2, -1),
    (0x13A, 8, 2, -1), (0x14B, 23, 2, -1), (0x17A, 3, 2, -1), (0x17F, 1, 1, -300),
    (0x180, 1, 1, 195), (0x183, 2, 2, -1), (0x188, 1, 1, -1), (0x18C, 1, 1, -1),
    (0x192, 1, 1, -1), (0x195, 1, 1, 97), (0x199, 1, 1, -1), (0x19A, 1, 1, 163),
    (0x19E, 1, 1, 130), (0x1A1, 3, 2, -1), (0x1A8, 1, 1, -1), (0x1AD, 1, 1, -1),
    (0x1B0, 1, 1, -1), (0x1B4, 2, 2, -1), (0x1B9, 1, 1, -1), (0x1BD, 1, 1, -1),
    (0x1BF, 1, 1, 56), (0x1C5, 1, 1, -1), (0x1C6, 1, 1, -2), (0x1C8, 1, 1, -1),
    (0x1C9, 1, 1, -2), (0x1CB, 1, 1, -1), (0x1CC, 1, 1, -2), (0x1CE, 8, 2, -1),
    (0x1DD, 1, 1, -79), (0x1DF, 9, 2, -1), (0x1F2, 1, 1, -1), (0x1F3, 1, 1, -2),
    (0x1F5, 1, 1, -1), (0x1F9, 20, 2, -1), (0x223, 9, 2, -1), (0x23C, 1, 1, -1),
    (0x23F, 2, 1, 10815), (0x242, 1, 1, -1), (0x247, 5, 2, -1), (0x250, 1, 1, 10783),
    (0x251, 1, 1, 10780), (0x252, 1, 1, 10782), (0x253, 1, 1, -210), (0x254, 1, 1, -206),
    (0x256, 2, 1, -205), (0x259, 1, 1, -202), (0x25B, 1, 1, -203), (0x25C, 1, 1, 42319),
    (0x260, 1, 1, -205), (0x261, 1, 1, 42315), (0x263, 1, 1, -207), (0x265, 1, 1, 42280),
    (0x266, 1, 1, 42308), (0x268, 1, 1, -209), (0x269, 1, 1, -211), (0x26A, 1, 1, 42308),
    (0x26B, 1, 1, 10743), (0x26C, 1, 1, 42305), (0x26F, 1, 1, -211), (0x271, 1, 1, 10749),
    (0x272, 1, 1, -213), (0x275, 1, 1, -214), (0x27D, 1, 1, 10727), (0x280, 1, 1, -218),
    (0x282, 1, 1, 42307), (0x283, 1, 1, -218), (0x287, 1, 1, 42282), (0x288, 1, 1, -218),
    (0x289, 1, 1, -69), (0x28A, 2, 1, -217), (0x28C, 1, 1, -71), (0x292, 1, 1, -219),
    (0x29D, 1, 1, 42261), (0x29E, 1, 1, 42258), (0x345, 1, 1, 84), (0x371, 2, 2, -1),
    (0x377, 1, 1, -1), (0x37B, 3, 1, 130), (0x3AC, 1, 1, -38), (0x3AD, 3, 1, -37),
    (0x3B1, 17, 1, -32), (0x3C2, 1, 1, -31), (0x3C3, 9, 1, -32), (0x3CC, 1, 1, -64),
    (0x3CD, 2, 1, -63), (0x3D0, 1, 1, -62), (0x3D1, 1, 1, -57), (0x3D5, 1, 1, -47),
    (0x3D6, 1, 1, -54), (0x3D7, 1, 1, -8), (0x3D9, 12, 2, -1), (0x3F0, 1, 1, -86),
    (0x3F1, 1, 1, -80), (0x3F2, 1, 1, 7), (0x3F3, 1, 1, -116), (0x3F5, 1, 1, -96),
    (0x3F8, 1, 1, -1), (0x3FB, 1, 1, -1), (0x430, 32, 1, -32), (0x450, 16, 1, -80),
    (0x461, 17, 2, -1), (0x48B, 27, 2, -1), (0x4C2, 7, 2, -1), (0x4CF, 1, 1, -15),
    (0x4D1, 48, 2, -1), (0x561, 38, 1, -48), (0x10D0, 43, 1, 3008), (0x10FD, 3, 1, 3008),
    (0x13F8, 6, 1, -8), (0x1C80, 1, 1, -6254), (0x1C81, 1, 1, -6253), (0x1C82, 1, 1, -6244),
    (0x1C83, 2, 1, -6242), (0x1C85, 1, 1, -6243), (0x1C86, 1, 1, -6236), (0x1C87, 1, 1, -6181),
    (0x1C88, 1, 1, 35266), (0x1D79, 1, 1, 35332), (0x1D7D, 1, 1, 3814), (0x1D8E, 1, 1, 35384),
    (0x1E01, 75, 2, -1), (0x1E9B, 1, 1, -59), (0x1EA1, 48, 2, -1), (0x1F00, 8, 1, 8),
    (0x1F10, 6, 1, 8), (0x1F20, 8, 1, 8), (0x1F30, 8, 1, 8), (0x1F40, 6, 1, 8),
    (0x1F51, 4, 2, 8), (0x1F60, 8, 1, 8), (0x1F70, 2, 1, 74), (0x1F72, 4, 1, 86),
    (0x1F76, 2, 1, 100), (0x1F78, 2, 1, 128), (0x1F7A, 2, 1, 112), (0x1F7C, 2, 1, 126),
    (0x1FB0, 2, 1, 8), (0x1FBE, 1, 1, -7205), (0x1FD0, 2, 1, 8), (0x1FE0, 2, 1, 8),
    (0x1FE5, 1, 1, 7), (0x214E, 1, 1, -28), (0x2170, 16, 1, -16), (0x2184, 1, 1, -1),
    (0x24D0, 26, 1, -26), (0x2C30, 48, 1, -48), (0x2C61, 1, 1, -1), (0x2C65, 1, 1, -10795),
    (0x2C66, 1, 1, -10792), (0x2C68, 3, 2, -1), (0x2C73, 1, 1, -1), (0x2C76, 1, 1, -1),
    (0x2C81, 50, 2, -1), (0x2CEC, 2, 2, -1), (0x2CF3, 1, 1, -1), (0x2D00, 38, 1, -7264),
    (0x2D27, 1, 1, -7264), (0x2D2D, 1, 1, -7264), (0xA641, 23, 2, -1), (0xA681, 14, 2, -1),
    (0xA723, 7, 2, -1), (0xA733, 31, 2, -1), (0xA77A, 2, 2, -1), (0xA77F, 5, 2, -1),
    (0xA78C, 1, 1, -1), (0xA791, 2, 2, -1), (0xA794, 1, 1, 48), (0xA797, 10, 2, -1),
    (0xA7B5, 8, 2, -1), (0xA7C8, 2, 2, -1), (0xA7D1, 1, 1, -1), (0xA7D7, 2, 2, -1),
    (0xA7F6, 1, 1, -1), (0xAB53, 1, 1, -928), (0xAB70, 80, 1, -38864), (0xFF41, 26, 1, -32),
    (0x10428, 40, 1, -40), (0x104D8, 36, 1, -40), (0x10597, 11, 1, -39), (0x105A3, 15, 1, -39),
    (0x105B3, 7, 1, -39), (0x105BB, 2, 1, -39), (0x10CC0, 51, 1, -64), (0x118C0, 32, 1, -32),
    (0x16E60, 32, 1, -32), (0x1E922, 34, 1, -34)]

/-- The characters whose upper case is several characters. -/
def upperSpecial : List (ℕ × List ℕ) :=
  [(0xDF, [0x53, 0x53]), (0x149, [0x2BC, 0x4E]), (0x1F0, [0x4A, 0x30C]),
    (0x390, [0x399, 0x308, 0x301]), (0x3B0, [0x3A5, 0x308, 0x301]), (0x587, [0x535, 0x552]),
    (0x1E96, [0x48, 0x331]), (0x1E97, [0x54, 0x308]), (0x1E98, [0x57, 0x30A]),
    (0x1E99, [0x59, 0x30A]), (0x1E9A, [0x41, 0x2BE]), (0x1F50, [0x3A5, 0x313]),
    (0x1F52, [0x3A5, 0x313, 0x300]), (0x1F54, [0x3A5, 0x313, 0x301]),
    (0x1F56, [0x3A5, 0x313, 0x342]), (0x1F80, [0x1F08, 0x399]), (0x1F81, [0x1F09, 0x399]),
    (0x1F82, [0x1F0A, 0x399]), (0x1F83, [0x1F0B, 0x399]), (0x1F84, [0x1F0C, 0x399]),
    (0x1F85, [0x1F0D, 0x399]), (0x1F86, [0x1F0E, 0x399]), (0x1F87, [0x1F0F, 0x399]),
    (0x1F88, [0x1F08, 0x399]), (0x1F89, [0x1F09, 0x399]), (0x1F8A, [0x1F0A, 0x399]),
    (0x1F8B, [0x1F0B, 0x399]), (0x1F8C, [0x1F0C, 0x399]), (0x1F8D, [0x1F0D, 0x399]),
    (0x1F8E, [0x1F0E, 0x399]), (0x1F8F, [0x1F0F, 0x399]), (0x1F90, [0x1F28, 0x399]),
    (0x1F91, [0x1F29, 0x399]), (0x1F92, [0x1F2A, 0x399]), (0x1F93, [0x1F2B, 0x399]),
    (0x1F94, [0x1F2C, 0x399]), (0x1F95, [0x1F2D, 0x399]), (0x1F96, [0x1F2E, 0x399]),
    (0x1F97, [0x1F2F, 0x399]), (0x1F98, [0x1F28, 0x399]), (0x1F99, [0x1F29, 0x399]),
    (0x1F9A, [0x1F2A, 0x399]), (0x1F9B, [0x1F2B, 0x399]), (0x1F9C, [0x1F2C, 0x399]),
    (0x1F9D, [0x1F2D, 0x399]), (0x1F9E, [0x1F2E, 0x399]), (0x1F9F, [0x1F2F, 0x399]),
    (0x1FA0, [0x1F68, 0x399]), (0x1FA1, [0x1F69, 0x399]), (0x1FA2, [0x1F6A, 0x399]),
    (0x1FA3, [0x1F6B, 0x399]), (0x1FA4, [0x1F6C, 0x399]), (0x1FA5, [0x1F6D, 0x399]),
    (0x1FA6, [0x1F6E, 0x399]), (0x1FA7, [0x1F6F, 0x399]), (0x1FA8, [0x1F68, 0x399]),
    (0x1FA9, [0x1F69, 0x399]), (0x1FAA, [0x1F6A, 0x399]), (0x1FAB, [0x1F6B, 0x399]),
    (0x1FAC, [0x1F6C, 0x399]), (0x1FAD, [0x1F6D, 0x399]), (0x1FAE, [0x1F6E, 0x399]),
    (0x1FAF, [0x1F6F, 0x399]), (0x1FB2, [0x1FBA, 0x399]), (0x1FB3, [0x391, 0x399]),
    (0x1FB4, [0x386, 0x399]), (0x1FB6, [0x391, 0x342]), (0x1FB7, [0x391, 0x342, 0x399]),
    (0x1FBC, [0x391, 0x399]), (0x1FC2, [0x1FCA, 0x399]), (0x1FC3, [0x397, 0x399]),
    (0x1FC4, [0x389, 0x399]), (0x1FC6, [0x397, 0x342]), (0x1FC7, [0x397, 0x342, 0x399]),
    (0x1FCC, [0x397, 0x399]), (0x1FD2, [0x399, 0x308, 0x300]), (0x1FD3, [0x399, 0x308, 0x301]),
    (0x1FD6, [0x399, 0x342]), (0x1FD7, [0x399, 0x308, 0x342]), (0x1FE2, [0x3A5, 0x308, 0x300]),
    (0x1FE3, [0x3A5, 0x308, 0x301]), (0x1FE4, [0x3A1, 0x313]), (0x1FE6, [0x3A5, 0x342]),
    (0x1FE7, [0x3A5, 0x308, 0x342]), (0x1FF2, [0x1FFA, 0x399]), (0x1FF3, [0x3A9, 0x399]),
    (0x1FF4, [0x38F, 0x399]), (0x1FF6, [0x3A9, 0x342]), (0x1FF7, [0x3A9, 0x342, 0x399]),
    (0x1FFC, [0x3A9, 0x399]), (0xFB00, [0x46, 0x46]), (0xFB01, [0x46, 0x49]),
    (0xFB02, [0x46, 0x4C]), (0xFB03, [0x46, 0x46, 0x49]), (0xFB04, [0x46, 0x46, 0x4C]),
    (0xFB05, [0x53, 0x54]), (0xFB06, [0x53, 0x54]), (0xFB13, [0x544, 0x546]),
    (0xFB14, [0x544, 0x535]), (0xFB15, [0x544, 0x53B]), (0xFB16, [0x54E, 0x546]),
    (0xFB17, [0x544, 0x53D])]

/-- `str.upper` on one character. -/
def upperChar (c : Char) : List Char :=
  match upperSpecial.lookup c.toNat with
  | some us => us.map Char.ofNat
  | none =>
      match upperRanges.find? fun (first, count, stride, _) =>
          first ≤ c.toNat && c.toNat < first + count * stride &&
            (c.toNat - first) % stride == 0 with
      | some (_, _, _, shift) => [Char.ofNat ((c.toNat : ℤ) + shift).toNat]
      | none => [c]

/-- `str.upper()`. -/
def upper (s : String) : String :=
  String.ofList (s.toList.flatMap upperChar)

example : upper "aß1ı" = "ASS1I" := by decide

end Python
