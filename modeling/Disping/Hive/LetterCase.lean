import Mathlib.Data.Int.Notation
import Mathlib.Data.List.Basic

/-! # Letter case

Names are compared by the system's table of capital letters: every small letter of the Basic
Multilingual Plane that is the small form of one capital there, and the final sigma.
-/
namespace Disping.Hive

/-- Runs of small letters, from the first to the last, and where their capitals are from them. -/
def capitalRuns : List (ℕ × ℕ × ℤ) :=
  [(0x00e0, 0x00f6, -32), (0x00f8, 0x00fe, -32), (0x00ff, 0x00ff, 121), (0x0180, 0x0180, 195),
  (0x0195, 0x0195, 97), (0x019a, 0x019a, 163), (0x019e, 0x019e, 130), (0x01bf, 0x01bf, 56),
  (0x01c6, 0x01c6, -2), (0x01c9, 0x01c9, -2), (0x01cc, 0x01cc, -2), (0x01dd, 0x01dd, -79),
  (0x01f3, 0x01f3, -2), (0x023f, 0x0240, 10815), (0x0250, 0x0250, 10783), (0x0251, 0x0251, 10780),
  (0x0252, 0x0252, 10782), (0x0253, 0x0253, -210), (0x0254, 0x0254, -206), (0x0256, 0x0257, -205),
  (0x0259, 0x0259, -202), (0x025b, 0x025b, -203), (0x025c, 0x025c, 42319), (0x0260, 0x0260, -205),
  (0x0261, 0x0261, 42315), (0x0263, 0x0263, -207), (0x0265, 0x0265, 42280),
  (0x0266, 0x0266, 42308), (0x0268, 0x0268, -209), (0x0269, 0x0269, -211), (0x026a, 0x026a, 42308),
  (0x026b, 0x026b, 10743), (0x026c, 0x026c, 42305), (0x026f, 0x026f, -211),
  (0x0271, 0x0271, 10749), (0x0272, 0x0272, -213), (0x0275, 0x0275, -214), (0x027d, 0x027d, 10727),
  (0x0280, 0x0280, -218), (0x0282, 0x0282, 42307), (0x0283, 0x0283, -218), (0x0287, 0x0287, 42282),
  (0x0288, 0x0288, -218), (0x0289, 0x0289, -69), (0x028a, 0x028b, -217), (0x028c, 0x028c, -71),
  (0x0292, 0x0292, -219), (0x029d, 0x029d, 42261), (0x029e, 0x029e, 42258), (0x037b, 0x037d, 130),
  (0x03ac, 0x03ac, -38), (0x03ad, 0x03af, -37), (0x03b1, 0x03c1, -32), (0x03c2, 0x03c2, -31),
  (0x03c3, 0x03cb, -32), (0x03cc, 0x03cc, -64), (0x03cd, 0x03ce, -63), (0x03d7, 0x03d7, -8),
  (0x03f2, 0x03f2, 7), (0x03f3, 0x03f3, -116), (0x0430, 0x044f, -32), (0x0450, 0x045f, -80),
  (0x04cf, 0x04cf, -15), (0x0561, 0x0586, -48), (0x10d0, 0x10fa, 3008), (0x10fd, 0x10ff, 3008),
  (0x13f8, 0x13fd, -8), (0x1d79, 0x1d79, 35332), (0x1d7d, 0x1d7d, 3814), (0x1d8e, 0x1d8e, 35384),
  (0x1f00, 0x1f07, 8), (0x1f10, 0x1f15, 8), (0x1f20, 0x1f27, 8), (0x1f30, 0x1f37, 8),
  (0x1f40, 0x1f45, 8), (0x1f51, 0x1f51, 8), (0x1f53, 0x1f53, 8), (0x1f55, 0x1f55, 8),
  (0x1f57, 0x1f57, 8), (0x1f60, 0x1f67, 8), (0x1f70, 0x1f71, 74), (0x1f72, 0x1f75, 86),
  (0x1f76, 0x1f77, 100), (0x1f78, 0x1f79, 128), (0x1f7a, 0x1f7b, 112), (0x1f7c, 0x1f7d, 126),
  (0x1f80, 0x1f87, 8), (0x1f90, 0x1f97, 8), (0x1fa0, 0x1fa7, 8), (0x1fb0, 0x1fb1, 8),
  (0x1fb3, 0x1fb3, 9), (0x1fc3, 0x1fc3, 9), (0x1fd0, 0x1fd1, 8), (0x1fe0, 0x1fe1, 8),
  (0x1fe5, 0x1fe5, 7), (0x1ff3, 0x1ff3, 9), (0x214e, 0x214e, -28), (0x2170, 0x217f, -16),
  (0x24d0, 0x24e9, -26), (0x2c30, 0x2c5f, -48), (0x2c65, 0x2c65, -10795), (0x2c66, 0x2c66, -10792),
  (0x2d00, 0x2d25, -7264), (0x2d27, 0x2d27, -7264), (0x2d2d, 0x2d2d, -7264), (0xa794, 0xa794, 48),
  (0xab53, 0xab53, -928), (0xab70, 0xabbf, -38864), (0xff41, 0xff5a, -32)]

/-- Runs in which every second letter is small and follows its capital. -/
def capitalPairs : List (ℕ × ℕ) :=
  [(0x0101, 0x012f), (0x0133, 0x0137), (0x013a, 0x0148), (0x014b, 0x0177), (0x017a, 0x017e),
  (0x0183, 0x0185), (0x0188, 0x0188), (0x018c, 0x018c), (0x0192, 0x0192), (0x0199, 0x0199),
  (0x01a1, 0x01a5), (0x01a8, 0x01a8), (0x01ad, 0x01ad), (0x01b0, 0x01b0), (0x01b4, 0x01b6),
  (0x01b9, 0x01b9), (0x01bd, 0x01bd), (0x01ce, 0x01dc), (0x01df, 0x01ef), (0x01f5, 0x01f5),
  (0x01f9, 0x021f), (0x0223, 0x0233), (0x023c, 0x023c), (0x0242, 0x0242), (0x0247, 0x024f),
  (0x0371, 0x0373), (0x0377, 0x0377), (0x03d9, 0x03ef), (0x03f8, 0x03f8), (0x03fb, 0x03fb),
  (0x0461, 0x0481), (0x048b, 0x04bf), (0x04c2, 0x04ce), (0x04d1, 0x052f), (0x1e01, 0x1e95),
  (0x1ea1, 0x1eff), (0x2184, 0x2184), (0x2c61, 0x2c61), (0x2c68, 0x2c6c), (0x2c73, 0x2c73),
  (0x2c76, 0x2c76), (0x2c81, 0x2ce3), (0x2cec, 0x2cee), (0x2cf3, 0x2cf3), (0xa641, 0xa66d),
  (0xa681, 0xa69b), (0xa723, 0xa72f), (0xa733, 0xa76f), (0xa77a, 0xa77c), (0xa77f, 0xa787),
  (0xa78c, 0xa78c), (0xa791, 0xa793), (0xa797, 0xa7a9), (0xa7b5, 0xa7c3), (0xa7c8, 0xa7ca),
  (0xa7d1, 0xa7d1), (0xa7d7, 0xa7d9), (0xa7f6, 0xa7f6)]

/-- The capital of a letter beyond ASCII. -/
def capitalOf (code : ℕ) : ℕ :=
  match capitalRuns.find? fun (first, last, _) => first ≤ code ∧ code ≤ last with
  | some (_, _, shift) => (code + shift).toNat
  | none =>
    if capitalPairs.any fun (first, last) => first ≤ code ∧ code ≤ last ∧ code % 2 = first % 2 then code - 1
    else code

/-- A character without its letter case. -/
def upcase (c : Char) : Char :=
  if c.toNat < 128 then c.toUpper else .ofNat (capitalOf c.toNat)

end Disping.Hive
