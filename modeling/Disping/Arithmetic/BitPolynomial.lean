import Mathlib.RingTheory.AdjoinRoot
import Mathlib.Algebra.Field.ZMod

/-! # Bit vectors as residues of polynomials over GF(2)

Exclusive or is addition. The vectors of `k` bits are the residues modulo `X^k + p`, so two
vectors with the same residue are equal, and a shift register that feeds back `p` multiplies
by the indeterminate.
-/
namespace Disping.Arithmetic
open Polynomial

def gf2 (b : Bool) : ZMod 2 := if b then 1 else 0

theorem gf2_xor (a b : Bool) : gf2 (a ^^ b) = gf2 a + gf2 b := by
  cases a <;> cases b <;> decide

theorem gf2_injective : Function.Injective gf2 := by
  intro a b h
  cases a <;> cases b <;> first | rfl | exact absurd h (by decide)

/-- The polynomial of a list of bits, the highest coefficient first. -/
noncomputable def horner (bits : List Bool) : (ZMod 2)[X] :=
  bits.foldl (fun f b => X * f + C (gf2 b)) 0

theorem horner_concat (bits : List Bool) (b : Bool) :
    horner (bits ++ [b]) = X * horner bits + C (gf2 b) := by
  rw [horner, List.foldl_concat]
  rfl

theorem coeff_horner_reverse (bits : List Bool) (i : ℕ) :
    (horner bits.reverse).coeff i = gf2 (bits.getD i false) := by
  induction bits generalizing i with
  | nil => simp [horner, gf2]
  | cons b bits ih =>
    rw [List.reverse_cons, horner_concat]
    rcases i with _ | i
    · simp
    · simp [coeff_X_mul, ih]

section Vectors
variable {w : ℕ} (x y : BitVec w)

def msbFirst : List Bool := List.ofFn fun i : Fin w => x.getMsbD i

def lsbFirst : List Bool := List.ofFn fun i : Fin w => x.getLsbD i

theorem msbFirst_eq_reverse : msbFirst x = (lsbFirst x).reverse := by
  apply List.ext_getElem
  · simp [msbFirst, lsbFirst]
  · intro j hj _
    have hw : j < w := by simpa [msbFirst] using hj
    simp [msbFirst, lsbFirst, BitVec.getMsbD_eq_getLsbD, show w - 1 - j < w by omega]

noncomputable def bitPoly : (ZMod 2)[X] := horner (msbFirst x)

theorem coeff_bitPoly (i : ℕ) : (bitPoly x).coeff i = gf2 (x.getLsbD i) := by
  rw [bitPoly, msbFirst_eq_reverse, coeff_horner_reverse]
  by_cases hi : i < w
  · simp [lsbFirst, hi]
  · simp [lsbFirst, hi, BitVec.getLsbD_of_ge x i (Nat.le_of_not_lt hi)]

theorem bitPoly_xor : bitPoly (x ^^^ y) = bitPoly x + bitPoly y := by
  ext i
  rw [coeff_add, coeff_bitPoly, coeff_bitPoly, coeff_bitPoly, BitVec.getLsbD_xor, gf2_xor]

theorem bitPoly_injective : Function.Injective (bitPoly : BitVec w → (ZMod 2)[X]) := by
  intro x y h
  refine BitVec.eq_of_getLsbD_eq fun i _ => gf2_injective ?_
  rw [← coeff_bitPoly, ← coeff_bitPoly, h]

theorem degree_bitPoly_lt : (bitPoly x).degree < w := by
  rw [degree_lt_iff_coeff_zero]
  intro i hi
  rw [coeff_bitPoly, BitVec.getLsbD_of_ge x i hi]
  rfl

/-- A shift into a vector with room for it. -/
theorem bitPoly_shift {n s : ℕ} (h : w + s ≤ n) :
    bitPoly (x.setWidth n <<< s) = X ^ s * bitPoly x := by
  ext i
  rw [coeff_bitPoly, coeff_X_pow_mul', coeff_bitPoly, BitVec.getLsbD_shiftLeft,
    BitVec.getLsbD_setWidth]
  rcases Nat.lt_or_ge i s with hs | hs
  · simp [hs, show ¬ s ≤ i by omega, gf2]
  · rcases Nat.lt_or_ge (i - s) w with hi | hi
    · simp [hs, show ¬ i < s by omega, show i < n by omega, show i - s < n by omega]
    · simp [hs, BitVec.getLsbD_of_ge x (i - s) hi]

end Vectors

/-! Residues. -/

section Residues
variable {k : ℕ} (p : BitVec k)

noncomputable def modulus : (ZMod 2)[X] := X ^ k + bitPoly p

theorem degree_modulus : (modulus p).degree = k := by
  have hlt : (bitPoly p).degree < (X ^ k : (ZMod 2)[X]).degree := by
    rw [degree_X_pow]
    exact degree_bitPoly_lt p
  rw [modulus, degree_add_eq_left_of_degree_lt hlt, degree_X_pow]

theorem monic_modulus : (modulus p).Monic := monic_X_pow_add (degree_bitPoly_lt p)

noncomputable def residue (r : BitVec k) : AdjoinRoot (modulus p) := AdjoinRoot.mk _ (bitPoly r)

/-- A residue has one representative. -/
theorem residue_injective : Function.Injective (residue p) := by
  intro a b h
  have hdvd : modulus p ∣ bitPoly a - bitPoly b := AdjoinRoot.mk_eq_mk.mp h
  have hlt : (bitPoly a - bitPoly b).degree < (modulus p).degree := by
    rw [degree_modulus]
    exact (degree_sub_le _ _).trans_lt (max_lt (degree_bitPoly_lt a) (degree_bitPoly_lt b))
  by_contra hne
  have hzero : bitPoly a - bitPoly b ≠ 0 := sub_ne_zero.mpr fun heq => hne (bitPoly_injective heq)
  exact (monic_modulus p).not_dvd_of_degree_lt hzero hlt hdvd

theorem residue_xor (a b : BitVec k) : residue p (a ^^^ b) = residue p a + residue p b := by
  rw [residue, bitPoly_xor, map_add]
  rfl

/-- The power that the modulus folds back. -/
theorem mk_X_pow : AdjoinRoot.mk (modulus p) (X ^ k) = residue p p := by
  have hzero : AdjoinRoot.mk (modulus p) (X ^ k + bitPoly p) = 0 := AdjoinRoot.mk_self
  rw [map_add] at hzero
  rw [eq_neg_of_add_eq_zero_left hzero, ← map_neg, CharTwo.neg_eq]
  rfl

/-- Multiplication by the indeterminate. -/
def timesX (r : BitVec k) : BitVec k := if r.msb then r <<< 1 ^^^ p else r <<< 1

/-- A left shift loses the highest coefficient. -/
theorem bitPoly_shiftLeft_one (r : BitVec (k + 1)) :
    X * bitPoly r = bitPoly (r <<< 1) + C (gf2 r.msb) * X ^ (k + 1) := by
  ext i
  rw [coeff_add, coeff_bitPoly, coeff_C_mul, coeff_X_pow]
  rcases i with _ | i
  · simp [gf2]
  · rw [coeff_X_mul, coeff_bitPoly, BitVec.getLsbD_shiftLeft, BitVec.msb_eq_getLsbD_last]
    rcases Nat.lt_trichotomy i k with hi | rfl | hi
    · simp [hi, show i ≠ k by omega]
    · simp [gf2]
    · simp [show i ≠ k by omega, BitVec.getLsbD_of_ge r i hi, gf2]

theorem bitPoly_ofBool (b : Bool) : bitPoly (BitVec.ofBool b) = C (gf2 b) := by
  ext i
  rw [coeff_bitPoly, coeff_C]
  rcases i with _ | i <;> simp [gf2]

end Residues

/-! Registers that take a list of bits. -/

section Registers
variable {k : ℕ} (p : BitVec (k + 1))

theorem residue_timesX (r : BitVec (k + 1)) :
    residue p (timesX p r) = AdjoinRoot.root _ * residue p r := by
  have hshift : AdjoinRoot.root _ * residue p r =
      residue p (r <<< 1) + AdjoinRoot.mk _ (C (gf2 r.msb)) * residue p p := by
    have hpoly := congrArg (AdjoinRoot.mk (modulus p)) (bitPoly_shiftLeft_one r)
    rwa [map_mul, map_add, map_mul, mk_X_pow, AdjoinRoot.mk_X] at hpoly
  rw [hshift, timesX]
  cases r.msb with
  | false => simp [gf2]
  | true => simp [gf2, residue_xor]

/-- A step of the long division: the next bit of the dividend comes in at the bottom. -/
def divideStep (r : BitVec (k + 1)) (b : Bool) : BitVec (k + 1) :=
  timesX p r ^^^ (BitVec.ofBool b).setWidth (k + 1)

/-- A step of a shift register: the next bit is added at the top before the shift. -/
def feedStep (r : BitVec (k + 1)) (b : Bool) : BitVec (k + 1) :=
  timesX p (r ^^^ (BitVec.ofBool b).setWidth (k + 1) <<< k)

theorem residue_divideStep (r : BitVec (k + 1)) (b : Bool) : residue p (divideStep p r b) =
    AdjoinRoot.root _ * residue p r + AdjoinRoot.mk _ (C (gf2 b)) := by
  have hbit : bitPoly ((BitVec.ofBool b).setWidth (k + 1)) = C (gf2 b) := by
    have hshift := bitPoly_shift (BitVec.ofBool b) (n := k + 1) (s := 0) (by omega)
    rwa [BitVec.shiftLeft_zero, pow_zero, one_mul, bitPoly_ofBool] at hshift
  rw [divideStep, residue_xor, residue_timesX, residue, residue, hbit]

theorem residue_feedStep (r : BitVec (k + 1)) (b : Bool) : residue p (feedStep p r b) =
    AdjoinRoot.root _ * residue p r +
      AdjoinRoot.root _ ^ (k + 1) * AdjoinRoot.mk _ (C (gf2 b)) := by
  have hbit : residue p ((BitVec.ofBool b).setWidth (k + 1) <<< k) =
      AdjoinRoot.root _ ^ k * AdjoinRoot.mk _ (C (gf2 b)) := by
    rw [residue, bitPoly_shift _ (by omega), bitPoly_ofBool, map_mul, map_pow, AdjoinRoot.mk_X]
  rw [feedStep, residue_timesX, residue_xor, hbit]
  ring

/-- Division takes the list as the low coefficients of the dividend. -/
theorem residue_foldl_divideStep (bits : List Bool) (r : BitVec (k + 1)) :
    residue p (bits.foldl (divideStep p) r) =
      AdjoinRoot.root _ ^ bits.length * residue p r + AdjoinRoot.mk _ (horner bits) := by
  induction bits using List.reverseRecOn with
  | nil => simp [horner]
  | append_singleton bits b ih =>
    rw [List.foldl_concat, residue_divideStep, ih, horner_concat, List.length_append,
      List.length_singleton, map_add, map_mul, AdjoinRoot.mk_X]
    ring

/-- The register takes it times `X^(k + 1)`. -/
theorem residue_foldl_feedStep (bits : List Bool) (r : BitVec (k + 1)) :
    residue p (bits.foldl (feedStep p) r) = AdjoinRoot.root _ ^ bits.length * residue p r +
      AdjoinRoot.root _ ^ (k + 1) * AdjoinRoot.mk _ (horner bits) := by
  induction bits using List.reverseRecOn with
  | nil => simp [horner]
  | append_singleton bits b ih =>
    rw [List.foldl_concat, residue_feedStep, ih, horner_concat, List.length_append,
      List.length_singleton, map_add, map_mul, AdjoinRoot.mk_X]
    ring

/-- The remainder of a vector. -/
def remainder {w : ℕ} (x : BitVec w) : BitVec (k + 1) := (msbFirst x).foldl (divideStep p) 0

theorem residue_remainder {w : ℕ} (x : BitVec w) :
    residue p (remainder p x) = AdjoinRoot.mk _ (bitPoly x) := by
  have hzero : residue p 0 = 0 := by
    have hself := residue_xor p 0 0
    rw [BitVec.xor_self] at hself
    exact left_eq_add.mp hself
  rw [remainder, residue_foldl_divideStep, hzero, mul_zero, zero_add]
  rfl

/-- Long division leaves the remainder of the polynomial division. -/
theorem bitPoly_remainder {w : ℕ} (x : BitVec w) :
    bitPoly (remainder p x) = bitPoly x %ₘ modulus p := by
  have hdvd : modulus p ∣ bitPoly x - bitPoly (remainder p x) :=
    AdjoinRoot.mk_eq_mk.mp (residue_remainder p x).symm
  have hlt : (bitPoly (remainder p x)).degree < (modulus p).degree := by
    rw [degree_modulus]
    exact degree_bitPoly_lt _
  have hself := (modByMonic_eq_self_iff (monic_modulus p)).mpr hlt
  rw [← hself]
  exact (modByMonic_eq_of_dvd_sub (monic_modulus p) hdvd).symm

/-- A register that takes bits and the division of the shifted state and bits agree. -/
theorem foldl_feedStep_eq_remainder {w : ℕ} {x : BitVec w} {bits : List Bool}
    {r : BitVec (k + 1)}
    (h : bitPoly x = X ^ bits.length * bitPoly r + X ^ (k + 1) * horner bits) :
    bits.foldl (feedStep p) r = remainder p x := by
  apply residue_injective p
  rw [residue_remainder, residue_foldl_feedStep, h, map_add, map_mul, map_mul, map_pow, map_pow,
    AdjoinRoot.mk_X]
  rfl

end Registers

end Disping.Arithmetic
