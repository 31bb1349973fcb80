import Disping.Arithmetic.BitPolynomial
import Disping.Machine.Instruction

/-! # The crc32 instruction as a shift register

The instruction divides its reflected operand and accumulator by one polynomial. A register that
shifts the accumulator right and takes the operand's bits from the lowest on gives the same.
-/
namespace Disping.Machine
open Arithmetic

/-- The divisor without its highest coefficient. -/
def castagnoli : BitVec 32 := 0x1EDC6F41

/-- One bit of the reflected register. -/
def crcBit (crc : BitVec 32) (b : Bool) : BitVec 32 :=
  if crc.getLsbD 0 ^^ b then crc >>> 1 ^^^ 0x82F63B78#32 else crc >>> 1

theorem setWidth_append_ofBool (r : BitVec 32) (b : Bool) :
    (r ++ BitVec.ofBool b).setWidth 32 = r <<< 1 ^^^ (BitVec.ofBool b).setWidth 32 := by
  apply BitVec.eq_of_getLsbD_eq
  intro i hi
  rw [BitVec.getLsbD_setWidth, BitVec.getLsbD_append, BitVec.getLsbD_xor, BitVec.getLsbD_shiftLeft,
    BitVec.getLsbD_setWidth]
  rcases i with _ | i
  · simp
  · simp [hi]

theorem mod2Step_eq_divideStep : mod2Step = divideStep castagnoli := by
  funext r b
  have hmsb : (r ++ BitVec.ofBool b).msb = r.msb := by
    rw [BitVec.msb_append]
    rfl
  have hdivisor : (0x11EDC6F41#33).setWidth 32 = castagnoli := by decide
  have hstep : mod2Step r b = if (r ++ BitVec.ofBool b).msb then
      ((r ++ BitVec.ofBool b) ^^^ 0x11EDC6F41#33).setWidth 32
    else (r ++ BitVec.ofBool b).setWidth 32 := rfl
  rw [hstep, hmsb, BitVec.setWidth_xor, hdivisor, setWidth_append_ofBool]
  unfold divideStep timesX
  split
  · rw [BitVec.xor_assoc, BitVec.xor_assoc, BitVec.xor_comm castagnoli]
  · rfl

theorem mod2_eq_remainder {w : ℕ} (x : BitVec w) : mod2 x = remainder castagnoli x := by
  rw [mod2, mod2Step_eq_divideStep]
  rfl

theorem reverse_shiftLeft_one (r : BitVec 32) : (r <<< 1).reverse = r.reverse >>> 1 := by
  apply BitVec.eq_of_getLsbD_eq
  intro i hi
  rw [BitVec.getLsbD_reverse, BitVec.getLsbD_ushiftRight, BitVec.getLsbD_reverse,
    BitVec.getMsbD_shiftLeft, Nat.add_comm]

theorem reverse_xor (x y : BitVec 32) : (x ^^^ y).reverse = x.reverse ^^^ y.reverse := by
  apply BitVec.eq_of_getLsbD_eq
  intro i _
  rw [BitVec.getLsbD_reverse, BitVec.getLsbD_xor, BitVec.getLsbD_reverse, BitVec.getLsbD_reverse,
    BitVec.getMsbD_xor]

theorem reverse_feedStep (r : BitVec 32) (b : Bool) :
    (feedStep castagnoli r b).reverse = crcBit r.reverse b := by
  let top : BitVec 32 := (BitVec.ofBool b).setWidth 32 <<< 31
  have hmsb : (r ^^^ top).msb = (r.reverse.getLsbD 0 ^^ b) := by
    have htop : top.msb = b := by cases b <;> decide
    rw [BitVec.msb_xor, BitVec.getLsbD_reverse, htop]
    rfl
  -- the bit at the top is shifted out
  have hshift : (r ^^^ top) <<< 1 = r <<< 1 := by
    have htop : top <<< 1 = 0#32 := by cases b <;> decide
    rw [BitVec.shiftLeft_xor_distrib, htop, BitVec.xor_zero]
  have hreflected : castagnoli.reverse = 0x82F63B78#32 := by decide +kernel
  have hstep : feedStep castagnoli r b = timesX castagnoli (r ^^^ top) := rfl
  rw [hstep, timesX, hmsb, hshift, crcBit]
  split
  · rw [reverse_xor, reverse_shiftLeft_one, hreflected]
  · rw [reverse_shiftLeft_one]

theorem reverse_foldl_feedStep (bits : List Bool) (r : BitVec 32) :
    (bits.foldl (feedStep castagnoli) r).reverse = bits.foldl crcBit r.reverse := by
  induction bits generalizing r with
  | nil => rfl
  | cons b bits ih => rw [List.foldl_cons, List.foldl_cons, ih, reverse_feedStep]

/-- An operand of any width is taken bit by bit. -/
theorem crc32_eq_foldl {w : ℕ} (acc : BitVec 32) (x : BitVec w) :
    crc32 acc x = (lsbFirst x).foldl crcBit acc := by
  have hbits : horner (lsbFirst x) = bitPoly x.reverse := by
    rw [bitPoly, msbFirst]
    simp only [BitVec.getMsbD_reverse]
    rfl
  have hlength : (lsbFirst x).length = w := List.length_ofFn
  have hfold := fun y => @foldl_feedStep_eq_remainder 31 castagnoli (w + 32) y (lsbFirst x) acc.reverse
  rw [crc32, mod2_eq_remainder, ← hfold, reverse_foldl_feedStep, BitVec.reverse_reverse_eq]
  rw [bitPoly_xor, bitPoly_shift _ (by omega), bitPoly_shift _ (by omega), hbits, hlength, add_comm]

end Disping.Machine
