import Disping.Arithmetic.BitPolynomial

/-! # Shift registers with feedback

The register shifts right and takes one bit of input with each shift; what falls out decides whether
the feedback vector is added. It loses nothing as long as the feedback reaches its highest bit, and
its low bits and the input enter alike. So a window of input no longer than the register leaves its
trace.
-/
namespace Disping.Arithmetic

section Vectors
variable {w : ℕ}

/-- The vector whose lowest bits are the list, zero above. -/
def ofBits (w : ℕ) (bits : List Bool) : BitVec w := (BitVec.ofBoolListLE bits).setWidth w

theorem getLsbD_ofBits (bits : List Bool) {i : ℕ} (hi : i < w) :
    (ofBits w bits).getLsbD i = bits.getD i false := by
  simp [ofBits, hi]

theorem ofBits_lsbFirst (x : BitVec w) : ofBits w (lsbFirst x) = x := by
  apply BitVec.eq_of_getLsbD_eq
  intro i hi
  rw [getLsbD_ofBits _ hi]
  simp [lsbFirst, hi]

/-- Bits that fit are read back. -/
theorem ofBits_injective {xs ys : List Bool} (hlen : xs.length = ys.length) (hw : xs.length ≤ w)
    (h : ofBits w xs = ofBits w ys) : xs = ys := by
  apply List.ext_getElem hlen
  intro i hx hy
  have hbit := congrArg (fun v : BitVec w => v.getLsbD i) h
  rw [getLsbD_ofBits _ (by omega), getLsbD_ofBits _ (by omega)] at hbit
  simpa [hx, hy] using hbit

/-- The bits behind the first one lie where a shift moves them. -/
theorem ofBits_cons_shift (b : Bool) (bits : List Bool) (h : bits.length < w) :
    ofBits w (b :: bits) >>> 1 = ofBits w bits := by
  apply BitVec.eq_of_getLsbD_eq
  intro i hi
  rw [BitVec.getLsbD_ushiftRight, getLsbD_ofBits _ hi]
  by_cases hnext : 1 + i < w
  · rw [getLsbD_ofBits _ hnext, Nat.add_comm, List.getD_cons_succ]
  · rw [BitVec.getLsbD_of_ge _ _ (by omega), List.getD_eq_getElem?_getD,
      List.getElem?_eq_none (by omega), Option.getD_none]

end Vectors

section Register
variable {w : ℕ} (p : BitVec w)

/-- One shift with one bit of input. -/
def shiftStep (r : BitVec w) (b : Bool) : BitVec w :=
  if r.getLsbD 0 ^^ b then r >>> 1 ^^^ p else r >>> 1

/-- Shifts without input. -/
def shiftOut (r : BitVec w) (n : ℕ) : BitVec w := (List.replicate n false).foldl (shiftStep p) r

/-- A step tells its input from the other one, or its state from any other state. -/
theorem shiftStep_injective (hp : p.msb = true) (b : Bool) :
    Function.Injective fun r : BitVec w => shiftStep p r b := by
  intro r s h
  have htop : ∀ x : BitVec w, (shiftStep p x b).msb = (x.getLsbD 0 ^^ b) := by
    intro x
    have hshift : (x >>> 1).msb = false := by simp [BitVec.msb_ushiftRight]
    unfold shiftStep
    split
    · rename_i hbit
      rw [BitVec.msb_xor, hshift, hp, hbit, Bool.false_xor]
    · rename_i hbit
      rw [hshift, eq_false_of_ne_true hbit]
  have hlow : r.getLsbD 0 = s.getLsbD 0 := by
    have htops := congrArg BitVec.msb h
    simp only [htop] at htops
    exact Bool.xor_left_inj.mp htops
  have hrest : r >>> 1 = s >>> 1 := by
    simp only [shiftStep, hlow] at h
    split at h
    · exact BitVec.xor_left_inj p |>.mp h
    · exact h
  apply BitVec.eq_of_getLsbD_eq
  rintro (_ | i) hi
  · exact hlow
  · have hbit := congrArg (fun v : BitVec w => v.getLsbD i) hrest
    simpa [BitVec.getLsbD_ushiftRight, Nat.add_comm] using hbit

theorem foldl_shiftStep_injective (hp : p.msb = true) (bits : List Bool) :
    Function.Injective fun r : BitVec w => bits.foldl (shiftStep p) r := by
  induction bits with
  | nil => exact fun _ _ h => h
  | cons b bits ih => exact fun _ _ h => shiftStep_injective p hp b (ih h)

/-- Input that fits the register may be added to it beforehand. -/
theorem foldl_shiftStep_eq_shiftOut (bits : List Bool) (r : BitVec w) (h : bits.length ≤ w) :
    bits.foldl (shiftStep p) r = shiftOut p (r ^^^ ofBits w bits) bits.length := by
  induction bits generalizing r with
  | nil =>
    have hzero : ofBits w [] = 0#w := by
      apply BitVec.eq_of_getLsbD_eq
      intro i hi
      rw [getLsbD_ofBits _ hi]
      simp
    rw [hzero, BitVec.xor_zero]
    rfl
  | cons b bits ih =>
    have hlen : bits.length < w := by simpa using h
    have hbit : (r ^^^ ofBits w (b :: bits)).getLsbD 0 = (r.getLsbD 0 ^^ b) := by
      rw [BitVec.getLsbD_xor, getLsbD_ofBits _ (by omega)]
      rfl
    have hstep : shiftStep p (r ^^^ ofBits w (b :: bits)) false =
        shiftStep p r b ^^^ ofBits w bits := by
      unfold shiftStep
      rw [hbit, Bool.xor_false, BitVec.ushiftRight_xor_distrib, ofBits_cons_shift b bits hlen]
      split
      · rw [BitVec.xor_assoc, BitVec.xor_comm (ofBits w bits), ← BitVec.xor_assoc]
      · rfl
    rw [List.foldl_cons, ih _ (by omega), ← hstep]
    rfl

/-- Two inputs that differ, within a window no longer than the register, are told apart. -/
theorem foldl_shiftStep_window (hp : p.msb = true) (r : BitVec w) {before xs ys after : List Bool}
    (hlen : xs.length = ys.length) (hw : xs.length ≤ w)
    (h : (before ++ xs ++ after).foldl (shiftStep p) r =
      (before ++ ys ++ after).foldl (shiftStep p) r) : xs = ys := by
  rw [List.foldl_append, List.foldl_append, List.foldl_append, List.foldl_append] at h
  have hwindow := foldl_shiftStep_injective p hp after h
  rw [foldl_shiftStep_eq_shiftOut p xs _ hw, foldl_shiftStep_eq_shiftOut p ys _ (hlen ▸ hw),
    hlen] at hwindow
  have hadded := foldl_shiftStep_injective p hp _ hwindow
  exact ofBits_injective hlen hw ((BitVec.xor_right_inj _).mp hadded)

end Register

end Disping.Arithmetic
