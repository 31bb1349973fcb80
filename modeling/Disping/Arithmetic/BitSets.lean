import Mathlib.Data.Set.Basic
import Mathlib.Order.Interval.Set.Defs
import Mathlib.Data.Nat.Bitwise

/-! # Masks as sets of bit positions -/
namespace Disping.Arithmetic

variable {w : ℕ}

/-- The positions of the bits that are set. -/
def bitSet (mask : BitVec w) : Set ℕ := {i | mask.getLsbD i = true}

/-- The mask of the first `n` positions. -/
def lowBits (w n : ℕ) : BitVec w := if w ≤ n then BitVec.allOnes w else (1#w <<< n) - 1#w

section Sets
variable {mask a b : BitVec w} {i n : ℕ}

theorem mem_bitSet : i ∈ bitSet mask ↔ mask.getLsbD i = true := Iff.rfl

instance : Decidable (i ∈ bitSet mask) := inferInstanceAs (Decidable (mask.getLsbD i = true))

theorem lt_of_mem_bitSet (h : i ∈ bitSet mask) : i < w := BitVec.lt_of_getLsbD h

@[simp] theorem bitSet_zero : bitSet (0#w) = ∅ := by
  ext i
  simp [mem_bitSet]

@[simp] theorem bitSet_or : bitSet (a ||| b) = bitSet a ∪ bitSet b := by
  ext i
  simp [mem_bitSet]

@[simp] theorem bitSet_andNot : bitSet (a &&& ~~~b) = bitSet a \ bitSet b := by
  ext i
  rw [Set.mem_sdiff, mem_bitSet, mem_bitSet, mem_bitSet, BitVec.getLsbD_and, BitVec.getLsbD_not,
    Bool.and_eq_true, Bool.and_eq_true, Bool.not_eq_true', decide_eq_true_iff, Bool.not_eq_true]
  constructor
  · exact fun h => ⟨h.1, h.2.2⟩
  · exact fun h => ⟨h.1, lt_of_mem_bitSet h.1, h.2⟩

theorem bitSet_nonempty : (bitSet mask).Nonempty ↔ mask ≠ 0#w := by
  constructor
  · rintro ⟨i, hi⟩ rfl
    simp at hi
  · intro hne
    by_contra hempty
    refine hne (BitVec.eq_of_getLsbD_eq fun i _ => ?_)
    rw [BitVec.getLsbD_zero, ← Bool.not_eq_true]
    exact fun hi => hempty ⟨i, hi⟩

theorem bitSet_lowBits : bitSet (lowBits w n) = Set.Iio (min n w) := by
  ext i
  rw [mem_bitSet, Set.mem_Iio, lowBits]
  split
  · rename_i h
    rw [BitVec.getLsbD_allOnes, decide_eq_true_iff, min_eq_right h]
  · rename_i h
    have hn : n < w := Nat.lt_of_not_le h
    have hpow : 2 ^ n < 2 ^ w := Nat.pow_lt_pow_right (by decide) hn
    have hone : 1 < 2 ^ w := Nat.one_lt_two_pow (by omega)
    have hshift : (1#w <<< n).toNat = 2 ^ n := by
      rw [BitVec.toNat_shiftLeft, BitVec.toNat_ofNat, Nat.mod_eq_of_lt hone, Nat.shiftLeft_eq, Nat.one_mul,
        Nat.mod_eq_of_lt hpow]
    have hle : 1#w ≤ 1#w <<< n := by
      rw [BitVec.le_def, hshift, BitVec.toNat_ofNat, Nat.mod_eq_of_lt hone]
      exact Nat.one_le_two_pow
    rw [min_eq_left (Nat.le_of_lt hn), BitVec.getLsbD, BitVec.toNat_sub_of_le hle, hshift, BitVec.toNat_ofNat,
      Nat.mod_eq_of_lt hone, Nat.testBit_two_pow_sub_one, decide_eq_true_iff]

end Sets

end Disping.Arithmetic
