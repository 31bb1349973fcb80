import Mathlib.Data.Nat.ModEq
import Mathlib.Tactic.Ring
import Mathlib.Tactic.NormNum

/-! # Ones-complement sums

Two sums have the same ones-complement value of `k` bits when they agree modulo
`2^k - 1` and vanish together; the second half separates the two zeros. The
relation is a congruence for addition, and the end-around carry stays inside it.
-/
namespace Disping.Arithmetic

def OnesEq (k a b : ℕ) : Prop := a ≡ b [MOD 2 ^ k - 1] ∧ (a = 0 ↔ b = 0)

/-- The representative that a fold leaves in `k` bits. -/
def onesFold (k n : ℕ) : ℕ := if n = 0 then 0 else (n - 1) % (2 ^ k - 1) + 1

namespace OnesEq
variable {k a b c d : ℕ}

theorem refl (k a : ℕ) : OnesEq k a a := ⟨Nat.ModEq.refl a, Iff.rfl⟩

theorem symm (h : OnesEq k a b) : OnesEq k b a := ⟨h.1.symm, h.2.symm⟩

theorem trans (h : OnesEq k a b) (h' : OnesEq k b c) : OnesEq k a c :=
  ⟨h.1.trans h'.1, h.2.trans h'.2⟩

theorem add (h : OnesEq k a b) (h' : OnesEq k c d) : OnesEq k (a + c) (b + d) := by
  refine ⟨h.1.add h'.1, ?_⟩
  rw [Nat.add_eq_zero_iff, Nat.add_eq_zero_iff, h.2, h'.2]

theorem add_right (h : OnesEq k a b) (c : ℕ) : OnesEq k (a + c) (b + c) := h.add (refl k c)

theorem add_left (c : ℕ) (h : OnesEq k a b) : OnesEq k (c + a) (c + b) := (refl k c).add h

/-- A carry out of `k` bits may be added in at the bottom. -/
theorem carry (k lo hi : ℕ) : OnesEq k (lo + 2 ^ k * hi) (lo + hi) := by
  constructor
  · have hpow : 2 ^ k = (2 ^ k - 1) + 1 := by have := Nat.one_le_two_pow (n := k); omega
    have hmod : 2 ^ k * hi ≡ hi [MOD 2 ^ k - 1] := by
      have hself : (2 ^ k - 1) * hi + hi ≡ 0 + hi [MOD 2 ^ k - 1] :=
        Nat.ModEq.add_right hi (Nat.modEq_zero_iff_dvd.mpr (Nat.dvd_mul_right _ _))
      calc 2 ^ k * hi = (2 ^ k - 1) * hi + hi := by
            conv_lhs => rw [hpow]
            ring
        _ ≡ 0 + hi [MOD 2 ^ k - 1] := hself
        _ = hi := Nat.zero_add hi
    exact hmod.add_left lo
  · have hpos := Nat.two_pow_pos k
    constructor
    · intro h
      have h0 : lo = 0 := by omega
      have hmul : 2 ^ k * hi = 0 := by omega
      have h1 : hi = 0 := (Nat.mul_eq_zero.mp hmul).resolve_left (by omega)
      omega
    · intro h
      have h0 : lo = 0 := by omega
      have h1 : hi = 0 := by omega
      simp [h0, h1]

/-- A wider ones-complement value determines the narrower one. -/
theorem of_dvd {j : ℕ} (h : OnesEq k a b) (hj : 2 ^ j - 1 ∣ 2 ^ k - 1) : OnesEq j a b :=
  ⟨h.1.of_dvd hj, h.2⟩

/-- Two representatives in `k` bits of one value are equal. -/
theorem eq_of_lt (h : OnesEq k a b) (ha : a < 2 ^ k) (hb : b < 2 ^ k) : a = b := by
  by_cases ha0 : a = 0
  · rw [ha0, h.2.mp ha0]
  · have hb0 : b ≠ 0 := fun hb0 => ha0 (h.2.mpr hb0)
    obtain ⟨a', rfl⟩ : ∃ a', a = a' + 1 := ⟨a - 1, by omega⟩
    obtain ⟨b', rfl⟩ : ∃ b', b = b' + 1 := ⟨b - 1, by omega⟩
    have hab : a' ≡ b' [MOD 2 ^ k - 1] := Nat.ModEq.add_right_cancel' 1 h.1
    rw [Nat.ModEq.eq_of_lt_of_lt hab (by omega) (by omega)]

end OnesEq

theorem onesFold_lt {k : ℕ} (hk : 0 < k) (n : ℕ) : onesFold k n < 2 ^ k := by
  unfold onesFold
  have hpow : 2 ≤ 2 ^ k := by
    calc 2 = 2 ^ 1 := rfl
      _ ≤ 2 ^ k := Nat.pow_le_pow_right (by norm_num) hk
  split
  · omega
  · have := Nat.mod_lt (n - 1) (show 2 ^ k - 1 > 0 by omega)
    omega

theorem onesFold_onesEq (k n : ℕ) : OnesEq k (onesFold k n) n := by
  unfold onesFold
  split
  next h => simpa [h] using OnesEq.refl k 0
  next h =>
    refine ⟨?_, by omega⟩
    calc (n - 1) % (2 ^ k - 1) + 1 ≡ n - 1 + 1 [MOD 2 ^ k - 1] := (Nat.mod_modEq _ _).add_right 1
      _ = n := by omega

/-- A `k`-bit number that represents a sum is its fold. -/
theorem eq_onesFold {k a n : ℕ} (hk : 0 < k) (ha : a < 2 ^ k) (h : OnesEq k a n) :
    a = onesFold k n :=
  (h.trans (onesFold_onesEq k n).symm).eq_of_lt ha (onesFold_lt hk n)

theorem onesFold_congr {k a b : ℕ} (hk : 0 < k) (h : OnesEq k a b) : onesFold k a = onesFold k b :=
  eq_onesFold hk (onesFold_lt hk a) ((onesFold_onesEq k a).trans h)

end Disping.Arithmetic
