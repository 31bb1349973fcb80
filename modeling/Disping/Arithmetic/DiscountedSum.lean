import Mathlib.Algebra.Order.Field.Basic
import Mathlib.Tactic.Linarith
import Mathlib.Tactic.Ring

/-! # Running averages as discounted sums

An average that keeps the share `p` of itself at each sample and takes the share `q` of the sample
is the start, discounted once for each sample, and the samples, discounted by their age.
-/
namespace Disping.Arithmetic

variable {K : Type*} [Field K]

/-- The samples with the shares they have in the average after the last of them. -/
def discounted (p q : K) : List K → K
  | [] => 0
  | u :: us => q * p ^ us.length * u + discounted p q us

/-- One sample. -/
def mix (p q x u : K) : K := x * p + u * q

theorem foldl_mix (p q x : K) (us : List K) :
    us.foldl (mix p q) x = p ^ us.length * x + discounted p q us := by
  induction us generalizing x with
  | nil => simp [discounted]
  | cons u us ih =>
    rw [List.foldl_cons, ih, discounted, List.length_cons, mix]
    ring

/-- The shares of the samples add up to what the start has lost. -/
theorem discounted_sub {p q : K} (h : p + q = 1) (c : K) (us : List K) :
    discounted p q (us.map (· - c)) = discounted p q us - (1 - p ^ us.length) * c := by
  induction us with
  | nil => simp [discounted]
  | cons u us ih =>
    have hq : q = 1 - p := by rw [← h]; ring
    rw [List.map_cons, discounted, discounted, ih, List.length_map, List.length_cons, hq]
    ring

theorem discounted_neg (p q c : K) (us : List K) :
    discounted p q (us.map (c - ·)) = - discounted p q (us.map (· - c)) := by
  induction us with
  | nil => simp [discounted]
  | cons u us ih =>
    rw [List.map_cons, List.map_cons, discounted, discounted, ih, List.length_map, List.length_map]
    ring

section Order
variable [LinearOrder K] [IsStrictOrderedRing K] {p q : K}

/-- From zero the average reaches `c` when the excess of the samples over `c` makes up for the share
of the start. -/
theorem le_average_iff (h : p + q = 1) (c : K) (us : List K) :
    c ≤ us.foldl (mix p q) 0 ↔ p ^ us.length * c ≤ discounted p q (us.map (· - c)) := by
  rw [foldl_mix, discounted_sub h, mul_zero, zero_add]
  constructor
  · intro hle
    linarith
  · intro hle
    linarith

theorem average_le_iff (h : p + q = 1) (c : K) (us : List K) :
    us.foldl (mix p q) 0 ≤ c ↔ 0 ≤ p ^ us.length * c + discounted p q (us.map (c - ·)) := by
  rw [foldl_mix, discounted_neg, discounted_sub h, mul_zero, zero_add]
  constructor
  · intro hle
    linarith
  · intro hle
    linarith

end Order

end Disping.Arithmetic
