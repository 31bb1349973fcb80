import Mathlib.Algebra.BigOperators.Group.List.Basic
import Mathlib.Algebra.Order.BigOperators.Group.List
import Mathlib.Algebra.Order.Field.Basic
import Mathlib.Tactic.FieldSimp
import Mathlib.Tactic.Linarith
import Mathlib.Tactic.Positivity
import Mathlib.Tactic.Ring

/-! # Mean and population variance

The variance of a list from its sum and its sum of squares, and what the order says about both.
-/
namespace Disping.Arithmetic
variable {K : Type*} [Field K] [LinearOrder K] [IsStrictOrderedRing K]

def mean (l : List K) : K := l.sum / l.length

def populationVariance (l : List K) : K := (l.map fun x => (x - mean l) ^ 2).sum / l.length

omit [LinearOrder K] [IsStrictOrderedRing K] in
/-- The squared distances from any point, by the sum and the sum of squares. -/
theorem sum_sq_sub (c : K) (l : List K) : (l.map fun x => (x - c) ^ 2).sum =
    (l.map fun x => x * x).sum - 2 * c * l.sum + l.length * c ^ 2 := by
  induction l with
  | nil => simp
  | cons x l ih =>
    simp only [List.map_cons, List.sum_cons, ih, List.length_cons, Nat.cast_succ]
    ring

theorem length_pos {l : List K} (hne : l ≠ []) : (0 : K) < l.length := by
  exact_mod_cast List.length_pos_iff.mpr hne

theorem populationVariance_eq {l : List K} (hne : l ≠ []) : populationVariance l =
    (l.map fun x => x * x).sum / l.length - mean l * mean l := by
  have hlength : (l.length : K) ≠ 0 := (length_pos hne).ne'
  have hsum : l.sum = mean l * l.length := by
    rw [mean, div_mul_cancel₀ _ hlength]
  rw [populationVariance, sum_sq_sub, hsum]
  field_simp
  ring

theorem sum_sq_nonneg (c : K) (l : List K) : 0 ≤ (l.map fun x => (x - c) ^ 2).sum := by
  induction l with
  | nil => simp
  | cons x l ih =>
    rw [List.map_cons, List.sum_cons]
    positivity

theorem sum_sq_eq_zero_iff (c : K) (l : List K) :
    (l.map fun x => (x - c) ^ 2).sum = 0 ↔ ∀ x ∈ l, x = c := by
  induction l with
  | nil => simp
  | cons x l ih =>
    have hrest := sum_sq_nonneg c l
    rw [List.map_cons, List.sum_cons, add_eq_zero_iff_of_nonneg (sq_nonneg _) hrest, ih,
      List.forall_mem_cons, pow_eq_zero_iff two_ne_zero, sub_eq_zero]

theorem populationVariance_nonneg (l : List K) : 0 ≤ populationVariance l :=
  div_nonneg (sum_sq_nonneg _ l) (Nat.cast_nonneg _)

theorem le_mean {l : List K} (hne : l ≠ []) {a : K} (h : ∀ x ∈ l, a ≤ x) : a ≤ mean l := by
  rw [mean, le_div_iff₀ (length_pos hne), mul_comm, ← nsmul_eq_mul]
  exact List.card_nsmul_le_sum l a h

theorem mean_le {l : List K} (hne : l ≠ []) {a : K} (h : ∀ x ∈ l, x ≤ a) : mean l ≤ a := by
  rw [mean, div_le_iff₀ (length_pos hne), mul_comm, ← nsmul_eq_mul]
  exact List.sum_le_card_nsmul l a h

/-- No variance, no two different elements. -/
theorem populationVariance_eq_zero_iff {l : List K} (hne : l ≠ []) :
    populationVariance l = 0 ↔ ∀ x ∈ l, ∀ y ∈ l, x = y := by
  rw [populationVariance, div_eq_zero_iff, or_iff_left (length_pos hne).ne', sum_sq_eq_zero_iff]
  constructor
  · intro h x hx y hy
    rw [h x hx, h y hy]
  · intro h x hx
    apply le_antisymm
    · exact le_mean hne fun y hy => (h x hx y hy).le
    · exact mean_le hne fun y hy => (h y hy x hx).le

end Disping.Arithmetic
