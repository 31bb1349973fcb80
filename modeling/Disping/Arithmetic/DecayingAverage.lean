import Mathlib.Algebra.Order.Field.Basic
import Mathlib.Algebra.Order.AbsoluteValue.Basic
import Mathlib.Data.List.Induction
import Mathlib.Tactic.Linarith
import Mathlib.Tactic.Ring

/-! # Decaying averages of absolute differences

The average moves a fixed fraction of the way to each new absolute difference,
so it stays in every interval from zero that contains them all. Differences of
consecutive members of a list are bounded by the width of the list.
-/
namespace Disping.Arithmetic

section Lists
variable {K : Type*} [Sub K]

/-- Differences of consecutive members. -/
def differences : List K → List K
  | [] => []
  | [_] => []
  | a :: b :: rest => (b - a) :: differences (b :: rest)

theorem differences_concat (a b : K) (l : List K) :
    differences (l ++ [a, b]) = differences (l ++ [a]) ++ [b - a] := by
  induction l with
  | nil => rfl
  | cons c l ih =>
    cases l with
    | nil => rfl
    | cons d l =>
      simp only [List.cons_append, differences] at ih ⊢
      rw [ih]

end Lists

variable {K : Type*} [Field K] [LinearOrder K]

/-- One move of the average `x` towards `|d|`. -/
def decay (g x d : K) : K := x + (|d| - x) * g

theorem decay_mem [IsStrictOrderedRing K] {g x d w : K} (hg : 0 ≤ g) (hg' : g ≤ 1) (hx : 0 ≤ x ∧ x ≤ w) (hd : |d| ≤ w) :
    0 ≤ decay g x d ∧ decay g x d ≤ w := by
  have hmix : decay g x d = x * (1 - g) + |d| * g := by
    unfold decay
    ring
  have hd0 := abs_nonneg d
  constructor
  · rw [hmix]
    have h1 := mul_nonneg hx.1 (sub_nonneg.mpr hg')
    have h2 := mul_nonneg hd0 hg
    linarith
  · rw [hmix]
    have h1 := mul_le_mul_of_nonneg_right hx.2 (sub_nonneg.mpr hg')
    have h2 := mul_le_mul_of_nonneg_right hd hg
    linarith

/-- The average of the differences of a list, from zero. -/
def decayFold (g : K) (l : List K) : K := (differences l).foldl (decay g) 0

theorem decayFold_concat (g a b : K) (l : List K) :
    decayFold g (l ++ [a, b]) = decay g (decayFold g (l ++ [a])) (b - a) := by
  rw [decayFold, differences_concat, List.foldl_append]
  rfl

/-- The average stays within the width of any interval that holds the list. -/
theorem decayFold_mem [IsStrictOrderedRing K] {g : K} (hg : 0 ≤ g) (hg' : g ≤ 1) {lo hi : K} (hle : lo ≤ hi) {l : List K}
    (h : ∀ x ∈ l, lo ≤ x ∧ x ≤ hi) : 0 ≤ decayFold g l ∧ decayFold g l ≤ hi - lo := by
  induction l using List.reverseRecOn with
  | nil => exact ⟨le_refl _, sub_nonneg.mpr hle⟩
  | append_singleton l b ih =>
    rcases List.eq_nil_or_concat l with rfl | ⟨l, a, rfl⟩
    · exact ⟨le_refl _, sub_nonneg.mpr hle⟩
    · have hprefix := ih fun x hx => h x (List.mem_append_left _ hx)
      have ha := h a (by simp)
      have hb := h b (by simp)
      have hdiff : |b - a| ≤ hi - lo := by
        rw [abs_sub_le_iff]
        constructor <;> linarith
      have hconcat : l.concat a ++ [b] = l ++ [a, b] := by simp
      rw [hconcat, decayFold_concat, ← List.concat_eq_append]
      exact decay_mem hg hg' hprefix hdiff

end Disping.Arithmetic
