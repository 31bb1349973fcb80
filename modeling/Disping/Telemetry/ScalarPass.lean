import Mathlib.Data.Rat.Defs
import Mathlib.Algebra.Order.Field.Rat
import Mathlib.Algebra.Order.Ring.Abs
import Mathlib.Algebra.BigOperators.Group.List.Basic
import Mathlib.Order.Bounds.Basic
import Mathlib.Tactic.Linarith

/-! # The single pass of the statistics routine

Minimum, maximum, sum and sum of squares in one fold, over any scalar
arithmetic. Exact arithmetic is one instance, the rounded arithmetic of the
processor another.
-/
namespace Disping.Telemetry

structure ScalarOps (K : Type*) where
  zero : K
  /-- The jitter gain, one sixteenth. -/
  gain : K
  add : K → K → K
  sub : K → K → K
  mul : K → K → K
  div : K → K → K
  sqrt : K → K
  abs : K → K
  lt : K → K → Bool
  ofCount : BitVec 64 → K

structure ScanState (K : Type*) where
  min : K
  max : K
  sum : K
  sumSq : K

structure PassResult (K : Type*) where
  outMin : K
  outMax : K
  outAvg : K
  outStdDev : K

section Generic
variable {K : Type*} (ops : ScalarOps K)

/-- minsd and maxsd keep their destination when the strict comparison holds. -/
def scanStep (acc : ScanState K) (val : K) : ScanState K where
  min := if ops.lt acc.min val then acc.min else val
  max := if ops.lt val acc.max then acc.max else val
  sum := ops.add acc.sum val
  sumSq := ops.add acc.sumSq (ops.mul val val)

def scanStart (first : K) : ScanState K := ⟨first, first, ops.zero, ops.zero⟩

def passResult (acc : ScanState K) (count : BitVec 64) : PassResult K :=
  let mean := ops.div acc.sum (ops.ofCount count)
  let variance := ops.sub (ops.div acc.sumSq (ops.ofCount count)) (ops.mul mean mean)
  { outMin := acc.min
    outMax := acc.max
    outAvg := mean
    outStdDev := ops.sqrt (if ops.lt ops.zero variance then variance else ops.zero) }

/-- asm_calc_ping_stats_simd; without samples the outputs are left alone. -/
def calcPingStats : List K → Option (PassResult K)
  | [] => none
  | first :: rest => some (passResult ops ((first :: rest).foldl (scanStep ops) (scanStart ops first))
      (BitVec.ofNat 64 (first :: rest).length))

/-- asm_calc_jitter_rfc3550. -/
def calcJitter (currentJitter transitDiff : K) : K :=
  ops.add currentJitter (ops.mul (ops.sub (ops.abs transitDiff) currentJitter) ops.gain)

end Generic

section Exact
variable (sqrt : ℚ → ℚ)

/-- Exact arithmetic; the square root stays a parameter. -/
def exactOps : ScalarOps ℚ where
  zero := 0
  gain := 1 / 16
  add := (· + ·)
  sub := (· - ·)
  mul := (· * ·)
  div := (· / ·)
  sqrt := sqrt
  abs := abs
  lt x y := decide (x < y)
  ofCount n := (n.toInt : ℚ)

theorem scanStep_exact (acc : ScanState ℚ) (val : ℚ) : scanStep (exactOps sqrt) acc val =
    ⟨Min.min acc.min val, Max.max acc.max val, acc.sum + val, acc.sumSq + val * val⟩ := by
  have hmin : (if acc.min < val then acc.min else val) = Min.min acc.min val := by
    rcases lt_or_ge acc.min val with h | h
    · rw [if_pos h, min_eq_left h.le]
    · rw [if_neg h.not_gt, min_eq_right h]
  have hmax : (if val < acc.max then acc.max else val) = Max.max acc.max val := by
    rcases lt_or_ge val acc.max with h | h
    · rw [if_pos h, max_eq_left h.le]
    · rw [if_neg h.not_gt, max_eq_right h]
  simp [scanStep, exactOps, hmin, hmax]

/-- The fold, field by field. -/
theorem scan_exact (l : List ℚ) (acc : ScanState ℚ) : l.foldl (scanStep (exactOps sqrt)) acc =
    ⟨l.foldl Min.min acc.min, l.foldl Max.max acc.max, acc.sum + l.sum,
      acc.sumSq + (l.map fun x => x * x).sum⟩ := by
  induction l generalizing acc with
  | nil => simp
  | cons x l ih =>
    rw [List.foldl_cons, scanStep_exact, ih]
    simp [add_assoc]

theorem isLeast_foldl_min (first : ℚ) (rest : List ℚ) :
    IsLeast {x | x ∈ first :: rest} ((first :: rest).foldl Min.min first) := by
  have hfold : (first :: rest).foldl Min.min first = rest.foldl Min.min first := by simp
  have hsome : (first :: rest).min? = some (rest.foldl Min.min first) := List.min?_cons'
  rw [hfold]
  exact List.min?_eq_some_iff.mp hsome

theorem isGreatest_foldl_max (first : ℚ) (rest : List ℚ) :
    IsGreatest {x | x ∈ first :: rest} ((first :: rest).foldl Max.max first) := by
  have hfold : (first :: rest).foldl Max.max first = rest.foldl Max.max first := by simp
  have hsome : (first :: rest).max? = some (rest.foldl Max.max first) := List.max?_cons'
  rw [hfold]
  exact List.max?_eq_some_iff.mp hsome

/-- Exactly the minimum, the maximum and the mean of the samples. -/
theorem calcPingStats_exact {l : List ℚ} (hne : l ≠ []) (hlen : l.length < 2 ^ 63) :
    ∃ out, calcPingStats (exactOps sqrt) l = some out ∧ IsLeast {x | x ∈ l} out.outMin ∧
      IsGreatest {x | x ∈ l} out.outMax ∧ out.outAvg = l.sum / l.length := by
  cases l with
  | nil => exact absurd rfl hne
  | cons first rest =>
    refine ⟨_, rfl, ?_, ?_, ?_⟩
    · rw [scan_exact]
      exact isLeast_foldl_min first rest
    · rw [scan_exact]
      exact isGreatest_foldl_max first rest
    · rw [scan_exact]
      have hcount : (BitVec.ofNat 64 (first :: rest).length).toInt = (first :: rest).length := by
        have hnat : (BitVec.ofNat 64 (first :: rest).length).toNat = (first :: rest).length := by
          rw [BitVec.toNat_ofNat, Nat.mod_eq_of_lt (by omega)]
        rw [BitVec.toInt_eq_toNat_of_lt (by rw [hnat]; omega), hnat]
      simp only [passResult, exactOps, scanStart, hcount]
      simp

end Exact

end Disping.Telemetry
