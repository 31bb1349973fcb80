import Mathlib.Tactic.Common
import Mathlib.Algebra.Group.Nat.Defs
import Mathlib.Data.Nat.Basic

/-! # The spin-wait loop

asm_spin_wait_ns reads the time-stamp counter until the distance to its first reading is large enough.
The distance is taken modulo 2^64, so the wait may begin before the counter wraps and end after.
-/
namespace Disping.Assembly

/-- `rdtsc` leaves the halves of the counter in RDX and RAX, with the rest of the registers clear. -/
def rdtsc (tsc : BitVec 64) : BitVec 64 × BitVec 64 :=
  ((tsc.extractLsb' 32 32).setWidth 64, (tsc.extractLsb' 0 32).setWidth 64)

/-- `rdtsc; shl rdx, 32; or rax, rdx`. -/
def readTsc (tsc : BitVec 64) : BitVec 64 :=
  let (rdx, rax) := rdtsc tsc
  rax ||| rdx <<< 32

/-- The loop from its k-th reading on, and the reading that it is left after. -/
def spinLoop (tsc : ℕ → BitVec 64) (start targetCycles : BitVec 64) : ℕ → ℕ → Option ℕ
  | 0, _ => none
  | fuel + 1, k =>
    let elapsed := readTsc (tsc k) - start
    if elapsed < targetCycles then spinLoop tsc start targetCycles fuel (k + 1) else some k

def asmSpinWaitNs (tsc : ℕ → BitVec 64) (targetCycles : BitVec 64) (fuel : ℕ) : Option ℕ :=
  spinLoop tsc (readTsc (tsc 0)) targetCycles fuel 1

theorem readTsc_eq (tsc : BitVec 64) : readTsc tsc = tsc := by
  unfold readTsc rdtsc
  ext i hi
  by_cases hlow : i < 32
  · simp [hlow, BitVec.getLsbD_eq_getElem hi]
  · have hindex : 32 + (i - 32) = i ∧ i - 32 < 32 := by omega
    simp [hlow, hindex, BitVec.getLsbD_eq_getElem hi]

/-- The loop ends with the first reading that is far enough. -/
theorem spinLoop_eq_some_iff {tsc : ℕ → BitVec 64} {start targetCycles : BitVec 64} {fuel k n : ℕ} :
    spinLoop tsc start targetCycles fuel k = some n ↔ (k ≤ n ∧ n < k + fuel) ∧
      ¬ tsc n - start < targetCycles ∧ ∀ j, k ≤ j → j < n → tsc j - start < targetCycles := by
  induction fuel generalizing k with
  | zero =>
    rw [spinLoop]
    exact iff_of_false (by simp) fun h => absurd h.1 (by omega)
  | succ fuel ih =>
    rw [spinLoop, readTsc_eq]
    split
    · rename_i hshort
      rw [ih]
      constructor
      · rintro ⟨⟨hlow, hhigh⟩, hend, hbefore⟩
        refine ⟨⟨by omega, by omega⟩, hend, fun j hj hjn => ?_⟩
        rcases Nat.eq_or_lt_of_le hj with rfl | hlater
        · exact hshort
        · exact hbefore j hlater hjn
      · rintro ⟨⟨hlow, hhigh⟩, hend, hbefore⟩
        have hne : k ≠ n := by
          rintro rfl
          exact hend hshort
        exact ⟨⟨by omega, by omega⟩, hend, fun j hj => hbefore j (by omega)⟩
    · rename_i hfar
      rw [Option.some.injEq]
      constructor
      · rintro rfl
        exact ⟨⟨le_rfl, by omega⟩, hfar, fun j hj hjk => absurd hj (by omega)⟩
      · rintro ⟨⟨hlow, -⟩, -, hbefore⟩
        by_contra hne
        exact hfar (hbefore k le_rfl (by omega))

/-- A counter that goes forward, by a gap at most between two readings, and of which the register holds
the lower 64 bits. -/
structure Counts (tsc : ℕ → BitVec 64) (cycles : ℕ → ℕ) (gap : ℕ) : Prop where
  reading : ∀ k, tsc k = BitVec.ofNat 64 (cycles k)
  forward : ∀ k, cycles k ≤ cycles (k + 1)
  gap : ∀ k, cycles (k + 1) ≤ cycles k + gap

section Counter
variable {tsc : ℕ → BitVec 64} {cycles : ℕ → ℕ} {gap : ℕ}

theorem Counts.le (h : Counts tsc cycles gap) (k : ℕ) : cycles 0 ≤ cycles k := by
  induction k with
  | zero => exact le_rfl
  | succ k ih => exact Nat.le_trans ih (h.forward k)

theorem Counts.distance (h : Counts tsc cycles gap) {k : ℕ} (hk : cycles k - cycles 0 < 2 ^ 64) :
    (tsc k - tsc 0).toNat = cycles k - cycles 0 := by
  have hle := h.le k
  rw [h.reading, h.reading, BitVec.toNat_sub, BitVec.toNat_ofNat, BitVec.toNat_ofNat]
  omega

/-- A reading at which the wait is not over before is no full turn away. -/
theorem Counts.next (h : Counts tsc cycles gap) {target k : ℕ} (hpos : 1 ≤ k)
    (hbefore : ∀ j, 1 ≤ j → j < k → cycles j - cycles 0 < target) : cycles k - cycles 0 ≤ target + gap := by
  obtain ⟨k, rfl⟩ := Nat.exists_eq_add_of_le' hpos
  have hstep := h.gap k
  rcases Nat.eq_zero_or_pos k with rfl | hk
  · omega
  · have hshort := hbefore k hk (Nat.lt_succ_self k)
    omega

/-- The loop waits for the first reading that is the wanted number of cycles after the start, wherever the
counter wraps. -/
theorem asmSpinWaitNs_eq_some_iff (h : Counts tsc cycles gap) {targetCycles : BitVec 64}
    (hgap : targetCycles.toNat + gap < 2 ^ 64) (fuel n : ℕ) :
    asmSpinWaitNs tsc targetCycles fuel = some n ↔ (1 ≤ n ∧ n ≤ fuel) ∧
      (targetCycles.toNat ≤ cycles n - cycles 0 ∧ cycles n - cycles 0 ≤ targetCycles.toNat + gap) ∧
      ∀ j, 1 ≤ j → j < n → cycles j - cycles 0 < targetCycles.toNat := by
  have hshort : ∀ k, cycles k - cycles 0 ≤ targetCycles.toNat + gap →
      (tsc k - tsc 0 < targetCycles ↔ cycles k - cycles 0 < targetCycles.toNat) := by
    intro k hk
    rw [BitVec.lt_def, h.distance (Nat.lt_of_le_of_lt hk hgap)]
  rw [asmSpinWaitNs, readTsc_eq, spinLoop_eq_some_iff]
  constructor
  · rintro ⟨⟨hpos, hfuel⟩, hend, hbefore⟩
    have hwaited : ∀ m, m ≤ n → ∀ j, 1 ≤ j → j < m → cycles j - cycles 0 < targetCycles.toNat := by
      intro m
      induction m with
      | zero => exact fun _ j _ hj => absurd hj (Nat.not_lt_zero j)
      | succ m ih =>
        intro hm j hj hjm
        rcases Nat.eq_or_lt_of_le (Nat.le_of_lt_succ hjm) with rfl | hlt
        · exact (hshort j (h.next hj (ih (Nat.le_of_succ_le hm)))).mp (hbefore j hj hm)
        · exact ih (Nat.le_of_succ_le hm) j hj hlt
    have hnear := h.next hpos (hwaited n le_rfl)
    rw [hshort n hnear, Nat.not_lt] at hend
    exact ⟨⟨hpos, by omega⟩, ⟨hend, hnear⟩, hwaited n le_rfl⟩
  · rintro ⟨⟨hpos, hfuel⟩, ⟨hend, hnear⟩, hbefore⟩
    refine ⟨⟨hpos, by omega⟩, fun hlt => ?_, fun j hj hjn => ?_⟩
    · exact absurd ((hshort n hnear).mp hlt) (Nat.not_lt.mpr hend)
    · have hbound := Nat.le_of_lt (hbefore j hj hjn)
      exact (hshort j (Nat.le_trans hbound (Nat.le_add_right _ _))).mpr (hbefore j hj hjn)

/-- A wait of 5000 cycles that begins 1000 cycles before the counter wraps. -/
theorem asmSpinWaitNs_wrap :
    asmSpinWaitNs (fun k => BitVec.ofNat 64 (2 ^ 64 - 1000 + 300 * k)) 5000 100 = some 17 := by
  have hcounts : Counts (fun k => BitVec.ofNat 64 (2 ^ 64 - 1000 + 300 * k)) (fun k => 2 ^ 64 - 1000 + 300 * k)
      300 := ⟨fun _ => rfl, fun k => by omega, fun k => by omega⟩
  refine (asmSpinWaitNs_eq_some_iff hcounts (by decide) 100 17).mpr
    ⟨⟨by decide, by decide⟩, ⟨by decide, by decide⟩, ?_⟩
  intro j hj hj'
  have htarget : (5000 : BitVec 64).toNat = 5000 := by decide
  omega

end Counter

end Disping.Assembly
