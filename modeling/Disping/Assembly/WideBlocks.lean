import Disping.Assembly.ChecksumRuns

/-! # The unrolled blocks of the checksum

A block of 128 or 64 bytes adds its words to two accumulators in turn. Every carry goes into the other
accumulator, and the last one would be lost if both were full at the end.
-/
namespace Disping.Assembly
open Machine Arithmetic

inductive WideBlock
  | loop128 | loop64
deriving DecidableEq, Repr

namespace WideBlock

def label : WideBlock → Avx2ChecksumLabel
  | .loop128 => .loop128
  | .loop64 => .loop64

def size : WideBlock → ℕ
  | .loop128 => 128
  | .loop64 => 64

/-- The instructions from the guard to the step of the pointer: a load and an addition for each eight
bytes, and the two additions of zero. -/
def additions (b : WideBlock) : List (Instr Avx2ChecksumLabel) :=
  ((asmAvx2Checksum.code b.label).drop 2).take (b.size / 4 + 2)

theorem additions_eq (b : WideBlock) : b.additions = adcChain .rcx (dualEntries (b.size / 16)) ++
    [.adc .r8 (.imm 0), .adc .r10 (.imm 0)] := by
  cases b <;> rfl

end WideBlock

/-- The sum that the two accumulators stand for. -/
def accumulated (s : State) : ℕ := (s.gpr .r8).toNat + (s.gpr .r10).toNat

theorem accumulated_eq_total (s : State) : accumulated s = total {.r8, .r10} s := by
  simp [accumulated, total]

/-- Words that sum to zero are made of zero bytes. -/
theorem chunkSum_eq_zero {m : Memory} {a : Word} {j : ℕ} (h : chunkSum m a j = 0) :
    ∀ i < 8 * j, m (a + BitVec.ofNat 64 i) = 0 := by
  intro i hi
  have hword : loadNat m (a + BitVec.ofNat 64 (8 * (i / 8))) 8 = 0 :=
    Finset.sum_eq_zero_iff.mp h (i / 8) (Finset.mem_range.mpr (by omega))
  have hbyte := loadNat_eq_zero _ _ hword (i % 8) (Nat.mod_lt i (by norm_num))
  rwa [BitVec.add_assoc, ← BitVec.ofNat_add, Nat.div_add_mod] at hbyte

/-- From a clear flag a block loses no carry, keeps the sum modulo `2^64 - 1`, and keeps it from
becoming zero. -/
theorem wideBlock_absorbs (cpu : Cpu) (b : WideBlock) (s : State) (hcf : s.cf = false) :
    ∃ u, runBlock cpu s b.additions = .next u ∧ u.cf = false ∧
      accumulated u ≡ accumulated s + chunkSum s.mem (s.gpr .rcx) (b.size / 8) [MOD 2 ^ 64 - 1] ∧
      (accumulated u = 0 → accumulated s = 0 ∧
        ∀ i < b.size, s.mem (s.gpr .rcx + BitVec.ofNat 64 i) = 0) := by
  obtain ⟨u, hrun, hclear, hstep⟩ :=
    dualChain_clear (L := Avx2ChecksumLabel) cpu s (b.size / 16) hcf
  have hwords : 2 * (b.size / 16) = b.size / 8 := by cases b <;> rfl
  have hbytes : 8 * (b.size / 8) = b.size := by cases b <;> rfl
  obtain ⟨hmod, hzero⟩ := hstep.sum
  rw [← accumulated_eq_total, ← accumulated_eq_total, hwords] at hmod hzero
  rw [b.additions_eq]
  refine ⟨u, hrun, hclear, hmod, fun hu => ?_⟩
  obtain ⟨hs, hchunks⟩ := Nat.add_eq_zero_iff.mp (hzero.mp hu)
  rw [← hbytes]
  exact ⟨hs, chunkSum_eq_zero hchunks⟩

/-- Both accumulators and all of the memory are full. -/
def fullState : State where
  gpr _ := BitVec.allOnes 64
  ymm _ := 0
  cf := false
  zf := false
  mem _ := 0xFF
  streamed := []

/-- A block read at the top of the address space, where the addresses wrap. -/
theorem wideBlock_absorbs_full : ∃ u, runBlock default fullState WideBlock.loop128.additions = .next u ∧
    u.cf = false ∧ accumulated u ≡ accumulated fullState +
      chunkSum fullState.mem (BitVec.allOnes 64) 16 [MOD 2 ^ 64 - 1] ∧ accumulated u ≠ 0 := by
  obtain ⟨u, hrun, hclear, hmod, hzero⟩ := wideBlock_absorbs default .loop128 fullState rfl
  refine ⟨u, hrun, hclear, hmod, fun hu => ?_⟩
  exact absurd (hzero hu).1 (by decide)

end Disping.Assembly
