import Disping.Assembly.MemzeroRuns

/-! # The two clears have one effect

Tables for both routines. Alignment is established by the prologue and carried
through the block loops, so no streaming store faults.
-/
namespace Disping.Assembly
open Machine
variable {L : Type} (cpu : Cpu) (m : Memory) (dst n : Word) (log : List (Word × ℕ))

theorem and_mask_eq_zero (k : ℕ) (hk : k < 64) (x : Word) :
    x &&& BitVec.ofNat 64 (2 ^ k - 1) = 0#64 ↔ x.toNat % 2 ^ k = 0 := by
  have hmask : 2 ^ k - 1 < 2 ^ 64 := by
    have := Nat.pow_lt_pow_right (show 1 < 2 by norm_num) hk
    omega
  rw [← BitVec.toNat_inj, BitVec.toNat_and, BitVec.toNat_ofNat, Nat.mod_eq_of_lt hmask,
    Nat.and_two_pow_sub_one_eq_mod]
  rfl

section Avx2

def avx2MemzeroTable : Avx2MemzeroLabel → State → Prop
  | .entry, s => s.mem = m ∧ s.gpr .rcx = dst ∧ s.gpr .rdx = n ∧ s.streamed = log
  | .align32, s => dst ≠ 0 ∧ (∃ done, Clearing m dst n log done s) ∧ ymmZero s.ymm
  | .loop128, s | .loop32, s => dst ≠ 0 ∧ Streaming m dst n log 32 ymmZero s
  | .tailBytes, s => dst ≠ 0 ∧ ∃ done, Clearing m dst n log done s
  | .mzFinish, s | .mzDone, s => ZeroedState m dst n log s

def avx2MemzeroRank : Avx2MemzeroLabel → ℕ
  | .entry => 6 | .align32 => 5 | .loop128 => 4 | .loop32 => 3 | .tailBytes => 2
  | .mzFinish => 1 | .mzDone => 0

def avx2MemzeroMeasure (l : Avx2MemzeroLabel) (s : State) : ℕ :=
  8 * (s.gpr .rdx).toNat + avx2MemzeroRank l

theorem asmAvx2MemzeroNt_loop128 : asmAvx2MemzeroNt.code .loop128 =
    .cmp .rdx (.imm 128) :: .jcc .jb .loop32 :: (clearWide (fun a => .vmovntdq a 0) 32 4 ++
      [.add .rcx (.imm 128), .sub .rdx (.imm 128), .jmp .loop128]) := rfl

theorem asmAvx2MemzeroNt_loop32 : asmAvx2MemzeroNt.code .loop32 =
    .cmp .rdx (.imm 32) :: .jcc .jb .tailBytes :: (clearWide (fun a => .vmovntdq a 0) 32 1 ++
      [.add .rcx (.imm 32), .sub .rdx (.imm 32), .jmp .loop32]) := rfl

theorem avx2MemzeroBlock_lands (l : Avx2MemzeroLabel) (s : State) (h : avx2MemzeroTable m dst n log l s) :
    (runBlock cpu s (asmAvx2MemzeroNt.code l)).Lands (fun l' u => avx2MemzeroTable m dst n log l' u ∧
      avx2MemzeroMeasure l' u < avx2MemzeroMeasure l s) (ZeroedState m dst n log)
      (asmAvx2MemzeroNt.fall l) := by
  cases l with
  | entry =>
    obtain ⟨hm, hrcx, hrdx, hlog⟩ := h
    refine clearEntry_lands cpu (zeroing_vpxor cpu) (show _ = some Avx2MemzeroLabel.align32 from rfl) hm hrcx hrdx hlog
      (fun u hu hrdx => ⟨hu, ?_⟩) (fun u hdst hu hz hrdx => ⟨⟨hdst, hu, hz⟩, ?_⟩)
    · simp [avx2MemzeroMeasure, avx2MemzeroRank, hrdx]
    · simp [avx2MemzeroMeasure, avx2MemzeroRank, hrdx]
  | align32 =>
    obtain ⟨hdst, hclear, hzero⟩ := h
    refine clearAlign_lands cpu (and_mask_eq_zero 5 (by norm_num)) hclear hzero hdst
      (fun u hu hrdx => ⟨⟨hdst, hu⟩, ?_⟩) (fun u hu hrdx => ⟨hu, ?_⟩)
      (fun u hu hz hlt => ⟨⟨hdst, hu, hz⟩, ?_⟩)
    · simp [avx2MemzeroMeasure, avx2MemzeroRank, hrdx]
    · simp [avx2MemzeroMeasure, avx2MemzeroRank, hrdx]
    · simp only [avx2MemzeroMeasure, avx2MemzeroRank]
      omega
  | loop128 =>
    rw [asmAvx2MemzeroNt_loop128]
    refine clearLoop_lands cpu (zeroStore_vmovntdq cpu) (by norm_num) 4 (by norm_num) rfl h.2
      (fun u hu hrdx => ⟨⟨h.1, hu⟩, ?_⟩) (fun u hu hlt => ⟨⟨h.1, hu⟩, ?_⟩)
    · simp [avx2MemzeroMeasure, avx2MemzeroRank, hrdx]
    · simp only [avx2MemzeroMeasure, avx2MemzeroRank]
      omega
  | loop32 =>
    rw [asmAvx2MemzeroNt_loop32]
    refine clearLoop_lands cpu (zeroStore_vmovntdq cpu) (by norm_num) 1 (by norm_num) rfl h.2
      (fun u hu hrdx => ⟨⟨h.1, hu.1⟩, ?_⟩) (fun u hu hlt => ⟨⟨h.1, hu⟩, ?_⟩)
    · simp [avx2MemzeroMeasure, avx2MemzeroRank, hrdx]
    · simp only [avx2MemzeroMeasure, avx2MemzeroRank]
      omega
  | tailBytes =>
    refine clearTail_lands cpu h.2 h.1 (fun u hu hrdx => ⟨hu, ?_⟩) (fun u hu _ hlt => ⟨⟨h.1, hu⟩, ?_⟩)
    · simp [avx2MemzeroMeasure, avx2MemzeroRank, hrdx]
    · simp only [avx2MemzeroMeasure, avx2MemzeroRank]
      omega
  | mzFinish =>
    refine ⟨.mzDone, rfl, ⟨h.1, h.2.keep rfl⟩, ?_⟩
    simp [avx2MemzeroMeasure, avx2MemzeroRank]
  | mzDone => exact ⟨h.1, h.2.keep rfl⟩

theorem asmAvx2MemzeroNt_returns {s : State} (hdst : s.gpr .rcx = dst) (hn : s.gpr .rdx = n) :
    ∃ t, asmAvx2MemzeroNt.run cpu (8 * n.toNat + 8) .entry s = some t ∧
      ZeroedState s.mem dst n s.streamed t := by
  refine asmAvx2MemzeroNt.run_of_table cpu (avx2MemzeroBlock_lands cpu s.mem dst n s.streamed)
    _ _ s ⟨rfl, hdst, hn, rfl⟩ ?_
  simp only [avx2MemzeroMeasure, avx2MemzeroRank, hn]
  omega

end Avx2

section Sse2

def sse2MemzeroTable : Sse2MemzeroLabel → State → Prop
  | .entry, s => s.mem = m ∧ s.gpr .rcx = dst ∧ s.gpr .rdx = n ∧ s.streamed = log
  | .align16, s => dst ≠ 0 ∧ (∃ done, Clearing m dst n log done s) ∧ xmmZero s.ymm
  | .loopSse2x64, s | .tailSse2, s => dst ≠ 0 ∧ Streaming m dst n log 16 xmmZero s
  | .tailBytesSse2, s => dst ≠ 0 ∧ ∃ done, Clearing m dst n log done s
  | .mzSse2Finish, s | .mzSse2Done, s => ZeroedState m dst n log s

def sse2MemzeroRank : Sse2MemzeroLabel → ℕ
  | .entry => 6 | .align16 => 5 | .loopSse2x64 => 4 | .tailSse2 => 3 | .tailBytesSse2 => 2
  | .mzSse2Finish => 1 | .mzSse2Done => 0

def sse2MemzeroMeasure (l : Sse2MemzeroLabel) (s : State) : ℕ :=
  8 * (s.gpr .rdx).toNat + sse2MemzeroRank l

theorem asmSse2MemzeroNt_loopSse2x64 : asmSse2MemzeroNt.code .loopSse2x64 =
    .cmp .rdx (.imm 64) :: .jcc .jb .tailSse2 :: (clearWide (fun a => .movntdq a 0) 16 4 ++
      [.add .rcx (.imm 64), .sub .rdx (.imm 64), .jmp .loopSse2x64]) := rfl

theorem asmSse2MemzeroNt_tailSse2 : asmSse2MemzeroNt.code .tailSse2 =
    .cmp .rdx (.imm 16) :: .jcc .jb .tailBytesSse2 :: (clearWide (fun a => .movntdq a 0) 16 1 ++
      [.add .rcx (.imm 16), .sub .rdx (.imm 16), .jmp .tailSse2]) := rfl

theorem sse2MemzeroBlock_lands (l : Sse2MemzeroLabel) (s : State) (h : sse2MemzeroTable m dst n log l s) :
    (runBlock cpu s (asmSse2MemzeroNt.code l)).Lands (fun l' u => sse2MemzeroTable m dst n log l' u ∧
      sse2MemzeroMeasure l' u < sse2MemzeroMeasure l s) (ZeroedState m dst n log)
      (asmSse2MemzeroNt.fall l) := by
  cases l with
  | entry =>
    obtain ⟨hm, hrcx, hrdx, hlog⟩ := h
    refine clearEntry_lands cpu (zeroing_pxor cpu) (show _ = some Sse2MemzeroLabel.align16 from rfl) hm hrcx hrdx hlog
      (fun u hu hrdx => ⟨hu, ?_⟩) (fun u hdst hu hz hrdx => ⟨⟨hdst, hu, hz⟩, ?_⟩)
    · simp [sse2MemzeroMeasure, sse2MemzeroRank, hrdx]
    · simp [sse2MemzeroMeasure, sse2MemzeroRank, hrdx]
  | align16 =>
    obtain ⟨hdst, hclear, hzero⟩ := h
    refine clearAlign_lands cpu (and_mask_eq_zero 4 (by norm_num)) hclear hzero hdst
      (fun u hu hrdx => ⟨⟨hdst, hu⟩, ?_⟩) (fun u hu hrdx => ⟨hu, ?_⟩)
      (fun u hu hz hlt => ⟨⟨hdst, hu, hz⟩, ?_⟩)
    · simp [sse2MemzeroMeasure, sse2MemzeroRank, hrdx]
    · simp [sse2MemzeroMeasure, sse2MemzeroRank, hrdx]
    · simp only [sse2MemzeroMeasure, sse2MemzeroRank]
      omega
  | loopSse2x64 =>
    rw [asmSse2MemzeroNt_loopSse2x64]
    refine clearLoop_lands cpu (zeroStore_movntdq cpu) (by norm_num) 4 (by norm_num) rfl h.2
      (fun u hu hrdx => ⟨⟨h.1, hu⟩, ?_⟩) (fun u hu hlt => ⟨⟨h.1, hu⟩, ?_⟩)
    · simp [sse2MemzeroMeasure, sse2MemzeroRank, hrdx]
    · simp only [sse2MemzeroMeasure, sse2MemzeroRank]
      omega
  | tailSse2 =>
    rw [asmSse2MemzeroNt_tailSse2]
    refine clearLoop_lands cpu (zeroStore_movntdq cpu) (by norm_num) 1 (by norm_num) rfl h.2
      (fun u hu hrdx => ⟨⟨h.1, hu.1⟩, ?_⟩) (fun u hu hlt => ⟨⟨h.1, hu⟩, ?_⟩)
    · simp [sse2MemzeroMeasure, sse2MemzeroRank, hrdx]
    · simp only [sse2MemzeroMeasure, sse2MemzeroRank]
      omega
  | tailBytesSse2 =>
    refine clearTail_lands cpu h.2 h.1 (fun u hu hrdx => ⟨hu, ?_⟩) (fun u hu _ hlt => ⟨⟨h.1, hu⟩, ?_⟩)
    · simp [sse2MemzeroMeasure, sse2MemzeroRank, hrdx]
    · simp only [sse2MemzeroMeasure, sse2MemzeroRank]
      omega
  | mzSse2Finish =>
    refine ⟨.mzSse2Done, rfl, ⟨h.1, h.2.keep rfl⟩, ?_⟩
    simp [sse2MemzeroMeasure, sse2MemzeroRank]
  | mzSse2Done => exact ⟨h.1, h.2.keep rfl⟩

theorem asmSse2MemzeroNt_returns {s : State} (hdst : s.gpr .rcx = dst) (hn : s.gpr .rdx = n) :
    ∃ t, asmSse2MemzeroNt.run cpu (8 * n.toNat + 8) .entry s = some t ∧
      ZeroedState s.mem dst n s.streamed t := by
  refine asmSse2MemzeroNt.run_of_table cpu (sse2MemzeroBlock_lands cpu s.mem dst n s.streamed)
    _ _ s ⟨rfl, hdst, hn, rfl⟩ ?_
  simp only [sse2MemzeroMeasure, sse2MemzeroRank, hn]
  omega

end Sse2

end Disping.Assembly
