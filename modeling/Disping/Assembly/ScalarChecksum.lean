import Disping.Assembly.Rfc1071

/-! # The benchmark's scalar checksum

ScalarChecksum16 adds the words into 32 bits and folds the carries at the end. A carry out of the 32
bits is lost, and no buffer of the benchmark's size makes so many that the loss cancels.
-/
namespace Disping.Assembly
open Machine Arithmetic

/-- The two loops over the buffer. -/
def scalarSum (m : Memory) : Word → ℕ → BitVec 32 → BitVec 32
  | _, 0, sum => sum
  | ptr, 1, sum => sum + ((load 8 m ptr).setWidth 16).setWidth 32 <<< 8
  | ptr, len + 2, sum => scalarSum m (ptr + 2) len (sum + (load 16 m ptr).setWidth 32)

theorem toNat_foldStep (sum : BitVec 32) : ((sum &&& 0xFFFF#32) + sum >>> 16).toNat =
    sum.toNat % 2 ^ 16 + sum.toNat / 2 ^ 16 := by
  have hsum := sum.isLt
  have hlow : (sum &&& 0xFFFF#32).toNat = sum.toNat % 2 ^ 16 := by
    rw [BitVec.toNat_and]
    exact Nat.and_two_pow_sub_one_eq_mod sum.toNat 16
  rw [BitVec.toNat_add, hlow, BitVec.toNat_ushiftRight, Nat.shiftRight_eq_div_pow]
  omega

/-- The carries folded into 16 bits. -/
def foldCarries (sum : BitVec 32) : BitVec 32 :=
  if sum >>> 16 = 0 then sum else foldCarries ((sum &&& 0xFFFF#32) + sum >>> 16)
termination_by sum.toNat
decreasing_by
  rename_i hcarry
  have hhigh : sum.toNat / 2 ^ 16 ≠ 0 := by
    intro hzero
    refine hcarry (BitVec.eq_of_toNat_eq ?_)
    rw [BitVec.toNat_ushiftRight, Nat.shiftRight_eq_div_pow, hzero]
    rfl
  rw [toNat_foldStep]
  omega

def scalarChecksum16 (m : Memory) (data : Word) (len : ℕ) : BitVec 16 :=
  (~~~foldCarries (scalarSum m data len 0)).setWidth 16

/-- The sum is kept modulo `2^32`. -/
theorem toNat_scalarSum (m : Memory) (ptr : Word) (len : ℕ) (sum : BitVec 32) :
    (scalarSum m ptr len sum).toNat = (sum.toNat + wordSum m ptr len) % 2 ^ 32 := by
  induction ptr, len, sum using scalarSum.induct m with
  | case1 ptr sum =>
    rw [scalarSum, wordSum, Nat.add_zero, Nat.mod_eq_of_lt sum.isLt]
  | case2 ptr sum =>
    have hbyte : (load 8 m ptr).toNat = (m ptr).toNat := by
      rw [toNat_load m _ 1]
      simp [loadNat]
    have hlt := (m ptr).isLt
    rw [scalarSum, wordSum, BitVec.toNat_add, BitVec.toNat_shiftLeft, BitVec.toNat_setWidth,
      BitVec.toNat_setWidth, hbyte, Nat.shiftLeft_eq]
    omega
  | case3 ptr len sum ih =>
    have hword : (load 16 m ptr).toNat = loadNat m ptr 2 := toNat_load m _ 2
    have hlt := loadNat_lt m ptr 2
    rw [scalarSum, ih, wordSum, BitVec.toNat_add, BitVec.toNat_setWidth, hword]
    omega

theorem foldCarries_onesEq (sum : BitVec 32) :
    (foldCarries sum).toNat < 2 ^ 16 ∧ OnesEq 16 (foldCarries sum).toNat sum.toNat := by
  induction sum using foldCarries.induct with
  | case1 sum hdone =>
    rw [foldCarries, if_pos hdone]
    refine ⟨?_, OnesEq.refl 16 _⟩
    have hhigh := congrArg BitVec.toNat hdone
    rw [BitVec.toNat_ushiftRight, Nat.shiftRight_eq_div_pow] at hhigh
    exact Nat.lt_of_div_eq_zero (by decide) hhigh
  | case2 sum hcarry ih =>
    rw [foldCarries, if_neg hcarry]
    refine ⟨ih.1, ih.2.trans ?_⟩
    rw [toNat_foldStep]
    have hsplit := OnesEq.carry 16 (sum.toNat % 2 ^ 16) (sum.toNat / 2 ^ 16)
    rw [Nat.mod_add_div] at hsplit
    exact hsplit.symm

theorem scalarChecksum16_eq (m : Memory) (data : Word) (len : ℕ) : scalarChecksum16 m data len =
    ~~~BitVec.ofNat 16 (onesFold 16 (wordSum m data len % 2 ^ 32)) := by
  obtain ⟨hlt, hfold⟩ := foldCarries_onesEq (scalarSum m data len 0)
  have hsum := toNat_scalarSum m data len 0
  rw [show (0 : BitVec 32).toNat = 0 from rfl, Nat.zero_add] at hsum
  rw [hsum] at hfold
  have hnarrow : (foldCarries (scalarSum m data len 0)).setWidth 16 =
      BitVec.ofNat 16 (onesFold 16 (wordSum m data len % 2 ^ 32)) := by
    rw [← eq_onesFold (by decide) hlt hfold]
    exact BitVec.eq_of_toNat_eq (by simp)
  rw [scalarChecksum16, BitVec.setWidth_not (by decide), hnarrow]

/-- A word for each two bytes, and one for a byte that is left over. -/
theorem wordSum_le (m : Memory) (a : Word) (n : ℕ) :
    wordSum m a n ≤ (2 ^ 16 - 1) * ((n + 1) / 2) := by
  induction n using Nat.twoStepInduction generalizing a with
  | zero => exact Nat.zero_le _
  | one =>
    have hlt := (m a).isLt
    rw [wordSum]
    omega
  | more n ih _ =>
    have hlt := loadNat_lt m a 2
    have hrest := ih (a + 2)
    have hwords : (n + 2 + 1) / 2 = (n + 1) / 2 + 1 := by omega
    rw [wordSum, hwords]
    omega

/-- Fewer than `2^16 - 1` lost carries never cancel. -/
theorem onesEq_mod_iff {total : ℕ} (h : total / 2 ^ 32 < 2 ^ 16 - 1) :
    OnesEq 16 (total % 2 ^ 32) total ↔ total < 2 ^ 32 := by
  constructor
  · intro hsame
    have hcarry := (OnesEq.carry 32 (total % 2 ^ 32) (total / 2 ^ 32)).of_dvd
      (show 2 ^ 16 - 1 ∣ 2 ^ 32 - 1 by decide)
    rw [Nat.mod_add_div] at hcarry
    have hlost : total % 2 ^ 32 + 0 ≡ total % 2 ^ 32 + total / 2 ^ 32 [MOD 2 ^ 16 - 1] :=
      (hsame.trans hcarry).1
    have hzero := (Nat.ModEq.add_left_cancel' _ hlost).eq_of_lt_of_lt (by decide) h
    omega
  · intro hlt
    rw [Nat.mod_eq_of_lt hlt]
    exact OnesEq.refl 16 total

section Agreement
variable {m : Memory} {a n : Word}

/-- Up to 16 MB, the two values agree exactly when the sum of the words fits 32 bits. -/
theorem checksumValue_eq_scalar_iff (ha : a ≠ 0) (hn : n ≠ 0)
    (hsize : n.toNat ≤ 16 * 1024 * 1024) :
    checksumValue m a n = scalarChecksum16 m a n.toNat ↔ wordSum m a n.toNat < 2 ^ 32 := by
  have hcarries : wordSum m a n.toNat / 2 ^ 32 < 2 ^ 16 - 1 := by
    have hle := wordSum_le m a n.toNat
    omega
  rw [checksumValue, if_neg (not_or.mpr ⟨ha, hn⟩), scalarChecksum16_eq, complement_onesFold_inj,
    ← onesEq_mod_iff hcarries]
  exact ⟨OnesEq.symm, OnesEq.symm⟩

theorem returns_narrow {cpu : Cpu} {s t : State} (h : asmAvx2Checksum.Returns cpu s t) :
    (t.gpr .rax).setWidth 16 = checksumValue s.mem (s.gpr .rcx) (s.gpr .rdx) := by
  obtain ⟨u, hu, hanswer⟩ := asmAvx2Checksum_returns cpu s.mem (s.gpr .rcx) (s.gpr .rdx) rfl rfl rfl
  obtain rfl := asmAvx2Checksum.returns_unique cpu ⟨_, hu⟩ h
  rw [hanswer]
  simp

end Agreement

/-- When the two timed paths of the benchmark compute the same value. -/
theorem scalarChecksum16_agrees_iff (cpu : Cpu) (s : State) (ha : s.gpr .rcx ≠ 0)
    (hn : s.gpr .rdx ≠ 0) (hsize : (s.gpr .rdx).toNat ≤ 16 * 1024 * 1024) :
    (∃ t, asmAvx2Checksum.Returns cpu s t ∧ (t.gpr .rax).setWidth 16 =
        scalarChecksum16 s.mem (s.gpr .rcx) (s.gpr .rdx).toNat) ↔
      wordSum s.mem (s.gpr .rcx) (s.gpr .rdx).toNat < 2 ^ 32 := by
  rw [← checksumValue_eq_scalar_iff ha hn hsize]
  constructor
  · rintro ⟨t, ht, hsame⟩
    rw [← returns_narrow ht, hsame]
  · intro hsame
    obtain ⟨t, ht, -⟩ := asmAvx2Checksum_returns cpu s.mem (s.gpr .rcx) (s.gpr .rdx) rfl rfl rfl
    exact ⟨t, ⟨_, ht⟩, (returns_narrow ⟨_, ht⟩).trans hsame⟩

/-- A buffer of one byte value throughout. -/
theorem wordSum_const (b : BitVec 8) (a : Word) (j : ℕ) :
    wordSum (fun _ => b) a (2 * j) = j * (257 * b.toNat) := by
  induction j generalizing a with
  | zero => simp [wordSum]
  | succ j ih =>
    have hload : loadNat (fun _ => b) a 2 = 257 * b.toNat := by
      simp only [loadNat]
      omega
    rw [Nat.mul_succ, wordSum, hload, ih]
    ring

/-- A call for so many bytes of the value the benchmark fills its buffer with. -/
def benchmarkBuffer (len : Word) : State := ((default : State).setMem fun _ => 0x42).call2 64 len

/-- The warm-up of the benchmark. -/
theorem scalarChecksum16_agrees_warmUp :
    ∃ t, asmAvx2Checksum.Returns default (benchmarkBuffer 1024) t ∧ (t.gpr .rax).setWidth 16 =
      scalarChecksum16 (benchmarkBuffer 1024).mem 64 1024 := by
  refine (scalarChecksum16_agrees_iff default (benchmarkBuffer 1024) (by decide) (by decide)
    (by decide)).mpr ?_
  exact (wordSum_const 0x42 64 512).trans_lt (by decide)

/-- The benchmark's own 16 MB. -/
theorem not_scalarChecksum16_agrees_benchmark :
    ¬ ∀ (cpu : Cpu) (s : State), s.gpr .rcx ≠ 0 → s.gpr .rdx ≠ 0 →
      (s.gpr .rdx).toNat ≤ 16 * 1024 * 1024 →
      ∃ t, asmAvx2Checksum.Returns cpu s t ∧ (t.gpr .rax).setWidth 16 =
        scalarChecksum16 s.mem (s.gpr .rcx) (s.gpr .rdx).toNat := by
  intro h
  let s := benchmarkBuffer 16777216
  have hsize : (s.gpr .rdx).toNat ≤ 16 * 1024 * 1024 := by decide
  obtain ⟨t, ht, hsame⟩ := h default s (by decide) (by decide) hsize
  rw [returns_narrow ht, checksumValue_eq_scalar_iff (by decide) (by decide) hsize] at hsame
  have hsum : wordSum s.mem (s.gpr .rcx) (s.gpr .rdx).toNat = 8388608 * (257 * 66) :=
    wordSum_const 0x42 64 8388608
  rw [hsum] at hsame
  exact absurd hsame (by decide)

end Disping.Assembly
