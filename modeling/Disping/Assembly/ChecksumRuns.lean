import Disping.Assembly.ChecksumListing
import Disping.Assembly.ChecksumValue
import Disping.Machine.CarryChain

/-! # Runs of the checksum routines

Both routines move the buffer into their accumulators chunk by chunk. What is in
the accumulators and what is still in the buffer represent one ones-complement
sum throughout, so the value returned depends on that sum only.
-/
namespace Disping.Assembly
open Machine Arithmetic
variable {L : Type} (cpu : Cpu)

def total (accs : Finset Reg) (s : State) : ℕ := ∑ r ∈ accs, (s.gpr r).toNat

/-- `k` bytes worth `n` have moved from the buffer into the accumulators. -/
structure Absorbs (accs : Finset Reg) (k n : ℕ) (s u : State) : Prop where
  mem : u.mem = s.mem
  ptr : u.gpr .rcx = s.gpr .rcx + BitVec.ofNat 64 k
  len : u.gpr .rdx = s.gpr .rdx - BitVec.ofNat 64 k
  sum : OnesEq 64 (total accs u) (total accs s + n)

/-- The accumulators and the rest of the buffer represent the sum `goal`. -/
def Remaining (accs : Finset Reg) (m : Memory) (goal : ℕ) (s : State) : Prop :=
  s.mem = m ∧ OnesEq 16 (total accs s + wordSum m (s.gpr .rcx) (s.gpr .rdx).toNat) goal

theorem Remaining.absorb {accs : Finset Reg} {m : Memory} {goal k n : ℕ} {s u : State}
    (h : Remaining accs m goal s) (ha : Absorbs accs k n s u) (hk : k < 2 ^ 64)
    (hlen : ¬ s.gpr .rdx < BitVec.ofNat 64 k)
    (hsplit : OnesEq 16 (n + wordSum m (s.gpr .rcx + BitVec.ofNat 64 k) ((s.gpr .rdx).toNat - k))
      (wordSum m (s.gpr .rcx) (s.gpr .rdx).toNat)) : Remaining accs m goal u := by
  obtain ⟨hm, hgoal⟩ := h
  refine ⟨ha.mem.trans hm, ?_⟩
  have hdiv : 2 ^ 16 - 1 ∣ 2 ^ 64 - 1 := by norm_num
  rw [ha.ptr, ha.len, toNat_sub_of_not_lt hlen, BitVec.toNat_ofNat, Nat.mod_eq_of_lt hk]
  refine ((ha.sum.of_dvd hdiv).add_right _).trans (OnesEq.trans ?_ hgoal)
  rw [Nat.add_assoc]
  exact hsplit.add_left _


section Blocks
variable (s : State)

/-- One short word added to r8, its carry absorbed at once. -/
@[mk_iff shortStep_iff]
structure ShortStep (k : ℕ) (y : Word) (s u : State) : Prop where
  mem : u.mem = s.mem
  ptr : u.gpr .rcx = s.gpr .rcx + BitVec.ofNat 64 k
  len : u.gpr .rdx = s.gpr .rdx - BitVec.ofNat 64 k
  acc : u.gpr .r8 = endAround (s.gpr .r8) y
  keep : u.gpr .r10 = s.gpr .r10

theorem ShortStep.absorbs {k : ℕ} {y : Word} {s u : State} (h : ShortStep k y s u)
    {accs : Finset Reg} (h8 : .r8 ∈ accs) (haccs : accs ⊆ {.r8, .r10}) :
    Absorbs accs k y.toNat s u := by
  refine ⟨h.mem, h.ptr, h.len, ?_⟩
  have hsame : ∑ r ∈ accs.erase .r8, (u.gpr r).toNat = ∑ r ∈ accs.erase .r8, (s.gpr r).toNat := by
    apply Finset.sum_congr rfl
    intro r hr
    obtain ⟨hne, hmem⟩ := Finset.mem_erase.mp hr
    have hr10 : r = .r10 := by simpa [hne] using haccs hmem
    rw [hr10, h.keep]
  rw [total, total, ← Finset.add_sum_erase accs _ h8, ← Finset.add_sum_erase accs _ h8, hsame, h.acc,
    Nat.add_right_comm]
  exact (endAround_onesEq (s.gpr .r8) y).add_right _

def loop8Block (again : L) : List (Instr L) := [
  .mov .r9 (.mem (.off .rcx 0)), .adc .r8 (.reg .r9), .adc .r8 (.imm 0),
  .add .rcx (.imm 8), .sub .rdx (.imm 8), .jmp again]

theorem loop8Block_again (again : L) (hcf : s.cf = false) :
    ∃ u, runBlock cpu s (loop8Block again) = .jump again u ∧
      ShortStep 8 (load 64 s.mem (s.gpr .rcx)) s u := by
  simp only [shortStep_iff]
  simp [loop8Block, runBlock, exec, State.src, addition, endAround, hcf]

def loop2Block (again : L) : List (Instr L) := [
  .movzx16 .r9 (.mem (.off .rcx 0)), .adc .r8 (.reg .r9), .adc .r8 (.imm 0),
  .add .rcx (.imm 2), .sub .rdx (.imm 2), .jmp again]

theorem loop2Block_again (again : L) (hcf : s.cf = false) :
    ∃ u, runBlock cpu s (loop2Block again) = .jump again u ∧
      ShortStep 2 ((load 16 s.mem (s.gpr .rcx)).setWidth 64) s u := by
  simp only [shortStep_iff]
  simp [loop2Block, runBlock, exec, State.src, addition, endAround, hcf]

def loop1Block : List (Instr L) := [
  .movzx8 .r9 (.mem (.off .rcx 0)), .shl32 .r9 8, .adc .r8 (.reg .r9), .adc .r8 (.imm 0)]

/-- The odd byte in the upper half of its word; the shift never moves a bit into the flag. -/
def oddWord (b : BitVec 8) : Word := (b.setWidth 32 <<< 8).setWidth 64

theorem loop1Block_next : ∃ u, runBlock cpu s (loop1Block (L := L)) = .next u ∧
    ShortStep 0 (oddWord (load 8 s.mem (s.gpr .rcx))) s u := by
  simp only [shortStep_iff]
  simp [loop1Block, runBlock, exec, State.src, addition, endAround, oddWord, State.setReg32]

/-- A chain of whole words with its carry absorbed, the pointers not yet moved. -/
structure WideStep (accs : Finset Reg) (n : ℕ) (s u : State) : Prop where
  mem : u.mem = s.mem
  ptr : u.gpr .rcx = s.gpr .rcx
  len : u.gpr .rdx = s.gpr .rdx
  sum : OnesEq 64 (total accs u) (total accs s + n)

def dualEntries (j : ℕ) : List (Reg × Reg × Word) :=
  (List.range j).flatMap fun i =>
    [(.r8, .r9, BitVec.ofNat 64 (8 * (2 * i))), (.r10, .r11, BitVec.ofNat 64 (8 * (2 * i + 1)))]

def singleEntries (j : ℕ) : List (Reg × Reg × Word) :=
  (List.range j).map fun i => (.r8, .r9, BitVec.ofNat 64 (8 * i))

theorem chainSum_dualEntries (m : Memory) (a : Word) (j : ℕ) :
    chainSum m a (dualEntries j) = chunkSum m a (2 * j) := by
  induction j with
  | zero => rfl
  | succ j ih =>
    have happ : dualEntries (j + 1) = dualEntries j ++
        [(.r8, .r9, BitVec.ofNat 64 (8 * (2 * j))), (.r10, .r11, BitVec.ofNat 64 (8 * (2 * j + 1)))] := by
      simp [dualEntries, List.range_succ]
    rw [happ, chainSum, List.map_append, List.sum_append, ← chainSum, ih,
      show 2 * (j + 1) = 2 * j + 1 + 1 by omega, chunkSum, chunkSum, Finset.sum_range_succ,
      Finset.sum_range_succ]
    simp only [List.map_cons, List.map_nil, List.sum_cons, List.sum_nil]
    omega

theorem chainSum_singleEntries (m : Memory) (a : Word) (j : ℕ) :
    chainSum m a (singleEntries j) = chunkSum m a j := by
  induction j with
  | zero => rfl
  | succ j ih =>
    have happ : singleEntries (j + 1) = singleEntries j ++ [(.r8, .r9, BitVec.ofNat 64 (8 * j))] := by
      simp [singleEntries, List.range_succ]
    rw [happ, chainSum, List.map_append, List.sum_append, ← chainSum, ih, chunkSum, chunkSum,
      Finset.sum_range_succ]
    simp

theorem total_of_clear {accs : Finset Reg} {s : State} (h : s.cf = false) :
    tally accs s = total accs s := by
  simp [tally, total, h]

/-- Two accumulators: the flag left by the chain is absorbed by both in turn. -/
theorem dualChain_clear (j : ℕ) (hcf : s.cf = false) : ∃ u,
    runBlock cpu s (adcChain (L := L) .rcx (dualEntries j) ++ [.adc .r8 (.imm 0), .adc .r10 (.imm 0)]) =
      .next u ∧ u.cf = false ∧ WideStep {.r8, .r10} (chunkSum s.mem (s.gpr .rcx) (2 * j)) s u := by
  have hentries : ∀ e ∈ dualEntries j, e.1 ∈ ({.r8, .r10} : Finset Reg) ∧
      e.1 ∈ [Reg.r8, .r9, .r10, .r11] ∧ e.2.1 ∉ ({.r8, .r10} : Finset Reg) ∧
      e.2.1 ∈ [Reg.r8, .r9, .r10, .r11] := by
    intro e he
    simp only [dualEntries, List.mem_flatMap, List.mem_cons, List.not_mem_nil, or_false] at he
    obtain ⟨i, _, rfl | rfl⟩ := he <;> simp
  obtain ⟨t, hrun, hsum, hsat, hframe⟩ := runBlock_adcChain (L := L) cpu
    (show Reg.rcx ∉ [Reg.r8, .r9, .r10, .r11] by simp) (dualEntries j) hentries s (not_saturated_of_clear hcf)
  let u := adcState (adcState t .r8 0#64) .r10 0#64
  have hclear : u.cf = false := adcState_zero_zero_clear t (by simp) hsat
  have h8 := tally_adcState t 0#64 (show Reg.r8 ∈ ({.r8, .r10} : Finset Reg) by simp)
  have h10 := tally_adcState (adcState t .r8 0#64) 0#64
    (show Reg.r10 ∈ ({.r8, .r10} : Finset Reg) by simp)
  refine ⟨u, ?_, hclear, hframe.mem, ?_, ?_, ?_⟩
  · rw [runBlock_append cpu s hrun]
    simp [runBlock, exec, State.src, adcState, u]
  · rw [← hframe.gpr .rcx (by simp)]
    simp [u, adcState, addition]
  · rw [← hframe.gpr .rdx (by simp)]
    simp [u, adcState, addition]
  · rw [← total_of_clear hclear, ← total_of_clear hcf, ← chainSum_dualEntries]
    exact (h10.trans h8).trans hsum

theorem dualChain_next (j : ℕ) (hcf : s.cf = false) : ∃ u,
    runBlock cpu s (adcChain (L := L) .rcx (dualEntries j) ++ [.adc .r8 (.imm 0), .adc .r10 (.imm 0)]) =
      .next u ∧ WideStep {.r8, .r10} (chunkSum s.mem (s.gpr .rcx) (2 * j)) s u := by
  obtain ⟨u, hrun, -, hstep⟩ := dualChain_clear (L := L) cpu s j hcf
  exact ⟨u, hrun, hstep⟩

/-- One accumulator: the flag left by the chain is absorbed at once. -/
theorem singleChain_next (j : ℕ) (hcf : s.cf = false) : ∃ u,
    runBlock cpu s (adcChain (L := L) .rcx (singleEntries j) ++ [.adc .r8 (.imm 0)]) =
      .next u ∧ WideStep {.r8} (chunkSum s.mem (s.gpr .rcx) j) s u := by
  have hentries : ∀ e ∈ singleEntries j, e.1 ∈ ({.r8} : Finset Reg) ∧ e.1 ∈ [Reg.r8, .r9] ∧
      e.2.1 ∉ ({.r8} : Finset Reg) ∧ e.2.1 ∈ [Reg.r8, .r9] := by
    intro e he
    obtain ⟨i, _, rfl⟩ := List.mem_map.mp he
    simp
  obtain ⟨t, hrun, hsum, hsat, hframe⟩ := runBlock_adcChain (L := L) cpu
    (show Reg.rcx ∉ [Reg.r8, .r9] by simp) (singleEntries j) hentries s (not_saturated_of_clear hcf)
  let u := adcState t .r8 0#64
  have hclear : u.cf = false := adcState_zero_clear t hsat
  have h8 := tally_adcState t 0#64 (show Reg.r8 ∈ ({.r8} : Finset Reg) by simp)
  refine ⟨u, ?_, hframe.mem, ?_, ?_, ?_⟩
  · rw [runBlock_append cpu s hrun]
    simp [runBlock, exec, State.src, adcState, u]
  · rw [← hframe.gpr .rcx (by simp)]
    simp [u, adcState, addition]
  · rw [← hframe.gpr .rdx (by simp)]
    simp [u, adcState, addition]
  · rw [← total_of_clear hclear, ← total_of_clear hcf, ← chainSum_singleEntries]
    exact h8.trans hsum

def foldBlock : List (Instr L) := [
  .mov .rax (.reg .r8), .shr .rax 32, .add32 .rax (.reg .r8), .adc32 .rax (.imm 0),
  .mov32 .rdx (.reg .rax), .shr32 .rdx 16, .add16 .rax (.reg .rdx), .adc16 .rax (.imm 0),
  .not16 .rax, .movzx16 .rax (.reg .rax), .ret]

def fold32 (x : Word) : BitVec 32 := endAround ((x >>> 32).setWidth 32) (x.setWidth 32)

def fold16 (x : BitVec 32) : BitVec 16 := endAround (x.setWidth 16) ((x >>> 16).setWidth 16)

theorem setWidth_ushiftRight_widen (x : BitVec 32) :
    (x.setWidth 64 >>> 16).setWidth 16 = (x >>> 16).setWidth 16 := by
  apply BitVec.eq_of_toNat_eq
  have hx : x.toNat < 2 ^ 64 := Nat.lt_trans x.isLt (by norm_num)
  simp only [BitVec.toNat_setWidth, BitVec.toNat_ushiftRight, Nat.mod_eq_of_lt hx]

theorem foldBlock_upper : ∃ u, runBlock cpu s ((foldBlock (L := L)).take 4) = .next u ∧
    (u.gpr .rax).setWidth 32 = fold32 (s.gpr .r8) := by
  simp [foldBlock, runBlock, exec, State.src, addition, State.setReg32, fold32, endAround]

theorem foldBlock_lower : ∃ u, runBlock cpu s ((foldBlock (L := L)).drop 4) = .ret u ∧
    u.gpr .rax = (~~~fold16 ((s.gpr .rax).setWidth 32)).setWidth 64 := by
  simp [foldBlock, runBlock, exec, State.src, addition, State.setReg32, State.gpr_setLow_self, fold16,
    endAround, setWidth_ushiftRight_widen]

/-- The folds return the complement of the 16-bit value of r8. -/
theorem foldBlock_ret : ∃ u, runBlock cpu s (foldBlock (L := L)) = .ret u ∧
    u.gpr .rax = (~~~fold16 (fold32 (s.gpr .r8))).setWidth 64 := by
  obtain ⟨t, ht, hrax⟩ := foldBlock_upper (L := L) cpu s
  obtain ⟨u, hu, hret⟩ := foldBlock_lower (L := L) cpu t
  refine ⟨u, ?_, by rw [hret, hrax]⟩
  rw [← List.take_append_drop 4 (foldBlock (L := L)), runBlock_append cpu s ht, hu]

theorem fold32_onesEq (x : Word) : OnesEq 32 (fold32 x).toNat x.toNat := by
  have hlow : (x.setWidth 32).toNat = x.toNat % 2 ^ 32 := BitVec.toNat_setWidth ..
  have hhigh : ((x >>> 32).setWidth 32).toNat = x.toNat / 2 ^ 32 := by
    have := x.isLt
    rw [BitVec.toNat_setWidth, BitVec.toNat_ushiftRight, Nat.shiftRight_eq_div_pow]
    omega
  have hsum := endAround_onesEq ((x >>> 32).setWidth 32) (x.setWidth 32)
  rw [hlow, hhigh, Nat.add_comm] at hsum
  refine hsum.trans ((OnesEq.carry 32 _ _).symm.trans ?_)
  rw [Nat.mod_add_div]
  exact OnesEq.refl 32 _

theorem fold16_onesEq (x : BitVec 32) : OnesEq 16 (fold16 x).toNat x.toNat := by
  have hlow : (x.setWidth 16).toNat = x.toNat % 2 ^ 16 := BitVec.toNat_setWidth ..
  have hhigh : ((x >>> 16).setWidth 16).toNat = x.toNat / 2 ^ 16 := by
    have := x.isLt
    rw [BitVec.toNat_setWidth, BitVec.toNat_ushiftRight, Nat.shiftRight_eq_div_pow]
    omega
  have hsum := endAround_onesEq (x.setWidth 16) ((x >>> 16).setWidth 16)
  rw [hlow, hhigh] at hsum
  refine hsum.trans ((OnesEq.carry 16 _ _).symm.trans ?_)
  rw [Nat.mod_add_div]
  exact OnesEq.refl 16 _

/-- An accumulator that represents a sum folds to its 16-bit representative. -/
theorem fold_eq_onesFold {x : Word} {n : ℕ} (h : OnesEq 16 x.toNat n) :
    fold16 (fold32 x) = BitVec.ofNat 16 (onesFold 16 n) := by
  apply BitVec.eq_of_toNat_eq
  have h32 := (fold32_onesEq x).of_dvd (j := 16) (by norm_num)
  have hfold := (fold16_onesEq (fold32 x)).trans (h32.trans h)
  rw [BitVec.toNat_ofNat, Nat.mod_eq_of_lt (onesFold_lt (by norm_num) n)]
  exact eq_onesFold (by norm_num) (fold16 (fold32 x)).isLt hfold

/-- The end of a wide block: step over `k` bytes. -/
def advance (k : Word) : List (Instr L) := [.add .rcx (.imm k), .sub .rdx (.imm k)]

theorem advance_next (k : Word) : ∃ u, runBlock cpu s (advance (L := L) k) = .next u ∧
    u.mem = s.mem ∧ u.gpr .rcx = s.gpr .rcx + k ∧ u.gpr .rdx = s.gpr .rdx - k ∧
    u.zf = (s.gpr .rdx == k) ∧ ∀ r, r ≠ .rcx → r ≠ .rdx → u.gpr r = s.gpr r := by
  simp only [advance, runBlock, exec, State.src, addition, Outcome.next.injEq, exists_eq_left']
  refine ⟨by simp, by simp, by simp, by simp, fun r h1 h2 => by simp [h1, h2]⟩

section Sums
variable (m : Memory) (a n : Word)

/-- The buffer has been checked for null and empty, and its sum is split. -/
def Summing (accs : Finset Reg) (s : State) : Prop :=
  ¬ (a = 0 ∨ n = 0) ∧ Remaining accs m (wordSum m a n.toNat) s

def Answered (t : State) : Prop := t.gpr .rax = (checksumValue m a n).setWidth 64

variable {m a n} {accs : Finset Reg} {s}

theorem Summing.short {k : ℕ} {y : Word} {u : State} (h : Summing m a n accs s)
    (hstep : ShortStep (2 * k) y s u) (h8 : .r8 ∈ accs) (haccs : accs ⊆ {.r8, .r10})
    (hy : y.toNat = loadNat s.mem (s.gpr .rcx) (2 * k)) (hk : 2 * k < 2 ^ 64)
    (hlen : ¬ s.gpr .rdx < BitVec.ofNat 64 (2 * k)) :
    Summing m a n accs u ∧ (u.gpr .rdx).toNat + 2 * k = (s.gpr .rdx).toNat := by
  have hle : 2 * k ≤ (s.gpr .rdx).toNat := by
    rw [BitVec.lt_def, BitVec.toNat_ofNat, Nat.mod_eq_of_lt hk] at hlen
    omega
  have hsplit := wordSum_block m (s.gpr .rcx) k ((s.gpr .rdx).toNat - 2 * k)
  rw [Nat.add_sub_cancel' hle, ← h.2.1, ← hy, h.2.1] at hsplit
  refine ⟨⟨h.1, h.2.absorb (hstep.absorbs h8 haccs) hk hlen hsplit⟩, ?_⟩
  rw [hstep.len, toNat_sub_of_not_lt hlen, BitVec.toNat_ofNat, Nat.mod_eq_of_lt hk]
  omega

theorem Summing.wide {j : ℕ} {t u : State} (h : Summing m a n accs s)
    (hstep : WideStep accs (chunkSum s.mem (s.gpr .rcx) j) s t) (haccs : accs ⊆ {.r8, .r10})
    (hmem : u.mem = t.mem) (hptr : u.gpr .rcx = t.gpr .rcx + BitVec.ofNat 64 (8 * j))
    (hrdx : u.gpr .rdx = t.gpr .rdx - BitVec.ofNat 64 (8 * j))
    (hgpr : ∀ r, r ≠ .rcx → r ≠ .rdx → u.gpr r = t.gpr r) (hj : 8 * j < 2 ^ 64)
    (hlen : ¬ s.gpr .rdx < BitVec.ofNat 64 (8 * j)) :
    Summing m a n accs u ∧ (u.gpr .rdx).toNat + 8 * j = (s.gpr .rdx).toNat := by
  have hle : 8 * j ≤ (s.gpr .rdx).toNat := by
    rw [BitVec.lt_def, BitVec.toNat_ofNat, Nat.mod_eq_of_lt hj] at hlen
    omega
  have htotal : total accs u = total accs t := by
    apply Finset.sum_congr rfl
    intro r hr
    have hr' : r = .r8 ∨ r = .r10 := by simpa using haccs hr
    rw [hgpr r (by rcases hr' with rfl | rfl <;> decide) (by rcases hr' with rfl | rfl <;> decide)]
  have habsorb : Absorbs accs (8 * j) (chunkSum s.mem (s.gpr .rcx) j) s u :=
    ⟨hmem.trans hstep.mem, by rw [hptr, hstep.ptr], by rw [hrdx, hstep.len], htotal ▸ hstep.sum⟩
  have hsplit := wordSum_chunks m (s.gpr .rcx) j ((s.gpr .rdx).toNat - 8 * j)
  rw [Nat.add_sub_cancel' hle, ← h.2.1] at hsplit
  refine ⟨⟨h.1, h.2.absorb habsorb hj hlen (h.2.1 ▸ hsplit)⟩, ?_⟩
  rw [habsorb.len, toNat_sub_of_not_lt hlen, BitVec.toNat_ofNat, Nat.mod_eq_of_lt hj]
  omega

end Sums

end Blocks

end Disping.Assembly
