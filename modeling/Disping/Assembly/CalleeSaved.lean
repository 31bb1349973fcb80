import Disping.Assembly.ChecksumListing
import Disping.Assembly.MemoryListing
import Disping.Assembly.NumericListing
import Disping.Machine.Convention

/-! # Callee-saved registers of the computational routines

Seven routines write volatile registers only. The statistics routine saves the
integer registers it uses on the stack, but it computes in xmm6 and xmm7 once it
has samples, and leaves zero in xmm6.
-/
namespace Disping.Assembly
open Machine

inductive ComputationalRoutine
  | asmAvx2Checksum | asmSse2Checksum | asmAvx2MemzeroNt | asmSse2MemzeroNt | asmAvx2MemcpyNt
  | asmCrc32Fast | asmCalcPingStatsSimd | asmCalcJitterRfc3550
deriving DecidableEq, Repr

def ComputationalRoutine.Returns (cpu : Cpu) : ComputationalRoutine → State → State → Prop
  | .asmAvx2Checksum => Routine.Returns Assembly.asmAvx2Checksum cpu
  | .asmSse2Checksum => Routine.Returns Assembly.asmSse2Checksum cpu
  | .asmAvx2MemzeroNt => Routine.Returns Assembly.asmAvx2MemzeroNt cpu
  | .asmSse2MemzeroNt => Routine.Returns Assembly.asmSse2MemzeroNt cpu
  | .asmAvx2MemcpyNt => Routine.Returns Assembly.asmAvx2MemcpyNt cpu
  | .asmCrc32Fast => Routine.Returns Assembly.asmCrc32Fast cpu
  | .asmCalcPingStatsSimd => Routine.Returns Assembly.asmCalcPingStatsSimd cpu
  | .asmCalcJitterRfc3550 => Routine.Returns Assembly.asmCalcJitterRfc3550 cpu

section Texts

theorem asmAvx2Checksum_volatile : asmAvx2Checksum.Volatile := by
  intro l
  cases l <;> decide

theorem asmSse2Checksum_volatile : asmSse2Checksum.Volatile := by
  intro l
  cases l <;> decide

theorem asmAvx2MemzeroNt_volatile : asmAvx2MemzeroNt.Volatile := by
  intro l
  cases l <;> decide

theorem asmSse2MemzeroNt_volatile : asmSse2MemzeroNt.Volatile := by
  intro l
  cases l <;> decide

theorem asmAvx2MemcpyNt_volatile : asmAvx2MemcpyNt.Volatile := by
  intro l
  cases l <;> decide

theorem asmCrc32Fast_volatile : asmCrc32Fast.Volatile := by
  intro l
  cases l <;> decide

theorem asmCalcJitterRfc3550_volatile : asmCalcJitterRfc3550.Volatile := by
  intro l
  cases l
  decide

end Texts

section Stats
variable (cpu : Cpu) (s : State)

/-- The three saved registers can be read back and the others are untouched. -/
structure Spilled (s u : State) : Prop where
  rsp : u.gpr .rsp = s.gpr .rsp - 24
  rdi : load 64 u.mem (s.gpr .rsp - 24) = s.gpr .rdi
  rbx : load 64 u.mem (s.gpr .rsp - 24 + 8) = s.gpr .rbx
  rbp : load 64 u.mem (s.gpr .rsp - 24 + 16) = s.gpr .rbp
  others : ∀ r ∈ [Reg.rsi, .r12, .r13, .r14, .r15], u.gpr r = s.gpr r
  xmm : ∀ i : Fin 16, 6 ≤ i.val → u.xmm i = s.xmm i

/-- Three pushes, read back from the lowest slot. -/
theorem load_three_pushes (m : Memory) (a x y z : Word) :
    load 64 (store (store (store m (a + 16#64) x) (a + 8#64) y) a z) a = z ∧
    load 64 (store (store (store m (a + 16#64) x) (a + 8#64) y) a z) (a + 8#64) = y ∧
    load 64 (store (store (store m (a + 16#64) x) (a + 8#64) y) a z) (a + 16#64) = x := by
  refine ⟨load_store _ a (n := 8) z (by norm_num), ?_, ?_⟩
  · have hz := load_store_above (store (store m (a + 16#64) x) (a + 8#64) y) a (n := 8) (j := 8) (k := 8) z
      (by norm_num) (by norm_num)
    exact hz.trans (load_store _ (a + 8#64) (n := 8) y (by norm_num))
  · have hz := load_store_above (store (store m (a + 16#64) x) (a + 8#64) y) a (n := 8) (j := 16) (k := 8) z
      (by norm_num) (by norm_num)
    have hy := load_store_above (store m (a + 16#64) x) (a + 8#64) (n := 8) (j := 8) (k := 8) y
      (by norm_num) (by norm_num)
    have haddr : a + 8#64 + BitVec.ofNat 64 8 = a + 16#64 := by
      rw [BitVec.add_assoc]
      rfl
    rw [haddr] at hy
    exact hz.trans (hy.trans (load_store _ (a + 16#64) (n := 8) x (by norm_num)))

def statsPrologue : List (Instr StatsLabel) := [
  .push .rbp, .mov .rbp (.reg .rsp), .push .rbx, .push .rdi,
  .mov .rax (.mem (.off .rbp 48)), .mov .rbx (.mem (.off .rbp 56))]

def statsSetup : List (Instr StatsLabel) := [
  .movsdLoad 0 (.off .rcx 0), .movsdLoad 1 (.off .rcx 0), .xorpd 2, .xorpd 3, .xor .rdi (.reg .rdi)]

theorem asmCalcPingStatsSimd_entry : asmCalcPingStatsSimd.code .entry = statsPrologue ++
    (.test .rcx (.reg .rcx) :: .jcc .jz .statsDone :: .test .rdx (.reg .rdx) ::
      .jcc .jz .statsDone :: statsSetup) := rfl

theorem statsPrologue_next : ∃ u, runBlock cpu s statsPrologue = .next u ∧ Spilled s u ∧
    u.gpr .rcx = s.gpr .rcx ∧ u.gpr .rdx = s.gpr .rdx := by
  have h8 : s.gpr .rsp - 8#64 = s.gpr .rsp - 24#64 + 16#64 := by bv_omega
  have h16 : s.gpr .rsp - 24#64 + 16#64 - 8#64 = s.gpr .rsp - 24#64 + 8#64 := by bv_omega
  have h24 : s.gpr .rsp - 24#64 + 8#64 - 8#64 = s.gpr .rsp - 24#64 := by bv_omega
  obtain ⟨hz, hy, hx⟩ := load_three_pushes s.mem (s.gpr .rsp - 24#64) (s.gpr .rbp) (s.gpr .rbx) (s.gpr .rdi)
  simp only [statsPrologue, runBlock, exec, Outcome.next.injEq, exists_eq_left']
  refine ⟨⟨?_, ?_, ?_, ?_, ?_, ?_⟩, by simp, by simp⟩
  · simp [h8, h16, h24]
  · simpa [h8, h16, h24] using hz
  · simpa [h8, h16, h24] using hy
  · simpa [h8, h16, h24] using hx
  · simp
  · simp [State.xmm]

theorem statsDone_givesBack {u : State} (h : Spilled s u) :
    ∃ t, runBlock cpu u (asmCalcPingStatsSimd.code .statsDone) = .ret t ∧ GivesBack s t := by
  have h8 : s.gpr .rsp - 24#64 + 8#64 + 8#64 = s.gpr .rsp - 24#64 + 16#64 := by bv_omega
  have h16 : s.gpr .rsp - 24#64 + 8#64 + 8#64 + 8#64 + 8#64 = s.gpr .rsp + 8#64 := by bv_omega
  have hothers := h.others
  simp only [List.mem_cons, List.not_mem_nil, or_false, forall_eq_or_imp, forall_eq] at hothers
  obtain ⟨hrsi, h12, h13, h14, h15⟩ := hothers
  simp only [asmCalcPingStatsSimd, runBlock, exec, Outcome.ret.injEq, exists_eq_left']
  refine ⟨?_, ?_, h.xmm⟩
  · have hrdi := h.rdi
    have hrbx := h.rbx
    have hrbp := h.rbp
    simp only [BitVec.ofNat_eq_ofNat] at hrdi hrbx hrbp
    simp [calleeSaved, h.rsp, h8, hrdi, hrbx, hrbp, hrsi, h12, h13, h14, h15]
  · simpa [h.rsp] using h16

theorem Spilled.setFlags {s u : State} (h : Spilled s u) (c z : Bool) : Spilled s (u.setFlags c z) :=
  ⟨h.rsp, h.rdi, h.rbx, h.rbp, h.others, h.xmm⟩

theorem statsEntry_null (h : s.gpr .rcx = 0#64 ∨ s.gpr .rdx = 0#64) :
    ∃ u, runBlock cpu s (asmCalcPingStatsSimd.code .entry) = .jump .statsDone u ∧ Spilled s u := by
  obtain ⟨u, hu, hspill, hrcx, hrdx⟩ := statsPrologue_next cpu s
  rw [asmCalcPingStatsSimd_entry, runBlock_append cpu s hu]
  by_cases hnull : u.gpr .rcx = 0#64
  · rw [runBlock_test_zero cpu u hnull]
    exact ⟨_, rfl, hspill.setFlags _ _⟩
  · have hempty : u.gpr .rdx = 0#64 := by
      rw [hrcx] at hnull
      rw [hrdx]
      exact h.resolve_left hnull
    rw [runBlock_test_nonzero cpu u hnull, runBlock_test_zero cpu (u.setFlags false false) hempty]
    exact ⟨_, rfl, (hspill.setFlags _ _).setFlags _ _⟩

/-- Without samples the routine follows the convention. -/
theorem asmCalcPingStatsSimd_null_givesBack (h : s.gpr .rcx = 0#64 ∨ s.gpr .rdx = 0#64) {t : State}
    (ht : asmCalcPingStatsSimd.Returns cpu s t) : GivesBack s t := by
  obtain ⟨u, hu, hspill⟩ := statsEntry_null cpu s h
  obtain ⟨v, hv, hback⟩ := statsDone_givesBack cpu s hspill
  have hrun : asmCalcPingStatsSimd.Returns cpu s v := by
    refine ⟨2, ?_⟩
    simp only [Routine.run, show asmCalcPingStatsSimd.entry = .entry from rfl, hu, hv]
  exact asmCalcPingStatsSimd.returns_unique cpu ht hrun ▸ hback

/-- What the statistics table needs to know: the loop ends, and xmm6 is zero at the end. -/
def statsTable : StatsLabel → State → Prop
  | .entry, s => s.gpr .rcx ≠ 0#64 ∧ s.gpr .rdx ≠ 0#64
  | .statsLoop, s => (s.gpr .rdi).toNat ≤ (s.gpr .rdx).toNat
  | .statsCompute, _ | .skipMin, _ | .skipMax, _ | .skipAvg, _ => True
  | .statsDone, s => s.xmm 6 = 0

def statsMeasure : StatsLabel → State → ℕ
  | .entry, s => (s.gpr .rdx).toNat + 7
  | .statsLoop, s => (s.gpr .rdx).toNat - (s.gpr .rdi).toNat + 6
  | .statsCompute, _ => 5
  | .skipMin, _ => 4
  | .skipMax, _ => 3
  | .skipAvg, _ => 2
  | .statsDone, _ => 1

theorem statsEntry_lands (h : statsTable .entry s) : (runBlock cpu s (asmCalcPingStatsSimd.code .entry)).Lands
    (fun l u => statsTable l u ∧ statsMeasure l u < statsMeasure .entry s) (fun t => t.xmm 6 = 0)
    (some .statsLoop) := by
  obtain ⟨u, hu, _, hrcx, hrdx⟩ := statsPrologue_next cpu s
  rw [asmCalcPingStatsSimd_entry, runBlock_append cpu s hu,
    runBlock_test_nonzero cpu u (by rw [hrcx]; exact h.1),
    runBlock_test_nonzero cpu (u.setFlags false false) (by simpa [hrdx] using h.2)]
  refine ⟨.statsLoop, rfl, ?_, ?_⟩
  · simp [statsTable, logic, State.src]
  · simp [statsMeasure, logic, State.src, hrdx, State.setXmm]

def statsVariance : List (Instr StatsLabel) := [
  .divsd 3 6, .movsd 7 2, .mulsd 7 7, .subsd 3 7, .xorpd 6, .maxsd 3 6, .sqrtsd 3 3]

theorem asmCalcPingStatsSimd_skipAvg : asmCalcPingStatsSimd.code .skipAvg = statsVariance ++
    (.test .rbx (.reg .rbx) :: .jcc .jz .statsDone :: [.movsdStore (.off .rbx 0) 3]) := rfl

/-- The variance clamps against a zeroed xmm6, which stays zero. -/
theorem statsVariance_next : ∃ u, runBlock cpu s statsVariance = .next u ∧ u.gpr = s.gpr ∧ u.xmm 6 = 0 := by
  simp only [statsVariance, runBlock, exec, scalar, Outcome.next.injEq, exists_eq_left']
  refine ⟨rfl, ?_⟩
  rw [xmm_setLane_of_ne _ (by decide), xmm_setLane_of_ne _ (by decide), State.xmm_setXmm, if_pos rfl]

theorem statsBlock_lands (l : StatsLabel) (s : State) (h : statsTable l s) :
    (runBlock cpu s (asmCalcPingStatsSimd.code l)).Lands
      (fun l' u => statsTable l' u ∧ statsMeasure l' u < statsMeasure l s) (fun t => t.xmm 6 = 0)
      (asmCalcPingStatsSimd.fall l) := by
  cases l with
  | entry => exact statsEntry_lands cpu s h
  | statsLoop =>
    have hle : (s.gpr .rdi).toNat ≤ (s.gpr .rdx).toNat := h
    by_cases hlt : s.gpr .rdi < s.gpr .rdx
    · have hlt' : (s.gpr .rdi).toNat < (s.gpr .rdx).toNat := hlt
      have hinc : (s.gpr .rdi + 1#64).toNat = (s.gpr .rdi).toNat + 1 := by
        have hrdx := (s.gpr .rdx).isLt
        rw [BitVec.toNat_add, BitVec.toNat_ofNat]
        omega
      simp [asmCalcPingStatsSimd, runBlock, exec, State.src, State.condition, scalar, State.setLane,
        State.setXmm, Outcome.Lands, statsTable, statsMeasure, hlt, hinc]
      omega
    · simp [asmCalcPingStatsSimd, runBlock, exec, State.src, State.condition, Outcome.Lands, statsTable,
        statsMeasure, hlt]
  | statsCompute =>
    by_cases hr8 : s.gpr .r8 = 0#64 <;>
      simp [asmCalcPingStatsSimd, runBlock, exec, State.src, State.condition, Outcome.Lands, statsTable,
        statsMeasure, hr8]
  | skipMin =>
    by_cases hr9 : s.gpr .r9 = 0#64 <;>
      simp [asmCalcPingStatsSimd, runBlock, exec, State.src, State.condition, Outcome.Lands, statsTable,
        statsMeasure, hr9]
  | skipMax =>
    by_cases hrax : s.gpr .rax = 0#64 <;>
      simp [asmCalcPingStatsSimd, runBlock, exec, State.src, State.condition, scalar, State.setLane,
        Outcome.Lands, statsTable, statsMeasure, hrax]
  | skipAvg =>
    obtain ⟨u, hu, hgpr, hxmm⟩ := statsVariance_next cpu s
    rw [asmCalcPingStatsSimd_skipAvg, runBlock_append cpu s hu]
    by_cases hrbx : u.gpr .rbx = 0#64
    · rw [runBlock_test_zero cpu u hrbx]
      exact ⟨hxmm, by simp [statsMeasure]⟩
    · rw [runBlock_test_nonzero cpu u hrbx]
      exact ⟨.statsDone, rfl, hxmm, by simp [statsMeasure]⟩
  | statsDone => exact h

/-- With samples the routine returns with zero in xmm6, whatever it held before. -/
theorem asmCalcPingStatsSimd_returns_zero (hrtts : s.gpr .rcx ≠ 0#64) (hcount : s.gpr .rdx ≠ 0#64) :
    ∃ t, asmCalcPingStatsSimd.Returns cpu s t ∧ t.xmm 6 = 0 := by
  obtain ⟨t, ht, hxmm⟩ := asmCalcPingStatsSimd.run_of_table cpu (statsBlock_lands cpu)
    ((s.gpr .rdx).toNat + 8) .entry s ⟨hrtts, hcount⟩ (by simp [statsMeasure])
  exact ⟨t, ⟨_, ht⟩, hxmm⟩

end Stats

/-- The arguments of a call: registers, vector arguments, stack pointer and memory. -/
structure SameInput (s u : State) : Prop where
  gpr : ∀ r ∈ [Reg.rcx, .rdx, .r8, .r9, .rsp], u.gpr r = s.gpr r
  xmm : ∀ i : Fin 16, i.val < 4 → u.xmm i = s.xmm i
  mem : u.mem = s.mem

/-- A call follows the convention, whatever the other registers hold at entry. -/
def FollowsConvention (cpu : Cpu) (r : ComputationalRoutine) (s : State) : Prop :=
  ∀ u t, SameInput s u → r.Returns cpu u t → GivesBack u t

/-- The convention holds of every routine and input except the statistics of some samples. -/
theorem followsConvention_iff (cpu : Cpu) (r : ComputationalRoutine) (s : State) :
    FollowsConvention cpu r s ↔
      (r = .asmCalcPingStatsSimd → s.gpr .rcx = 0 ∨ s.gpr .rdx = 0) := by
  constructor
  · rintro hfollows rfl
    by_contra hnot
    rw [not_or] at hnot
    let u := s.setYmm 6 1#256
    obtain ⟨t, ht, hzero⟩ := asmCalcPingStatsSimd_returns_zero cpu u hnot.1 hnot.2
    have hsame : SameInput s u :=
      ⟨fun _ _ => rfl, fun i hi => xmm_setYmm_of_ne s (by rintro rfl; revert hi; decide), rfl⟩
    have hkept := (hfollows u t hsame ht).xmm 6 (by decide)
    rw [hzero] at hkept
    revert hkept
    simp [u, State.xmm]
  · intro h u t hsame ht
    cases r with
    | asmAvx2Checksum => exact asmAvx2Checksum_volatile.givesBack cpu ht
    | asmSse2Checksum => exact asmSse2Checksum_volatile.givesBack cpu ht
    | asmAvx2MemzeroNt => exact asmAvx2MemzeroNt_volatile.givesBack cpu ht
    | asmSse2MemzeroNt => exact asmSse2MemzeroNt_volatile.givesBack cpu ht
    | asmAvx2MemcpyNt => exact asmAvx2MemcpyNt_volatile.givesBack cpu ht
    | asmCrc32Fast => exact asmCrc32Fast_volatile.givesBack cpu ht
    | asmCalcPingStatsSimd =>
      have hnull : u.gpr .rcx = 0#64 ∨ u.gpr .rdx = 0#64 := by
        rw [hsame.gpr .rcx (by simp), hsame.gpr .rdx (by simp)]
        exact h rfl
      exact asmCalcPingStatsSimd_null_givesBack cpu u hnull ht
    | asmCalcJitterRfc3550 => exact asmCalcJitterRfc3550_volatile.givesBack cpu ht

/-- One sample at address 64 and xmm6 holding one. -/
def oneSample : State := (((default : State).setReg .rcx 64).setReg .rdx 1).setYmm 6 1

theorem not_followsConvention_oneSample :
    ¬ ∀ (cpu : Cpu) (r : ComputationalRoutine) (s t : State), r.Returns cpu s t → GivesBack s t := by
  intro h
  obtain ⟨t, ht, hzero⟩ := asmCalcPingStatsSimd_returns_zero default oneSample (by decide) (by decide)
  have hkept := (h default .asmCalcPingStatsSimd oneSample t ht).xmm 6 (by decide)
  rw [hzero] at hkept
  revert hkept
  decide

end Disping.Assembly
