import Disping.Assembly.ChecksumAgreement
import Disping.Assembly.MemzeroEffect
import Disping.Assembly.NumericListing

/-! # The dispatch table

InitDispatchTable asks the processor which routines to point at; the automatic
entry points call through the table and fill it first when it is empty. Their
effect is the one of either routine.
-/
namespace Disping.Assembly
open Machine

inductive ChecksumFn
  | asmAvx2Checksum | asmSse2Checksum
deriving DecidableEq, Repr

inductive MemzeroFn
  | asmAvx2MemzeroNt | asmSse2MemzeroNt
deriving DecidableEq, Repr

inductive TscFn
  | asmReadTscFastSerialized | asmReadTscSerialized
deriving DecidableEq, Repr

/-- The three function pointers, null before the first initialisation. -/
structure DispatchTable where
  gChecksumPtr : Option ChecksumFn
  gMemzeroPtr : Option MemzeroFn
  gTscPtr : Option TscFn
deriving DecidableEq, Repr

section Initialisation
variable (cpu : Cpu)

/-- The table filled in; the probes run one after the other on the machine. -/
def initDispatchTable (s : State) : Option DispatchTable := do
  let s1 ← asmHasAvx2Support.run cpu 2 .entry s
  let s2 ← asmHasAvx2Support.run cpu 2 .entry s1
  let s3 ← asmHasRdtscpSupport.run cpu 2 .entry s2
  some {
    gChecksumPtr :=
      if s1.intResult ≠ 0 then some .asmAvx2Checksum else some .asmSse2Checksum
    gMemzeroPtr :=
      if s2.intResult ≠ 0 then some .asmAvx2MemzeroNt else some .asmSse2MemzeroNt
    gTscPtr :=
      if s3.intResult ≠ 0 then some .asmReadTscFastSerialized else some .asmReadTscSerialized }

def ChecksumFn.run (f : ChecksumFn) (s : State) (buffer lenBytes : Word) : Option State :=
  match f with
  | .asmAvx2Checksum =>
    Routine.run Assembly.asmAvx2Checksum cpu (8 * lenBytes.toNat + 8) .entry (s.call2 buffer lenBytes)
  | .asmSse2Checksum =>
    Routine.run Assembly.asmSse2Checksum cpu (8 * lenBytes.toNat + 8) .entry (s.call2 buffer lenBytes)

def MemzeroFn.run (f : MemzeroFn) (s : State) (dst sizeInBytes : Word) : Option State :=
  match f with
  | .asmAvx2MemzeroNt =>
    Routine.run Assembly.asmAvx2MemzeroNt cpu (8 * sizeInBytes.toNat + 8) .entry (s.call2 dst sizeInBytes)
  | .asmSse2MemzeroNt =>
    Routine.run Assembly.asmSse2MemzeroNt cpu (8 * sizeInBytes.toNat + 8) .entry (s.call2 dst sizeInBytes)

/-- The probes spill below the stack pointer only, so the callee starts from the caller's memory. -/
def dispingFastChecksumAuto (g : DispatchTable) (s : State) (buffer lenBytes : Word) : Option State := do
  let g ← if g.gChecksumPtr.isNone then initDispatchTable cpu s else some g
  let f ← g.gChecksumPtr
  f.run cpu s buffer lenBytes

def dispingFastMemzeroAuto (g : DispatchTable) (s : State) (dst sizeInBytes : Word) : Option State := do
  let g ← if g.gMemzeroPtr.isNone then initDispatchTable cpu s else some g
  let f ← g.gMemzeroPtr
  f.run cpu s dst sizeInBytes

theorem asmHasAvx2Support_run (s : State) : ∃ t, asmHasAvx2Support.run cpu 2 .entry s = some t ∧
    t.intResult = if cpu.avx2 then 1 else 0 := by
  cases h : (cpu.cpuid 7#32 0#32).ebx[5] <;>
    simp [Routine.run, asmHasAvx2Support, runBlock, exec, State.src, State.setReg32, logic,
      State.condition, State.intResult, Cpu.avx2, h]

theorem asmHasRdtscpSupport_run (s : State) : ∃ t, asmHasRdtscpSupport.run cpu 2 .entry s = some t := by
  cases h : (cpu.cpuid 0x80000001#32 ((s.gpr .rcx).setWidth 32)).edx[27] <;>
    simp [Routine.run, asmHasRdtscpSupport, runBlock, exec, State.src, State.setReg32, logic,
      State.condition, h]

theorem initDispatchTable_run (s : State) : ∃ tsc, initDispatchTable cpu s = some {
    gChecksumPtr := some (if cpu.avx2 then .asmAvx2Checksum else .asmSse2Checksum)
    gMemzeroPtr := some (if cpu.avx2 then .asmAvx2MemzeroNt else .asmSse2MemzeroNt)
    gTscPtr := some tsc } := by
  obtain ⟨s1, h1, hr1⟩ := asmHasAvx2Support_run cpu s
  obtain ⟨s2, h2, hr2⟩ := asmHasAvx2Support_run cpu s1
  obtain ⟨s3, h3⟩ := asmHasRdtscpSupport_run cpu s2
  refine ⟨if s3.intResult ≠ 0 then .asmReadTscFastSerialized else .asmReadTscSerialized, ?_⟩
  cases havx : cpu.avx2 <;> cases hrdtscp : decide (s3.intResult = 0) <;>
    simp_all [initDispatchTable]

end Initialisation

section Checksum
variable (cpu : Cpu) (s : State) (buffer lenBytes : Word)

theorem ChecksumFn.run_answered (f : ChecksumFn) :
    ∃ t, f.run cpu s buffer lenBytes = some t ∧ Answered s.mem buffer lenBytes t := by
  cases f with
  | asmAvx2Checksum => exact asmAvx2Checksum_returns cpu s.mem buffer lenBytes rfl (by simp [State.call2]) rfl
  | asmSse2Checksum => exact asmSse2Checksum_returns cpu s.mem buffer lenBytes rfl (by simp [State.call2]) rfl

/-- Every table, empty or filled on any processor, leads to the one answer. -/
theorem dispingFastChecksumAuto_answered (g : DispatchTable) :
    ∃ t, dispingFastChecksumAuto cpu g s buffer lenBytes = some t ∧ Answered s.mem buffer lenBytes t := by
  cases hg : g.gChecksumPtr with
  | some f => simpa [dispingFastChecksumAuto, hg] using f.run_answered cpu s buffer lenBytes
  | none =>
    obtain ⟨tsc, hinit⟩ := initDispatchTable_run cpu s
    simpa [dispingFastChecksumAuto, hg, hinit] using ChecksumFn.run_answered cpu s buffer lenBytes _

/-- Both routines and the dispatcher return the checksum value of the buffer. -/
theorem checksum_agreement :
    (∃ t, asmAvx2Checksum.Returns cpu (s.call2 buffer lenBytes) t ∧
      t.gpr .rax = (checksumValue s.mem buffer lenBytes).setWidth 64) ∧
    (∃ t, asmSse2Checksum.Returns cpu (s.call2 buffer lenBytes) t ∧
      t.gpr .rax = (checksumValue s.mem buffer lenBytes).setWidth 64) ∧
    ∀ (cpu' : Cpu) (g : DispatchTable), ∃ t, dispingFastChecksumAuto cpu' g s buffer lenBytes = some t ∧
      t.gpr .rax = (checksumValue s.mem buffer lenBytes).setWidth 64 := by
  refine ⟨?_, ?_, fun cpu' g => dispingFastChecksumAuto_answered cpu' s buffer lenBytes g⟩
  · obtain ⟨t, ht, hans⟩ := ChecksumFn.run_answered cpu s buffer lenBytes .asmAvx2Checksum
    exact ⟨t, ⟨_, ht⟩, hans⟩
  · obtain ⟨t, ht, hans⟩ := ChecksumFn.run_answered cpu s buffer lenBytes .asmSse2Checksum
    exact ⟨t, ⟨_, ht⟩, hans⟩

end Checksum

section Memzero
variable (cpu : Cpu) (s : State) (dst sizeInBytes : Word)

theorem MemzeroFn.run_zeroed (f : MemzeroFn) :
    ∃ t, f.run cpu s dst sizeInBytes = some t ∧ ZeroedState s.mem dst sizeInBytes s.streamed t := by
  cases f with
  | asmAvx2MemzeroNt =>
    exact asmAvx2MemzeroNt_returns cpu dst sizeInBytes (s := s.call2 dst sizeInBytes)
      (by simp [State.call2]) rfl
  | asmSse2MemzeroNt =>
    exact asmSse2MemzeroNt_returns cpu dst sizeInBytes (s := s.call2 dst sizeInBytes)
      (by simp [State.call2]) rfl

theorem dispingFastMemzeroAuto_zeroed (g : DispatchTable) :
    ∃ t, dispingFastMemzeroAuto cpu g s dst sizeInBytes = some t ∧
      ZeroedState s.mem dst sizeInBytes s.streamed t := by
  cases hg : g.gMemzeroPtr with
  | some f => simpa [dispingFastMemzeroAuto, hg] using f.run_zeroed cpu s dst sizeInBytes
  | none =>
    obtain ⟨tsc, hinit⟩ := initDispatchTable_run cpu s
    simpa [dispingFastMemzeroAuto, hg, hinit] using MemzeroFn.run_zeroed cpu s dst sizeInBytes _

/-- A window that does not wrap is cleared as an interval of addresses. -/
theorem zeroed_apply (m : Memory) (h : dst.toNat + sizeInBytes.toNat ≤ 2 ^ 64) (x : Word) :
    zeroed m dst sizeInBytes x =
      if dst ≠ 0 ∧ dst.toNat ≤ x.toNat ∧ x.toNat < dst.toNat + sizeInBytes.toNat then 0 else m x := by
  by_cases hdst : dst = 0
  · simp [zeroed, hdst]
  · simp only [zeroed, hdst, ↓reduceIte, clear, offset_lt_iff dst x h, ne_eq, not_false_eq_true, true_and]

/-- Both clears and the dispatcher zero the window and nothing else, with aligned streaming stores. -/
theorem memzero_effect (h : dst.toNat + sizeInBytes.toNat ≤ 2 ^ 64) :
    ∃ m : Memory,
      (∀ x, m x = if dst ≠ 0 ∧ dst.toNat ≤ x.toNat ∧ x.toNat < dst.toNat + sizeInBytes.toNat then 0
        else s.mem x) ∧
      (∃ t, asmAvx2MemzeroNt.Returns cpu (s.call2 dst sizeInBytes) t ∧ t.mem = m ∧
        StreamsAligned s.streamed t) ∧
      (∃ t, asmSse2MemzeroNt.Returns cpu (s.call2 dst sizeInBytes) t ∧ t.mem = m ∧
        StreamsAligned s.streamed t) ∧
      ∀ (cpu' : Cpu) (g : DispatchTable), ∃ t, dispingFastMemzeroAuto cpu' g s dst sizeInBytes = some t ∧
        t.mem = m ∧ StreamsAligned s.streamed t := by
  refine ⟨zeroed s.mem dst sizeInBytes, zeroed_apply dst sizeInBytes s.mem h, ?_, ?_,
    fun cpu' g => dispingFastMemzeroAuto_zeroed cpu' s dst sizeInBytes g⟩
  · obtain ⟨t, ht, hzero⟩ := MemzeroFn.run_zeroed cpu s dst sizeInBytes .asmAvx2MemzeroNt
    exact ⟨t, ⟨_, ht⟩, hzero⟩
  · obtain ⟨t, ht, hzero⟩ := MemzeroFn.run_zeroed cpu s dst sizeInBytes .asmSse2MemzeroNt
    exact ⟨t, ⟨_, ht⟩, hzero⟩

/-- A window whose ends are both unaligned, among bytes that are not 0. -/
theorem memzero_effect_at_0x1003 :
    ∃ t, asmAvx2MemzeroNt.Returns default (((default : State).setMem counting).call2 0x1003 300) t ∧
      ∀ x, t.mem x = if 0x1003 ≤ x.toNat ∧ x.toNat < 0x1003 + 300 then 0 else x.setWidth 8 := by
  obtain ⟨m, hm, ⟨t, ht, hmem, _⟩, _⟩ :=
    memzero_effect default ((default : State).setMem counting) 0x1003 300 (by decide)
  refine ⟨t, ht, fun x => ?_⟩
  simpa [hmem, counting] using hm x

end Memzero

end Disping.Assembly
