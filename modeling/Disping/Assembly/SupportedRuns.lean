import Disping.Assembly.CalleeSaved
import Disping.Assembly.Dispatch
import Disping.Machine.Extensions

/-! # The routines on a processor without AVX2

On a processor with the extensions of its text a routine runs as the other modules have it. The dispatcher
calls only what the processor supports. The relay calls the copy and the clear by name, and without AVX they
end in an invalid opcode.
-/
namespace Disping.Assembly
open Machine

section Texts

theorem asmAvx2Checksum_needs : asmAvx2Checksum.Needs [] := by
  intro l
  cases l <;> decide

theorem asmSse2Checksum_needs : asmSse2Checksum.Needs [] := by
  intro l
  cases l <;> decide

theorem asmAvx2MemzeroNt_needs : asmAvx2MemzeroNt.Needs [.avx, .avx2] := by
  intro l
  cases l <;> decide

theorem asmSse2MemzeroNt_needs : asmSse2MemzeroNt.Needs [] := by
  intro l
  cases l <;> decide

theorem asmAvx2MemcpyNt_needs : asmAvx2MemcpyNt.Needs [.avx] := by
  intro l
  cases l <;> decide

theorem asmCrc32Fast_needs : asmCrc32Fast.Needs [.sse42] := by
  intro l
  cases l <;> decide

theorem asmCalcPingStatsSimd_needs : asmCalcPingStatsSimd.Needs [] := by
  intro l
  cases l <;> decide

theorem asmCalcJitterRfc3550_needs : asmCalcJitterRfc3550.Needs [] := by
  intro l
  cases l
  decide

theorem asmHasAvx2Support_needs : asmHasAvx2Support.Needs [] := by
  intro l
  cases l <;> decide

theorem asmHasRdtscpSupport_needs : asmHasRdtscpSupport.Needs [] := by
  intro l
  cases l <;> decide

end Texts

namespace ComputationalRoutine

/-- What the text needs beyond SSE2; the checksum of that name has no AVX2 instruction. -/
def extensions : ComputationalRoutine → List Extension
  | .asmAvx2MemzeroNt => [.avx, .avx2]
  | .asmAvx2MemcpyNt => [.avx]
  | .asmCrc32Fast => [.sse42]
  | _ => []

def ReturnsOn (cpu : Cpu) : ComputationalRoutine → State → State → Prop
  | .asmAvx2Checksum => Routine.ReturnsOn Assembly.asmAvx2Checksum cpu
  | .asmSse2Checksum => Routine.ReturnsOn Assembly.asmSse2Checksum cpu
  | .asmAvx2MemzeroNt => Routine.ReturnsOn Assembly.asmAvx2MemzeroNt cpu
  | .asmSse2MemzeroNt => Routine.ReturnsOn Assembly.asmSse2MemzeroNt cpu
  | .asmAvx2MemcpyNt => Routine.ReturnsOn Assembly.asmAvx2MemcpyNt cpu
  | .asmCrc32Fast => Routine.ReturnsOn Assembly.asmCrc32Fast cpu
  | .asmCalcPingStatsSimd => Routine.ReturnsOn Assembly.asmCalcPingStatsSimd cpu
  | .asmCalcJitterRfc3550 => Routine.ReturnsOn Assembly.asmCalcJitterRfc3550 cpu

variable {cpu : Cpu} {s t : State}

/-- Every result about a routine's runs holds on the processors that support its text. -/
theorem returnsOn_iff (c : ComputationalRoutine) (h : ∀ e ∈ c.extensions, cpu.has e = true) :
    c.ReturnsOn cpu s t ↔ c.Returns cpu s t := by
  cases c with
  | asmAvx2Checksum => exact asmAvx2Checksum_needs.returnsOn_iff h
  | asmSse2Checksum => exact asmSse2Checksum_needs.returnsOn_iff h
  | asmAvx2MemzeroNt => exact asmAvx2MemzeroNt_needs.returnsOn_iff h
  | asmSse2MemzeroNt => exact asmSse2MemzeroNt_needs.returnsOn_iff h
  | asmAvx2MemcpyNt => exact asmAvx2MemcpyNt_needs.returnsOn_iff h
  | asmCrc32Fast => exact asmCrc32Fast_needs.returnsOn_iff h
  | asmCalcPingStatsSimd => exact asmCalcPingStatsSimd_needs.returnsOn_iff h
  | asmCalcJitterRfc3550 => exact asmCalcJitterRfc3550_needs.returnsOn_iff h

/-- What returns on any processor returns the same in those runs. -/
theorem returns_of_returnsOn {c : ComputationalRoutine} (h : c.ReturnsOn cpu s t) : c.Returns cpu s t := by
  cases c <;>
  · obtain ⟨n, hn⟩ := h
    exact ⟨n, Routine.run_of_runOn hn⟩

end ComputationalRoutine

section Dispatched
variable {cpu : Cpu}

def ChecksumFn.routine : ChecksumFn → ComputationalRoutine
  | .asmAvx2Checksum => .asmAvx2Checksum
  | .asmSse2Checksum => .asmSse2Checksum

def MemzeroFn.routine : MemzeroFn → ComputationalRoutine
  | .asmAvx2MemzeroNt => .asmAvx2MemzeroNt
  | .asmSse2MemzeroNt => .asmSse2MemzeroNt

/-- The table is empty, or this processor has filled it. -/
def DispatchTable.Own (cpu : Cpu) (g : DispatchTable) : Prop :=
  g = ⟨none, none, none⟩ ∨ ∃ s, initDispatchTable cpu s = some g

/-- The probes run on every processor. -/
theorem probes_runOn (n : ℕ) (s : State) :
    asmHasAvx2Support.runOn cpu n .entry s = asmHasAvx2Support.run cpu n .entry s ∧
      asmHasRdtscpSupport.runOn cpu n .entry s = asmHasRdtscpSupport.run cpu n .entry s :=
  ⟨asmHasAvx2Support_needs.runOn_eq (by simp) n .entry s,
    asmHasRdtscpSupport_needs.runOn_eq (by simp) n .entry s⟩

variable (s : State) (p n : Word) {g : DispatchTable}

/-- The checksum that is dispatched to runs on the processor, whatever the table holds. -/
theorem dispingFastChecksumAuto_returnsOn (g : DispatchTable) : ∃ (f : ChecksumFn) (t : State),
    dispingFastChecksumAuto cpu g s p n = some t ∧ f.routine.ReturnsOn cpu (s.call2 p n) t := by
  have hreturns : ∀ f : ChecksumFn, ∃ t,
      f.run cpu s p n = some t ∧ f.routine.ReturnsOn cpu (s.call2 p n) t := by
    intro f
    obtain ⟨t, ht, -⟩ := f.run_answered cpu s p n
    refine ⟨t, ht, (f.routine.returnsOn_iff (by cases f <;> simp [ChecksumFn.routine,
      ComputationalRoutine.extensions])).mpr ?_⟩
    cases f <;> exact ⟨_, ht⟩
  cases hg : g.gChecksumPtr with
  | some f =>
    obtain ⟨t, ht, hon⟩ := hreturns f
    exact ⟨f, t, by simpa [dispingFastChecksumAuto, hg] using ht, hon⟩
  | none =>
    obtain ⟨tsc, hinit⟩ := initDispatchTable_run cpu s
    obtain ⟨t, ht, hon⟩ := hreturns (if cpu.avx2 then .asmAvx2Checksum else .asmSse2Checksum)
    exact ⟨_, t, by simpa [dispingFastChecksumAuto, hg, hinit] using ht, hon⟩

/-- So does the clear, where the table is this processor's own. -/
theorem dispingFastMemzeroAuto_returnsOn (havx : cpu.has .avx2 = true → cpu.has .avx = true)
    (hown : g.Own cpu) : ∃ (f : MemzeroFn) (t : State),
      dispingFastMemzeroAuto cpu g s p n = some t ∧ f.routine.ReturnsOn cpu (s.call2 p n) t := by
  let f : MemzeroFn := if cpu.avx2 then .asmAvx2MemzeroNt else .asmSse2MemzeroNt
  have hcalled : dispingFastMemzeroAuto cpu g s p n = f.run cpu s p n := by
    rcases hown with rfl | ⟨u, hu⟩
    · obtain ⟨tsc, hinit⟩ := initDispatchTable_run cpu s
      simp [dispingFastMemzeroAuto, hinit, f]
    · obtain ⟨tsc, hinit⟩ := initDispatchTable_run cpu u
      obtain rfl := Option.some.inj (hinit.symm.trans hu)
      simp [dispingFastMemzeroAuto, f]
  obtain ⟨t, ht, -⟩ := f.run_zeroed cpu s p n
  have hreturns : f.routine.Returns cpu (s.call2 p n) t := by
    cases hf : f with
    | asmAvx2MemzeroNt => exact ⟨_, hf ▸ ht⟩
    | asmSse2MemzeroNt => exact ⟨_, hf ▸ ht⟩
  have hsupported : ∀ e ∈ f.routine.extensions, cpu.has e = true := by
    cases hcpu : cpu.avx2 with
    | false => simp [f, hcpu, MemzeroFn.routine, ComputationalRoutine.extensions]
    | true =>
      have hsupports : cpu.has .avx2 = true := hcpu
      simp [f, hcpu, MemzeroFn.routine, ComputationalRoutine.extensions, hsupports, havx]
  exact ⟨f, t, hcalled.trans ht, (f.routine.returnsOn_iff hsupported).mpr hreturns⟩

end Dispatched

section Undispatched
variable {cpu : Cpu} (s : State)

attribute [local simp] runBlockOn execOn exec Instr.supported Instr.extension State.src State.condition
  State.call2 State.call3 logic

/-- The copy that the relay calls, without AVX: every way to its return leads through vzeroupper. -/
theorem asmAvx2MemcpyNt_invalid (havx : cpu.has .avx = false) {dst src size : Word} (hdst : dst ≠ 0#64)
    (hsrc : src ≠ 0#64) (hsize : size ≠ 0#64) :
    ¬ ∃ t, asmAvx2MemcpyNt.ReturnsOn cpu (s.call3 dst src size) t := by
  have hinside : ∀ n u, asmAvx2MemcpyNt.runOn cpu n .cpLoop128 u = none := by
    intro n u
    refine Routine.runOn_eq_none (T := fun l => l ≠ .entry ∧ l ≠ .cpDone) (fun l u hl => ?_) n u (by decide)
    cases l with
    | entry => exact absurd rfl hl.1
    | cpDone => exact absurd rfl hl.2
    | cpLoop128 =>
      by_cases hlow : u.gpr .r8 < 128#64 <;> simp [asmAvx2MemcpyNt, hlow, havx, Outcome.Stays]
    | cpLoop32 =>
      by_cases hlow : u.gpr .r8 < 32#64 <;> simp [asmAvx2MemcpyNt, hlow, havx, Outcome.Stays]
    | cpTail =>
      by_cases hzero : u.gpr .r8 = 0#64 <;> simp [asmAvx2MemcpyNt, hzero, Outcome.Stays]
    | cpFinish => simp [asmAvx2MemcpyNt, havx, Outcome.Stays]
  rintro ⟨t, n, hn⟩
  cases n with
  | zero => cases hn
  | succ n =>
    have hentry : ∃ u, runBlockOn cpu (s.call3 dst src size) (asmAvx2MemcpyNt.code .entry) = .next u := by
      simp [asmAvx2MemcpyNt, hdst, hsrc, hsize]
    obtain ⟨u, hu⟩ := hentry
    have hrun : asmAvx2MemcpyNt.runOn cpu (n + 1) .entry (s.call3 dst src size) =
        asmAvx2MemcpyNt.runOn cpu n .cpLoop128 u := by
      rw [Routine.runOn, hu]
      rfl
    cases (hinside n u).symm.trans (hrun.symm.trans hn)

/-- The clear that the relay calls, without AVX2: it meets its first vector instruction. -/
theorem asmAvx2MemzeroNt_invalid (havx2 : cpu.has .avx2 = false) {dst size : Word} (hdst : dst ≠ 0#64)
    (hsize : size ≠ 0#64) : ¬ ∃ t, asmAvx2MemzeroNt.ReturnsOn cpu (s.call2 dst size) t := by
  rintro ⟨t, n, hn⟩
  cases n with
  | zero => cases hn
  | succ n =>
    have hentry : runBlockOn cpu (s.call2 dst size) (asmAvx2MemzeroNt.code .entry) = .fault := by
      simp [asmAvx2MemzeroNt, hdst, hsize, havx2]
    have hrun : asmAvx2MemzeroNt.runOn cpu (n + 1) .entry (s.call2 dst size) = none := by
      rw [Routine.runOn, hentry]
    cases hrun.symm.trans hn

end Undispatched

end Disping.Assembly
