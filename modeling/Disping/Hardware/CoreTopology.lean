import Disping.Hardware.GamingAffinity
import Disping.Tweaks.AdapterOptimizer

/-! # The scan of the processor cores

DetectHardware takes every core above efficiency class 0 for a P-core, whatever other classes the
processor has.
-/
namespace Disping.Hardware

open Arithmetic Tweaks

structure ProcessorCore where
  efficiencyClass : BitVec 8
  groupMask : BitVec 64

/-- A record of GetLogicalProcessorInformationEx. -/
inductive ProcessorInformation
  | processorCore (core : ProcessorCore)
  | other

def ProcessorInformation.core? : ProcessorInformation → Option ProcessorCore
  | .processorCore core => some core
  | .other => none

/-- What the processor and the system answer. -/
structure MachineView where
  vendorStr : String
  /-- The brand string, where the processor has one. -/
  brandStr : Option String
  hybridFlag : Bool
  dwNumberOfProcessors : ℕ
  /-- The records, none where the query fails. -/
  records : Option (List ProcessorInformation)

def MachineView.cores (m : MachineView) : List ProcessorCore :=
  (m.records.getD []).filterMap ProcessorInformation.core?

def cpuVendorOf (vendorStr : String) : CpuVendor :=
  if vendorStr = "GenuineIntel" then .intel
  else if vendorStr = "AuthenticAMD" then .amd
  else .other

/-- Leading blanks go when anything else is there. -/
def trimLeading (s : String) : String :=
  if s.toList.all (· = ' ') then s else String.ofList (s.toList.dropWhile (· = ' '))

def isX3D (cpuBrand : String) : Bool :=
  contains (lowercase cpuBrand) "x3d" || contains (lowercase cpuBrand) "3d v-cache"

/-- The locals of the loop over the records. -/
structure CoreScan where
  pCores : ℕ := 0
  eCores : ℕ := 0
  pCoresAffinity : BitVec 64 := 0#64

def CoreScan.record (scan : CoreScan) : ProcessorInformation → CoreScan
  | .other => scan
  | .processorCore core =>
    if core.efficiencyClass > 0 then
      { scan with pCores := scan.pCores + 1, pCoresAffinity := scan.pCoresAffinity ||| core.groupMask }
    else { scan with eCores := scan.eCores + 1 }

def scanCores (records : List ProcessorInformation) : CoreScan := records.foldl CoreScan.record {}

def HardwareProfile.withCores (prof : HardwareProfile) (hybridFlag : Bool) (scan : CoreScan) :
    HardwareProfile :=
  let prof := { prof with physicalCores := scan.pCores + scan.eCores }
  if (scan.pCores > 0 ∧ scan.eCores > 0) ∨ (hybridFlag ∧ scan.pCores > 0) then
    { prof with
      isHybrid := true
      pCoreCount := scan.pCores
      eCoreCount := scan.eCores
      optimalGameAffinityMask := scan.pCoresAffinity }
  else { prof with isHybrid := false, pCoreCount := prof.physicalCores, eCoreCount := 0 }

/-- Vendor, brand, cache and processor count. -/
def identifyCpu (m : MachineView) : HardwareProfile :=
  let prof : HardwareProfile := {
    cpuVendorStr := m.vendorStr
    cpuVendor := cpuVendorOf m.vendorStr
    cpuBrand := (m.brandStr.map trimLeading).getD "Unknown CPU" }
  let prof := if prof.cpuVendor = .amd ∧ isX3D prof.cpuBrand then { prof with isAmdX3D := true } else prof
  { prof with logicalCores := m.dwNumberOfProcessors }

/-- The profile before its mask is calculated. -/
def detectTopology (m : MachineView) : HardwareProfile :=
  let prof :=
    match m.records with
    | none => identifyCpu m
    | some records => (identifyCpu m).withCores m.hybridFlag (scanCores records)
  if prof.physicalCores = 0 then
    let physicalCores := if prof.logicalCores > 2 then prof.logicalCores / 2 else prof.logicalCores
    { prof with physicalCores := physicalCores, pCoreCount := physicalCores }
  else prof

/-- The instruction sets and the memory are left out. -/
def detectHardware (m : MachineView) : HardwareProfile :=
  let prof := detectTopology m
  { prof with optimalGameAffinityMask := calculateOptimalGamingAffinity prof }

/-! What the loop finds. -/

def ProcessorCore.isP (core : ProcessorCore) : Bool := decide (core.efficiencyClass > 0)

theorem ProcessorCore.isP_iff {core : ProcessorCore} : core.isP = true ↔ core.efficiencyClass ≠ 0#8 := by
  have hne : core.efficiencyClass ≠ 0#8 ↔ core.efficiencyClass.toNat ≠ 0 :=
    not_congr BitVec.toNat_inj.symm
  rw [isP, decide_eq_true_iff, gt_iff_lt, BitVec.lt_def, hne]
  exact Nat.pos_iff_ne_zero

theorem foldl_record (records : List ProcessorInformation) (scan : CoreScan) :
    (records.foldl CoreScan.record scan).pCores =
        scan.pCores + (records.filterMap ProcessorInformation.core?).countP ProcessorCore.isP ∧
      (records.foldl CoreScan.record scan).eCores =
        scan.eCores + (records.filterMap ProcessorInformation.core?).countP (!·.isP) ∧
      bitSet (records.foldl CoreScan.record scan).pCoresAffinity = bitSet scan.pCoresAffinity ∪
        {i | ∃ core ∈ records.filterMap ProcessorInformation.core?,
          core.isP = true ∧ i ∈ bitSet core.groupMask} := by
  induction records generalizing scan with
  | nil => simp
  | cons r records ih =>
    obtain ⟨hp, he, hmask⟩ := ih (scan.record r)
    rw [List.foldl_cons, hp, he, hmask]
    cases r with
    | other => exact ⟨rfl, rfl, rfl⟩
    | processorCore core =>
      rw [List.filterMap_cons_some (by rfl), List.countP_cons, List.countP_cons]
      by_cases hclass : core.isP = true
      · have hrecord : scan.record (.processorCore core) = { scan with
            pCores := scan.pCores + 1, pCoresAffinity := scan.pCoresAffinity ||| core.groupMask } :=
          if_pos (decide_eq_true_iff.mp hclass)
        rw [hrecord]
        refine ⟨by simp [hclass, Nat.add_assoc, Nat.add_comm 1], by simp [hclass], ?_⟩
        ext i
        simp only [bitSet_or, Set.mem_union, Set.mem_ofPred_eq, List.mem_cons, exists_eq_or_imp, hclass,
          true_and, or_assoc]
      · have hrecord : scan.record (.processorCore core) = { scan with eCores := scan.eCores + 1 } :=
          if_neg fun hpos => hclass (decide_eq_true_iff.mpr hpos)
        rw [hrecord]
        refine ⟨by simp [hclass], by simp [hclass, Nat.add_assoc, Nat.add_comm 1], ?_⟩
        ext i
        simp [hclass]

section Mixed
variable {m : MachineView} (hmixed : ∃ a ∈ m.cores, ∃ b ∈ m.cores, a.efficiencyClass ≠ b.efficiencyClass)
include hmixed

theorem exists_isP : ∃ core ∈ m.cores, core.isP = true := by
  obtain ⟨a, ha, b, hb, hne⟩ := hmixed
  by_cases hclass : a.isP = true
  · exact ⟨a, ha, hclass⟩
  · rw [ProcessorCore.isP_iff, not_not] at hclass
    exact ⟨b, hb, ProcessorCore.isP_iff.mpr fun hzero => hne (hclass.trans hzero.symm)⟩

/-- The profile of a processor with several classes is the one of the scan. -/
theorem detectTopology_mixed : ∃ scan : CoreScan,
    detectTopology m = (identifyCpu m).withCores m.hybridFlag scan ∧
      scan.pCores = m.cores.countP ProcessorCore.isP ∧ scan.eCores = m.cores.countP (!·.isP) ∧
      bitSet scan.pCoresAffinity = {i | ∃ core ∈ m.cores, core.isP = true ∧ i ∈ bitSet core.groupMask} := by
  obtain ⟨core, hcore, hclass⟩ := exists_isP hmixed
  unfold MachineView.cores at hcore ⊢
  cases hrecords : m.records with
  | none => simp [hrecords] at hcore
  | some records =>
    rw [hrecords, Option.getD_some] at hcore
    obtain ⟨hp, he, hmask⟩ := foldl_record records {}
    simp only [Nat.zero_add, bitSet_zero, Set.empty_union] at hp he hmask
    refine ⟨scanCores records, ?_, hp, he, hmask⟩
    have hpos : 0 < (scanCores records).pCores := by
      rw [scanCores, hp]
      exact List.countP_pos_iff.mpr ⟨core, hcore, hclass⟩
    have hsome : ((identifyCpu m).withCores m.hybridFlag (scanCores records)).physicalCores ≠ 0 := by
      unfold HardwareProfile.withCores
      split <;> exact Nat.ne_of_gt (Nat.add_pos_left hpos _)
    simp only [detectTopology, hrecords, if_neg hsome]

/-- A second class is noticed when the slowest class is 0 or the processor says that it is hybrid. -/
theorem isHybrid_mixed_iff : (detectHardware m).isHybrid = true ↔
    (∃ core ∈ m.cores, core.efficiencyClass = 0#8) ∨ m.hybridFlag = true := by
  obtain ⟨scan, hprof, hp, he, -⟩ := detectTopology_mixed hmixed
  have hpos : scan.pCores > 0 := by
    rw [hp]
    exact List.countP_pos_iff.mpr (exists_isP hmixed)
  have heCores : scan.eCores > 0 ↔ ∃ core ∈ m.cores, core.efficiencyClass = 0#8 := by
    rw [he, gt_iff_lt, List.countP_pos_iff]
    refine exists_congr fun core => and_congr_right fun _ => ?_
    rw [Bool.not_eq_true', ← Bool.not_eq_true, ProcessorCore.isP_iff, not_not]
  have hhybrid : (detectHardware m).isHybrid = (detectTopology m).isHybrid := rfl
  rw [hhybrid, hprof, HardwareProfile.withCores, ← heCores]
  simp only [hpos, true_and, and_true]
  split
  · rename_i h
    exact iff_of_true rfl h
  · rename_i h
    exact iff_of_false Bool.false_ne_true h

/-- The processors of the cores above class 0, without the first two where others are left. -/
theorem bitSet_detectHardware (hhybrid : (detectHardware m).isHybrid = true) :
    bitSet (detectHardware m).optimalGameAffinityMask =
      {i | (∃ core ∈ m.cores, core.efficiencyClass ≠ 0#8 ∧ i ∈ bitSet core.groupMask) ∧
        ¬ (i ≤ 1 ∧ m.dwNumberOfProcessors ≥ 8 ∧
          ∃ core ∈ m.cores, core.efficiencyClass ≠ 0#8 ∧ ∃ j ∈ bitSet core.groupMask, 1 < j)} := by
  obtain ⟨scan, hprof, hp, -, hmask⟩ := detectTopology_mixed hmixed
  have hpos : scan.pCores > 0 := by
    rw [hp]
    exact List.countP_pos_iff.mpr (exists_isP hmixed)
  simp only [ProcessorCore.isP_iff] at hmask
  have hcond : (scan.pCores > 0 ∧ scan.eCores > 0) ∨ (m.hybridFlag ∧ scan.pCores > 0) := by
    by_contra hnone
    have hsame : (detectHardware m).isHybrid = (detectTopology m).isHybrid := rfl
    rw [hsame, hprof, HardwareProfile.withCores, if_neg hnone] at hhybrid
    exact Bool.false_ne_true hhybrid
  have hstored : bitSet (detectTopology m).optimalGameAffinityMask = bitSet scan.pCoresAffinity := by
    rw [hprof, HardwareProfile.withCores, if_pos hcond]
  have hcores : (detectTopology m).logicalCores = m.dwNumberOfProcessors := by
    rw [hprof, HardwareProfile.withCores, if_pos hcond]
    rfl
  have hhybrid' : (detectTopology m).isHybrid = true ∧ (detectTopology m).pCoreCount > 0 := by
    rw [hprof, HardwareProfile.withCores, if_pos hcond]
    exact ⟨rfl, hpos⟩
  have hclearable : Clearable (detectTopology m) ↔ m.dwNumberOfProcessors ≥ 8 ∧
      ∃ core ∈ m.cores, core.efficiencyClass ≠ 0#8 ∧ ∃ j ∈ bitSet core.groupMask, 1 < j := by
    unfold Clearable
    rw [hcores, hstored, hmask]
    refine and_congr_right fun _ => ⟨?_, ?_⟩
    · rintro ⟨j, ⟨core, hcore, hclass, hj⟩, hlow⟩
      exact ⟨core, hcore, hclass, j, hj, hlow⟩
    · rintro ⟨core, hcore, hclass, j, hj, hlow⟩
      exact ⟨j, ⟨core, hcore, hclass, hj⟩, hlow⟩
  have hfinal : (detectHardware m).optimalGameAffinityMask =
      calculateOptimalGamingAffinity (detectTopology m) := rfl
  rw [hfinal]
  by_cases hclear : Clearable (detectTopology m)
  · rw [bitSet_hybrid_clearable hhybrid' hclear, hstored, hmask]
    ext i
    exact and_congr_right fun _ => not_congr
      ⟨fun hlow => ⟨Nat.le_of_lt_succ hlow, hclearable.mp hclear⟩, fun hlow => Nat.lt_succ_of_le hlow.1⟩
  · rw [bitSet_hybrid_kept hhybrid' hclear, hstored, hmask]
    ext i
    exact (and_iff_left fun hlow => hclear (hclearable.mpr hlow.2)).symm

end Mixed

/-- The processors of the cores of the highest class. -/
def MachineView.fastest (m : MachineView) : Set ℕ :=
  {i | ∃ core ∈ m.cores, (∀ other ∈ m.cores, other.efficiencyClass ≤ core.efficiencyClass) ∧
    i ∈ bitSet core.groupMask}

/-- The machine is taken for hybrid, and games run on its fastest cores only. -/
def PinsToFastest (m : MachineView) : Prop :=
  (detectHardware m).isHybrid = true ∧ bitSet (detectHardware m).optimalGameAffinityMask ⊆ m.fastest

/-- Every core above class 0 is one of the fastest, up to the processors that are left out anyway. -/
theorem pinsToFastest_iff {m : MachineView}
    (hmixed : ∃ a ∈ m.cores, ∃ b ∈ m.cores, a.efficiencyClass ≠ b.efficiencyClass) :
    PinsToFastest m ↔ ((∃ core ∈ m.cores, core.efficiencyClass = 0#8) ∨ m.hybridFlag = true) ∧
      ∀ core ∈ m.cores, core.efficiencyClass ≠ 0#8 → ∀ i ∈ bitSet core.groupMask, i ∈ m.fastest ∨
        (i ≤ 1 ∧ m.dwNumberOfProcessors ≥ 8 ∧
          ∃ core ∈ m.cores, core.efficiencyClass ≠ 0#8 ∧ ∃ j ∈ bitSet core.groupMask, 1 < j) := by
  unfold PinsToFastest
  rw [isHybrid_mixed_iff hmixed]
  refine and_congr_right fun hhybrid => ?_
  rw [bitSet_detectHardware hmixed ((isHybrid_mixed_iff hmixed).mpr hhybrid)]
  constructor
  · intro hinside core hcore hclass i hi
    by_contra hnone
    rw [not_or] at hnone
    exact hnone.1 (hinside ⟨⟨core, hcore, hclass, hi⟩, hnone.2⟩)
  · rintro hcores i ⟨⟨core, hcore, hclass, hi⟩, hkept⟩
    exact (hcores core hcore hclass i hi).resolve_right hkept

/-- Two P-cores of two threads and four E-cores. -/
def twoClasses : MachineView where
  vendorStr := "GenuineIntel"
  brandStr := some "12th Gen Intel(R) Core(TM) i3-1215U"
  hybridFlag := true
  dwNumberOfProcessors := 8
  records := some ([(1, 0x3), (1, 0xC), (0, 0x10), (0, 0x20), (0, 0x40), (0, 0x80)].map
    fun core => .processorCore ⟨core.1, core.2⟩)

theorem twoClasses_pinsToFastest : PinsToFastest twoClasses := by
  have hmixed : ∃ a ∈ twoClasses.cores, ∃ b ∈ twoClasses.cores, a.efficiencyClass ≠ b.efficiencyClass := by
    decide
  have htop : ∀ core ∈ twoClasses.cores, core.efficiencyClass ≠ 0#8 →
      ∀ other ∈ twoClasses.cores, other.efficiencyClass ≤ core.efficiencyClass := by decide
  refine (pinsToFastest_iff hmixed).mpr ⟨.inr rfl, fun core hcore hclass i hi => .inl ?_⟩
  exact ⟨core, hcore, htop core hcore hclass, hi⟩

/-- Two P-cores of two threads, eight E-cores and two slower ones. -/
def threeClasses : MachineView where
  vendorStr := "GenuineIntel"
  brandStr := some "Intel(R) Core(TM) Ultra 5 134U"
  hybridFlag := true
  dwNumberOfProcessors := 14
  records := some ([(2, 0x3), (2, 0xC), (1, 0x10), (1, 0x20), (1, 0x40), (1, 0x80), (1, 0x100), (1, 0x200),
    (1, 0x400), (1, 0x800), (0, 0x1000), (0, 0x2000)].map fun core => .processorCore ⟨core.1, core.2⟩)

/-- The E-cores of the middle class are taken for P-cores. -/
theorem not_pinsToFastest_threeClasses : ¬ ∀ m : MachineView,
    (∃ a ∈ m.cores, ∃ b ∈ m.cores, a.efficiencyClass ≠ b.efficiencyClass) → PinsToFastest m := by
  intro h
  have hmixed : ∃ a ∈ threeClasses.cores, ∃ b ∈ threeClasses.cores, a.efficiencyClass ≠ b.efficiencyClass := by
    decide
  have hcores := ((pinsToFastest_iff hmixed).mp (h threeClasses hmixed)).2
  have hmiddle : (⟨1, 0x10⟩ : ProcessorCore) ∈ threeClasses.cores := by
    simp [threeClasses, MachineView.cores, ProcessorInformation.core?]
  have hslow : ¬ ∃ core ∈ threeClasses.cores,
      (∀ other ∈ threeClasses.cores, other.efficiencyClass ≤ core.efficiencyClass) ∧
        4 ∈ bitSet core.groupMask := by
    decide
  rcases hcores _ hmiddle (by decide) 4 (by decide) with hfast | hleft
  · exact hslow hfast
  · exact absurd hleft.1 (by decide)

end Disping.Hardware
