import Disping.Hardware.CoreTopology

/-! # The profile of a machine

Whatever records the system answers, DetectHardware counts every core once and calculates a mask that
SetProcessAffinityMask takes.
-/
namespace Disping.Hardware

open Arithmetic

/-- The processors of the cores above efficiency class 0. -/
def MachineView.pProcessors (m : MachineView) : Set ℕ :=
  {i | ∃ core ∈ m.cores, core.isP = true ∧ i ∈ bitSet core.groupMask}

/-- What the system promises of its answers where no processor group is larger than the program's own:
the number of processors is that of the own group, and the masks do not say which group they are of. -/
structure MachineView.Sound (m : MachineView) : Prop where
  counted : 1 ≤ m.dwNumberOfProcessors
  nonempty : ∀ core ∈ m.cores, core.groupMask ≠ 0#64
  inside : ∀ core ∈ m.cores, bitSet core.groupMask ⊆ Set.Iio (min m.dwNumberOfProcessors 64)

/-- What a profile promises to the booster and to the report. -/
structure HardwareProfile.WellFormed (m : MachineView) (profile : HardwareProfile) : Prop where
  total : profile.pCoreCount + profile.eCoreCount = profile.physicalCores
  /-- Every core that is reported, once. -/
  cores : m.cores ≠ [] → profile.physicalCores = m.cores.length
  pCores : 1 ≤ profile.pCoreCount
  classes : profile.isHybrid = true → profile.pCoreCount = m.cores.countP ProcessorCore.isP
  mask : profile.optimalGameAffinityMask ≠ 0#64
  inside : bitSet profile.optimalGameAffinityMask ⊆ Set.Iio (min m.dwNumberOfProcessors 64)
  hybrid : profile.isHybrid = true → bitSet profile.optimalGameAffinityMask ⊆ m.pProcessors

/-- What the profile is before its mask is calculated. -/
structure Counted (m : MachineView) (profile : HardwareProfile) : Prop where
  logical : profile.logicalCores = m.dwNumberOfProcessors
  cores : m.cores ≠ [] → profile.physicalCores = m.cores.length
  classes : profile.isHybrid = true → profile.pCoreCount = m.cores.countP ProcessorCore.isP
  total : profile.pCoreCount + profile.eCoreCount = profile.physicalCores
  hybrid : profile.isHybrid = true →
    1 ≤ profile.pCoreCount ∧ (∃ core ∈ m.cores, core.isP = true) ∧
      bitSet profile.optimalGameAffinityMask = m.pProcessors
  uniform : profile.isHybrid = false → profile.pCoreCount = profile.physicalCores

variable {m : MachineView}

@[simp] theorem identifyCpu_logicalCores : (identifyCpu m).logicalCores = m.dwNumberOfProcessors := rfl

theorem identifyCpu_counted (hrecords : m.records = none) : Counted m (identifyCpu m) := by
  have hcores : m.cores = [] := by rw [MachineView.cores, hrecords, Option.getD_none, List.filterMap_nil]
  unfold identifyCpu
  dsimp only
  split <;> exact ⟨rfl, fun h => absurd hcores h, fun h => Bool.noConfusion h, rfl,
    fun h => Bool.noConfusion h, fun _ => rfl⟩

theorem scanCores_counted {records : List ProcessorInformation} (hrecords : m.records = some records) :
    Counted m ((identifyCpu m).withCores m.hybridFlag (scanCores records)) := by
  have hcores : records.filterMap ProcessorInformation.core? = m.cores := by
    rw [MachineView.cores, hrecords, Option.getD_some]
  obtain ⟨hp, he, hmask⟩ := foldl_record records {}
  simp only [Nat.zero_add, bitSet_zero, Set.empty_union, hcores] at hp he hmask
  have hall : (scanCores records).pCores + (scanCores records).eCores = m.cores.length := by
    rw [scanCores, hp, he, List.length_eq_countP_add_countP ProcessorCore.isP]
    simp
  have hsome : 0 < (scanCores records).pCores → ∃ core ∈ m.cores, core.isP = true := by
    intro hpos
    rw [scanCores, hp] at hpos
    exact List.countP_pos_iff.mp hpos
  unfold HardwareProfile.withCores
  dsimp only
  split
  · rename_i hhybrid
    have hpos : 0 < (scanCores records).pCores := hhybrid.elim And.left And.right
    exact ⟨rfl, fun _ => hall, fun _ => hp, rfl, fun _ => ⟨hpos, hsome hpos, hmask⟩,
      fun h => Bool.noConfusion h⟩
  · exact ⟨rfl, fun _ => hall, fun h => Bool.noConfusion h, rfl, fun h => Bool.noConfusion h,
      fun _ => rfl⟩

/-- The count that the program falls back on. -/
theorem detectTopology_counted (hcount : 1 ≤ m.dwNumberOfProcessors) :
    Counted m (detectTopology m) ∧ 1 ≤ (detectTopology m).physicalCores := by
  have hscan : ∃ profile, Counted m profile ∧ detectTopology m = if profile.physicalCores = 0 then
      let physicalCores := if profile.logicalCores > 2 then profile.logicalCores / 2 else profile.logicalCores
      { profile with physicalCores := physicalCores, pCoreCount := physicalCores }
      else profile := by
    cases hrecords : m.records with
    | none => exact ⟨identifyCpu m, identifyCpu_counted hrecords, by simp only [detectTopology, hrecords]⟩
    | some records =>
      exact ⟨(identifyCpu m).withCores m.hybridFlag (scanCores records), scanCores_counted hrecords,
        by simp only [detectTopology, hrecords]⟩
  obtain ⟨profile, hprofile, heq⟩ := hscan
  rw [heq]
  split
  · rename_i hzero
    have htotal := hprofile.total
    have hnone : profile.eCoreCount = 0 := by omega
    have hflat : profile.isHybrid = false := by
      by_contra hhybrid
      have hpos := (hprofile.hybrid (Bool.not_eq_false _ ▸ hhybrid)).1
      omega
    have huniform : ¬ profile.isHybrid = true := by simp [hflat]
    refine ⟨⟨hprofile.logical, fun hne => ?_, fun h => absurd h huniform, by simp [hnone],
      fun h => absurd h huniform, fun _ => rfl⟩, ?_⟩
    · -- nothing is reported where nothing is counted
      have hlength := hprofile.cores hne
      have hpos := List.length_pos_of_ne_nil hne
      omega
    · have hlogical := hprofile.logical
      dsimp only
      split <;> omega
  · exact ⟨hprofile, by omega⟩

theorem pProcessors_nonempty (hsound : m.Sound) (hcore : ∃ core ∈ m.cores, core.isP = true) :
    m.pProcessors.Nonempty := by
  obtain ⟨core, hmem, hclass⟩ := hcore
  obtain ⟨i, hi⟩ := bitSet_nonempty.mpr (hsound.nonempty core hmem)
  exact ⟨i, core, hmem, hclass, hi⟩

theorem pProcessors_inside (hsound : m.Sound) : m.pProcessors ⊆ Set.Iio (min m.dwNumberOfProcessors 64) := by
  rintro i ⟨core, hmem, -, hi⟩
  exact hsound.inside core hmem hi

/-- Every profile that the program works with is well formed. -/
theorem detectHardware_wellFormed (hsound : m.Sound) : (detectHardware m).WellFormed m := by
  obtain ⟨hcounted, hcores⟩ := detectTopology_counted hsound.counted
  have hlogical := hcounted.logical
  have hpCores : 1 ≤ (detectTopology m).pCoreCount := by
    cases hhybrid : (detectTopology m).isHybrid with
    | true => exact (hcounted.hybrid hhybrid).1
    | false => rwa [hcounted.uniform hhybrid]
  have hmask : (bitSet (calculateOptimalGamingAffinity (detectTopology m))).Nonempty ∧
      bitSet (calculateOptimalGamingAffinity (detectTopology m)) ⊆ Set.Iio (min m.dwNumberOfProcessors 64) ∧
      ((detectTopology m).isHybrid = true →
        bitSet (calculateOptimalGamingAffinity (detectTopology m)) ⊆ m.pProcessors) := by
    cases hhybrid : (detectTopology m).isHybrid with
    | true =>
      obtain ⟨hpos, hcore, hstored⟩ := hcounted.hybrid hhybrid
      have hsub := bitSet_hybrid_subset ⟨hhybrid, hpos⟩
      have hne := bitSet_hybrid_nonempty ⟨hhybrid, hpos⟩
        (bitSet_nonempty.mp (hstored ▸ pProcessors_nonempty hsound hcore))
      rw [hstored] at hsub
      exact ⟨hne, hsub.trans (pProcessors_inside hsound), fun _ => hsub⟩
    | false =>
      have hflat : ¬ ((detectTopology m).isHybrid = true ∧ (detectTopology m).pCoreCount > 0) := by
        simp [hhybrid]
      obtain ⟨hne, hinside⟩ := bitSet_others_processors (hlogical ▸ hsound.counted) hflat
      rw [HardwareProfile.processors, hlogical] at hinside
      exact ⟨hne, hinside, nofun⟩
  exact ⟨hcounted.total, hcounted.cores, hpCores, hcounted.classes, bitSet_nonempty.mp hmask.1,
    hmask.2.1, hmask.2.2⟩

/-- A processor whose cores are all above class 0, without the hybrid flag. -/
def uniformClass : MachineView where
  vendorStr := "GenuineIntel"
  brandStr := none
  hybridFlag := false
  dwNumberOfProcessors := 4
  records := some ([(1, 0x3), (1, 0xC)].map fun core => .processorCore ⟨core.1, core.2⟩)

theorem uniformClass_wellFormed : (detectHardware uniformClass).WellFormed uniformClass := by
  refine detectHardware_wellFormed ⟨by decide, by decide, ?_⟩
  intro core hcore i hi
  have hlow : ∀ core ∈ uniformClass.cores, core.groupMask &&& lowBits 64 4 = core.groupMask := by decide
  have hmem : i ∈ bitSet (core.groupMask &&& lowBits 64 4) := by rwa [hlow core hcore]
  rw [mem_bitSet, BitVec.getLsbD_and, Bool.and_eq_true] at hmem
  have hfour : i ∈ bitSet (lowBits 64 4) := hmem.2
  rwa [bitSet_lowBits] at hfour

end Disping.Hardware
