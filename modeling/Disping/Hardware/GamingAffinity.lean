import Disping.Arithmetic.BitSets
import Mathlib.Order.Interval.Set.Basic

/-! # The affinity mask of games

The four scenarios of CalculateOptimalGamingAffinity, and where their masks lie. SetProcessAffinityMask
takes the positions of a mask for the logical processors of the machine.
-/
namespace Disping.Hardware

open Arithmetic

inductive CpuVendor
  | intel
  | amd
  | other
deriving DecidableEq

structure HardwareProfile where
  cpuVendor : CpuVendor := .other
  cpuVendorStr : String := "Unknown"
  cpuBrand : String := "Unknown CPU"
  logicalCores : ℕ := 1
  physicalCores : ℕ := 1
  pCoreCount : ℕ := 1
  eCoreCount : ℕ := 0
  isHybrid : Bool := false
  isAmdX3D : Bool := false
  optimalGameAffinityMask : BitVec 64 := 0

def calculateOptimalGamingAffinity (profile : HardwareProfile) : BitVec 64 :=
  if profile.isHybrid ∧ profile.pCoreCount > 0 then
    let mask := profile.optimalGameAffinityMask
    let mask := if profile.logicalCores ≥ 8 then mask &&& ~~~3#64 else mask
    if mask ≠ 0#64 then mask else profile.optimalGameAffinityMask
  else if profile.isAmdX3D ∧ profile.logicalCores ≥ 24 then 0xFFFF#64 &&& ~~~3#64
  else if profile.logicalCores ≥ 6 then lowBits 64 profile.logicalCores &&& ~~~3#64
  else if profile.logicalCores = 4 then 0x0E#64
  else lowBits 64 profile.logicalCores

/-! One lemma for each scenario. -/

theorem bitSet_three : bitSet 3#64 = Set.Iio 2 := @bitSet_lowBits 64 2

section Scenarios
variable {profile : HardwareProfile}

/-- The first two processors can be left out. -/
def Clearable (profile : HardwareProfile) : Prop :=
  profile.logicalCores ≥ 8 ∧ ∃ i ∈ bitSet profile.optimalGameAffinityMask, 1 < i

theorem bitSet_cleared : bitSet (profile.optimalGameAffinityMask &&& ~~~3#64) =
    bitSet profile.optimalGameAffinityMask \ Set.Iio 2 := by
  rw [bitSet_andNot, bitSet_three]

theorem cleared_ne_zero : profile.optimalGameAffinityMask &&& ~~~3#64 ≠ 0#64 ↔
    ∃ i ∈ bitSet profile.optimalGameAffinityMask, 1 < i := by
  rw [← bitSet_nonempty, bitSet_cleared]
  constructor
  · rintro ⟨i, hi, hlow⟩
    exact ⟨i, hi, Nat.not_lt.mp hlow⟩
  · rintro ⟨i, hi, hlow⟩
    exact ⟨i, hi, Nat.not_lt.mpr hlow⟩

section Hybrid
variable (h : profile.isHybrid = true ∧ profile.pCoreCount > 0)
include h

theorem bitSet_hybrid_clearable (hclear : Clearable profile) :
    bitSet (calculateOptimalGamingAffinity profile) = bitSet profile.optimalGameAffinityMask \ Set.Iio 2 := by
  have hmask := cleared_ne_zero.mpr hclear.2
  simp only [calculateOptimalGamingAffinity, if_pos h, if_pos hclear.1, if_pos hmask, bitSet_cleared]

theorem bitSet_hybrid_kept (hkept : ¬ Clearable profile) :
    bitSet (calculateOptimalGamingAffinity profile) = bitSet profile.optimalGameAffinityMask := by
  simp only [calculateOptimalGamingAffinity, if_pos h]
  by_cases hcores : profile.logicalCores ≥ 8
  · have hmask : ¬ profile.optimalGameAffinityMask &&& ~~~3#64 ≠ 0#64 :=
      fun hne => hkept ⟨hcores, cleared_ne_zero.mp hne⟩
    rw [if_pos hcores, if_neg hmask]
  · rw [if_neg hcores, ite_self]

end Hybrid

section Others
variable (h : ¬ (profile.isHybrid = true ∧ profile.pCoreCount > 0))
include h

theorem bitSet_vCache (hx3d : profile.isAmdX3D = true ∧ profile.logicalCores ≥ 24) :
    bitSet (calculateOptimalGamingAffinity profile) = Set.Iio 16 \ Set.Iio 2 := by
  have hdie : bitSet 0xFFFF#64 = Set.Iio 16 := @bitSet_lowBits 64 16
  rw [calculateOptimalGamingAffinity, if_neg h, if_pos hx3d, bitSet_andNot, hdie, bitSet_three]

variable (hx3d : ¬ (profile.isAmdX3D = true ∧ profile.logicalCores ≥ 24))
include hx3d

theorem bitSet_standard (hcores : profile.logicalCores ≥ 6) :
    bitSet (calculateOptimalGamingAffinity profile) = Set.Iio (min profile.logicalCores 64) \ Set.Iio 2 := by
  rw [calculateOptimalGamingAffinity, if_neg h, if_neg hx3d, if_pos hcores, bitSet_andNot, bitSet_lowBits,
    bitSet_three]

theorem bitSet_quad (hcores : profile.logicalCores = 4) :
    bitSet (calculateOptimalGamingAffinity profile) = Set.Iio 4 \ Set.Iio 1 := by
  have hsix : ¬ profile.logicalCores ≥ 6 := by omega
  have hmask : 0x0E#64 = lowBits 64 4 &&& ~~~lowBits 64 1 := by decide
  rw [calculateOptimalGamingAffinity, if_neg h, if_neg hx3d, if_neg hsix, if_pos hcores, hmask, bitSet_andNot,
    bitSet_lowBits, bitSet_lowBits]
  rfl

theorem bitSet_fallback (hcores : profile.logicalCores < 6) (hquad : profile.logicalCores ≠ 4) :
    bitSet (calculateOptimalGamingAffinity profile) = Set.Iio (min profile.logicalCores 64) := by
  have hsix : ¬ profile.logicalCores ≥ 6 := by omega
  rw [calculateOptimalGamingAffinity, if_neg h, if_neg hx3d, if_neg hsix, if_neg hquad, bitSet_lowBits]

end Others

end Scenarios

/-! Masks that SetProcessAffinityMask takes. -/

/-- The positions up to the processor count of the machine. -/
def HardwareProfile.processors (profile : HardwareProfile) : Set ℕ := Set.Iio (min profile.logicalCores 64)

/-- A hybrid profile with P-cores stores a mask of processors of the machine. -/
def StoresProcessors (profile : HardwareProfile) : Prop :=
  profile.isHybrid = true → profile.pCoreCount > 0 →
    profile.optimalGameAffinityMask ≠ 0#64 ∧ bitSet profile.optimalGameAffinityMask ⊆ profile.processors

/-- The scenarios without P-cores stay on the machine. -/
theorem bitSet_others_processors {profile : HardwareProfile} (hcores : profile.logicalCores ≥ 1)
    (h : ¬ (profile.isHybrid = true ∧ profile.pCoreCount > 0)) :
    (bitSet (calculateOptimalGamingAffinity profile)).Nonempty ∧
      bitSet (calculateOptimalGamingAffinity profile) ⊆ profile.processors := by
  unfold HardwareProfile.processors
  by_cases hx3d : profile.isAmdX3D = true ∧ profile.logicalCores ≥ 24
  · rw [bitSet_vCache h hx3d]
    refine ⟨⟨2, by decide, by decide⟩, fun i hi => ?_⟩
    have hlow : i < 16 := hi.1
    exact Set.mem_Iio.mpr (by omega)
  · by_cases hsix : profile.logicalCores ≥ 6
    · rw [bitSet_standard h hx3d hsix]
      exact ⟨⟨2, Set.mem_Iio.mpr (by omega), by decide⟩, Set.sdiff_subset⟩
    · by_cases hquad : profile.logicalCores = 4
      · rw [bitSet_quad h hx3d hquad, hquad]
        exact ⟨⟨1, by decide, by decide⟩, Set.sdiff_subset⟩
      · rw [bitSet_fallback h hx3d (by omega) hquad]
        exact ⟨⟨0, Set.mem_Iio.mpr (by omega)⟩, subset_rfl⟩

theorem bitSet_hybrid_subset {profile : HardwareProfile}
    (h : profile.isHybrid = true ∧ profile.pCoreCount > 0) :
    bitSet (calculateOptimalGamingAffinity profile) ⊆ bitSet profile.optimalGameAffinityMask := by
  by_cases hclear : Clearable profile
  · rw [bitSet_hybrid_clearable h hclear]
    exact Set.sdiff_subset
  · rw [bitSet_hybrid_kept h hclear]

theorem bitSet_hybrid_nonempty {profile : HardwareProfile}
    (h : profile.isHybrid = true ∧ profile.pCoreCount > 0) (hne : profile.optimalGameAffinityMask ≠ 0#64) :
    (bitSet (calculateOptimalGamingAffinity profile)).Nonempty := by
  by_cases hclear : Clearable profile
  · rw [bitSet_hybrid_clearable h hclear]
    obtain ⟨-, i, hi, hlow⟩ := hclear
    exact ⟨i, hi, Nat.not_lt.mpr hlow⟩
  · rw [bitSet_hybrid_kept h hclear]
    exact bitSet_nonempty.mpr hne

theorem calculateOptimalGamingAffinity_processors {profile : HardwareProfile} (hcores : profile.logicalCores ≥ 1)
    (hstored : StoresProcessors profile) :
    calculateOptimalGamingAffinity profile ≠ 0#64 ∧
      bitSet (calculateOptimalGamingAffinity profile) ⊆ profile.processors ∧
      (profile.isHybrid = true → profile.pCoreCount > 0 →
        bitSet (calculateOptimalGamingAffinity profile) ⊆ bitSet profile.optimalGameAffinityMask) := by
  rw [← bitSet_nonempty]
  by_cases h : profile.isHybrid = true ∧ profile.pCoreCount > 0
  · obtain ⟨hne, hinside⟩ := hstored h.1 h.2
    have hsub := bitSet_hybrid_subset h
    exact ⟨bitSet_hybrid_nonempty h hne, hsub.trans hinside, fun _ _ => hsub⟩
  · obtain ⟨hsome, hinside⟩ := bitSet_others_processors hcores h
    exact ⟨hsome, hinside, fun hhybrid hcount => absurd ⟨hhybrid, hcount⟩ h⟩

/-- Eight P-cores of two threads and eight E-cores. -/
def raptorLake : HardwareProfile where
  cpuVendor := .intel
  logicalCores := 24
  physicalCores := 16
  pCoreCount := 8
  eCoreCount := 8
  isHybrid := true
  optimalGameAffinityMask := 0xFFFF

theorem raptorLake_processors : calculateOptimalGamingAffinity raptorLake ≠ 0#64 ∧
    bitSet (calculateOptimalGamingAffinity raptorLake) ⊆ raptorLake.processors ∧
    (raptorLake.isHybrid = true → raptorLake.pCoreCount > 0 →
      bitSet (calculateOptimalGamingAffinity raptorLake) ⊆ bitSet raptorLake.optimalGameAffinityMask) := by
  refine calculateOptimalGamingAffinity_processors (by decide) fun _ _ => ⟨by decide, ?_⟩
  have hmask : raptorLake.optimalGameAffinityMask = lowBits 64 16 := by decide
  rw [hmask, bitSet_lowBits]
  exact Set.Iio_subset_Iio (by decide)

/-! The first processor and the die with the larger cache. -/

/-- Games stay off the first processor of a machine with more than two. A hybrid machine has to have a
P-core processor that can be used instead. -/
def FreesFirst (profile : HardwareProfile) : Prop :=
  profile.logicalCores > 2 →
    (profile.isHybrid = true → bitSet profile.optimalGameAffinityMask ⊆ profile.processors ∧
      ∃ i ∈ bitSet profile.optimalGameAffinityMask, 1 < i) →
    0 ∉ bitSet (calculateOptimalGamingAffinity profile)

/-- Games stay on the lower half of a processor with two equal dies. -/
def StaysOnVCache (profile : HardwareProfile) : Prop :=
  profile.isHybrid = false → profile.isAmdX3D = true → profile.logicalCores ≥ 24 → Even profile.logicalCores →
    bitSet (calculateOptimalGamingAffinity profile) ⊆ Set.Iio (profile.logicalCores / 2)

/-- Where the scenarios clear the first processor. -/
def ClearsFirst (profile : HardwareProfile) : Prop :=
  if profile.isHybrid = true ∧ profile.pCoreCount > 0 then
    profile.logicalCores ≥ 8 ∨ 0 ∉ bitSet profile.optimalGameAffinityMask
  else profile.logicalCores ≠ 3 ∧ profile.logicalCores ≠ 5

section Promises
variable {profile : HardwareProfile}

theorem zero_mem_hybrid_iff (h : profile.isHybrid = true ∧ profile.pCoreCount > 0)
    (hother : ∃ i ∈ bitSet profile.optimalGameAffinityMask, 1 < i) :
    0 ∈ bitSet (calculateOptimalGamingAffinity profile) ↔
      profile.logicalCores < 8 ∧ 0 ∈ bitSet profile.optimalGameAffinityMask := by
  by_cases hcores : profile.logicalCores ≥ 8
  · rw [bitSet_hybrid_clearable h ⟨hcores, hother⟩]
    exact ⟨fun hz => absurd (Set.mem_Iio.mpr (by decide)) hz.2, fun hz => absurd hcores (Nat.not_le.mpr hz.1)⟩
  · rw [bitSet_hybrid_kept h fun hclear => hcores hclear.1]
    exact ⟨fun hz => ⟨Nat.not_le.mp hcores, hz⟩, And.right⟩

theorem zero_mem_others_iff (h : ¬ (profile.isHybrid = true ∧ profile.pCoreCount > 0))
    (hcores : profile.logicalCores > 2) :
    0 ∈ bitSet (calculateOptimalGamingAffinity profile) ↔
      profile.logicalCores = 3 ∨ profile.logicalCores = 5 := by
  have hlow : ∀ {A : Set ℕ} {n : ℕ}, 0 < n → 0 ∉ A \ Set.Iio n := fun hn hz => hz.2 hn
  by_cases hx3d : profile.isAmdX3D = true ∧ profile.logicalCores ≥ 24
  · rw [bitSet_vCache h hx3d]
    exact ⟨fun hz => absurd hz (hlow (by decide)), fun hn => by omega⟩
  · by_cases hsix : profile.logicalCores ≥ 6
    · rw [bitSet_standard h hx3d hsix]
      exact ⟨fun hz => absurd hz (hlow (by decide)), fun hn => by omega⟩
    · by_cases hquad : profile.logicalCores = 4
      · rw [bitSet_quad h hx3d hquad]
        exact ⟨fun hz => absurd hz (hlow (by decide)), fun hn => by omega⟩
      · rw [bitSet_fallback h hx3d (by omega) hquad]
        exact ⟨fun _ => by omega, fun _ => Set.mem_Iio.mpr (by omega)⟩

theorem freesFirst_iff : FreesFirst profile ↔ (profile.logicalCores > 2 →
    (profile.isHybrid = true → bitSet profile.optimalGameAffinityMask ⊆ profile.processors ∧
      ∃ i ∈ bitSet profile.optimalGameAffinityMask, 1 < i) → ClearsFirst profile) := by
  refine forall_congr' fun hcores => forall_congr' fun hstored => ?_
  unfold ClearsFirst
  by_cases h : profile.isHybrid = true ∧ profile.pCoreCount > 0
  · rw [if_pos h, zero_mem_hybrid_iff h (hstored h.1).2, not_and_or, Nat.not_lt]
  · rw [if_neg h, zero_mem_others_iff h hcores, not_or]

theorem staysOnVCache_iff : StaysOnVCache profile ↔ (profile.isHybrid = false → profile.isAmdX3D = true →
    profile.logicalCores ≥ 24 → Even profile.logicalCores → profile.logicalCores ≥ 32) := by
  refine forall_congr' fun hhybrid => forall_congr' fun hx3d => forall_congr' fun hcores =>
    forall_congr' fun heven => ?_
  have h : ¬ (profile.isHybrid = true ∧ profile.pCoreCount > 0) := by simp [hhybrid]
  rw [bitSet_vCache h ⟨hx3d, hcores⟩]
  constructor
  · intro hinside
    have hlast : 15 < profile.logicalCores / 2 := hinside ⟨by decide, by decide⟩
    omega
  · intro hlarge i hi
    have hlow : i < 16 := hi.1
    exact Set.mem_Iio.mpr (by omega)

end Promises

/-- Both promises and when the scenarios keep them. -/
theorem freesFirst_staysOnVCache_iff (profile : HardwareProfile) :
    FreesFirst profile ∧ StaysOnVCache profile ↔
      (profile.logicalCores > 2 →
        (profile.isHybrid = true → bitSet profile.optimalGameAffinityMask ⊆ profile.processors ∧
          ∃ i ∈ bitSet profile.optimalGameAffinityMask, 1 < i) → ClearsFirst profile) ∧
      (profile.isHybrid = false → profile.isAmdX3D = true → profile.logicalCores ≥ 24 →
        Even profile.logicalCores → profile.logicalCores ≥ 32) :=
  and_congr freesFirst_iff staysOnVCache_iff

/-- Twelve cores on two dies. -/
def ryzen7900X3D : HardwareProfile where
  cpuVendor := .amd
  cpuVendorStr := "AuthenticAMD"
  cpuBrand := "AMD Ryzen 9 7900X3D 12-Core Processor"
  logicalCores := 24
  physicalCores := 12
  pCoreCount := 12
  isAmdX3D := true

/-- Three cores of one thread. -/
def phenomX3 : HardwareProfile where
  cpuVendor := .amd
  cpuVendorStr := "AuthenticAMD"
  cpuBrand := "AMD Phenom(tm) II X3 720 Processor"
  logicalCores := 3
  physicalCores := 3
  pCoreCount := 3

/-- A game gets the first of three processors, and four of its sixteen are on the other die. -/
theorem not_freesFirst_staysOnVCache :
    (¬ ∀ profile, FreesFirst profile) ∧ ¬ ∀ profile, StaysOnVCache profile := by
  constructor
  · intro h
    exact h phenomX3 (by decide) nofun (by decide)
  · intro h
    have hcores := staysOnVCache_iff.mp (h ryzen7900X3D) rfl rfl (by decide) (by decide)
    exact absurd hcores (by decide)

end Disping.Hardware
