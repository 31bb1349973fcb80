import Disping.Tweaks.Settings

/-! # SystemLatencyOptimizer: the operations that store registry values -/
namespace Disping.Tweaks

open Hive Host

def taskGamesKey : String :=
  "SOFTWARE\\Microsoft\\Windows NT\\CurrentVersion\\Multimedia\\SystemProfile\\Tasks\\Games"

def gamesSettings : List Setting :=
  [⟨"Affinity", .dword 0⟩,
   ⟨"Background Only", .text "False"⟩,
   ⟨"Clock Rate", .dword 10000⟩,
   ⟨"GPU Priority", .dword 8⟩,
   ⟨"Priority", .dword 6⟩,
   ⟨"Scheduling Category", .text "High"⟩,
   ⟨"SFIO Priority", .text "High"⟩]

def optimizeMMCSSGamesProfile : Win OperationResult :=
  asAdmin "Administrator privileges required to optimize MMCSS." do
    let _ ← applySettings taskGamesKey gamesSettings
    pure { success := true
           message := "Configured MMCSS Games Profile: GPU Priority 8, Priority 6, High Scheduling Category." }

def mmKey : String := "SYSTEM\\CurrentControlSet\\Control\\Session Manager\\Memory Management"

def memorySettings (isHighRam : Bool) : List Setting :=
  if isHighRam then
    [⟨"DisablePagingExecutive", .dword 1⟩,
     ⟨"LargeSystemCache", .dword 0⟩]
  else
    [⟨"DisablePagingExecutive", .dword 0⟩,
     ⟨"LargeSystemCache", .dword 0⟩]

def optimizeMemorySubsystem (isHighRam : Bool) : Win OperationResult :=
  asAdmin "Administrator privileges required." do
    let _ ← applySettings mmKey (memorySettings isHighRam)
    pure { success := true
           message := if isHighRam then
             "Configured High-RAM Gaming Profile: Kernel locked in physical RAM (DisablePagingExecutive=1)."
             else "Configured Budget-RAM Gaming Profile: Balanced paging executive." }

def lfsvcKey : String := "SYSTEM\\CurrentControlSet\\Services\\lfsvc"

def locationSettings : List Setting := [⟨"Start", .dword 4⟩]

/-- The service control manager's part: the service is stopped and disabled when both the manager
and the service open. -/
def stopLocationService : Win Unit := do
  let hSCM ← call
  let hService ← callIf hSCM
  if hService then
    if ← call then
      modify fun w => { w with lfsvc := { w.lfsvc with running := false } }
    if ← call then
      modify fun w => { w with lfsvc := { w.lfsvc with disabled := true } }

def disableLocationServices : Win OperationResult :=
  asAdmin "Administrator privileges required to control Location Services." do
    stopLocationService
    let _ ← applySettings lfsvcKey locationSettings
    pure { success := true
           message := "Windows Geolocation Service (lfsvc) DISABLED (Eliminates periodic 8s BSSID scan ping spikes)." }

end Disping.Tweaks
