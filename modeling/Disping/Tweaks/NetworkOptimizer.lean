import Disping.Tweaks.Settings

/-! # NetworkOptimizer -/
namespace Disping.Tweaks

open Hive Host

def interfacesKey : String := "SYSTEM\\CurrentControlSet\\Services\\Tcpip\\Parameters\\Interfaces"

def profileKey : String :=
  "SOFTWARE\\Microsoft\\Windows NT\\CurrentVersion\\Multimedia\\SystemProfile"

def tcpKey : String := "SYSTEM\\CurrentControlSet\\Services\\Tcpip\\Parameters"

def interfaceKey (guid : String) : String := interfacesKey ++ "\\" ++ guid

def getInterfaceGuids : Win (List String) := enumerateSubKeys interfacesKey

def noDelaySettings : List Setting :=
  [⟨"TcpAckFrequency", .dword 1⟩,
   ⟨"TCPNoDelay", .dword 1⟩,
   ⟨"TcpDelAckTicks", .dword 0⟩]

def optimizeTcpNoDelayAndAckFrequency : Win OperationResult :=
  asAdmin "Administrator privileges required to modify TCP/IP registry settings." do
    let guids ← getInterfaceGuids
    if guids = [] then
      pure { success := false, message := "No network interface GUIDs found in registry." }
    else
      let stored ← forEach (fun guid => applySettings (interfaceKey guid) noDelaySettings) guids
      let successCount := stored.countP fun bs => bs.all id
      pure { success := decide (successCount > 0)
             message := "Optimized TCPNoDelay & TcpAckFrequency across " ++ toString successCount
               ++ " interfaces." }

def throttlingSettings : List Setting :=
  [⟨"NetworkThrottlingIndex", .dword 0xFFFFFFFF⟩,
   ⟨"SystemResponsiveness", .dword 0⟩,
   ⟨"NoLazyMode", .dword 1⟩]

/-- The outcome of the third write is not looked at. -/
def optimizeNetworkThrottlingAndResponsiveness : Win OperationResult :=
  asAdmin "Administrator privileges required." do
    let stored ← applySettings profileKey throttlingSettings
    let success := (stored.take 2).all id
    pure { success := success
           message := if success then
             "Network Throttling disabled and System Responsiveness set to 100% gaming priority."
             else "Failed to configure SystemProfile registry values." }

def tcpParameterSettings : List Setting :=
  [⟨"DefaultTTL", .dword 64⟩,
   ⟨"MaxUserPort", .dword 65534⟩,
   ⟨"TcpTimedWaitDelay", .dword 30⟩,
   ⟨"StrictTimeWaitSeqCheck", .dword 1⟩,
   ⟨"DisableTaskOffload", .dword 0⟩,
   ⟨"EnableWsd", .dword 0⟩]

def optimizeTcpParameters : Win OperationResult :=
  asAdmin "Administrator privileges required." do
    let _ ← applySettings tcpKey tcpParameterSettings
    pure { success := true
           message :=
             "Configured optimal TCP/IP global parameters (TTL, MaxUserPort, TimedWaitDelay)." }

def netshCommands : List String :=
  ["netsh int tcp set global autotuninglevel=normal",
   "netsh int tcp set global ecncapability=disabled",
   "netsh int tcp set global timestamps=disabled",
   "netsh int tcp set global rss=enabled",
   "netsh int tcp set global rsc=disabled",
   "netsh int tcp set heuristics disabled",
   "netsh int ip set global taskoffload=enabled"]

def optimizeTcpGlobalNetsh : Win OperationResult := do
  let log ← forEach (fun cmd => do
    let out ← runCommand cmd
    pure ("[" ++ cmd ++ "] -> " ++ out)) netshCommands
  let bbrOut ← runCommand
    "netsh int tcp set supplemental template=internet congestionprovider=bbr"
  if contains bbrOut "The parameter is incorrect" || contains bbrOut "Error" then
    let cubicOut ← runCommand
      "netsh int tcp set supplemental template=internet congestionprovider=cubic"
    if contains cubicOut "The parameter is incorrect" then
      system "netsh int tcp set supplemental template=internet congestionprovider=ctcp"
  pure { success := true
         message := "Executed Netsh TCP/IP stack optimization rules (RSS, autotuning, RSC disabled, timestamps disabled)."
         details := String.join log }

def applyAllNetworkTweaks : Win OperationResult := do
  let r1 ← optimizeTcpNoDelayAndAckFrequency
  let r2 ← optimizeNetworkThrottlingAndResponsiveness
  let r3 ← optimizeTcpParameters
  let r4 ← optimizeTcpGlobalNetsh
  let success := r1.success && r2.success && r3.success
  pure { success := success
         message := if success then "All Network TCP/IP tweaks successfully applied!"
           else "Some network tweaks failed (ensure running as Administrator)."
         details := r1.message ++ "\n" ++ r2.message ++ "\n" ++ r3.message ++ "\n" ++ r4.message }

end Disping.Tweaks
