import Disping.Tweaks.Settings

/-! # QoSOptimizer -/
namespace Disping.Tweaks

open Hive Host

def getDefaultGamingExecutables : List String :=
  ["cs2.exe", "csgo.exe", "valorant.exe", "VALORANT-Win64-Shipping.exe", "dota2.exe",
   "r5apex.exe", "FortniteClient-Win64-Shipping.exe", "Overwatch.exe", "RustClient.exe",
   "EscapeFromTarkov.exe", "RainbowSix.exe", "Warzone.exe", "ModernWarfare.exe",
   "RocketLeague.exe", "LeagueClientUx.exe", "disping.exe"]

def tosKey : String := "SYSTEM\\CurrentControlSet\\Services\\Tcpip\\Parameters"

def qosKey : String := "SYSTEM\\CurrentControlSet\\Services\\Tcpip\\QoS"

def tosSettings : List Setting := [⟨"DisableUserTOSSetting", .dword 0⟩]

def nlaSettings : List Setting := [⟨"Do not use NLA", .text "1"⟩]

def enableUserTOS : Win OperationResult :=
  asAdmin "Administrator privileges required to enable DSCP/QoS packet marking." do
    let b1 ← applySettings tosKey tosSettings
    let b2 ← applySettings qosKey nlaSettings
    let success := b1.all id && b2.all id
    pure { success := success
           message := if success then "Enabled User TOS/DSCP marking in Windows network stack."
             else "Failed to configure TCP/IP TOS registry settings." }

def qosRoot : String := "SOFTWARE\\Policies\\Microsoft\\Windows\\QoS"

def policyPrefix : String := "DisPing_QoS_"

def policyPath (exe : String) : String := qosRoot ++ "\\" ++ (policyPrefix ++ exe)

def policySettings (exe : String) : List Setting :=
  [⟨"Version", .text "1.0"⟩,
   ⟨"Application Name", .text exe⟩,
   ⟨"Protocol", .text "*"⟩,
   ⟨"Local Port", .text "*"⟩,
   ⟨"Local IP", .text "*"⟩,
   ⟨"Local IP Prefix Length", .text "*"⟩,
   ⟨"Remote Port", .text "*"⟩,
   ⟨"Remote IP", .text "*"⟩,
   ⟨"Remote IP Prefix Length", .text "*"⟩,
   ⟨"DSCP Value", .text "46"⟩,
   ⟨"Throttle Rate", .text "-1"⟩]

/-- The outcomes of a policy's writes are not looked at. -/
def setupGamingQoSPolicies (customGameExecutables : List String) : Win OperationResult := do
  let res ← enableUserTOS
  if res.success then
    let exes :=
      if customGameExecutables = [] then getDefaultGamingExecutables else customGameExecutables
    let stored ← forEach (fun exe => applySettings (policyPath exe) (policySettings exe)) exes
    let count := stored.length
    pure { success := decide (count > 0)
           message := "Configured Policy-Based QoS DSCP 46 (Expedited Forwarding) for "
             ++ toString count ++ " game titles." }
  else pure res

/-- The comparison of the prefix minds the letter case. -/
def isGamingPolicy (sk : String) : Bool := decide (policyPrefix.toList <+: sk.toList)

def removeGamingQoSPolicies : Win OperationResult := do
  let subkeys ← enumerateSubKeys qosRoot
  let policies := subkeys.filter isGamingPolicy
  let removed ← forEach (fun sk => regDeleteKey (qosRoot ++ "\\" ++ sk)) policies
  let count := removed.length
  pure { success := true, message := "Removed " ++ toString count ++ " DisPing QoS policies." }

end Disping.Tweaks
