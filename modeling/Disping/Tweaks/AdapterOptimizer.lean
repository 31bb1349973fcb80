import Disping.Tweaks.Settings

/-! # AdapterOptimizer and the VPN guard's adapter test -/
namespace Disping.Tweaks

open Hive Host

def lowercase (s : String) : String := String.ofList (s.toList.map Char.toLower)

def vpnKeywords : List String :=
  ["wintun", "tunnel", "tap", "tun", "vpn", "wwan", "wireguard", "sing-box", "hiddify",
   "amnezia", "openvpn", "tailscale", "zerotier", "hyper-v", "virtual", "vmware", "vbox",
   "wan miniport", "loopback", "pseudo"]

def isVirtualOrVpnAdapter (adapterName description : String) : Bool :=
  vpnKeywords.any fun kw => contains (lowercase (adapterName ++ " " ++ description)) kw

def rootClass : String :=
  "SYSTEM\\CurrentControlSet\\Control\\Class\\\x7b4d36e972-e325-11ce-bfc1-08002be10318\x7d"

def classKey (sk : String) : String := rootClass ++ "\\" ++ sk

/-- The key of an adapter class subkey, when its driver description can be read and is not one of
a VPN or virtual adapter. -/
def adapterClassKey (sk : String) : Win (Option String) := do
  let driverDesc ← getString (classKey sk) "DriverDesc"
  pure (driverDesc.bind fun desc =>
    if isVirtualOrVpnAdapter "" desc then none else some (classKey sk))

def getAdapterClassKeys : Win (List String) := do
  let subkeys ← enumerateSubKeys rootClass
  let found ← forEach adapterClassKey subkeys
  pure found.reduceOption

/-- The table in every adapter class key, and the number of keys that took at least one value. -/
def tuneAdapters (settings : List Setting) : Win ℕ := do
  let keys ← getAdapterClassKeys
  let stored ← forEach (fun key => applySettings key settings) keys
  pure (stored.countP fun bs => bs.any id)

def interruptSettings : List Setting :=
  [⟨"*InterruptModeration", .text "0"⟩,
   ⟨"*InterruptModerationRate", .text "0"⟩,
   ⟨"ITR", .text "0"⟩]

def disableInterruptModeration : Win OperationResult :=
  asAdmin "Administrator privileges required to optimize Network Adapters." do
    let count ← tuneAdapters interruptSettings
    pure { success := decide (count > 0)
           message := "Disabled Interrupt Moderation (Instant CPU IRQ) on " ++ toString count
             ++ " adapter profiles." }

def sendOffloadSettings : List Setting :=
  [⟨"*LsoV2IPv4", .text "0"⟩,
   ⟨"*LsoV2IPv6", .text "0"⟩,
   ⟨"*LSOv4IPv4", .text "0"⟩]

/-- The operations below do not ask for administrator rights themselves. -/
def disableLargeSendOffload : Win OperationResult := do
  let count ← tuneAdapters sendOffloadSettings
  pure { success := decide (count > 0)
         message :=
           "Disabled Large Send Offload (LSOv2) to eliminate packet burst serialization latency." }

def energySettings : List Setting :=
  [⟨"*EEE", .text "0"⟩,
   ⟨"*EnergyEfficientEthernet", .text "0"⟩,
   ⟨"GreenEthernet", .text "0"⟩,
   ⟨"ReduceSpeedOnPowerDown", .text "0"⟩,
   ⟨"AutoPowerSaveModeEnabled", .text "0"⟩,
   ⟨"PnPCapabilities", .text "24"⟩]

def disableEnergySaving : Win OperationResult := do
  let count ← tuneAdapters energySettings
  pure { success := decide (count > 0)
         message :=
           "Disabled Green Ethernet / PHY Power Saving to keep hardware links actively awake." }

def bufferSettings : List Setting :=
  [⟨"*ReceiveBuffers", .text "2048"⟩,
   ⟨"*TransmitBuffers", .text "2048"⟩,
   ⟨"RxDescriptors", .text "2048"⟩,
   ⟨"TxDescriptors", .text "2048"⟩]

def maximizeAdapterBuffers : Win OperationResult := do
  let count ← tuneAdapters bufferSettings
  pure { success := decide (count > 0)
         message := "Maximized Network Adapter Ring Buffers (2048 Descriptors)." }

def flowControlSettings : List Setting := [⟨"*FlowControl", .text "0"⟩]

def disableFlowControl : Win OperationResult := do
  let count ← tuneAdapters flowControlSettings
  pure { success := decide (count > 0)
         message := "Disabled Flow Control (prevents ethernet pause frame lag spikes)." }

def wifiKeywords : List String := ["wireless", "wi-fi", "wifi", "802.11", "wlan"]

def isWifiAdapter (key : String) : Win Bool := do
  let desc ← getString key "DriverDesc"
  if (desc.any fun d => wifiKeywords.any fun kw => contains (lowercase d) kw) then pure true
  else
    let ifType ← getDword key "*IfType"
    if ifType = some 71 then pure true
    else
      let mediaType ← getDword key "*MediaType"
      pure (decide (mediaType = some 16))

def wifiSettings : List Setting :=
  [⟨"RegRoamLevel", .text "1"⟩,
   ⟨"RegROAMSensitiveLevel", .text "0"⟩,
   ⟨"RoamAggressiveness", .text "1"⟩,
   ⟨"LpsEn", .text "0"⟩,
   ⟨"IpsEn", .text "0"⟩,
   ⟨"L0sSupport", .text "0"⟩,
   ⟨"L1Support", .text "0"⟩,
   ⟨"L1OffSupport", .text "0"⟩,
   ⟨"ClkReqSupport", .text "0"⟩,
   ⟨"PowerSaveMode", .text "0"⟩,
   ⟨"uAPSDSupport", .text "0"⟩,
   ⟨"MIMO_PS", .text "0"⟩,
   ⟨"TxPacketBoost", .text "1"⟩,
   ⟨"*WdiRscIPv4", .dword 0⟩,
   ⟨"*WdiRscIPv6", .dword 0⟩,
   ⟨"*PacketCoalescing", .text "0"⟩,
   ⟨"ThroughputBoosterEnabled", .text "1"⟩]

def optimizeWifiAdapter (key : String) : Win Bool := do
  let wifi ← isWifiAdapter key
  if wifi then
    let _ ← applySettings key wifiSettings
    pure true
  else pure false

def optimizeWifiAdapters : Win OperationResult :=
  asAdmin "Administrator privileges required to optimize Wi-Fi adapters." do
    let keys ← getAdapterClassKeys
    let tuned ← forEach optimizeWifiAdapter keys
    let count := tuned.countP id
    pure { success := decide (count > 0)
           message := if count > 0 then
             "Wi-Fi Adapter optimized: Roaming sensitivity disabled, PCIe sleep disabled, RSC disabled on "
               ++ toString count ++ " wireless profile(s)."
             else "No active physical Wi-Fi adapters detected (Ethernet system)." }

def wlanSetInterface (enabled : Bool) (i : ℕ) : Win Bool := do
  if ← call then
    modify fun w => { w with autoconf := Function.update w.autoconf i enabled }
    pure true
  else pure false

def setWifiBackgroundScan (enabled : Bool) : Win OperationResult :=
  asAdmin "Administrator privileges required to control Wi-Fi scan." do
    let opened ← call
    let listed ← callIf opened
    let interfaces ← ask Environment.wlanInterfaces
    let set ← forEach (wlanSetInterface enabled) (if listed then List.range interfaces else [])
    let count := set.countP id
    pure { success := decide (count > 0)
           message := if enabled then
             "Wi-Fi Background Scan re-enabled (" ++ toString count ++ " interface(s))."
             else if count > 0 then
             "Wi-Fi Background Scan DISABLED via Native WLAN API (" ++ toString count
               ++ " interface(s)). Zero ping spikes!"
             else "No active Wi-Fi interfaces found for background scan suppression." }

def optimizeAllNetworkAdapters : Win OperationResult := do
  let r1 ← disableInterruptModeration
  let r2 ← disableLargeSendOffload
  let r3 ← disableEnergySaving
  let r4 ← maximizeAdapterBuffers
  let r5 ← disableFlowControl
  let r6 ← optimizeWifiAdapters
  let r7 ← setWifiBackgroundScan false
  let success :=
    r1.success || r2.success || r3.success || r4.success || r5.success || r6.success
  pure { success := success
         message := if success then "Network Adapter Hardware properties tuned for minimum latency!"
           else "Failed to modify adapter properties (run as Administrator)."
         details := r1.message ++ "\n" ++ r2.message ++ "\n" ++ r3.message ++ "\n" ++ r4.message
           ++ "\n" ++ r5.message ++ (if r6.success then "\n" ++ r6.message else "")
           ++ (if r7.success then "\n" ++ r7.message else "") }

end Disping.Tweaks
