import Disping.Links.ActiveAdapters

/-! # DnsOptimizer: the fastest provider on the active physical interfaces -/
namespace Disping.Links

open Host Tweaks Shield

structure DnsEntry where
  name : String
  primary : String
  secondary : String

structure DnsBenchmarkResult where
  name : String
  primaryIp : String
  secondaryIp : String
  avgLatencyMs : ℚ := 0
  reachable : Bool := false

def dnsProviders : List DnsEntry :=
  [⟨"Cloudflare Gaming", "1.1.1.1", "1.0.0.1"⟩,
   ⟨"Google Public DNS", "8.8.8.8", "8.8.4.4"⟩,
   ⟨"Quad9 Low-Latency", "9.9.9.9", "149.112.112.112"⟩,
   ⟨"OpenDNS Fast", "208.67.222.222", "208.67.220.220"⟩,
   ⟨"AdGuard Gaming", "94.140.14.14", "94.140.15.15"⟩]

def benchmarkProvider (ans : Answers) (iterations : ℕ) (prov : DnsEntry) :
    Win DnsBenchmarkResult := do
  let samples ← forEach (fun _ => query fun n => ans.latency n prov.primary) (List.range iterations)
  let valid := samples.filter fun lat => decide (lat < 9000)
  pure { name := prov.name
         primaryIp := prov.primary
         secondaryIp := prov.secondary
         avgLatencyMs := if valid.length > 0 then valid.sum / valid.length else 999
         reachable := decide (valid.length > 0) }

/-- std::sort is taken as stable: of so short a list it makes an insertion sort, which keeps equal elements in
order. -/
def benchmarkDnsProviders (ans : Answers) (iterations : ℕ) : Win (List DnsBenchmarkResult) := do
  let results ← forEach (benchmarkProvider ans iterations) dnsProviders
  pure (results.mergeSort fun a b => decide (a.avgLatencyMs ≤ b.avgLatencyMs))

def setPrimaryDns (interfaceName primary : String) : String :=
  "cmd.exe /c \"netsh interface ipv4 set dnsservers name=\\\"" ++ interfaceName ++ "\\\" static "
    ++ primary ++ " primary\" > nul 2>&1"

def addSecondaryDns (interfaceName secondary : String) : String :=
  "cmd.exe /c \"netsh interface ipv4 add dnsservers name=\\\"" ++ interfaceName ++ "\\\" "
    ++ secondary ++ " index=2\" > nul 2>&1"

def flushDns : String := "cmd.exe /c \"ipconfig /flushdns\" > nul 2>&1"

def flushDnsCache : Win OperationResult := do
  let success ← systemReturnsZero flushDns
  pure { success := success
         message := if success then "Flushed Windows DNS resolver cache."
           else "Failed to flush DNS cache." }

def setDnsServers (interfaceName primary secondary : String) : Win OperationResult :=
  if isVirtualOrVpnAdapter interfaceName "" then
    pure { success := false
           message := "[VPN SHIELD] Skipped DNS change on virtual/TUN adapter: " ++ interfaceName }
  else do
    let ret1 ← systemReturnsZero (setPrimaryDns interfaceName primary)
    -- the outcome of the second command and of the flush is dropped
    let _ ← systemReturnsZero (addSecondaryDns interfaceName secondary)
    let _ ← flushDnsCache
    if ret1 then
      pure { success := true
             message := "Configured DNS: Primary=" ++ primary ++ ", Secondary=" ++ secondary
               ++ " on [" ++ interfaceName ++ "]." }
    else
      pure { success := false
             message := "Failed to set DNS servers (ensure running as Administrator)." }

/-- A latency with two decimals. -/
def twoDecimals (x : ℚ) : String :=
  let cents := (x * 100 + 1 / 2).floor.toNat
  toString (cents / 100) ++ "." ++ toString (cents / 10 % 10) ++ toString (cents % 10)

/-- The second query is made only when the first one finds nothing. -/
def isShielded (ans : Answers) : Win Bool := do
  let active ← query fun n => isVpnOrDpiBypassActive (ans.view n)
  if active then pure true else query fun n => hasFakeIpOrVpnDns (ans.view n)

/-- What follows a benchmark with a reachable first entry. -/
def configureBest (ans : Answers) (best : DnsBenchmarkResult) : Win OperationResult := do
  let adapters ← getActiveAdapters ans
  if adapters.isEmpty then
    pure { success := false
           message := "No active network adapters found to configure DNS." }
  else
    let set ← forEach (fun nic => setDnsServers nic.name best.primaryIp best.secondaryIp)
      (adapters.filter NetworkAdapterInfo.isPhysical)
    pure { success := decide (set.countP OperationResult.success > 0)
           message := "Fastest DNS selected: " ++ best.name ++ " (" ++ best.primaryIp
             ++ ") with avg latency " ++ twoDecimals best.avgLatencyMs ++ " ms!" }

/-- The selection with any number of iterations. -/
def selectFastest (ans : Answers) (iterations : ℕ) : Win OperationResult := do
  if ← isShielded ans then
    pure { success := true
           message := "[VPN SHIELD ACTIVE] Detected active VPN / DPI bypass / Fake-IP DNS (Incy/Happ/Zapret/198.18.x.x). DNS modification SKIPPED to guarantee 100% VPN stability!" }
  else
    let results ← benchmarkDnsProviders ans iterations
    match results with
    | [] => pure { success := false, message := "No reachable DNS providers found." }
    | best :: _ =>
      if !best.reachable then
        pure { success := false, message := "No reachable DNS providers found." }
      else
        configureBest ans best

/-- The program makes three iterations. -/
def autoSelectFastestDns (ans : Answers) : Win OperationResult := selectFastest ans 3

end Disping.Links
