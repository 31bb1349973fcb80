import Disping.Tweaks.AdapterOptimizer

/-! # The two scans of the VPN guard

IsVpnOrDpiBypassActive decides whether DNS is left alone, ScanVpnStatus what the status screen
announces. Both look at the running processes and at the DNS servers of every adapter, and only the
second one looks at the adapters themselves.
-/
namespace Disping.Shield

open Tweaks

/-- A name in UTF-16 units. -/
abbrev WideString := List (BitVec 16)

/-- `std::string(ws.begin(), ws.end())`, which keeps the low byte of each unit. -/
def narrow (ws : WideString) : String := String.ofList (ws.map fun u => Char.ofNat (u.toNat % 256))

/-- A socket address; only IPv4 ones are looked into. -/
inductive SocketAddress
  | inet (a b c d : BitVec 8)
  | other
deriving DecidableEq

/-- What GetAdaptersAddresses reports of an adapter. -/
structure AdapterAddresses where
  adapterName : Option String
  friendlyName : String
  description : String
  /-- OperStatus is IfOperStatusUp. -/
  up : Bool
  ifType : ℕ
  physicalAddress : List (BitVec 8)
  unicastAddresses : List SocketAddress
  dnsServers : List SocketAddress
  mtu : BitVec 32
  transmitLinkSpeed : BitVec 64

/-- The answers to the two queries of a scan, none where the query failed. -/
structure SystemView where
  processes : Option (List WideString)
  adapters : Option (List AdapterAddresses)

def protectedProcesses : List String :=
  ["winws.exe", "blockcheck.exe", "goodbyedpi.exe", "ciadpi.exe", "zapret.exe",
   "incy.exe", "incyd.exe",
   "happ.exe", "happd.exe", "hiddify.exe",
   "sing-box.exe", "xray.exe", "v2ray.exe", "clash.exe", "clash-meta.exe", "mihomo.exe",
   "nekoray.exe", "nekobox.exe",
   "wireguard.exe", "openvpn.exe", "openvpnserv.exe", "amneziavpn.exe", "amnezia-vpn.exe",
   "tun2socks.exe", "tailscale.exe", "tailscaled.exe", "zerotier-one_x64.exe"]

def isProcessProtected (processName : String) : Bool :=
  protectedProcesses.any fun p => lowercase processName = p

/-- The text of an IPv4 address. -/
def inetNtop (a b c d : BitVec 8) : String :=
  toString a.toNat ++ "." ++ toString b.toNat ++ "." ++ toString c.toNat ++ "." ++ toString d.toNat

/-- The text of a DNS server in the Fake-IP range or on this machine. -/
def fakeIpDns : SocketAddress → Option String
  | .other => none
  | .inet a b c d =>
    let dnsIp := inetNtop a b c d
    if "198.18.".toList <+: dnsIp.toList ∨ dnsIp = "127.0.0.1" then some dnsIp else none

def hasFakeIpOrVpnDns (view : SystemView) : Bool :=
  match view.adapters with
  | none => false
  | some adapters => adapters.any fun curr => curr.dnsServers.any fun dns => (fakeIpDns dns).isSome

def isVpnOrDpiBypassActive (view : SystemView) : Bool :=
  match view.processes with
  | none => false
  | some processes =>
    if processes.any fun szExeFile => isProcessProtected (narrow szExeFile) then true
    else hasFakeIpOrVpnDns view

structure VpnDetectionReport where
  vpnProcessDetected : Bool := false
  tunAdapterDetected : Bool := false
  fakeIpDnsDetected : Bool := false
  detectedProcesses : List String := []
  detectedAdapters : List String := []
  detectedDnsServers : List String := []

namespace VpnDetectionReport
variable (report : VpnDetectionReport)

def process (szExeFile : WideString) : VpnDetectionReport :=
  let exeName := narrow szExeFile
  if isProcessProtected exeName then
    { report with
      vpnProcessDetected := true
      detectedProcesses := report.detectedProcesses ++ [exeName] }
  else report

def dnsServer (fname : String) (dns : SocketAddress) : VpnDetectionReport :=
  match fakeIpDns dns with
  | none => report
  | some dnsIp =>
    { report with
      fakeIpDnsDetected := true
      detectedDnsServers := report.detectedDnsServers ++ [fname ++ " -> " ++ dnsIp] }

/-- The test of the adapter's state and names. -/
def isActiveTunnel (curr : AdapterAddresses) : Bool :=
  curr.up && isVirtualOrVpnAdapter curr.friendlyName curr.description

def tunnel (curr : AdapterAddresses) : VpnDetectionReport :=
  if isActiveTunnel curr then
    { report with
      tunAdapterDetected := true
      detectedAdapters :=
        report.detectedAdapters ++ [curr.friendlyName ++ " (" ++ curr.description ++ ")"] }
  else report

def adapter (curr : AdapterAddresses) : VpnDetectionReport :=
  curr.dnsServers.foldl (fun r dns => r.dnsServer curr.friendlyName dns) (report.tunnel curr)

/-- PrintVpnShieldStatus announces the shield. -/
def announced : Bool :=
  !(!report.vpnProcessDetected && !report.tunAdapterDetected && !report.fakeIpDnsDetected)

end VpnDetectionReport

def scanVpnStatus (view : SystemView) : VpnDetectionReport :=
  let report := (view.processes.getD []).foldl VpnDetectionReport.process {}
  (view.adapters.getD []).foldl VpnDetectionReport.adapter report

/-! What a scan adds to the flags. -/

/-- The three flags of a report. -/
def VpnDetectionReport.flags (report : VpnDetectionReport) : Bool × Bool × Bool :=
  (report.vpnProcessDetected, report.tunAdapterDetected, report.fakeIpDnsDetected)

open VpnDetectionReport

theorem flags_process (report : VpnDetectionReport) (szExeFile : WideString) :
    (report.process szExeFile).flags =
      (report.vpnProcessDetected || isProcessProtected (narrow szExeFile),
        report.tunAdapterDetected, report.fakeIpDnsDetected) := by
  unfold process
  by_cases h : isProcessProtected (narrow szExeFile) <;> simp [h, flags]

theorem flags_processes (processes : List WideString) (report : VpnDetectionReport) :
    (processes.foldl process report).flags =
      (report.vpnProcessDetected || processes.any fun ws => isProcessProtected (narrow ws),
        report.tunAdapterDetected, report.fakeIpDnsDetected) := by
  induction processes generalizing report with
  | nil => simp [flags]
  | cons szExeFile processes ih =>
    have hfirst := flags_process report szExeFile
    simp only [flags, Prod.mk.injEq] at hfirst
    obtain ⟨hprocess, htun, hdns⟩ := hfirst
    rw [List.foldl_cons, ih, hprocess, htun, hdns, List.any_cons, Bool.or_assoc]

theorem flags_tunnel (report : VpnDetectionReport) (curr : AdapterAddresses) :
    (report.tunnel curr).flags = (report.vpnProcessDetected,
      report.tunAdapterDetected || isActiveTunnel curr, report.fakeIpDnsDetected) := by
  unfold tunnel
  by_cases h : isActiveTunnel curr <;> simp [h, flags]

theorem flags_dnsServers (fname : String) (servers : List SocketAddress)
    (report : VpnDetectionReport) :
    (servers.foldl (fun r dns => r.dnsServer fname dns) report).flags =
      (report.vpnProcessDetected, report.tunAdapterDetected,
        report.fakeIpDnsDetected || servers.any fun dns => (fakeIpDns dns).isSome) := by
  induction servers generalizing report with
  | nil => simp [flags]
  | cons dns servers ih =>
    rw [List.foldl_cons, ih, List.any_cons, ← Bool.or_assoc]
    unfold dnsServer
    cases fakeIpDns dns with
    | none => simp
    | some dnsIp => simp

theorem flags_adapters (adapters : List AdapterAddresses) (report : VpnDetectionReport) :
    (adapters.foldl adapter report).flags = (report.vpnProcessDetected,
      report.tunAdapterDetected || adapters.any isActiveTunnel,
      report.fakeIpDnsDetected ||
        adapters.any fun curr => curr.dnsServers.any fun dns => (fakeIpDns dns).isSome) := by
  induction adapters generalizing report with
  | nil => simp [flags]
  | cons curr adapters ih =>
    have htunnel := flags_tunnel report curr
    have hfirst := flags_dnsServers curr.friendlyName curr.dnsServers (report.tunnel curr)
    simp only [flags, Prod.mk.injEq] at htunnel hfirst
    obtain ⟨hprocess, htun, hdns⟩ := hfirst
    rw [List.foldl_cons, ih, adapter, hprocess, htun, hdns, htunnel.1, htunnel.2.1, htunnel.2.2,
      List.any_cons, List.any_cons, Bool.or_assoc, Bool.or_assoc]

/-- The report is announced on each of the three grounds. -/
theorem announced_scanVpnStatus (processes : List WideString) (adapters : List AdapterAddresses) :
    (scanVpnStatus ⟨some processes, some adapters⟩).announced =
      ((processes.any fun ws => isProcessProtected (narrow ws)) || adapters.any isActiveTunnel ||
        adapters.any fun curr => curr.dnsServers.any fun dns => (fakeIpDns dns).isSome) := by
  have hprocesses := flags_processes processes {}
  have hadapters := flags_adapters adapters (processes.foldl process {})
  simp only [flags, Prod.mk.injEq, Bool.false_or] at hprocesses hadapters
  unfold announced scanVpnStatus
  simp only [Option.getD_some]
  rw [hadapters.1, hadapters.2.1, hadapters.2.2, hprocesses.1, hprocesses.2.1, hprocesses.2.2]
  simp [Bool.or_assoc]

theorem isVpnOrDpiBypassActive_eq (processes : List WideString)
    (adapters : List AdapterAddresses) :
    isVpnOrDpiBypassActive ⟨some processes, some adapters⟩ =
      ((processes.any fun ws => isProcessProtected (narrow ws)) ||
        adapters.any fun curr => curr.dnsServers.any fun dns => (fakeIpDns dns).isSome) := by
  unfold isVpnOrDpiBypassActive hasFakeIpOrVpnDns
  simp only []
  generalize (processes.any fun ws => isProcessProtected (narrow ws)) = p
  cases p <;> simp

/-- When the two scans of one snapshot agree. -/
theorem isVpnOrDpiBypassActive_announced_iff (processes : List WideString)
    (adapters : List AdapterAddresses) :
    (isVpnOrDpiBypassActive ⟨some processes, some adapters⟩ = true ↔
        (scanVpnStatus ⟨some processes, some adapters⟩).announced = true) ↔
      (∀ curr ∈ adapters, curr.up = true →
        isVirtualOrVpnAdapter curr.friendlyName curr.description = false) ∨
      (∃ szExeFile ∈ processes, isProcessProtected (narrow szExeFile) = true) ∨
      ∃ curr ∈ adapters, ∃ dns ∈ curr.dnsServers, (fakeIpDns dns).isSome := by
  have htunnel : (∀ curr ∈ adapters, curr.up = true →
      isVirtualOrVpnAdapter curr.friendlyName curr.description = false) ↔
      adapters.any isActiveTunnel = false := by
    simp [isActiveTunnel]
  have hprocess : (∃ szExeFile ∈ processes, isProcessProtected (narrow szExeFile) = true) ↔
      (processes.any fun ws => isProcessProtected (narrow ws)) = true := by
    simp
  have hdns : (∃ curr ∈ adapters, ∃ dns ∈ curr.dnsServers, (fakeIpDns dns).isSome) ↔
      (adapters.any fun curr => curr.dnsServers.any fun dns => (fakeIpDns dns).isSome) = true := by
    simp
  rw [isVpnOrDpiBypassActive_eq, announced_scanVpnStatus, htunnel, hprocess, hdns]
  generalize (processes.any fun ws => isProcessProtected (narrow ws)) = p
  generalize (adapters.any fun curr => curr.dnsServers.any fun dns => (fakeIpDns dns).isSome) = d
  generalize adapters.any isActiveTunnel = t
  cases p <;> cases d <;> cases t <;> decide

/-- A Wintun adapter that is up, with the tunnel's own process and DNS unknown to the guard. -/
def wintunAdapter : AdapterAddresses where
  adapterName := none
  friendlyName := "Office"
  description := "Wintun Userspace Tunnel"
  up := true
  ifType := 53
  physicalAddress := []
  unicastAddresses := []
  dnsServers := []
  mtu := 1420
  transmitLinkSpeed := 100000000000

/-- Processes that the guard does not know. -/
def officeProcesses : List WideString :=
  ["explorer.exe", "chrome.exe"].map fun name => name.toList.map fun c => BitVec.ofNat 16 c.toNat

/-- A network card with the DNS server of its router. -/
def ethernetAdapter : AdapterAddresses where
  adapterName := none
  friendlyName := "Ethernet"
  description := "Realtek PCIe GbE Family Controller"
  up := true
  ifType := 6
  physicalAddress := [0x00, 0x1A, 0x2B, 0x3C, 0x4D, 0x5E]
  unicastAddresses := []
  dnsServers := [.inet 192 168 1 1]
  mtu := 1500
  transmitLinkSpeed := 1000000000

/-- DNS is taken for free to change while the screen announces the shield. -/
theorem not_isVpnOrDpiBypassActive_announced_wintun :
    ¬ ∀ (processes : List WideString) (adapters : List AdapterAddresses),
      (isVpnOrDpiBypassActive ⟨some processes, some adapters⟩ = true ↔
        (scanVpnStatus ⟨some processes, some adapters⟩).announced = true) := by
  intro h
  have hagree := h officeProcesses [ethernetAdapter, wintunAdapter]
  have hannounced :
      (scanVpnStatus ⟨some officeProcesses, some [ethernetAdapter, wintunAdapter]⟩).announced = true := by decide
  have hsilent : isVpnOrDpiBypassActive ⟨some officeProcesses, some [ethernetAdapter, wintunAdapter]⟩ =
      false := by decide
  rw [hannounced, hsilent] at hagree
  exact absurd (hagree.mpr rfl) Bool.false_ne_true

end Disping.Shield
