import Mathlib.Algebra.Ring.Rat
import Disping.Host.Ensures
import Disping.Shield.VpnGuard
import Disping.Links.MtuDiscovery

/-! # What the link optimizers ask the machine, and its active adapters -/
namespace Disping.Links

open Host Tweaks Shield

/-- The machine's answers to the queries of the link optimizers, by the number of the call. -/
structure Answers where
  /-- What GetAdaptersAddresses reports, none where it fails. -/
  adapters : ℕ → Option (List AdapterAddresses)
  /-- What a scan of the VPN guard sees. -/
  view : ℕ → SystemView
  /-- The calls of one probe of a host with a payload size. -/
  echo : ℕ → String → BitVec 16 → EchoOutcome
  /-- MeasureDnsLatency for a server: milliseconds, 9999 where no answer comes. -/
  latency : ℕ → String → ℚ

/-- A query whose answer the number of its call selects. -/
def query {α : Type} (f : ℕ → α) : Win α := do
  let n ← look World.calls
  let _ ← call
  pure (f n)

/-- A query changes the number of the next call only. -/
theorem query_ensures {α : Type} {env : Environment} {I : World → Prop} (hI : Numberless I)
    (f : ℕ → α) : Ensures env I (query f) fun a => ∃ n, a = f n := by
  refine Ensures.bind (P := fun _ => True) (fun w hw => ⟨trivial, hw⟩) fun n _ => ?_
  refine Keeps.bind (Ensures.call hI) fun _ => ?_
  exact Ensures.pure ⟨n, rfl⟩

/-- A command line given to `system`; the result says whether it returned 0. The commands of the
link optimizers set an address property of one interface or flush the resolver; what netsh stores of it
in the registry is left out here, and a parameter where adapters are protected from it. -/
def systemReturnsZero (cmd : String) : Win Bool := do
  modify fun w => { w with commands := w.commands ++ [cmd] }
  call

structure NetworkAdapterInfo where
  id : String
  name : String
  description : String
  macAddress : String
  ipv4Address : String
  mtu : BitVec 32 := 1500
  speedMbps : BitVec 32 := 1000
  isPhysical : Bool := true
  isConnected : Bool := true

def hexDigit (n : ℕ) : Char := (Nat.digitChar n).toUpper

def hexByte (b : BitVec 8) : String :=
  String.ofList [hexDigit (b.toNat / 16), hexDigit (b.toNat % 16)]

def inetText : SocketAddress → Option String
  | .inet a b c d => some (inetNtop a b c d)
  | .other => none

/-- IF_TYPE_ETHERNET_CSMACD -/
def ethernetType : ℕ := 6

/-- IF_TYPE_SOFTWARE_LOOPBACK -/
def loopbackType : ℕ := 24

/-- IF_TYPE_IEEE80211 -/
def wirelessType : ℕ := 71

/-- IF_TYPE_TUNNEL -/
def tunnelType : ℕ := 131

/-- The entry of an adapter, unless it is down, a loopback or a tunnel. -/
def adapterInfo (curr : AdapterAddresses) : Option NetworkAdapterInfo :=
  if !curr.up then none
  else if curr.ifType = loopbackType ∨ curr.ifType = tunnelType then none
  else
    let isVirtual := isVirtualOrVpnAdapter curr.friendlyName curr.description
    some {
      id := curr.adapterName.getD ""
      name := curr.friendlyName
      description := curr.description
      macAddress := "-".intercalate (curr.physicalAddress.map hexByte)
      ipv4Address := (curr.unicastAddresses.findSome? inetText).getD ""
      mtu := curr.mtu
      speedMbps := (curr.transmitLinkSpeed / 1000000).setWidth 32
      isPhysical :=
        (decide (curr.ifType = ethernetType) || decide (curr.ifType = wirelessType)) && !isVirtual
      isConnected := true }

def getActiveAdapters (ans : Answers) : Win (List NetworkAdapterInfo) := do
  let addresses ← query ans.adapters
  pure ((addresses.getD []).filterMap adapterInfo)

/-- The name or description has one of the guard's keywords, in any letter case. -/
def HasKeyword (text : String) : Prop :=
  ∃ kw ∈ vpnKeywords, kw.toList <:+: (lowercase text).toList

/-- An adapter whose settings may be changed. -/
structure Unprotected (curr : AdapterAddresses) : Prop where
  name : ¬ HasKeyword curr.friendlyName
  description : ¬ HasKeyword curr.description
  ifType : curr.ifType = ethernetType ∨ curr.ifType = wirelessType

theorem isVirtual_of_keyword {adapterName description : String}
    (h : HasKeyword adapterName ∨ HasKeyword description) :
    isVirtualOrVpnAdapter adapterName description = true := by
  have hchars : (lowercase (adapterName ++ " " ++ description)).toList =
      (lowercase adapterName).toList ++ ' ' :: (lowercase description).toList := by
    simp [lowercase]
  unfold isVirtualOrVpnAdapter contains
  rw [hchars, List.any_eq_true]
  rcases h with ⟨kw, hkw, hpart⟩ | ⟨kw, hkw, hpart⟩
  · refine ⟨kw, hkw, decide_eq_true (hpart.trans ?_)⟩
    exact (List.prefix_append _ _).isInfix
  · refine ⟨kw, hkw, decide_eq_true (hpart.trans ?_)⟩
    exact ((List.suffix_cons _ _).trans (List.suffix_append _ _)).isInfix

/-- A physical entry is that of an unprotected adapter, under its name. -/
theorem unprotected_of_physical {curr : AdapterAddresses} {nic : NetworkAdapterInfo}
    (h : adapterInfo curr = some nic) (hphysical : nic.isPhysical = true) :
    Unprotected curr ∧ nic.name = curr.friendlyName := by
  unfold adapterInfo at h
  split at h
  · cases h
  · split at h
    · cases h
    · cases h
      simp only [Bool.and_eq_true, Bool.or_eq_true, decide_eq_true_eq, Bool.not_eq_true'] at hphysical
      obtain ⟨htype, hvirtual⟩ := hphysical
      refine ⟨⟨fun hname => ?_, fun hdesc => ?_, htype⟩, rfl⟩
      · rw [isVirtual_of_keyword (.inl hname)] at hvirtual
        cases hvirtual
      · rw [isVirtual_of_keyword (.inr hdesc)] at hvirtual
        cases hvirtual

/-- The guard lets a physical adapter through. -/
theorem not_isVirtual_of_physical {curr : AdapterAddresses} {nic : NetworkAdapterInfo}
    (h : adapterInfo curr = some nic) (hphysical : nic.isPhysical = true) :
    isVirtualOrVpnAdapter nic.name "" = false := by
  have hplain : isVirtualOrVpnAdapter nic.name curr.description = false := by
    unfold adapterInfo at h
    split at h
    · cases h
    · split at h
      · cases h
      · cases h
        simp only [Bool.and_eq_true, Bool.not_eq_true'] at hphysical
        exact hphysical.2
  have hpart : (lowercase (nic.name ++ " " ++ "")).toList <:+:
      (lowercase (nic.name ++ " " ++ curr.description)).toList := by
    have hfirst : (lowercase (nic.name ++ " " ++ "")).toList <+:
        (lowercase (nic.name ++ " " ++ curr.description)).toList :=
      ⟨(lowercase curr.description).toList, by simp [lowercase]⟩
    exact hfirst.isInfix
  rw [← Bool.not_eq_true] at hplain ⊢
  intro hkeyword
  obtain ⟨kw, hkw, hfound⟩ := List.any_eq_true.mp hkeyword
  refine hplain (List.any_eq_true.mpr ⟨kw, hkw, ?_⟩)
  exact decide_eq_true ((of_decide_eq_true hfound).trans hpart)

theorem getActiveAdapters_run (ans : Answers) (env : Environment) (w : World) :
    getActiveAdapters ans env w = (((ans.adapters w.calls).getD []).filterMap adapterInfo,
      { w with calls := w.calls + 1 }) := rfl

/-- The physical adapters that a query with this number lists. -/
def physicalAdapters (ans : Answers) (n : ℕ) : List NetworkAdapterInfo :=
  (((ans.adapters n).getD []).filterMap adapterInfo).filter NetworkAdapterInfo.isPhysical

theorem not_isVirtual_of_mem {ans : Answers} {n : ℕ} {nic : NetworkAdapterInfo}
    (h : nic ∈ physicalAdapters ans n) : isVirtualOrVpnAdapter nic.name "" = false := by
  obtain ⟨hmem, hphysical⟩ := List.mem_filter.mp h
  obtain ⟨curr, -, hinfo⟩ := List.mem_filterMap.mp hmem
  exact not_isVirtual_of_physical hinfo hphysical

/-! A machine with one Ethernet adapter, whose calls succeed. -/

def ethernet : AdapterAddresses where
  adapterName := none
  friendlyName := "Ethernet"
  description := ""
  up := true
  ifType := ethernetType
  physicalAddress := []
  unicastAddresses := []
  dnsServers := []
  mtu := 1500
  transmitLinkSpeed := 1000000000

def netshWorks : Environment where
  admin := true
  succeeds _ := true
  output _ := ""
  buildStamp := ""
  wlanInterfaces := 0

def machineWithMtu (mtu : BitVec 32) : World where
  registry := .empty
  written := []
  netsh _ := none
  commands := []
  files _ := none
  lfsvc := ⟨true, false⟩
  mtu _ := mtu
  autoconf _ := true
  calls := 0

theorem physicalAdapters_ethernet {ans : Answers} {n : ℕ} (h : ans.adapters n = some [ethernet]) :
    ∃ nic, physicalAdapters ans n = [nic] := by
  have hplain : isVirtualOrVpnAdapter "Ethernet" "" = false := by decide
  simp [physicalAdapters, h, adapterInfo, ethernet, ethernetType, loopbackType, tunnelType, hplain]

end Disping.Links
