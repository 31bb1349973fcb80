import Disping.Shield.VpnGuard

/-! # What a scan reports

The report lists its evidence, and the screen warns when a DPI bypass and a VPN are found together. An
address is looked at as text, which is as good as its four numbers.
-/
namespace Disping.Shield

open Tweaks

/-! Addresses and their texts. -/

/-- A mark ends the first part of a list. -/
theorem append_mark_inj {α : Type*} {mark : α} {s t x y : List α} (hs : mark ∉ s) (ht : mark ∉ t) :
    s ++ mark :: x = t ++ mark :: y ↔ s = t ∧ x = y := by
  induction s generalizing t with
  | nil =>
    cases t with
    | nil => simp
    | cons u t =>
      have hne : mark ≠ u := fun h => ht (h ▸ List.mem_cons_self)
      simp [hne]
  | cons r s ih =>
    cases t with
    | nil =>
      have hne : r ≠ mark := fun h => hs (h ▸ List.mem_cons_self)
      simp [hne]
    | cons u t =>
      rw [List.mem_cons, not_or] at hs ht
      rw [List.cons_append, List.cons_append, List.cons.injEq, List.cons.injEq, ih hs.2 ht.2, and_assoc]

section Texts
variable {a b c d a' b' c' d' : BitVec 8}

/-- The text of one number of an address. -/
def octet (n : BitVec 8) : List Char := Nat.toDigits 10 n.toNat

theorem octet_inj : octet a = octet b ↔ a = b := by
  constructor
  · intro h
    have hnumbers : Nat.ofDigitChars 10 (octet a) 0 = Nat.ofDigitChars 10 (octet b) 0 := by rw [h]
    rw [octet, octet, Nat.ofDigitChars_toDigits (by decide) (by decide),
      Nat.ofDigitChars_toDigits (by decide) (by decide)] at hnumbers
    exact BitVec.eq_of_toNat_eq hnumbers
  · exact congrArg octet

theorem dot_notMem_octet : '.' ∉ octet a := by
  intro h
  exact absurd (Nat.isDigit_of_mem_toDigits (by decide) (by decide) h) (by decide)

theorem toList_inetNtop : (inetNtop a b c d).toList =
    octet a ++ '.' :: (octet b ++ '.' :: (octet c ++ '.' :: octet d)) := by
  simp only [inetNtop, String.toList_append, Nat.toString_eq_repr, Nat.toList_repr, List.append_assoc]
  rfl

/-- A dot ends a number. -/
theorem octet_dot_inj {x y : List Char} : octet a ++ '.' :: x = octet b ++ '.' :: y ↔ a = b ∧ x = y := by
  rw [append_mark_inj dot_notMem_octet dot_notMem_octet, octet_inj]

theorem inetNtop_inj : inetNtop a b c d = inetNtop a' b' c' d' ↔ a = a' ∧ b = b' ∧ c = c' ∧ d = d' := by
  rw [← String.toList_inj, toList_inetNtop, toList_inetNtop, octet_dot_inj, octet_dot_inj, octet_dot_inj,
    octet_inj]

theorem prefix_inetNtop_iff : "198.18.".toList <+: (inetNtop a b c d).toList ↔ a = 198 ∧ b = 18 := by
  have htext : "198.18.".toList = octet 198 ++ '.' :: (octet 18 ++ ['.']) := by decide
  rw [htext, toList_inetNtop]
  constructor
  · rintro ⟨rest, h⟩
    simp only [List.append_assoc, List.cons_append, List.nil_append, octet_dot_inj] at h
    exact ⟨h.1.symm, h.2.1.symm⟩
  · rintro ⟨rfl, rfl⟩
    exact ⟨octet c ++ '.' :: octet d, by simp⟩

end Texts

/-- An address of the Fake-IP range, or of this machine. -/
def SocketAddress.IsFakeIp : SocketAddress → Prop
  | .inet a b c d => (a = 198 ∧ b = 18) ∨ (a = 127 ∧ b = 0 ∧ c = 0 ∧ d = 1)
  | .other => False

theorem fakeIpDns_isSome {dns : SocketAddress} : (fakeIpDns dns).isSome = true ↔ dns.IsFakeIp := by
  cases dns with
  | other => simp [fakeIpDns, SocketAddress.IsFakeIp]
  | inet a b c d =>
    have hlocal : inetNtop a b c d = "127.0.0.1" ↔ a = 127 ∧ b = 0 ∧ c = 0 ∧ d = 1 := by
      have htext : "127.0.0.1" = inetNtop 127 0 0 1 := by decide
      rw [htext, inetNtop_inj]
    unfold fakeIpDns SocketAddress.IsFakeIp
    dsimp only
    rw [← hlocal, ← prefix_inetNtop_iff (c := c) (d := d)]
    split
    · rename_i h
      exact iff_of_true rfl h
    · rename_i h
      exact iff_of_false Bool.false_ne_true h

/-- The shield looks at the numbers of the DNS servers. -/
theorem isVpnOrDpiBypassActive_iff (view : SystemView) : isVpnOrDpiBypassActive view = true ↔
    ∃ processes, view.processes = some processes ∧
      ((∃ szExeFile ∈ processes, isProcessProtected (narrow szExeFile) = true) ∨
        ∃ adapters, view.adapters = some adapters ∧
          ∃ curr ∈ adapters, ∃ dns ∈ curr.dnsServers, dns.IsFakeIp) := by
  obtain ⟨processes, adapters⟩ := view
  unfold isVpnOrDpiBypassActive hasFakeIpOrVpnDns
  cases processes with
  | none => simp
  | some processes =>
    by_cases hprocess : (processes.any fun ws => isProcessProtected (narrow ws)) = true
    · have hfound := List.any_eq_true.mp hprocess
      simp only [hprocess, if_true, Option.some.injEq, exists_eq_left']
      exact iff_of_true trivial (Or.inl hfound)
    · have hnone : ¬ ∃ ws ∈ processes, isProcessProtected (narrow ws) = true :=
        fun h => hprocess (List.any_eq_true.mpr h)
      cases adapters with
      | none => simp [hprocess, hnone]
      | some adapters =>
        simp only [hprocess, Option.some.injEq, exists_eq_left', hnone, false_or, List.any_eq_true,
          fakeIpDns_isSome, if_false, Bool.false_eq_true]

/-! The evidence of a report. -/

/-- The report of a scan, in the order of the processes and adapters. -/
structure Evidence (processes : List WideString) (adapters : List AdapterAddresses)
    (report : VpnDetectionReport) : Prop where
  processes : report.detectedProcesses = (processes.map narrow).filter isProcessProtected
  tunnels : report.detectedAdapters = (adapters.filter VpnDetectionReport.isActiveTunnel).map fun curr =>
    curr.friendlyName ++ " (" ++ curr.description ++ ")"
  servers : report.detectedDnsServers = adapters.flatMap fun curr =>
    (curr.dnsServers.filterMap fakeIpDns).map fun dnsIp => curr.friendlyName ++ " -> " ++ dnsIp
  processFlag : report.vpnProcessDetected = !report.detectedProcesses.isEmpty
  tunnelFlag : report.tunAdapterDetected = !report.detectedAdapters.isEmpty
  serverFlag : report.fakeIpDnsDetected = !report.detectedDnsServers.isEmpty

section Evidence
variable {processes : List WideString} {adapters : List AdapterAddresses} {report : VpnDetectionReport}

theorem Evidence.process (h : Evidence processes adapters report) (ws : WideString) :
    Evidence (processes ++ [ws]) adapters (report.process ws) := by
  unfold VpnDetectionReport.process
  dsimp only
  by_cases hws : isProcessProtected (narrow ws) = true
  · rw [if_pos hws]
    exact ⟨by simp [h.processes, hws], h.tunnels, h.servers, by simp, h.tunnelFlag, h.serverFlag⟩
  · rw [if_neg hws]
    exact ⟨by simp [h.processes, hws], h.tunnels, h.servers, h.processFlag, h.tunnelFlag, h.serverFlag⟩

theorem dnsServers_fold (fname : String) (servers : List SocketAddress) (report : VpnDetectionReport)
    (hflag : report.fakeIpDnsDetected = !report.detectedDnsServers.isEmpty) :
    servers.foldl (fun r dns => r.dnsServer fname dns) report =
      { report with
        fakeIpDnsDetected := !(report.detectedDnsServers ++
          (servers.filterMap fakeIpDns).map fun dnsIp => fname ++ " -> " ++ dnsIp).isEmpty
        detectedDnsServers := report.detectedDnsServers ++
          (servers.filterMap fakeIpDns).map fun dnsIp => fname ++ " -> " ++ dnsIp } := by
  induction servers generalizing report with
  | nil => simp [← hflag]
  | cons dns servers ih =>
    rw [List.foldl_cons]
    cases hdns : fakeIpDns dns with
    | none =>
      have hsame : report.dnsServer fname dns = report := by simp only [VpnDetectionReport.dnsServer, hdns]
      rw [hsame, ih report hflag, List.filterMap_cons_none hdns]
    | some dnsIp =>
      have hadded : report.dnsServer fname dns =
          { report with
            fakeIpDnsDetected := true
            detectedDnsServers := report.detectedDnsServers ++ [fname ++ " -> " ++ dnsIp] } := by
        simp only [VpnDetectionReport.dnsServer, hdns]
      rw [hadded, ih _ (by simp), List.filterMap_cons_some hdns]
      simp

theorem Evidence.adapter (h : Evidence processes adapters report) (curr : AdapterAddresses) :
    Evidence processes (adapters ++ [curr]) (report.adapter curr) := by
  have htunnel : (report.tunnel curr).fakeIpDnsDetected = !(report.tunnel curr).detectedDnsServers.isEmpty := by
    unfold VpnDetectionReport.tunnel
    split <;> exact h.serverFlag
  unfold VpnDetectionReport.adapter
  rw [dnsServers_fold _ _ _ htunnel]
  unfold VpnDetectionReport.tunnel
  by_cases hcurr : VpnDetectionReport.isActiveTunnel curr = true
  · rw [if_pos hcurr]
    exact ⟨h.processes, by simp [h.tunnels, hcurr], by simp [h.servers], h.processFlag, by simp, rfl⟩
  · rw [if_neg hcurr]
    exact ⟨h.processes, by simp [h.tunnels, hcurr], by simp [h.servers], h.processFlag, h.tunnelFlag, rfl⟩

theorem Evidence.processList (h : Evidence processes adapters report) (more : List WideString) :
    Evidence (processes ++ more) adapters (more.foldl VpnDetectionReport.process report) := by
  induction more generalizing processes report with
  | nil => rwa [List.append_nil]
  | cons ws more ih =>
    rw [List.foldl_cons, List.append_cons]
    exact ih (h.process ws)

theorem Evidence.adapterList (h : Evidence processes adapters report) (more : List AdapterAddresses) :
    Evidence processes (adapters ++ more) (more.foldl VpnDetectionReport.adapter report) := by
  induction more generalizing adapters report with
  | nil => rwa [List.append_nil]
  | cons curr more ih =>
    rw [List.foldl_cons, List.append_cons]
    exact ih (h.adapter curr)

end Evidence

theorem evidence_scanVpnStatus (view : SystemView) :
    Evidence (view.processes.getD []) (view.adapters.getD []) (scanVpnStatus view) := by
  have hempty : Evidence [] [] {} := ⟨rfl, rfl, rfl, rfl, rfl, rfl⟩
  exact (hempty.processList _).adapterList _

/-! The warning. -/

namespace VpnDetectionReport
variable (report : VpnDetectionReport)

def hasZapret : Bool :=
  report.detectedProcesses.any fun p =>
    contains (lowercase p) "winws" || contains (lowercase p) "goodbyedpi" || contains (lowercase p) "zapret"

def hasVpn : Bool :=
  (report.detectedProcesses.any fun p =>
    contains (lowercase p) "incy" || contains (lowercase p) "happ" || contains (lowercase p) "sing-box" ||
      contains (lowercase p) "wireguard") || report.tunAdapterDetected

/-- PrintVpnShieldStatus warns of a conflict, unless it has nothing to announce. -/
def warns : Bool := report.announced && (report.hasZapret && report.hasVpn)

end VpnDetectionReport

/-- The names of the two halves of a conflict among the protected ones. -/
def zapretNames : List String := ["winws.exe", "goodbyedpi.exe", "zapret.exe"]

def vpnNames : List String :=
  ["incy.exe", "incyd.exe", "happ.exe", "happd.exe", "sing-box.exe", "wireguard.exe"]

theorem zapret_iff : ∀ p ∈ protectedProcesses,
    ((contains p "winws" || contains p "goodbyedpi" || contains p "zapret") = true ↔ p ∈ zapretNames) := by
  decide

theorem vpn_iff : ∀ p ∈ protectedProcesses,
    ((contains p "incy" || contains p "happ" || contains p "sing-box" || contains p "wireguard") = true ↔
      p ∈ vpnNames) := by
  decide

theorem names_protected : ∀ p ∈ zapretNames ++ vpnNames, p ∈ protectedProcesses := by decide

theorem isProcessProtected_iff {name : String} :
    isProcessProtected name = true ↔ lowercase name ∈ protectedProcesses := by
  simp [isProcessProtected]

/-- A test of the found names that comes down to a list of protected ones. -/
theorem detected_any {processes : List WideString} {test : String → Bool} {names : List String}
    (htest : ∀ p ∈ protectedProcesses, (test p = true ↔ p ∈ names))
    (hnames : ∀ p ∈ names, p ∈ protectedProcesses) :
    (((processes.map narrow).filter isProcessProtected).any fun p => test (lowercase p)) = true ↔
      ∃ ws ∈ processes, lowercase (narrow ws) ∈ names := by
  simp only [List.any_eq_true, List.mem_filter, List.mem_map, isProcessProtected_iff]
  constructor
  · rintro ⟨p, ⟨⟨ws, hws, rfl⟩, hprotected⟩, hp⟩
    exact ⟨ws, hws, (htest _ hprotected).mp hp⟩
  · rintro ⟨ws, hws, hname⟩
    have hprotected := hnames _ hname
    exact ⟨narrow ws, ⟨⟨ws, hws, rfl⟩, hprotected⟩, (htest _ hprotected).mpr hname⟩

/-- When the warning is shown. -/
theorem warns_iff (view : SystemView) : (scanVpnStatus view).warns = true ↔
    (∃ ws ∈ view.processes.getD [], lowercase (narrow ws) ∈ zapretNames) ∧
      ((∃ ws ∈ view.processes.getD [], lowercase (narrow ws) ∈ vpnNames) ∨
        ∃ curr ∈ view.adapters.getD [], VpnDetectionReport.isActiveTunnel curr = true) := by
  have hevidence := evidence_scanVpnStatus view
  have hzapret : (scanVpnStatus view).hasZapret = true ↔
      ∃ ws ∈ view.processes.getD [], lowercase (narrow ws) ∈ zapretNames := by
    rw [VpnDetectionReport.hasZapret, hevidence.processes]
    exact detected_any zapret_iff fun p hp => names_protected p (List.mem_append_left _ hp)
  have hvpn : (scanVpnStatus view).hasVpn = true ↔
      (∃ ws ∈ view.processes.getD [], lowercase (narrow ws) ∈ vpnNames) ∨
        ∃ curr ∈ view.adapters.getD [], VpnDetectionReport.isActiveTunnel curr = true := by
    rw [VpnDetectionReport.hasVpn, Bool.or_eq_true, hevidence.processes, hevidence.tunnelFlag,
      hevidence.tunnels]
    refine or_congr (detected_any vpn_iff fun p hp => names_protected p (List.mem_append_right _ hp)) ?_
    simp
  have hannounced : (scanVpnStatus view).hasZapret = true → (scanVpnStatus view).announced = true := by
    intro h
    have hsome : (scanVpnStatus view).vpnProcessDetected = true := by
      rw [hevidence.processFlag, Bool.not_eq_true', List.isEmpty_eq_false_iff]
      rintro hnil
      rw [VpnDetectionReport.hasZapret, hnil] at h
      cases h
    simp [VpnDetectionReport.announced, hsome]
  rw [VpnDetectionReport.warns, Bool.and_eq_true, Bool.and_eq_true, hzapret, hvpn]
  exact and_iff_right_of_imp fun h => hannounced (hzapret.mpr h.1)

end Disping.Shield
