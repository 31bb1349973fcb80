import Disping.Links.ActiveAdapters

/-! # MtuOptimizer: the detected MTU on the active physical interfaces

The discovery's flag `found` stays inside it: where it finds nothing, the standard MTU that fills
its result is applied like a discovered one.
-/
namespace Disping.Links

open Host Tweaks Shield

def setSubinterface (interfaceName : String) (mtu : BitVec 32) : String :=
  "cmd.exe /c \"netsh interface ipv4 set subinterface \\\"" ++ interfaceName ++ "\\\" mtu="
    ++ toString mtu.toNat ++ " store=persistent\" > nul 2>&1"

def applyMtuToInterface (interfaceName : String) (mtu : BitVec 32) : Win OperationResult :=
  if isVirtualOrVpnAdapter interfaceName "" then
    pure { success := false
           message := "[VPN SHIELD] Skipped MTU change on virtual/TUN adapter: " ++ interfaceName }
  else do
    if ← systemReturnsZero (setSubinterface interfaceName mtu) then
      modify fun w => { w with mtu := Function.update w.mtu interfaceName mtu }
      pure { success := true
             message := "Set MTU=" ++ toString mtu.toNat ++ " on interface [" ++ interfaceName
               ++ "]." }
    else
      pure { success := false
             message := "Failed to set MTU via netsh (check admin privileges)." }

def probeHost (ans : Answers) (targetHost : String) (payloadSize : BitVec 16) : Win Bool := do
  let o ← query fun n => ans.echo n targetHost payloadSize
  pure (probePacketSize o)

def autoDetectAndApplyMtu (ans : Answers) (targetHost : String) : Win OperationResult := do
  let probe ← discoverOptimalMtu (probeHost ans targetHost)
  let adapters ← getActiveAdapters ans
  if adapters.isEmpty then
    pure { success := false, message := "No active network adapters found." }
  else
    let results ← forEach (fun nic => applyMtuToInterface nic.name probe.optimalMtu)
      (adapters.filter NetworkAdapterInfo.isPhysical)
    let applied := results.countP OperationResult.success
    pure { success := decide (applied > 0)
           message := "Configured MTU=" ++ toString probe.optimalMtu.toNat ++ " (MSS="
             ++ toString probe.optimalMss.toNat ++ ") on " ++ toString applied ++ " interface(s)."
           details := probe.notes }

section Discovery
variable {env : Environment} {ans : Answers} {I : World → Prop} (hI : Numberless I)
include hI

theorem probeHost_keeps (targetHost : String) (payloadSize : BitVec 16) :
    Keeps env I (probeHost ans targetHost payloadSize) :=
  (query_ensures hI _).bind fun _ _ => Ensures.pure trivial

theorem searchPayload_keeps (targetHost : String) (low high best : ℤ) :
    Keeps env I (searchPayload (probeHost ans targetHost) low high best) := by
  induction low, high, best using searchPayload.induct with
  | case1 low high best h mid ihhigh ihlow =>
    rw [searchPayload, dif_pos h]
    refine Keeps.bind (probeHost_keeps hI targetHost _) fun ok => ?_
    exact Ensures.ite (fun _ => ihhigh) fun _ => ihlow
  | case2 low high best h =>
    rw [searchPayload, dif_neg h]
    exact Keeps.pure _

/-- A discovery changes call numbers only, and one that finds nothing answers the standard MTU. -/
theorem discoverOptimalMtu_ensures (targetHost : String) :
    Ensures env I (discoverOptimalMtu (probeHost ans targetHost)) fun r =>
      r.found = false → r.optimalMtu = 1500 := by
  refine Keeps.bind (probeHost_keeps hI targetHost _) fun low => ?_
  refine Ensures.ite (fun _ => Ensures.pure fun _ => rfl) fun _ => ?_
  refine Keeps.bind (probeHost_keeps hI targetHost _) fun high => ?_
  refine Ensures.ite (fun _ => Ensures.pure nofun) fun _ => ?_
  refine Keeps.bind (searchPayload_keeps hI targetHost _ _ _) fun best => ?_
  exact Ensures.ite (fun _ => Ensures.pure nofun) fun _ => Ensures.pure fun _ => rfl

end Discovery

section Applying
variable {env : Environment}

theorem applyMtuToInterface_run {interfaceName : String} (mtu : BitVec 32) (w : World)
    (h : isVirtualOrVpnAdapter interfaceName "" = false) :
    (applyMtuToInterface interfaceName mtu env w).2.mtu =
        (if env.succeeds w.calls then Function.update w.mtu interfaceName mtu else w.mtu) ∧
      (applyMtuToInterface interfaceName mtu env w).2.calls = w.calls + 1 := by
  cases hnetsh : env.succeeds w.calls <;>
    simp [applyMtuToInterface, h, systemReturnsZero, call, hnetsh]

/-- A command of the loop that succeeds is for the interface; the first takes the call `n`. -/
def Assigned (env : Environment) (nics : List NetworkAdapterInfo) (n : ℕ) (name : String) : Prop :=
  ∃ i nic, nics[i]? = some nic ∧ env.succeeds (n + i) = true ∧ nic.name = name

theorem not_assigned_nil {n : ℕ} {name : String} : ¬ Assigned env [] n name := by
  rintro ⟨i, nic, hnic, -⟩
  simp at hnic

theorem assigned_cons {nic : NetworkAdapterInfo} {nics : List NetworkAdapterInfo} {n : ℕ}
    {name : String} : Assigned env (nic :: nics) n name ↔
      (env.succeeds n = true ∧ nic.name = name) ∨ Assigned env nics (n + 1) name := by
  constructor
  · rintro ⟨i, other, hnic, hok, rfl⟩
    cases i with
    | zero =>
      cases hnic
      exact .inl ⟨hok, rfl⟩
    | succ i => exact .inr ⟨i, other, hnic, by rw [← hok, Nat.add_assoc, Nat.add_comm 1], rfl⟩
  · rintro (⟨hok, rfl⟩ | ⟨i, other, hnic, hok, rfl⟩)
    · exact ⟨0, nic, rfl, hok, rfl⟩
    · exact ⟨i + 1, other, hnic, by rw [← hok, Nat.add_assoc, Nat.add_comm 1], rfl⟩

/-- The loop gives the MTU to the interfaces whose commands succeed, and to no other. -/
theorem applyMtu_forEach (mtu : BitVec 32) {nics : List NetworkAdapterInfo}
    (hnics : ∀ nic ∈ nics, isVirtualOrVpnAdapter nic.name "" = false) (w : World) (name : String) :
    (Assigned env nics w.calls name →
        (forEach (fun nic => applyMtuToInterface nic.name mtu) nics env w).2.mtu name = mtu) ∧
      (¬ Assigned env nics w.calls name →
        (forEach (fun nic => applyMtuToInterface nic.name mtu) nics env w).2.mtu name =
          w.mtu name) := by
  induction nics generalizing w with
  | nil => exact ⟨fun h => absurd h not_assigned_nil, fun _ => rfl⟩
  | cons nic nics ih =>
    obtain ⟨hmtu, hcalls⟩ :=
      @applyMtuToInterface_run env nic.name mtu w (hnics nic (List.mem_cons_self ..))
    obtain ⟨hset, hkept⟩ := ih (fun other hother => hnics other (List.mem_cons_of_mem _ hother))
      (applyMtuToInterface nic.name mtu env w).2
    rw [hcalls] at hset hkept
    rw [assigned_cons]
    change (_ → (forEach _ nics env _).2.mtu name = mtu) ∧
      (_ → (forEach _ nics env _).2.mtu name = w.mtu name)
    by_cases hrest : Assigned env nics (w.calls + 1) name
    · exact ⟨fun _ => hset hrest, fun hnone => absurd (.inr hrest) hnone⟩
    · rw [hkept hrest, hmtu]
      by_cases hfirst : env.succeeds w.calls = true ∧ nic.name = name
      · obtain ⟨hok, rfl⟩ := hfirst
        simp [hok]
      · refine ⟨fun h => absurd h (not_or.mpr ⟨hfirst, hrest⟩), fun _ => ?_⟩
        split
        · rename_i hok
          exact Function.update_of_ne (fun heq => hfirst ⟨hok, heq.symm⟩) _ _
        · rfl

/-- A loop over adapters leaves every MTU alone exactly when each command fails or is for an
interface that has this MTU. -/
theorem applyMtu_forEach_iff (mtu : BitVec 32) {nics : List NetworkAdapterInfo}
    (hnics : ∀ nic ∈ nics, isVirtualOrVpnAdapter nic.name "" = false) (w : World) :
    (forEach (fun nic => applyMtuToInterface nic.name mtu) nics env w).2.mtu = w.mtu ↔
      ∀ i nic, nics[i]? = some nic → env.succeeds (w.calls + i) = true → w.mtu nic.name = mtu := by
  constructor
  · intro hsame i nic hnic hok
    rw [← (applyMtu_forEach mtu hnics w nic.name).1 ⟨i, nic, hnic, hok, rfl⟩, hsame]
  · intro h
    funext name
    obtain ⟨hset, hkept⟩ := @applyMtu_forEach env mtu nics hnics w name
    by_cases hassigned : Assigned env nics w.calls name
    · rw [hset hassigned]
      obtain ⟨i, nic, hnic, hok, rfl⟩ := hassigned
      exact (h i nic hnic hok).symm
    · exact hkept hassigned

variable (env)

/-- The loop that a discovery without a result leads to, after the query for the adapters. -/
theorem autoDetectAndApplyMtu_unfound (ans : Answers) (targetHost : String) (w : World)
    (hunfound : (discoverOptimalMtu (probeHost ans targetHost) env w).1.found = false) :
    ∃ w', (autoDetectAndApplyMtu ans targetHost env w).2.mtu =
        (forEach (fun nic => applyMtuToInterface nic.name 1500)
          (physicalAdapters ans (discoverOptimalMtu (probeHost ans targetHost) env w).2.calls)
          env w').2.mtu ∧
      w'.mtu = w.mtu ∧
      w'.calls = (discoverOptimalMtu (probeHost ans targetHost) env w).2.calls + 1 := by
  have hkept := @discoverOptimalMtu_ensures env ans (fun u => u.mtu = w.mtu) (fun _ _ h => h)
    targetHost w rfl
  obtain ⟨hstandard, hmtu⟩ := hkept
  simp only [autoDetectAndApplyMtu, bind_run]
  generalize discoverOptimalMtu (probeHost ans targetHost) env w = discovered at *
  have hlist := getActiveAdapters_run ans env discovered.2
  generalize getActiveAdapters ans env discovered.2 = listed at *
  obtain ⟨adapters, w'⟩ := listed
  obtain ⟨rfl, rfl⟩ := Prod.mk.inj hlist
  refine ⟨{ discovered.2 with calls := discovered.2.calls + 1 }, ?_, hmtu, rfl⟩
  rw [hstandard hunfound, physicalAdapters]
  cases ((ans.adapters discovered.2.calls).getD []).filterMap adapterInfo <;> rfl

/-- Where the discovery finds nothing, every MTU stays exactly when each command for an active
physical adapter fails or finds the standard MTU there. -/
theorem autoDetectAndApplyMtu_unfound_iff (ans : Answers) (targetHost : String) (w : World)
    (hunfound : (discoverOptimalMtu (probeHost ans targetHost) env w).1.found = false) :
    (autoDetectAndApplyMtu ans targetHost env w).2.mtu = w.mtu ↔
      ∀ i nic, (physicalAdapters ans
          (discoverOptimalMtu (probeHost ans targetHost) env w).2.calls)[i]? = some nic →
        env.succeeds ((discoverOptimalMtu (probeHost ans targetHost) env w).2.calls + 1 + i) = true →
        w.mtu nic.name = 1500 := by
  obtain ⟨w', hloop, hmtu, hcalls⟩ := autoDetectAndApplyMtu_unfound env ans targetHost w hunfound
  rw [hloop, ← hmtu, ← hcalls]
  exact applyMtu_forEach_iff 1500 (fun _ hnic => not_isVirtual_of_mem hnic) w'

end Applying

/-- No probe is answered. -/
def outage : Answers where
  adapters _ := some [ethernet]
  view _ := ⟨none, none⟩
  echo _ _ _ := ⟨true, some 1, none, 0, 0⟩
  latency _ _ := 9999

theorem outage_unfound (mtu : BitVec 32) :
    (discoverOptimalMtu (probeHost outage "1.1.1.1") netshWorks (machineWithMtu mtu)).1.found = false ∧
      (discoverOptimalMtu (probeHost outage "1.1.1.1") netshWorks (machineWithMtu mtu)).2.calls = 1 :=
  ⟨rfl, rfl⟩

theorem outage_keeps_standard :
    (autoDetectAndApplyMtu outage "1.1.1.1" netshWorks (machineWithMtu 1500)).2.mtu =
      (machineWithMtu 1500).mtu :=
  (autoDetectAndApplyMtu_unfound_iff netshWorks outage "1.1.1.1" (machineWithMtu 1500)
    (outage_unfound 1500).1).mpr fun _ _ _ _ => rfl

/-- An outage overwrites an MTU of 1400. -/
theorem outage_not_keeps_smaller :
    ¬ ∀ (env : Environment) (ans : Answers) (targetHost : String) (w : World),
      (discoverOptimalMtu (probeHost ans targetHost) env w).1.found = false →
      (autoDetectAndApplyMtu ans targetHost env w).2.mtu = w.mtu := by
  intro h
  have hkept := h netshWorks outage "1.1.1.1" (machineWithMtu 1400) (outage_unfound 1400).1
  obtain ⟨w', hloop, hmtu, hcalls⟩ :=
    autoDetectAndApplyMtu_unfound netshWorks outage "1.1.1.1" (machineWithMtu 1400) (outage_unfound 1400).1
  rw [hloop, ← hmtu, applyMtu_forEach_iff 1500 (fun _ hnic => not_isVirtual_of_mem hnic)] at hkept
  obtain ⟨nic, hnic⟩ := @physicalAdapters_ethernet outage 1 rfl
  have hstandard : w'.mtu nic.name = 1500 := hkept 0 nic (by rw [(outage_unfound 1400).2, hnic]; rfl) rfl
  have hsmaller : w'.mtu nic.name = 1400 := congrFun hmtu nic.name
  exact absurd (hsmaller.symm.trans hstandard) (by decide)

end Disping.Links
