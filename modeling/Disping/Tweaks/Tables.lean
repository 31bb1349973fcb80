import Disping.Tweaks.Footing
import Disping.Tweaks.SystemLatencyOptimizer
import Disping.Tweaks.QoSOptimizer

/-! # The writes of the apply operations

With administrator rights and every call succeeding, an apply operation stores a table that is
fixed by the registry the sequence starts from, however many operations come before it.
-/
namespace Disping.Tweaks

open Hive Host

/-- The apply operations of the boost. -/
inductive Tweak
  | applyAllNetworkTweaks
  | optimizeAllNetworkAdapters
  | disableLocationServices
  | optimizeMMCSSGamesProfile
  | optimizeMemorySubsystem (isHighRam : Bool)
  | setupGamingQoSPolicies
deriving DecidableEq

def Tweak.run : Tweak → Win OperationResult
  | .applyAllNetworkTweaks => Tweaks.applyAllNetworkTweaks
  | .optimizeAllNetworkAdapters => Tweaks.optimizeAllNetworkAdapters
  | .disableLocationServices => Tweaks.disableLocationServices
  | .optimizeMMCSSGamesProfile => Tweaks.optimizeMMCSSGamesProfile
  | .optimizeMemorySubsystem isHighRam => Tweaks.optimizeMemorySubsystem isHighRam
  | .setupGamingQoSPolicies => Tweaks.setupGamingQoSPolicies []

/-- The tables of the adapter operations, with the wireless one last. -/
def adapterSettings : List Setting :=
  interruptSettings ++ sendOffloadSettings ++ energySettings ++ bufferSettings
    ++ flowControlSettings ++ wifiSettings

def wifiKeys (r : Registry) : List String := (adapterKeys r).filter (isWifi r)

def Tweak.writes (r : Registry) : Tweak → List Registry.Write
  | .applyAllNetworkTweaks =>
    Tweaks.writes (interfaceKeys r) noDelaySettings
      ++ (throttlingSettings.map (Setting.write profileKey)
      ++ tcpParameterSettings.map (Setting.write tcpKey))
  | .optimizeAllNetworkAdapters =>
    Tweaks.writes (adapterKeys r) interruptSettings
      ++ (Tweaks.writes (adapterKeys r) sendOffloadSettings
      ++ (Tweaks.writes (adapterKeys r) energySettings
      ++ (Tweaks.writes (adapterKeys r) bufferSettings
      ++ (Tweaks.writes (adapterKeys r) flowControlSettings
      ++ Tweaks.writes (wifiKeys r) wifiSettings))))
  | .disableLocationServices => locationSettings.map (Setting.write lfsvcKey)
  | .optimizeMMCSSGamesProfile => gamesSettings.map (Setting.write taskGamesKey)
  | .optimizeMemorySubsystem isHighRam =>
    (memorySettings isHighRam).map (Setting.write mmKey)
  | .setupGamingQoSPolicies =>
    (tosSettings.map (Setting.write tosKey) ++ nlaSettings.map (Setting.write qosKey))
      ++ getDefaultGamingExecutables.flatMap fun exe =>
        (policySettings exe).map (Setting.write (policyPath exe))

def runTweaks (ts : List Tweak) : Win (List OperationResult) := forEach Tweak.run ts

/-- The writes of a sequence of operations, in order. -/
def tableWrites (r : Registry) (ts : List Tweak) : List Registry.Write := ts.flatMap (Tweak.writes r)

variable {env : Environment} {r₀ : Registry}

/-- No command of the optimizers is a `reg add`. -/
theorem netsh_not_reg : ∀ cmd ∈ netshCommands ++
    ["netsh int tcp set supplemental template=internet congestionprovider=bbr",
     "netsh int tcp set supplemental template=internet congestionprovider=cubic",
     "netsh int tcp set supplemental template=internet congestionprovider=ctcp"],
    regAddition (command cmd) = none := by
  simp (disch := exact rfl) only [netshCommands, List.cons_append, List.nil_append,
    List.forall_mem_cons, command_literal]
  decide

theorem optimizeTcpGlobalNetsh_stores (ok : env.AllSucceed) {V : Registry → Prop} :
    Stores env V optimizeTcpGlobalNetsh [] := by
  unfold optimizeTcpGlobalNetsh
  refine Stores.nil_bind (Stores.forEach_nil fun cmd hcmd => ?_) fun log => ?_
  · exact (runCommand_stores ok (netsh_not_reg cmd (List.mem_append_left _ hcmd))).bind_pure _
  · refine (runCommand_stores ok (netsh_not_reg _ (by simp))).nil_bind fun bbrOut => ?_
    refine Stores.ite ?_ (Stores.pure _)
    refine (runCommand_stores ok (netsh_not_reg _ (by simp))).nil_bind fun cubicOut => ?_
    refine Stores.ite ?_ (Stores.pure _)
    exact (system_stores ok (netsh_not_reg _ (by simp))).bind_pure _

/-- The keys with a table of their own lie beside the interfaces and the adapter class. -/
theorem away_constantKeys : ∀ key ∈ [profileKey, tcpKey, lfsvcKey, taskGamesKey, mmKey, tosKey,
    qosKey], Away key := by
  simp (disch := exact rfl) only [List.forall_mem_cons, Away, interfacesKey, rootClass, profileKey,
    tcpKey, lfsvcKey, taskGamesKey, mmKey, tosKey, qosKey, path_literal]
  decide

theorem constant_stores (ok : env.AllSucceed) {key : String} (settings : List Setting)
    (h : Away key) : Stores env (Footing r₀) (applySettings key settings)
      (settings.map (Setting.write key)) :=
  applySettings_stores ok fun s _ _ hr => hr.apply (harmless_away s h)

theorem harmless_stores (ok : env.AllSucceed) {keys : List String} {settings : List Setting}
    (h : ∀ w ∈ writes keys settings, Harmless r₀ w) :
    Stores env (Footing r₀) (forEach (fun key => applySettings key settings) keys)
      (writes keys settings) :=
  forEach_applySettings_stores ok fun w hw _ hr => hr.apply (h w hw)

/-! The network tweaks. -/

theorem optimizeTcpNoDelayAndAckFrequency_stores (admin : env.admin = true)
    (ok : env.AllSucceed) : Stores env (Footing r₀) optimizeTcpNoDelayAndAckFrequency
      (writes (interfaceKeys r₀) noDelaySettings) := by
  refine asAdmin_stores admin ?_
  have hguids := enumerateSubKeys_reads (V := Footing r₀) ok fun r hr => hr.interfaces
  refine Reads.bind_stores hguids ?_
  have hloop : Stores env (Footing r₀)
      (forEach (fun key => applySettings key noDelaySettings) (interfaceKeys r₀)) _ :=
    harmless_stores ok fun w hw => harmless_interface hw
  split
  · rename_i hnil
    have hkeys : interfaceKeys r₀ = [] := by rw [interfaceKeys, hnil, List.map_nil]
    rw [hkeys]
    exact Stores.pure _
  · have hmap : forEach (fun key => applySettings key noDelaySettings) (interfaceKeys r₀) =
        forEach (fun guid => applySettings (interfaceKey guid) noDelaySettings)
          ((r₀.subKeys (path interfacesKey)).map KeyName.text) := by
      rw [interfaceKeys, forEach_map]
    rw [hmap] at hloop
    exact hloop.bind_pure _

theorem optimizeNetworkThrottlingAndResponsiveness_stores (admin : env.admin = true)
    (ok : env.AllSucceed) : Stores env (Footing r₀) optimizeNetworkThrottlingAndResponsiveness
      (throttlingSettings.map (Setting.write profileKey)) :=
  asAdmin_stores admin ((constant_stores ok _ (away_constantKeys _ (by simp))).bind_pure _)

theorem optimizeTcpParameters_stores (admin : env.admin = true) (ok : env.AllSucceed) :
    Stores env (Footing r₀) optimizeTcpParameters
      (tcpParameterSettings.map (Setting.write tcpKey)) :=
  asAdmin_stores admin ((constant_stores ok _ (away_constantKeys _ (by simp))).bind_pure _)

theorem applyAllNetworkTweaks_stores (admin : env.admin = true) (ok : env.AllSucceed) :
    Stores env (Footing r₀) applyAllNetworkTweaks (Tweak.applyAllNetworkTweaks.writes r₀) := by
  refine (optimizeTcpNoDelayAndAckFrequency_stores admin ok).bind fun r1 => ?_
  refine (optimizeNetworkThrottlingAndResponsiveness_stores admin ok).bind fun r2 => ?_
  refine (optimizeTcpParameters_stores admin ok).bind_nil fun r3 => ?_
  exact (optimizeTcpGlobalNetsh_stores ok).bind_pure _

/-! The adapter operations. -/

theorem getAdapterClassKeys_reads (ok : env.AllSucceed) :
    Reads env (Footing r₀) getAdapterClassKeys (adapterKeys r₀) := by
  have hkey : ∀ sk, Reads env (Footing r₀) (adapterClassKey sk) (adapterKeyOf r₀ sk) := fun sk =>
    (getString_reads ok fun r hr =>
      find_description hr (rootClass_prefix_classKey sk) (by decide)).bind (Reads.pure _)
  have hsubkeys := enumerateSubKeys_reads (V := Footing r₀) ok fun r hr => hr.adapters
  refine hsubkeys.bind ?_
  exact (Reads.forEach fun sk _ => hkey sk).bind (Reads.pure _)

theorem tuneAdapters_stores (ok : env.AllSucceed) {settings : List Setting}
    (hnames : ∀ s ∈ settings, fold s.name ∉ describingValues.map fold) :
    Stores env (Footing r₀) (tuneAdapters settings) (writes (adapterKeys r₀) settings) := by
  refine (getAdapterClassKeys_reads ok).bind_stores ?_
  have hloop : Stores env (Footing r₀)
      (forEach (fun key => applySettings key settings) (adapterKeys r₀)) _ :=
    harmless_stores ok fun w hw => harmless_adapter (List.Subset.refl _) hnames hw
  exact hloop.bind_pure _

theorem isWifiAdapter_reads (ok : env.AllSucceed) {key : String}
    (hkey : path rootClass <+: path key) :
    Reads env (Footing r₀) (isWifiAdapter key) (isWifi r₀ key) := by
  have hfind : ∀ name ∈ describingValues, ∀ r, Footing r₀ r → r.find key name = r₀.find key name :=
    fun name hname r hr => find_description hr hkey hname
  unfold isWifiAdapter isWifi
  refine (getString_reads ok (hfind "DriverDesc" (by decide))).bind ?_
  split
  · rename_i hdesc
    rw [hdesc]
    exact Reads.pure _
  · rename_i hdesc
    rw [eq_false_of_ne_true hdesc, Bool.false_or]
    refine (getDword_reads ok (hfind "*IfType" (by decide))).bind ?_
    split
    · rename_i htype
      rw [htype]
      exact Reads.pure _
    · rename_i htype
      rw [decide_eq_false htype, Bool.false_or]
      exact (getDword_reads ok (hfind "*MediaType" (by decide))).bind (Reads.pure _)

/-- No table of the adapter operations names a describing value. -/
theorem adapterSettings_names : ∀ s ∈ adapterSettings,
    fold s.name ∉ describingValues.map fold := by
  simp (disch := exact rfl) only [adapterSettings, interruptSettings, sendOffloadSettings,
    energySettings, bufferSettings, flowControlSettings, wifiSettings, List.cons_append,
    List.nil_append, List.forall_mem_cons, describingValues, List.map_cons, List.map_nil,
    fold_literal]
  and_intros <;> decide

theorem flatMap_ite {α β : Type} (p : α → Bool) (f : α → List β) (as : List α) :
    (as.flatMap fun a => if p a then f a else []) = (as.filter p).flatMap f := by
  induction as with
  | nil => rfl
  | cons a as ih =>
    rw [List.flatMap_cons, List.filter_cons, ih]
    split <;> simp

theorem optimizeWifiAdapters_stores (admin : env.admin = true) (ok : env.AllSucceed) :
    Stores env (Footing r₀) optimizeWifiAdapters (writes (wifiKeys r₀) wifiSettings) := by
  refine asAdmin_stores admin ((getAdapterClassKeys_reads ok).bind_stores ?_)
  have hadapter : ∀ key ∈ adapterKeys r₀, Stores env (Footing r₀) (optimizeWifiAdapter key)
      (if isWifi r₀ key then wifiSettings.map (Setting.write key) else []) := by
    intro key hkey
    refine (isWifiAdapter_reads ok (hasKey_adapter hkey).2).bind_stores ?_
    split
    · refine (applySettings_stores ok fun s hs r hr => hr.apply ?_).bind_pure _
      have hname := adapterSettings_names s (List.mem_append_right _ hs)
      exact ⟨Or.inl (hasKey_adapter hkey).1, fun _ => hname⟩
    · exact Stores.pure _
  have hloop := Stores.forEach hadapter
  rw [flatMap_ite] at hloop
  exact hloop.bind_pure _

theorem setWifiBackgroundScan_stores (admin : env.admin = true) (ok : env.AllSucceed)
    (enabled : Bool) {V : Registry → Prop} : Stores env V (setWifiBackgroundScan enabled) [] := by
  have hset : ∀ i, Stores env V (wlanSetInterface enabled i) [] := by
    intro i w hw
    simp only [wlanSetInterface, bind_run, call_run ok]
    exact ⟨⟨rfl, (List.append_nil _).symm, rfl⟩, hw⟩
  refine asAdmin_stores admin ((call_reads ok).stores.nil_bind fun opened => ?_)
  refine (callIf_reads ok opened).stores.nil_bind fun listed => ?_
  have hinterfaces : Reads env V (ask Environment.wlanInterfaces) env.wlanInterfaces :=
    fun w _ => ⟨rfl, rfl⟩
  refine hinterfaces.bind_stores ?_
  exact (Stores.forEach_nil fun i _ => hset i).bind_pure _

theorem optimizeAllNetworkAdapters_stores (admin : env.admin = true) (ok : env.AllSucceed) :
    Stores env (Footing r₀) optimizeAllNetworkAdapters
      (Tweak.optimizeAllNetworkAdapters.writes r₀) := by
  have htune : ∀ part, (∀ s ∈ part, s ∈ adapterSettings) →
      Stores env (Footing r₀) (tuneAdapters part) (writes (adapterKeys r₀) part) :=
    fun part hpart => tuneAdapters_stores ok fun s hs => adapterSettings_names s (hpart s hs)
  have hinterrupt := htune interruptSettings (by simp +contextual [adapterSettings])
  have hoffload := htune sendOffloadSettings (by simp +contextual [adapterSettings])
  have henergy := htune energySettings (by simp +contextual [adapterSettings])
  have hbuffers := htune bufferSettings (by simp +contextual [adapterSettings])
  have hflow := htune flowControlSettings (by simp +contextual [adapterSettings])
  refine (asAdmin_stores admin (hinterrupt.bind_pure _)).bind fun r1 => ?_
  refine (hoffload.bind_pure _).bind fun r2 => ?_
  refine (henergy.bind_pure _).bind fun r3 => ?_
  refine (hbuffers.bind_pure _).bind fun r4 => ?_
  refine (hflow.bind_pure _).bind fun r5 => ?_
  refine (optimizeWifiAdapters_stores admin ok).bind_nil fun r6 => ?_
  exact (setWifiBackgroundScan_stores admin ok false).bind_pure _

/-! The operations with one key each, and the policies. -/

theorem stopLocationService_stores (ok : env.AllSucceed) {V : Registry → Prop} :
    Stores env V stopLocationService [] := by
  intro w hw
  simp only [stopLocationService, bind_run, call_run ok, callIf, if_true, modify_run]
  exact ⟨⟨rfl, (List.append_nil _).symm, rfl⟩, hw⟩

theorem disableLocationServices_stores (admin : env.admin = true) (ok : env.AllSucceed) :
    Stores env (Footing r₀) disableLocationServices (Tweak.disableLocationServices.writes r₀) := by
  refine asAdmin_stores admin ((stopLocationService_stores ok).nil_bind fun _ => ?_)
  exact (constant_stores ok _ (away_constantKeys _ (by simp))).bind_pure _

theorem optimizeMMCSSGamesProfile_stores (admin : env.admin = true) (ok : env.AllSucceed) :
    Stores env (Footing r₀) optimizeMMCSSGamesProfile
      (Tweak.optimizeMMCSSGamesProfile.writes r₀) :=
  asAdmin_stores admin ((constant_stores ok _ (away_constantKeys _ (by simp))).bind_pure _)

theorem optimizeMemorySubsystem_stores (admin : env.admin = true) (ok : env.AllSucceed)
    (isHighRam : Bool) : Stores env (Footing r₀) (optimizeMemorySubsystem isHighRam)
      ((Tweak.optimizeMemorySubsystem isHighRam).writes r₀) :=
  asAdmin_stores admin ((constant_stores ok _ (away_constantKeys _ (by simp))).bind_pure _)

/-- The keys with a table of their own lie below SYSTEM, but for those of the multimedia profile. -/
theorem constantKeys_apart :
    (∀ key ∈ [interfacesKey, rootClass, tcpKey, lfsvcKey, mmKey, qosKey],
      (path key)[0]? = some (fold "SYSTEM")) ∧
    (∀ key ∈ [qosRoot, profileKey], (path key)[0]? = some (fold "SOFTWARE")) ∧
    some (fold "SOFTWARE") ≠ some (fold "SYSTEM") ∧
    ¬ path qosRoot <+: path taskGamesKey ∧ path taskGamesKey ≠ path profileKey := by
  simp (disch := exact rfl) only [List.forall_mem_cons, interfacesKey, rootClass, tcpKey, lfsvcKey,
    mmKey, qosKey, qosRoot, profileKey, taskGamesKey, path_literal, fold_literal]
  decide

theorem constantKeys_system : ∀ key ∈ [interfacesKey, rootClass, tcpKey, lfsvcKey, mmKey, qosKey],
    (path key)[0]? = some (fold "SYSTEM") := constantKeys_apart.1

theorem constantKeys_software : ∀ key ∈ [qosRoot, profileKey],
    (path key)[0]? = some (fold "SOFTWARE") := constantKeys_apart.2.1

theorem system_ne_software : some (fold "SOFTWARE") ≠ some (fold "SYSTEM") :=
  constantKeys_apart.2.2.1

/-- Policies lie in the other half of the hive than interfaces and adapters. -/
theorem policyPath_software (exe : String) : (path (policyPath exe))[0]? = some (fold "SOFTWARE") := by
  rw [policyPath, path_child]
  exact prefix_getElem? (List.prefix_append _ _) (constantKeys_software qosRoot (by simp))

theorem away_policyPath (exe : String) : Away (policyPath exe) := by
  constructor
  · intro h
    have hsystem := prefix_getElem? h (constantKeys_system interfacesKey (by simp))
    rw [policyPath_software] at hsystem
    exact system_ne_software hsystem
  · intro h
    have hsystem := prefix_getElem? h (constantKeys_system rootClass (by simp))
    rw [policyPath_software] at hsystem
    exact system_ne_software hsystem

/-- The writes of a setup with a list of its own. -/
def setupWrites (custom : List String) : List Registry.Write :=
  (tosSettings.map (Setting.write tosKey) ++ nlaSettings.map (Setting.write qosKey))
    ++ (if custom = [] then getDefaultGamingExecutables else custom).flatMap fun exe =>
      (policySettings exe).map (Setting.write (policyPath exe))

theorem setupGamingQoSPolicies_stores (admin : env.admin = true) (ok : env.AllSucceed)
    (custom : List String) :
    Stores env (Footing r₀) (Tweaks.setupGamingQoSPolicies custom) (setupWrites custom) := by
  have htos : Stores env (Footing r₀) (applySettings tosKey tosSettings) _ :=
    constant_stores ok _ (away_constantKeys _ (by simp))
  have hnla : Stores env (Footing r₀) (applySettings qosKey nlaSettings) _ :=
    constant_stores ok _ (away_constantKeys _ (by simp))
  have henable : Stores env (Footing r₀) enableUserTOS _ :=
    asAdmin_stores admin (htos.bind fun b1 => hnla.bind_pure _)
  have hsuccess : ∀ w, (enableUserTOS env w).1.success = true := by
    intro w
    simp only [enableUserTOS, asAdmin, isRunningAsAdmin, bind_run, ask_run, admin, if_true,
      pure_run, applySettings_result ok, Bool.and_self]
  refine henable.bind_of (P := fun res => res.success = true) hsuccess fun res hres => ?_
  rw [if_pos hres]
  have hpolicy : ∀ exe ∈ if custom = [] then getDefaultGamingExecutables else custom,
      Stores env (Footing r₀) (applySettings (policyPath exe) (policySettings exe)) _ :=
    fun exe _ => constant_stores ok (policySettings exe) (away_policyPath exe)
  exact (Stores.forEach hpolicy).bind_pure _

theorem Tweak.run_stores (admin : env.admin = true) (ok : env.AllSucceed) (t : Tweak) :
    Stores env (Footing r₀) t.run (t.writes r₀) := by
  cases t with
  | applyAllNetworkTweaks => exact applyAllNetworkTweaks_stores admin ok
  | optimizeAllNetworkAdapters => exact optimizeAllNetworkAdapters_stores admin ok
  | disableLocationServices => exact disableLocationServices_stores admin ok
  | optimizeMMCSSGamesProfile => exact optimizeMMCSSGamesProfile_stores admin ok
  | optimizeMemorySubsystem isHighRam => exact optimizeMemorySubsystem_stores admin ok isHighRam
  | setupGamingQoSPolicies => exact setupGamingQoSPolicies_stores admin ok []

/-- A run of operations stores the tables of the registry it starts from. -/
theorem runTweaks_stores (admin : env.admin = true) (ok : env.AllSucceed) (ts : List Tweak) :
    Stores env (Footing r₀) (runTweaks ts) (tableWrites r₀ ts) :=
  Stores.forEach fun t _ => t.run_stores admin ok

end Disping.Tweaks
