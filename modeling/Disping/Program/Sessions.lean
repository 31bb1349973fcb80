import Disping.Program.Operations
import Disping.Rollback.Snapshot

/-! # What a session leaves in the registry

With administrator rights and every call succeeding, a choice gives a value of its own to each place
outside of the policies or leaves the place alone, and which of the two does not depend on the
choices before it. So the last choice that concerns a place decides.
-/
namespace Disping.Program

open Hive Host Tweaks Rollback Links

variable {env : Environment} {ans : Answers} {r₀ r : Registry}

/-- The lists of keys that the optimizers go through are the same in both registries. -/
structure SameLists (r₀ r : Registry) : Prop where
  interfaces : r.subKeys (path interfacesKey) = r₀.subKeys (path interfacesKey)
  adapters : r.subKeys (path rootClass) = r₀.subKeys (path rootClass)
  descriptions : ∀ p n, path rootClass <+: p → n ∈ describingValues.map fold →
    r.values (p, n) = r₀.values (p, n)

theorem SameLists.refl (r : Registry) : SameLists r r := ⟨rfl, rfl, fun _ _ _ _ => rfl⟩

theorem SameLists.trans {r' : Registry} (h : SameLists r₀ r) (h' : SameLists r r') : SameLists r₀ r' :=
  ⟨h'.interfaces.trans h.interfaces, h'.adapters.trans h.adapters,
    fun p n hp hn => (h'.descriptions p n hp hn).trans (h.descriptions p n hp hn)⟩

theorem SameLists.of_footing (h : Footing r₀ r) : SameLists r₀ r :=
  ⟨h.interfaces, h.adapters, h.descriptions⟩

theorem SameLists.interfaceKeys (h : SameLists r₀ r) : interfaceKeys r = interfaceKeys r₀ := by
  rw [Tweaks.interfaceKeys, h.interfaces, Tweaks.interfaceKeys]

theorem SameLists.find (h : SameLists r₀ r) {key name : String} (hkey : path rootClass <+: path key)
    (hname : name ∈ describingValues) : r.find key name = r₀.find key name :=
  h.descriptions _ _ hkey (List.mem_map_of_mem hname)

theorem SameLists.adapterKeys (h : SameLists r₀ r) : adapterKeys r = adapterKeys r₀ := by
  have hkey : ∀ sk, adapterKeyOf r sk = adapterKeyOf r₀ sk := by
    intro sk
    rw [adapterKeyOf, h.find (rootClass_prefix_classKey sk) (by simp [describingValues]), adapterKeyOf]
  rw [Tweaks.adapterKeys, h.adapters, funext hkey, Tweaks.adapterKeys]

theorem SameLists.wifiKeys (h : SameLists r₀ r) : wifiKeys r = wifiKeys r₀ := by
  rw [Tweaks.wifiKeys, h.adapterKeys, Tweaks.wifiKeys]
  refine List.filter_congr fun key hkey => ?_
  have hclass := (hasKey_adapter hkey).2
  rw [isWifi, h.find hclass (by simp [describingValues]), h.find hclass (by simp [describingValues]),
    h.find hclass (by simp [describingValues]), isWifi]

theorem SameLists.writes (h : SameLists r₀ r) (t : Tweak) : t.writes r = t.writes r₀ := by
  cases t with
  | applyAllNetworkTweaks => simp only [Tweak.writes, h.interfaceKeys]
  | optimizeAllNetworkAdapters => simp only [Tweak.writes, h.adapterKeys, h.wifiKeys]
  | _ => rfl

/-- The operations between the measurements of a comparison. -/
def comparisonSteps : List Tweak :=
  [.applyAllNetworkTweaks, .optimizeAllNetworkAdapters, .optimizeMMCSSGamesProfile,
   .setupGamingQoSPolicies]

theorem comparisonTweaks_stores (admin : env.admin = true) (ok : env.AllSucceed) :
    Stores env (Footing r₀) comparisonTweaks (tableWrites r₀ comparisonSteps) := by
  have hstep : ∀ t : Tweak, Stores env (Footing r₀) t.run (t.writes r₀) := Tweak.run_stores admin ok
  refine (hstep .applyAllNetworkTweaks).bind fun _ => ?_
  refine (hstep .optimizeAllNetworkAdapters).bind fun _ => ?_
  refine (hstep .optimizeMMCSSGamesProfile).bind fun _ => ?_
  exact (hstep .setupGamingQoSPolicies).bind fun _ => Stores.pure ()

/-- The writes of a choice; the restore is not a list of writes. -/
def Operation.writes (r : Registry) : Operation → List Registry.Write
  | networkTweaks => Tweak.applyAllNetworkTweaks.writes r
  | adapterTuning => Tweak.optimizeAllNetworkAdapters.writes r
  | multimediaProfile => Tweak.optimizeMMCSSGamesProfile.writes r
  | wifiEngine => Tweaks.writes (wifiKeys r) wifiSettings ++ Tweak.disableLocationServices.writes r
  | extremeBoost isHighRam => tableWrites r (boostSteps isHighRam)
  | comparison => tableWrites r comparisonSteps
  | mtu _ | dns | backup | restore => []

theorem SameLists.operationWrites (h : SameLists r₀ r) (op : Operation) : op.writes r = op.writes r₀ := by
  cases op with
  | wifiEngine => simp only [Operation.writes, h.wifiKeys, h.writes]
  | extremeBoost isHighRam => simp only [Operation.writes, tableWrites, funext h.writes]
  | comparison => simp only [Operation.writes, tableWrites, funext h.writes]
  | _ => simp only [Operation.writes, h.writes]

/-- What a choice does to the value at a place: nothing, or it sets or deletes it. -/
def Operation.effectAt (r : Registry) (op : Operation) (loc : Location) : Option (Option RegValue) :=
  match op with
  | restore =>
    if interfaceReset r loc then some none else (lastBinding profileReset loc).map some
  | op => (lastBinding ((op.writes r).map Registry.Write.binding) loc).map some

theorem SameLists.effectAt (h : SameLists r₀ r) (op : Operation) (loc : Location) :
    op.effectAt r loc = op.effectAt r₀ loc := by
  cases op with
  | restore => simp only [Operation.effectAt, interfaceReset_congr h.interfaces]
  | _ => simp only [Operation.effectAt, h.operationWrites]

section Restore

/-- The restore takes away policies, and no name below another key. -/
theorem restoreFactoryDefaults_subKeys (admin : env.admin = true) (ok : env.AllSucceed) (w : World)
    {q : Path} (hpolicy : q ≠ path qosRoot) (hprofile : ¬ q <+: path profileKey) :
    (Rollback.restoreFactoryDefaults env w).2.registry.subKeys q = w.registry.subKeys q := by
  obtain ⟨-, hkept⟩ := profile_stores ok w.registry w fun _ _ => rfl
  generalize hw₁ : (applySettings profileKey profileDefaults env w).2 = w₁ at hkept
  obtain ⟨hguids, hquiet⟩ := enumerateSubKeys_run ok interfacesKey w₁
  have hcleared := interfaceReset_cleared ok (w₁.registry.subKeys (path interfacesKey))
    (enumerateSubKeys interfacesKey env w₁).2
  generalize hw₃ : (forEach (fun guid => forEach (deleteValue (interfaceKey guid)) interfaceValues)
    ((w₁.registry.subKeys (path interfacesKey)).map KeyName.text) env
    (enumerateSubKeys interfacesKey env w₁).2).2 = w₃ at hcleared
  have hremoved := removeGamingQoSPolicies_removed ok w₃
  generalize hw₄ : (removeGamingQoSPolicies env w₃).2 = w₄ at hremoved
  obtain ⟨hregistry, -⟩ := system_netsh ok netshDefaults_netsh w₄
  simp only [Rollback.restoreFactoryDefaults, asAdmin, isRunningAsAdmin, bind_run, ask_run, admin, if_true,
    pure_run, hw₁, hguids, hw₃, hw₄]
  calc (forEach system netshDefaults env w₄).2.registry.subKeys q
      = w₃.registry.subKeys q := by rw [hregistry, hremoved.subKeys q hpolicy]
    _ = w₁.registry.subKeys q := by
      rw [Registry.subKeys, hcleared.keys, hquiet.registry, Registry.subKeys]
    _ = w.registry.subKeys q := hkept q hprofile

theorem policyRemoved_away {loc : Location} (h : ¬ path qosRoot <+: loc.1) :
    policyRemoved r loc = false := by
  unfold policyRemoved
  rw [List.any_eq_false]
  intro n _ hemptied
  obtain ⟨hloc, -⟩ := of_decide_eq_true hemptied
  exact h (hloc ▸ List.prefix_append _ _)

theorem restoredValues_effectAt {loc : Location} (h : ¬ path qosRoot <+: loc.1) :
    restoredValues r loc = (Operation.restore.effectAt r loc).getD (r.values loc) := by
  simp only [restoredValues, Registry.without, Operation.effectAt, policyRemoved_away h, Bool.or_false,
    overlay_apply]
  cases interfaceReset r loc with
  | true => rfl
  | false => cases lastBinding profileReset loc <;> rfl

/-- The restore does nothing to the adapter class. -/
theorem restore_effectAt_adapter {loc : Location} (h : path rootClass <+: loc.1) :
    Operation.restore.effectAt r loc = none := by
  have hsystem : loc.1[0]? = some (fold "SYSTEM") :=
    prefix_getElem? h (constantKeys_system rootClass (by simp))
  have hcontrol : loc.1[2]? = some (fold "Control") := prefix_getElem? h rootClass_control
  have hinterface : interfaceReset r loc = false := by
    unfold interfaceReset
    rw [List.any_eq_false]
    intro key hkey hany
    obtain ⟨name, -, hloc⟩ := List.any_eq_true.mp hany
    rw [of_decide_eq_true hloc] at h
    rw [Tweaks.interfaceKeys, List.map_map] at hkey
    obtain ⟨n, -, rfl⟩ := List.mem_map.mp hkey
    exact not_rootClass_prefix_interface _ h
  have hprofile : lastBinding profileReset loc = none := by
    rw [Option.eq_none_iff_forall_ne_some]
    intro v hv
    obtain ⟨w, hw, hbinding⟩ := List.mem_map.mp (mem_of_lastBinding hv)
    have hloc : path w.key = loc.1 := congrArg (fun b => b.1.1) hbinding
    obtain ⟨s, -, rfl⟩ := List.mem_map.mp hw
    rw [← hloc, Setting.write, constantKeys_software profileKey (by simp)] at hsystem
    exact system_ne_software hsystem
  simp [Operation.effectAt, hinterface, hprofile]

theorem restore_sameLists (admin : env.admin = true) (ok : env.AllSucceed) (w : World) :
    SameLists w.registry (Rollback.restoreFactoryDefaults env w).2.registry := by
  obtain ⟨hinterfaces, hadapters, hqos⟩ := profileKey_beside
  have hne : ∀ key ∈ [interfacesKey, rootClass], path key ≠ path qosRoot := by
    intro key hkey heq
    have hsystem := constantKeys_system key (by simp only [List.mem_cons] at hkey ⊢; tauto)
    rw [heq, constantKeys_software qosRoot (by simp)] at hsystem
    exact system_ne_software hsystem
  refine ⟨restoreFactoryDefaults_subKeys admin ok w (hne _ (by simp)) hinterfaces,
    restoreFactoryDefaults_subKeys admin ok w (hne _ (by simp)) hadapters, fun p n hp _ => ?_⟩
  have hpolicy : ¬ path qosRoot <+: p := by
    intro hbelow
    have hsystem := prefix_getElem? hp (constantKeys_system rootClass (by simp))
    rw [prefix_getElem? hbelow (constantKeys_software qosRoot (by simp))] at hsystem
    exact system_ne_software hsystem
  rw [(restoreFactoryDefaults_run admin ok w).1,
    restoredValues_effectAt (r := w.registry) (show ¬ path qosRoot <+: (p, n).1 from hpolicy),
    restore_effectAt_adapter (show path rootClass <+: (p, n).1 from hp), Option.getD_none]

end Restore

section Steps

/-- What a run of writes leaves at a place. -/
theorem values_of_writes {op : Operation} (hop : op ≠ .restore) (r : Registry) (loc : Location) :
    (r.applyAll (op.writes r)).values loc = (op.effectAt r loc).getD (r.values loc) := by
  have heffect : op.effectAt r loc = (lastBinding ((op.writes r).map Registry.Write.binding) loc).map some := by
    cases op with
    | restore => exact absurd rfl hop
    | _ => rfl
  rw [heffect, Registry.values_applyAll, overlay_apply]
  cases lastBinding ((op.writes r).map Registry.Write.binding) loc <;> rfl

theorem registry_of_over {α : Type} {m : Win α} (h : ∀ P, Keeps env (Over P) m) (w : World) :
    (m env w).2.registry = w.registry :=
  (h (fun r => r = w.registry) w rfl).2

/-- The registry between the measurements and after them. -/
theorem runComparisonBenchmark_run (admin : env.admin = true) (ok : env.AllSucceed) (ans : Answers)
    (w : World) :
    (runComparisonBenchmark ans env w).2.registry =
        w.registry.applyAll (tableWrites w.registry comparisonSteps) ∧
      Footing w.registry (runComparisonBenchmark ans env w).2.registry := by
  have hbefore : (measureMetrics ans env w).2.registry = w.registry :=
    registry_of_over (fun _ => measureMetrics_keeps over_numberless) w
  have hstores : Stores env (Footing w.registry) comparisonTweaks
      (tableWrites w.registry comparisonSteps) := comparisonTweaks_stores admin ok
  obtain ⟨hstored, hfooting⟩ := hstores (measureMetrics ans env w).2 (hbefore ▸ Footing.refl w.registry)
  have hafter : (runComparisonBenchmark ans env w).2.registry =
      (comparisonTweaks env (measureMetrics ans env w).2).2.registry :=
    registry_of_over (fun _ => measureMetrics_keeps over_numberless) _
  rw [hafter]
  exact ⟨by rw [hstored.registry, hbefore], hfooting⟩

/-- A choice other than the restore makes its writes. -/
theorem Operation.run_writes (admin : env.admin = true) (ok : env.AllSucceed) (ans : Answers)
    {op : Operation} (hop : op ≠ .restore) (w : World) :
    (op.run ans env w).2.registry = w.registry.applyAll (op.writes w.registry) ∧
      Footing w.registry (op.run ans env w).2.registry := by
  have hstored : ∀ (m : Win Unit) (ws : List Registry.Write),
      Stores env (Footing w.registry) m ws → (m env w).2.registry = w.registry.applyAll ws ∧
        Footing w.registry (m env w).2.registry := by
    intro m ws hm
    obtain ⟨hstored, hfooting⟩ := hm w (Footing.refl w.registry)
    exact ⟨hstored.registry, hfooting⟩
  have htweak : ∀ t : Tweak, Stores env (Footing w.registry) t.run (t.writes w.registry) :=
    Tweak.run_stores admin ok
  have hquiet : ∀ m : Win Unit, (∀ P, Keeps env (Over P) m) → (m env w).2.registry = w.registry ∧
      Footing w.registry (m env w).2.registry := by
    intro m hm
    have hsame := registry_of_over hm w
    exact ⟨hsame, hsame ▸ Footing.refl w.registry⟩
  cases op with
  | networkTweaks => exact hstored _ _ ((htweak .applyAllNetworkTweaks).bind_pure _)
  | adapterTuning => exact hstored _ _ ((htweak .optimizeAllNetworkAdapters).bind_pure _)
  | multimediaProfile => exact hstored _ _ ((htweak .optimizeMMCSSGamesProfile).bind_pure _)
  | mtu targetHost =>
    exact hquiet _ fun P => Keeps.bind (autoDetectAndApplyMtu_over targetHost) fun _ => Keeps.pure _
  | dns => exact hquiet _ fun P => Keeps.bind autoSelectFastestDns_over fun _ => Keeps.pure _
  | wifiEngine =>
    refine hstored _ _ ((optimizeWifiAdapters_stores admin ok).bind fun _ => ?_)
    refine (setWifiBackgroundScan_stores admin ok false).nil_bind fun _ => ?_
    exact (htweak .disableLocationServices).bind_pure _
  | extremeBoost isHighRam =>
    have hbackup : (createBackup backupPath env w).2.registry = w.registry :=
      registry_of_over (fun P => createBackup_over backupPath) w
    have hboosted : Stores env (Footing w.registry) (boostTweaks isHighRam)
        (tableWrites w.registry (boostSteps isHighRam)) := boostTweaks_stores admin ok isHighRam
    obtain ⟨hboost, hfooting⟩ := hboosted (createBackup backupPath env w).2
      (hbackup ▸ Footing.refl w.registry)
    refine ⟨?_, hfooting⟩
    rw [← hbackup]
    exact hbackup ▸ hboost.registry
  | comparison =>
    obtain ⟨hregistry, hfooting⟩ := runComparisonBenchmark_run admin ok ans w
    exact ⟨hregistry, hfooting⟩
  | backup => exact hquiet _ fun P => Keeps.bind (createBackup_over _) fun _ => Keeps.pure _
  | restore => exact absurd rfl hop

/-- A step of a session: what it does at each place, and that the lists of keys stay. -/
theorem Operation.run_effect (admin : env.admin = true) (ok : env.AllSucceed) (ans : Answers)
    (op : Operation) (w : World) : SameLists w.registry (op.run ans env w).2.registry ∧
      ∀ loc : Location, ¬ path qosRoot <+: loc.1 →
        (op.run ans env w).2.registry.values loc =
          (op.effectAt w.registry loc).getD (w.registry.values loc) := by
  by_cases hop : op = .restore
  · subst hop
    refine ⟨restore_sameLists admin ok w, fun loc hloc => ?_⟩
    have hvalues := (restoreFactoryDefaults_run admin ok w).1
    rw [← restoredValues_effectAt hloc]
    exact congrFun hvalues loc
  · obtain ⟨hwrites, hfooting⟩ := Operation.run_writes admin ok ans hop w
    refine ⟨.of_footing hfooting, fun loc _ => ?_⟩
    rw [hwrites, values_of_writes hop]

end Steps

/-- The effects of a session add up, read off a registry with the same lists of keys. -/
theorem SameLists.runSession (admin : env.admin = true) (ok : env.AllSucceed) (ans : Answers)
    {loc : Location} (hloc : ¬ path qosRoot <+: loc.1) :
    ∀ (ops : List Operation) (v : World), SameLists r₀ v.registry →
      (Program.runSession ans ops env v).2.registry.values loc =
        ((ops.filterMap fun op => op.effectAt r₀ loc).getLast?).getD (v.registry.values loc) := by
  intro ops
  induction ops with
  | nil => exact fun v _ => rfl
  | cons op ops ih =>
    intro v hv
    obtain ⟨hlists, hvalue⟩ := op.run_effect admin ok ans v
    have hrest := ih (op.run ans env v).2 (hv.trans hlists)
    rw [hvalue loc hloc, hv.effectAt] at hrest
    refine Eq.trans hrest ?_
    cases heffect : op.effectAt r₀ loc with
    | none => simp only [List.filterMap_cons, heffect, Option.getD_none]
    | some x => simp only [List.filterMap_cons, heffect, List.getLast?_cons, Option.getD_some]

/-- At every place outside of the policies the last choice that concerns it decides, whatever came
before; without one the value is the old one. -/
theorem runSession_values (admin : env.admin = true) (ok : env.AllSucceed) (ans : Answers)
    (ops : List Operation) (w : World) (loc : Location) (hloc : ¬ path qosRoot <+: loc.1) :
    (runSession ans ops env w).2.registry.values loc =
      ((ops.filterMap fun op => op.effectAt w.registry loc).getLast?).getD (w.registry.values loc) :=
  (SameLists.refl w.registry).runSession admin ok ans hloc ops w

/-- NoLazyMode outlives the restore. -/
theorem runSession_values_noLazyMode :
    (runSession noAnswers [.networkTweaks, .restore] adminEnvironment (worldWith .empty)).2.registry.values
      (path profileKey, fold "NoLazyMode") = some (regDword 1) := by
  rw [runSession_values rfl (fun _ => rfl) noAnswers _ _ _ profileKey_beside.2.2]
  decide +kernel

end Disping.Program
