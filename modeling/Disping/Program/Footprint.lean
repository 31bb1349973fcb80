import Disping.Program.Operations
import Disping.Rollback.Leftovers

/-! # The part of the registry that the program touches

Whatever calls fail and whichever choices are made, a session writes the values of its tables only,
makes no key but those and the keys above, and deletes no key but policies of its own. Without
administrator rights only the tables of the adapters are left of this.
-/
namespace Disping.Program

open Hive Host Tweaks Rollback Links

/-- The tables with a key of their own. -/
def constantTables : List (String × List Setting) :=
  [(profileKey, throttlingSettings), (tcpKey, tcpParameterSettings), (lfsvcKey, locationSettings),
   (taskGamesKey, gamesSettings), (mmKey, memorySettings true), (tosKey, tosSettings),
   (qosKey, nlaSettings)]

/-- A key right below the policy root whose name has the prefix, in some spelling. -/
def IsPolicyKey (p : Path) : Prop :=
  ∃ n : KeyName, isGamingPolicy n.text = true ∧ p = path qosRoot ++ [n.folded]

/-- The places where a session may change a value, with administrator rights or without. -/
inductive Touched (admin : Bool) : Location → Prop
  | table {key : String} {settings : List Setting} {s : Setting} : admin = true →
    (key, settings) ∈ constantTables → s ∈ settings → Touched admin (path key, fold s.name)
  | interface (n : KeyName) {s : Setting} : admin = true →
    s ∈ noDelaySettings → Touched admin (path (interfaceKey n.text), fold s.name)
  /-- Four of the adapter operations do not ask for the rights. -/
  | adapter (n : KeyName) {s : Setting} :
    s ∈ adapterSettings → Touched admin (path (classKey n.text), fold s.name)
  | policy {p : Path} (name : Name) : admin = true → IsPolicyKey p → Touched admin (p, name)

/-- A registry that a session may have made of another one. -/
structure Within (admin : Bool) (r₀ r : Registry) : Prop where
  values : ∀ loc, ¬ Touched admin loc → r.values loc = r₀.values loc
  kept : ∀ p, r₀.HasKey p → ¬ (admin = true ∧ IsPolicyKey p) → r.HasKey p
  made : ∀ p, r.HasKey p → r₀.HasKey p ∨ ∃ loc, Touched admin loc ∧ p <+: loc.1

variable {env : Environment} {ans : Answers} {admin : Bool} {r₀ r : Registry}

theorem Within.refl (r : Registry) : Within admin r r :=
  ⟨fun _ _ => rfl, fun _ h _ => h, fun _ h => .inl h⟩

section Steps

/-- The key that a write opens, made on the way to a touched place. -/
theorem Within.create (h : Within admin r₀ r) {key : String} {name : Name}
    (ht : Touched admin (path key, name)) :
    Within admin r₀ (r.create (components key)) := by
  refine ⟨fun loc hloc => ?_, fun p hp hpolicy => ?_, fun p hp => ?_⟩
  · rw [Registry.values_create]
    exact h.values loc hloc
  · exact Registry.hasKey_of_keys_subset (r.keys_subset_createFrom [] _) (h.kept p hp hpolicy)
  · rcases r.hasKey_create_cases hp with hold | hway
    · exact h.made p hold
    · exact .inr ⟨_, ht, hway⟩

theorem Within.setValue (h : Within admin r₀ r) {p : Path} {n : Name} (v : RegValue)
    (ht : Touched admin (p, n)) :
    Within admin r₀ (r.setValue p n v) := by
  refine ⟨fun loc hloc => ?_, fun q hq hpolicy => ?_, fun q hq => ?_⟩
  · have hne : loc ≠ (p, n) := fun heq => hloc (heq ▸ ht)
    rw [← h.values loc hloc]
    unfold Registry.setValue
    split
    · exact Function.update_of_ne hne _ _
    · rfl
  · refine Registry.hasKey_of_keys_subset ?_ (h.kept q hq hpolicy)
    rw [Registry.keys_setValue]
    exact List.Subset.refl _
  · refine h.made q (Registry.hasKey_of_keys_subset ?_ hq)
    rw [Registry.keys_setValue]
    exact List.Subset.refl _

theorem Within.deleteValue (h : Within admin r₀ r) {p : Path} {n : Name} (ht : Touched admin (p, n)) :
    Within admin r₀ (r.deleteValue p n) := by
  refine ⟨fun loc hloc => ?_, h.kept, h.made⟩
  have hne : loc ≠ (p, n) := fun heq => hloc (heq ▸ ht)
  rw [← h.values loc hloc]
  exact Function.update_of_ne hne _ _

theorem Within.deleteKey (h : Within admin r₀ r) {p : Path} (hadmin : admin = true) (hp : IsPolicyKey p)
    (hbare : r.subKeys p = []) :
    Within admin r₀ (r.deleteKey p) := by
  have hkeys := r.keys_deleteKey hbare
  refine ⟨fun loc hloc => ?_, fun q hq hpolicy => ?_, fun q hq => ?_⟩
  · have hne : loc.1 ≠ p := fun heq => hloc (.policy loc.2 hadmin (heq ▸ hp))
    rw [← h.values loc hloc, r.values_deleteKey hbare]
    simp [Registry.without, hne]
  · have hne : q ≠ p := fun heq => hpolicy ⟨hadmin, heq ▸ hp⟩
    refine (h.kept q hq hpolicy).imp_right fun hmem => ?_
    obtain ⟨k, hk, rfl⟩ := List.mem_map.mp hmem
    rw [hkeys]
    exact List.mem_map_of_mem (List.mem_filter.mpr ⟨hk, by simpa using hne⟩)
  · refine h.made q (Registry.hasKey_of_keys_subset ?_ hq)
    rw [hkeys]
    exact List.filter_sublist.subset

end Steps

/-- The invariant of a session. -/
abbrev Inside (env : Environment) (r₀ : Registry) : World → Prop := Over (Within env.admin r₀)

section Rules

theorem applySetting_inside {key : String} {s : Setting} (ht : Touched env.admin (path key, fold s.name)) :
    Keeps env (Inside env r₀) (applySetting key s) := by
  have hstore : ∀ value, Keeps env (Inside env r₀) (storeValue key s.name value) := fun value =>
    Ensures.storeValue over_numberless (fun _ hw => hw.create ht) fun _ hw => hw.setValue value ht
  rcases s with ⟨name, v | t⟩
  · exact hstore (regDword v)
  · exact hstore (regString t)

theorem applySettings_inside {key : String} {settings : List Setting}
    (ht : ∀ s ∈ settings, Touched env.admin (path key, fold s.name)) :
    Keeps env (Inside env r₀) (applySettings key settings) :=
  Keeps.forEach fun s hs => applySetting_inside (ht s hs)

theorem constantTable_inside {key : String} {settings : List Setting} (admin : env.admin = true)
    (h : (key, settings) ∈ constantTables) : Keeps env (Inside env r₀) (applySettings key settings) :=
  applySettings_inside fun _ hs => .table admin h hs

/-- What asks for the rights first may count on them. -/
theorem asAdmin_inside {refusal : String} {body : Win OperationResult}
    (h : env.admin = true → Keeps env (Inside env r₀) body) :
    Keeps env (Inside env r₀) (asAdmin refusal body) := by
  intro w hw
  rw [asAdmin_run]
  split
  · rename_i admin
    exact h admin w hw
  · exact ⟨trivial, hw⟩

theorem regDeleteKey_inside {subKey : String} (admin : env.admin = true)
    (h : IsPolicyKey (path subKey)) :
    Keeps env (Inside env r₀) (regDeleteKey subKey) := by
  refine (Ensures.call over_numberless).bind fun ok => Ensures.ite (fun _ => ?_) fun _ => Keeps.pure _
  intro w hw
  by_cases hdel : w.registry.HasKey (path subKey) ∧ w.registry.subKeys (path subKey) = []
  · refine ⟨trivial, ?_⟩
    have hgone := hw.deleteKey admin h hdel.2
    simpa [hdel, Over] using hgone
  · refine ⟨trivial, ?_⟩
    simpa [hdel] using hw

theorem deleteValue_inside {subKey name : String} (h : Touched env.admin (path subKey, fold name)) :
    Keeps env (Inside env r₀) (deleteValue subKey name) := by
  refine (Ensures.regOpenKeyEx over_numberless subKey).bind fun opened =>
    Ensures.ite (fun _ => ?_) fun _ => Keeps.pure _
  refine (Ensures.call over_numberless).bind fun ok => Ensures.ite (fun _ => ?_) fun _ => Keeps.pure _
  intro w hw
  cases hheld : (w.registry.find subKey name).isSome with
  | true =>
    refine ⟨trivial, ?_⟩
    have hgone := hw.deleteValue h
    simpa [hheld, Over] using hgone
  | false =>
    refine ⟨trivial, ?_⟩
    simpa [hheld] using hw

/-- The names of an enumeration are names of keys. -/
theorem enumerateSubKeys_inside (key : String) : Ensures env (Inside env r₀) (enumerateSubKeys key)
    fun names => ∀ sk ∈ names, ∃ n : KeyName, sk = n.text := by
  refine Ensures.enumerateSubKeys over_numberless (by simp) fun w _ names hbelow sk hsk => ?_
  obtain ⟨n, -, rfl⟩ := List.mem_map.mp (hbelow.subset hsk)
  exact ⟨n, rfl⟩

theorem runCommand_inside {cmd : String} (h : regAddition (command cmd) = none) :
    Keeps env (Inside env r₀) (runCommand cmd) :=
  Ensures.runCommand over_numberless (fun _ hw => hw) fun w hw => by
    change Within env.admin r₀ _
    rwa [effect_registry h]

theorem system_inside {cmd : String} (h : regAddition (command cmd) = none) :
    Keeps env (Inside env r₀) (system cmd) :=
  (runCommand_inside h).bind fun _ => Keeps.pure _

end Rules

section Operations

theorem netshDefaults_not_reg : ∀ cmd ∈ netshDefaults, regAddition (command cmd) = none := by
  simp (disch := exact rfl) only [netshDefaults, List.forall_mem_cons, command_literal]
  decide

theorem applyAllNetworkTweaks_inside : Keeps env (Inside env r₀) applyAllNetworkTweaks := by
  have hinterfaces : Keeps env (Inside env r₀) optimizeTcpNoDelayAndAckFrequency := by
    refine asAdmin_inside fun admin => ((enumerateSubKeys_inside interfacesKey).bind fun guids hguids => ?_)
    refine Ensures.ite (fun _ => Keeps.pure _) fun _ => ?_
    refine Keeps.bind (Keeps.forEach fun guid hguid => ?_) fun _ => Keeps.pure _
    obtain ⟨n, rfl⟩ := hguids guid hguid
    exact applySettings_inside fun _ hs => .interface n admin hs
  refine Keeps.bind hinterfaces fun r1 => ?_
  refine Keeps.bind (asAdmin_inside fun admin => ?_) fun r2 => ?_
  · exact Keeps.bind (constantTable_inside admin (by simp [constantTables])) fun _ => Keeps.pure _
  refine Keeps.bind (asAdmin_inside fun admin => ?_) fun r3 => ?_
  · exact Keeps.bind (constantTable_inside admin (by simp [constantTables])) fun _ => Keeps.pure _
  exact Keeps.bind optimizeTcpGlobalNetsh_over fun r4 => Keeps.pure _

/-! The adapter operations. -/

theorem getAdapterClassKeys_inside : Ensures env (Inside env r₀) getAdapterClassKeys
    fun keys => ∀ key ∈ keys, ∃ n : KeyName, key = classKey n.text := by
  refine (enumerateSubKeys_inside rootClass).bind fun names hnames => ?_
  refine Ensures.bind (P := fun found => ∀ k ∈ found, ∀ key, k = some key →
    ∃ n : KeyName, key = classKey n.text) (Ensures.forEach fun sk hsk => ?_) fun found hfound => ?_
  · obtain ⟨n, rfl⟩ := hnames sk hsk
    refine (getString_keeps over_numberless _ _).bind fun desc => Ensures.pure fun key hkey => ?_
    obtain ⟨d, -, hd⟩ := Option.bind_eq_some_iff.mp hkey
    split at hd
    · cases hd
    · cases hd
      exact ⟨n, rfl⟩
  · exact Ensures.pure fun key hkey => hfound _ (List.reduceOption_mem_iff.mp hkey) key rfl

theorem adapterTable_inside {key : String} {settings : List Setting} {n : KeyName}
    (hkey : key = classKey n.text) (hs : ∀ s ∈ settings, s ∈ adapterSettings) :
    Keeps env (Inside env r₀) (applySettings key settings) := by
  subst hkey
  exact applySettings_inside fun s hmem => .adapter n (hs s hmem)

theorem tuneAdapters_inside {settings : List Setting} (hs : ∀ s ∈ settings, s ∈ adapterSettings) :
    Keeps env (Inside env r₀) (tuneAdapters settings) := by
  refine getAdapterClassKeys_inside.bind fun keys hkeys => ?_
  refine Keeps.bind (Keeps.forEach fun key hkey => ?_) fun _ => Keeps.pure _
  obtain ⟨n, hn⟩ := hkeys key hkey
  exact adapterTable_inside hn hs

theorem optimizeWifiAdapters_inside : Keeps env (Inside env r₀) optimizeWifiAdapters := by
  refine asAdmin_inside fun _ => (getAdapterClassKeys_inside.bind fun keys hkeys => ?_)
  refine Keeps.bind (Keeps.forEach fun key hkey => ?_) fun _ => Keeps.pure _
  obtain ⟨n, hn⟩ := hkeys key hkey
  have hwifi : Keeps env (Inside env r₀) (isWifiAdapter key) := by
    refine Keeps.bind (getString_keeps over_numberless _ _) fun desc => ?_
    refine Ensures.ite (fun _ => Keeps.pure _) fun _ => ?_
    refine Keeps.bind (getDword_keeps over_numberless _ _) fun ifType => ?_
    refine Ensures.ite (fun _ => Keeps.pure _) fun _ => ?_
    exact Keeps.bind (getDword_keeps over_numberless _ _) fun mediaType => Keeps.pure _
  refine Keeps.bind hwifi fun wifi => Ensures.ite (fun _ => ?_) fun _ => Keeps.pure _
  refine Keeps.bind (adapterTable_inside hn ?_) fun _ => Keeps.pure _
  simp +contextual [adapterSettings]

theorem optimizeAllNetworkAdapters_inside :
    Keeps env (Inside env r₀) optimizeAllNetworkAdapters := by
  have htune : ∀ settings, (∀ s ∈ settings, s ∈ adapterSettings) → ∀ f : ℕ → OperationResult,
      Keeps env (Inside env r₀) (tuneAdapters settings >>= fun count => pure (f count)) :=
    fun settings hs f => Keeps.bind (tuneAdapters_inside hs) fun _ => Keeps.pure _
  refine Keeps.bind (asAdmin_inside fun _ => (htune _ (by simp +contextual [adapterSettings]) _)) fun r1 => ?_
  refine Keeps.bind (htune _ (by simp +contextual [adapterSettings]) _) fun r2 => ?_
  refine Keeps.bind (htune _ (by simp +contextual [adapterSettings]) _) fun r3 => ?_
  refine Keeps.bind (htune _ (by simp +contextual [adapterSettings]) _) fun r4 => ?_
  refine Keeps.bind (htune _ (by simp +contextual [adapterSettings]) _) fun r5 => ?_
  refine Keeps.bind optimizeWifiAdapters_inside fun r6 => ?_
  exact Keeps.bind (setWifiBackgroundScan_over false) fun r7 => Keeps.pure _

/-! The operations with one key each, and the policies. -/

theorem disableLocationServices_inside : Keeps env (Inside env r₀) disableLocationServices := by
  have hstop : Keeps env (Inside env r₀) stopLocationService := by
    have hdisable : Keeps env (Inside env r₀) (call >>= fun ok => if ok then
        modify fun w => { w with lfsvc := { w.lfsvc with disabled := true } } else pure ()) :=
      (Ensures.call over_numberless).bind fun _ =>
        Ensures.ite (fun _ => modify_over fun _ => rfl) fun _ => Keeps.pure _
    refine (Ensures.call over_numberless).bind fun hSCM => ?_
    refine (Ensures.callIf over_numberless _).bind fun hService => ?_
    refine Ensures.ite (fun _ => ?_) fun _ => Keeps.pure _
    refine (Ensures.call over_numberless).bind fun stopped => ?_
    exact Ensures.ite (fun _ => Keeps.bind (modify_over fun _ => rfl) fun _ => hdisable) fun _ => hdisable
  refine asAdmin_inside fun admin => (Keeps.bind hstop fun _ => ?_)
  exact Keeps.bind (constantTable_inside admin (by simp [constantTables])) fun _ => Keeps.pure _

theorem optimizeMMCSSGamesProfile_inside : Keeps env (Inside env r₀) optimizeMMCSSGamesProfile :=
  asAdmin_inside fun admin =>
    Keeps.bind (constantTable_inside admin (by simp [constantTables])) fun _ => Keeps.pure _

theorem optimizeMemorySubsystem_inside (isHighRam : Bool) :
    Keeps env (Inside env r₀) (optimizeMemorySubsystem isHighRam) := by
  refine asAdmin_inside fun admin => Keeps.bind (applySettings_inside fun s hs => ?_) fun _ => Keeps.pure _
  -- both tables name the same values
  have hnamed : ∃ s' ∈ memorySettings true, s'.name = s.name := by
    cases isHighRam with
    | true => exact ⟨s, hs, rfl⟩
    | false =>
      simp only [memorySettings, Bool.false_eq_true, if_false, List.mem_cons, List.not_mem_nil,
        or_false] at hs
      rcases hs with rfl | rfl <;> simp [memorySettings]
  obtain ⟨s', hs', hname⟩ := hnamed
  rw [← hname]
  exact .table admin (by simp [constantTables]) hs'

theorem policyPath_isPolicyKey {exe : String} (h : exe ∈ getDefaultGamingExecutables) :
    IsPolicyKey (path (policyPath exe)) := by
  obtain ⟨n, hgaming, hcomponents⟩ := policyPath_entry h
  exact ⟨n, hgaming, path_policyPath hcomponents⟩

/-- Without the rights the setup ends before the policies. -/
theorem setupGamingQoSPolicies_inside : Keeps env (Inside env r₀) (setupGamingQoSPolicies []) := by
  have henable : Ensures env (Inside env r₀) enableUserTOS fun res =>
      res.success = true → env.admin = true := by
    intro w hw
    have hkeeps : Keeps env (Inside env r₀) enableUserTOS := by
      refine asAdmin_inside fun admin => ?_
      refine Keeps.bind (constantTable_inside admin (by simp [constantTables])) fun b1 => ?_
      exact Keeps.bind (constantTable_inside admin (by simp [constantTables])) fun b2 => Keeps.pure _
    refine ⟨fun hsuccess => ?_, (hkeeps w hw).2⟩
    by_contra hadmin
    rw [enableUserTOS, asAdmin_run, if_neg hadmin] at hsuccess
    cases hsuccess
  refine henable.bind fun res hres => Ensures.ite (fun hsuccess => ?_) fun _ => Keeps.pure _
  refine Keeps.bind (Keeps.forEach fun exe hexe => ?_) fun _ => Keeps.pure _
  exact applySettings_inside fun s _ => .policy _ (hres hsuccess) (policyPath_isPolicyKey hexe)

/-! The rollback. -/

theorem removeGamingQoSPolicies_inside (admin : env.admin = true) :
    Keeps env (Inside env r₀) removeGamingQoSPolicies := by
  refine (enumerateSubKeys_inside qosRoot).bind fun subkeys hsubkeys => ?_
  refine Keeps.bind (Keeps.forEach fun sk hsk => ?_) fun _ => Keeps.pure _
  obtain ⟨hmem, hgaming⟩ := List.mem_filter.mp hsk
  obtain ⟨n, rfl⟩ := hsubkeys sk hmem
  exact regDeleteKey_inside admin ⟨n, hgaming, path_entry qosRoot n⟩

theorem restoreFactoryDefaults_inside : Keeps env (Inside env r₀) Rollback.restoreFactoryDefaults := by
  have hprofile : ∀ s ∈ profileDefaults, ∃ s' ∈ throttlingSettings, s'.name = s.name := by decide
  have hinterface : ∀ name ∈ interfaceValues, ∃ s ∈ noDelaySettings, s.name = name := by decide
  refine asAdmin_inside fun admin => ?_
  refine Keeps.bind (applySettings_inside fun s hs => ?_) fun _ => ?_
  · obtain ⟨s', hs', hname⟩ := hprofile s hs
    rw [← hname]
    exact .table admin (by simp [constantTables]) hs'
  refine (enumerateSubKeys_inside interfacesKey).bind fun guids hguids => ?_
  refine Keeps.bind (Keeps.forEach fun guid hguid => Keeps.forEach fun name hname => ?_) fun _ => ?_
  · obtain ⟨n, rfl⟩ := hguids guid hguid
    obtain ⟨s, hs, rfl⟩ := hinterface name hname
    exact deleteValue_inside (.interface n admin hs)
  refine Keeps.bind (removeGamingQoSPolicies_inside admin) fun _ => ?_
  refine Keeps.bind (Keeps.forEach fun cmd hcmd => system_inside (netshDefaults_not_reg cmd hcmd))
    fun _ => ?_
  exact Keeps.bind (Keeps.pure _) fun _ => Keeps.pure _

theorem Operation.run_inside (op : Operation) : Keeps env (Inside env r₀) (op.run ans) := by
  cases op with
  | networkTweaks => exact Keeps.bind applyAllNetworkTweaks_inside fun _ => Keeps.pure _
  | adapterTuning => exact Keeps.bind optimizeAllNetworkAdapters_inside fun _ => Keeps.pure _
  | multimediaProfile => exact Keeps.bind optimizeMMCSSGamesProfile_inside fun _ => Keeps.pure _
  | mtu targetHost => exact Keeps.bind (autoDetectAndApplyMtu_over targetHost) fun _ => Keeps.pure _
  | dns => exact Keeps.bind autoSelectFastestDns_over fun _ => Keeps.pure _
  | wifiEngine =>
    refine Keeps.bind optimizeWifiAdapters_inside fun _ => ?_
    refine Keeps.bind (setWifiBackgroundScan_over false) fun _ => ?_
    exact Keeps.bind disableLocationServices_inside fun _ => Keeps.pure _
  | extremeBoost isHighRam =>
    refine Keeps.bind (createBackup_over _) fun _ => ?_
    refine Keeps.bind applyAllNetworkTweaks_inside fun _ => ?_
    refine Keeps.bind optimizeAllNetworkAdapters_inside fun _ => ?_
    refine Keeps.bind disableLocationServices_inside fun _ => ?_
    refine Keeps.bind optimizeMMCSSGamesProfile_inside fun _ => ?_
    refine Keeps.bind (optimizeMemorySubsystem_inside isHighRam) fun _ => ?_
    exact Keeps.bind setupGamingQoSPolicies_inside fun _ => Keeps.pure _
  | comparison =>
    have htweaks : Keeps env (Inside env r₀) comparisonTweaks := by
      refine Keeps.bind applyAllNetworkTweaks_inside fun _ => ?_
      refine Keeps.bind optimizeAllNetworkAdapters_inside fun _ => ?_
      refine Keeps.bind optimizeMMCSSGamesProfile_inside fun _ => ?_
      exact Keeps.bind setupGamingQoSPolicies_inside fun _ => Keeps.pure _
    have hbenchmark : Keeps env (Inside env r₀) (runComparisonBenchmark ans) := by
      refine Keeps.bind (measureMetrics_keeps over_numberless) fun _ => Keeps.bind htweaks fun _ => ?_
      exact Keeps.bind (measureMetrics_keeps over_numberless) fun _ => Keeps.pure _
    exact Keeps.bind hbenchmark fun _ => Keeps.pure _
  | backup => exact Keeps.bind (createBackup_over _) fun _ => Keeps.pure _
  | restore => exact Keeps.bind restoreFactoryDefaults_inside fun _ => Keeps.pure _

end Operations

end Disping.Program
