import Disping.Program.GamingProfile

/-! # The report of a comparison

A comparison measures, tweaks and measures again. With administrator rights the second measurement
finds every flag set that the machine has a place for; without them it finds the flags of the first.
-/
namespace Disping.Program

open Hive Host Tweaks Rollback Links

variable {env : Environment} {ans : Answers} {r₀ r : Registry} {w : World}

/-- A value as the DWORD that the measurement reads. -/
def dwordAt (r : Registry) (key name : String) : Option (BitVec 32) :=
  ((r.find key name).filter fun v => v.data.length ≤ 4).bind dwordOf

/-- The measurement of a registry. -/
def metricsOf (r : Registry) (dnsResolutionMs : ℚ) : BenchmarkMetrics where
  dnsResolutionMs := dnsResolutionMs
  nagleDisabled := (interfaceKeys r).any fun key => decide (dwordAt r key "TCPNoDelay" = some 1)
  ackFrequencyOptimized := (interfaceKeys r).any fun key => decide (dwordAt r key "TcpAckFrequency" = some 1)
  networkThrottlingDisabled := decide (dwordAt r profileKey "NetworkThrottlingIndex" = some 0xFFFFFFFF)
  systemResponsivenessZero := decide (dwordAt r profileKey "SystemResponsiveness" = some 0)
  mmcssBoosted := decide (dwordAt r taskGamesKey "GPU Priority" = some 8)

theorem getDword_dwordAt (ok : env.AllSucceed) (key name : String) :
    Reads env (· = r) (getDword key name) (dwordAt r key name) :=
  getDword_reads ok fun _ hr => by rw [hr]

theorem measureInterface_reads (ok : env.AllSucceed) (g : String) :
    Reads env (· = r) (measureInterface g)
      (decide (dwordAt r (interfaceKey g) "TCPNoDelay" = some 1),
        decide (dwordAt r (interfaceKey g) "TcpAckFrequency" = some 1)) :=
  (getDword_dwordAt ok _ _).bind ((getDword_dwordAt ok _ _).bind (Reads.pure _))

theorem checkRegistryTweaks_reads (ok : env.AllSucceed) (dns : ℚ) :
    Reads env (· = r) (checkRegistryTweaks { dnsResolutionMs := dns }) (metricsOf r dns) := by
  refine (getDword_dwordAt ok _ _).bind ?_
  refine (getDword_dwordAt ok _ _).bind ?_
  refine (enumerateSubKeys_reads ok fun _ hr => by rw [hr]).bind ?_
  refine (Reads.forEach fun g _ => measureInterface_reads ok g).bind ?_
  refine (getDword_dwordAt ok _ _).bind ?_
  have hflags : ∀ f : Bool × Bool → Bool,
      (((r.subKeys (path interfacesKey)).map KeyName.text).map fun g =>
        (decide (dwordAt r (interfaceKey g) "TCPNoDelay" = some 1),
          decide (dwordAt r (interfaceKey g) "TcpAckFrequency" = some 1))).any f =
      (interfaceKeys r).any fun key => f (decide (dwordAt r key "TCPNoDelay" = some 1),
        decide (dwordAt r key "TcpAckFrequency" = some 1)) := by
    intro f
    simp only [interfaceKeys, List.any_map, Function.comp_def]
  rw [hflags, hflags]
  exact Reads.pure _

theorem measureMetrics_run (ok : env.AllSucceed) (ans : Answers) (w : World) :
    ∃ dns, (measureMetrics ans env w).1 = metricsOf w.registry dns := by
  have hdns : (benchmarkDnsResolution ans env w).2.registry = w.registry :=
    registry_of_over
      (fun _ => Keeps.bind (benchmarkDnsProviders_keeps over_numberless 2) fun _ => Keeps.pure _) w
  exact ⟨_, (checkRegistryTweaks_reads ok _ _ hdns).1⟩

section Refused

/-- Without the rights a comparison tweaks adapters only. -/
theorem comparisonTweaks_refused (admin : env.admin = false) (ok : env.AllSucceed) :
    ∃ ws, Stores env (Footing r₀) comparisonTweaks ws ∧ ∀ w ∈ ws, path rootClass <+: path w.key := by
  have htune : ∀ part, (∀ s ∈ part, s ∈ adapterSettings) →
      Stores env (Footing r₀) (tuneAdapters part) (Tweaks.writes (adapterKeys r₀) part) :=
    fun part hpart => tuneAdapters_stores ok fun s hs => adapterSettings_names s (hpart s hs)
  have hoffload := htune sendOffloadSettings (by simp +contextual [adapterSettings])
  have henergy := htune energySettings (by simp +contextual [adapterSettings])
  have hbuffers := htune bufferSettings (by simp +contextual [adapterSettings])
  have hflow := htune flowControlSettings (by simp +contextual [adapterSettings])
  have hrefused : ∀ {refusal body}, Stores env (Footing r₀) (asAdmin refusal body) [] :=
    (asAdmin_refused admin).stores
  have hnetwork : Stores env (Footing r₀) applyAllNetworkTweaks [] :=
    hrefused.nil_bind fun r1 => hrefused.nil_bind fun r2 => hrefused.nil_bind fun r3 =>
      (optimizeTcpGlobalNetsh_stores ok).bind_pure _
  have hadapters : Stores env (Footing r₀) optimizeAllNetworkAdapters _ :=
    hrefused.nil_bind fun r1 => (hoffload.bind_pure _).bind fun r2 =>
      (henergy.bind_pure _).bind fun r3 => (hbuffers.bind_pure _).bind fun r4 =>
        (hflow.bind_pure _).bind_nil fun r5 => hrefused.nil_bind fun r6 => hrefused.bind_pure _
  have hpolicies : Stores env (Footing r₀) (setupGamingQoSPolicies []) [] :=
    (asAdmin_refused admin).bind_stores (Stores.pure _)
  refine ⟨_, hnetwork.nil_bind fun _ => hadapters.bind_nil fun _ => hrefused.nil_bind fun _ =>
    hpolicies.bind_pure _, ?_⟩
  intro w hw
  have hclass : ∀ settings, w ∈ Tweaks.writes (adapterKeys r₀) settings → path rootClass <+: path w.key := by
    intro settings hmem
    obtain ⟨key, hkey, s, -, rfl⟩ := mem_writes.mp hmem
    exact (hasKey_adapter hkey).2
  simp only [List.mem_append] at hw
  rcases hw with hw | hw | hw | hw
  · exact hclass _ hw
  · exact hclass _ hw
  · exact hclass _ hw
  · exact hclass _ hw

theorem metricsOf_refused {ws : List Registry.Write} (hfooting : Footing r (r.applyAll ws))
    (hws : ∀ w ∈ ws, path rootClass <+: path w.key) (dns : ℚ) :
    metricsOf (r.applyAll ws) dns = metricsOf r dns := by
  have hsame : ∀ key name, ¬ path rootClass <+: path key →
      dwordAt (r.applyAll ws) key name = dwordAt r key name := by
    intro key name haway
    have hnone : lastBinding (ws.map Registry.Write.binding) (path key, fold name) = none := by
      rw [Option.eq_none_iff_forall_ne_some]
      intro v hv
      obtain ⟨w, hw, hbinding⟩ := List.mem_map.mp (mem_of_lastBinding hv)
      have hkey : path w.key = path key := congrArg (fun b => b.1.1) hbinding
      exact haway (hkey ▸ hws w hw)
    simp only [dwordAt, Registry.find, Registry.values_applyAll, overlay_apply, hnone, Option.none_or]
  have hkeys : interfaceKeys (r.applyAll ws) = interfaceKeys r := (SameLists.of_footing hfooting).interfaceKeys
  have hany : ∀ name, (interfaceKeys r).any (fun key => decide (dwordAt (r.applyAll ws) key name = some 1)) =
      (interfaceKeys r).any fun key => decide (dwordAt r key name = some 1) := by
    intro name
    rw [Bool.eq_iff_iff, List.any_eq_true, List.any_eq_true]
    refine exists_congr fun key => and_congr_right fun hkey => ?_
    rw [hsame key name (hasKey_interface hkey).2]
  have hprofile : ¬ path rootClass <+: path profileKey := (away_constantKeys _ (by simp)).2
  have hgames : ¬ path rootClass <+: path taskGamesKey := (away_constantKeys _ (by simp)).2
  rw [metricsOf, hkeys, hany, hany, hsame _ _ hprofile, hsame _ _ hprofile, hsame _ _ hgames, metricsOf]

end Refused

section Tweaked

theorem dwordAt_of_find {key name : String} {v : BitVec 32} (h : r.find key name = some (regDword v)) :
    dwordAt r key name = some v := by
  have hlength : (some (regDword v)).filter (fun x => decide (x.data.length ≤ 4)) = some (regDword v) := by
    rw [Option.filter_some, regDword_length]
    rfl
  rw [dwordAt, h, hlength, Option.bind_some, dwordOf_regDword]

/-- What a comparison writes outside of the policies is there afterwards. -/
theorem find_comparison {key : String} {s : Setting} (hs : s.write key ∈ tableWrites r comparisonSteps)
    (haway : ¬ path qosRoot <+: path key) :
    (r.applyAll (tableWrites r comparisonSteps)).find key s.name = some s.regValue := by
  have hfits : Operation.comparison.Fits true := trivial
  have hvalue := values_of_writes (show Operation.comparison ≠ .restore by simp) r (path key, fold s.name)
  have hprofile : gamingProfile true (s.write key).location = some s.regValue :=
    Operation.gamingProfile_writes hfits hs haway
  rw [Setting.location_write] at hprofile
  have hconcerns : Operation.comparison.concerns r (path key, fold s.name) :=
    List.mem_map.mpr ⟨_, hs, Setting.location_write key s⟩
  rcases Operation.effectAt_profile (r := r) hfits (show ¬ path qosRoot <+: (path key, fold s.name).1 from haway)
    with ⟨-, heffect⟩ | ⟨hnot, -⟩
  · rw [heffect, hprofile, Option.getD_some] at hvalue
    exact hvalue
  · exact absurd hconcerns hnot

theorem not_qosRoot_prefix_interface {key : String} (h : key ∈ interfaceKeys r) :
    ¬ path qosRoot <+: path key := by
  intro hbelow
  have hsystem := interfaceKeys_system h
  rw [prefix_getElem? hbelow (constantKeys_software qosRoot (by simp))] at hsystem
  exact system_ne_software hsystem

theorem any_eq_not_isEmpty {α : Type} {l : List α} {f : α → Bool} (h : ∀ a ∈ l, f a = true) :
    l.any f = !l.isEmpty := by
  cases l with
  | nil => rfl
  | cons a l => simp [h a (by simp)]

/-- The measurement of the registry that a comparison makes. -/
theorem metricsOf_comparison (hfooting : Footing r (r.applyAll (tableWrites r comparisonSteps))) (dns : ℚ) :
    metricsOf (r.applyAll (tableWrites r comparisonSteps)) dns =
      { dnsResolutionMs := dns
        nagleDisabled := !(interfaceKeys r).isEmpty
        ackFrequencyOptimized := !(interfaceKeys r).isEmpty
        networkThrottlingDisabled := true
        systemResponsivenessZero := true
        mmcssBoosted := true } := by
  have hprofile : ∀ s ∈ throttlingSettings, s.write profileKey ∈ tableWrites r comparisonSteps := by
    intro s hs
    refine List.mem_flatMap.mpr ⟨.applyAllNetworkTweaks, by simp [comparisonSteps], ?_⟩
    exact List.mem_append_right _ (List.mem_append_left _ (List.mem_map_of_mem hs))
  have hgames : ∀ s ∈ gamesSettings, s.write taskGamesKey ∈ tableWrites r comparisonSteps := fun s hs =>
    List.mem_flatMap.mpr ⟨.optimizeMMCSSGamesProfile, by simp [comparisonSteps], List.mem_map_of_mem hs⟩
  have hinterface : ∀ key ∈ interfaceKeys r, ∀ s ∈ noDelaySettings,
      s.write key ∈ tableWrites r comparisonSteps := by
    intro key hkey s hs
    refine List.mem_flatMap.mpr ⟨.applyAllNetworkTweaks, by simp [comparisonSteps], ?_⟩
    exact List.mem_append_left _ (mem_writes.mpr ⟨key, hkey, s, hs, rfl⟩)
  have hkeys : interfaceKeys (r.applyAll (tableWrites r comparisonSteps)) = interfaceKeys r :=
    (SameLists.of_footing hfooting).interfaceKeys
  have hthrottling := dwordAt_of_find (find_comparison (hprofile ⟨"NetworkThrottlingIndex", .dword 0xFFFFFFFF⟩
    (by simp [throttlingSettings])) profileKey_beside.2.2)
  have hresponsive := dwordAt_of_find (find_comparison (hprofile ⟨"SystemResponsiveness", .dword 0⟩
    (by simp [throttlingSettings])) profileKey_beside.2.2)
  have haway : ¬ path qosRoot <+: path taskGamesKey := by
    simp (disch := exact rfl) only [qosRoot, taskGamesKey, path_literal]
    decide
  have hgpu := dwordAt_of_find (find_comparison (hgames ⟨"GPU Priority", .dword 8⟩
    (by simp [gamesSettings])) haway)
  have hone : ∀ name, (⟨name, .dword 1⟩ : Setting) ∈ noDelaySettings → ∀ key ∈ interfaceKeys r,
      decide (dwordAt (r.applyAll (tableWrites r comparisonSteps)) key name = some 1) = true := by
    intro name hname key hkey
    exact decide_eq_true (dwordAt_of_find (find_comparison (hinterface key hkey _ hname)
      (not_qosRoot_prefix_interface hkey)))
  rw [metricsOf, hkeys, any_eq_not_isEmpty (hone "TCPNoDelay" (by simp [noDelaySettings])),
    any_eq_not_isEmpty (hone "TcpAckFrequency" (by simp [noDelaySettings])), hthrottling, hresponsive, hgpu]
  simp

end Tweaked

/-- The flags of the second measurement. -/
theorem runComparisonBenchmark_flags (ok : env.AllSucceed) (ans : Answers) (w : World) :
    (runComparisonBenchmark ans env w).1.2 =
      if env.admin then
        { dnsResolutionMs := (runComparisonBenchmark ans env w).1.2.dnsResolutionMs
          nagleDisabled := !(interfaceKeys w.registry).isEmpty
          ackFrequencyOptimized := !(interfaceKeys w.registry).isEmpty
          networkThrottlingDisabled := true
          systemResponsivenessZero := true
          mmcssBoosted := true }
      else
        { (runComparisonBenchmark ans env w).1.1 with
          dnsResolutionMs := (runComparisonBenchmark ans env w).1.2.dnsResolutionMs } := by
  have hmeasured : (measureMetrics ans env w).2.registry = w.registry :=
    registry_of_over (fun _ => measureMetrics_keeps over_numberless) w
  obtain ⟨dns, hbefore⟩ := measureMetrics_run ok ans w
  obtain ⟨dns', hafter⟩ := measureMetrics_run ok ans (comparisonTweaks env (measureMetrics ans env w).2).2
  have hrun : (runComparisonBenchmark ans env w).1 = (metricsOf w.registry dns,
      metricsOf (comparisonTweaks env (measureMetrics ans env w).2).2.registry dns') := by
    rw [← hbefore, ← hafter]
    rfl
  rw [hrun]
  have hfooted : Footing w.registry (measureMetrics ans env w).2.registry :=
    hmeasured ▸ Footing.refl w.registry
  cases admin : env.admin with
  | true =>
    have hstores : Stores env (Footing w.registry) comparisonTweaks
        (tableWrites w.registry comparisonSteps) := comparisonTweaks_stores admin ok
    obtain ⟨hstored, hfooting⟩ := hstores (measureMetrics ans env w).2 hfooted
    have hregistry := hstored.registry
    rw [hmeasured] at hregistry
    rw [hregistry] at hfooting ⊢
    rw [metricsOf_comparison hfooting]
    rfl
  | false =>
    obtain ⟨ws, hstores, hclass⟩ : ∃ ws, Stores env (Footing w.registry) comparisonTweaks ws ∧
        ∀ x ∈ ws, path rootClass <+: path x.key := comparisonTweaks_refused admin ok
    obtain ⟨hstored, hfooting⟩ := hstores (measureMetrics ans env w).2 hfooted
    have hregistry := hstored.registry
    rw [hmeasured] at hregistry
    rw [hregistry] at hfooting ⊢
    rw [metricsOf_refused hfooting hclass]
    rfl

/-- A machine with one interface. -/
def oneInterface : Registry := Registry.create .empty (components (interfaceKey "A"))

theorem runComparisonBenchmark_flags_interface :
    (runComparisonBenchmark noAnswers adminEnvironment (worldWith oneInterface)).1.2.nagleDisabled = true := by
  rw [runComparisonBenchmark_flags (fun _ => rfl)]
  decide

end Disping.Program
