import Disping.Tweaks.Attempts
import Disping.Tweaks.Tables

/-! # What the success of the network tweaks says

The report counts one interface as enough, looks at two of the three SystemProfile stores and at
none of the Tcpip parameters.
-/
namespace Disping.Tweaks

open Hive Host

/-- The stores of ApplyAllNetworkTweaks with their outcomes. -/
structure Attempted where
  /-- The three stores of each interface. -/
  interfaces : List (List (Registry.Write × Bool))
  profile : List (Registry.Write × Bool)
  parameters : List (Registry.Write × Bool)

namespace Attempted
variable (t : Attempted)

def all : List (Registry.Write × Bool) := t.interfaces.flatten ++ t.profile ++ t.parameters

/-- Some interface has its three stores, and the first two of the profile succeed. -/
def Reported : Prop :=
  (∃ stores ∈ t.interfaces, ∀ p ∈ stores, p.2 = true) ∧ ∀ p ∈ t.profile.take 2, p.2 = true

/-- A store failed without harm: the value held its target, or another store of it succeeded. -/
def Harmless (r : Registry) : Prop :=
  ∀ p ∈ t.all, p.2 = true ∨ r.values p.1.location = some p.1.value ∨
    ∃ q ∈ t.all, q.1.location = p.1.location ∧ q.2 = true

end Attempted

def interfaceWrites (guids : List String) : List Registry.Write :=
  writes (guids.map interfaceKey) noDelaySettings

def profileWrites : List Registry.Write := throttlingSettings.map (Setting.write profileKey)

def parameterWrites : List Registry.Write := tcpParameterSettings.map (Setting.write tcpKey)

/-- The values ApplyAllNetworkTweaks sets out to write. -/
def targets (guids : List String) : List Registry.Write :=
  interfaceWrites guids ++ profileWrites ++ parameterWrites

/-- What becomes of the stores when the first of them starts with call `n`. -/
def attempted (env : Environment) (n : ℕ) (guids : List String) : Attempted :=
  let afterInterfaces := callsAfter env n (interfaceWrites guids)
  { interfaces := keyAttempts env noDelaySettings n (guids.map interfaceKey)
    profile := attempts env afterInterfaces profileWrites
    parameters := attempts env (callsAfter env afterInterfaces profileWrites) parameterWrites }

variable {env : Environment} {w : World}

theorem attempted_all (env : Environment) (n : ℕ) (guids : List String) :
    (attempted env n guids).all = attempts env n (targets guids) := by
  unfold Attempted.all attempted targets
  rw [attempts_append, attempts_append, callsAfter_append, flatten_keyAttempts]
  rfl

/-- The name of a target decides its value. -/
theorem targets_agree {guids : List String} {p q : Registry.Write} (hp : p ∈ targets guids)
    (hq : q ∈ targets guids) (h : p.location = q.location) : p.value = q.value := by
  let named := noDelaySettings ++ throttlingSettings ++ tcpParameterSettings
  have hsetting : ∀ x ∈ targets guids, ∃ s ∈ named, fold s.name = x.location.2 ∧
      s.regValue = x.value := by
    intro x hx
    rcases List.mem_append.mp hx with hx | hx
    · rcases List.mem_append.mp hx with hx | hx
      · obtain ⟨key, -, s, hs, rfl⟩ := mem_writes.mp hx
        exact ⟨s, by simp [named, hs], rfl, rfl⟩
      · obtain ⟨s, hs, rfl⟩ := List.mem_map.mp hx
        exact ⟨s, by simp [named, hs], rfl, rfl⟩
    · obtain ⟨s, hs, rfl⟩ := List.mem_map.mp hx
      exact ⟨s, by simp [named, hs], rfl, rfl⟩
  obtain ⟨s, hs, hsname, hsvalue⟩ := hsetting p hp
  obtain ⟨t, ht, htname, htvalue⟩ := hsetting q hq
  have hdistinct : (named.map fun s => fold s.name).Nodup := by
    decide
  have heq : s = t := by
    refine List.inj_on_of_nodup_map hdistinct hs ht ?_
    rw [hsname, htname, h]
  rw [← hsvalue, ← htvalue, heq]

/-- A target holds after the stores exactly when one of them set it or it held before. -/
theorem overlay_target {guids : List String} {ps : List (Registry.Write × Bool)}
    (hps : ∀ p ∈ ps, p.1 ∈ targets guids) {x : Registry.Write} (hx : x ∈ targets guids)
    (f : Location → Option RegValue) :
    overlay f (made ps) x.location = some x.value ↔
      f x.location = some x.value ∨ ∃ q ∈ ps, q.1.location = x.location ∧ q.2 = true := by
  rw [overlay_apply]
  cases hlast : lastBinding (made ps) x.location with
  | some v =>
    obtain ⟨q, hq, hdone, hloc, rfl⟩ := mem_made.mp (mem_of_lastBinding hlast)
    have hvalue := targets_agree (hps q hq) hx hloc
    simp only [Option.some_or, hvalue, true_iff]
    exact .inr ⟨q, hq, hloc, hdone⟩
  | none =>
    rw [Option.none_or]
    refine ⟨.inl, fun h => h.resolve_right ?_⟩
    rintro ⟨q, hq, hloc, hdone⟩
    obtain ⟨v, hv⟩ := exists_lastBinding (mem_made.mpr ⟨q, hq, hdone, hloc, rfl⟩)
    exact absurd (hv.symm.trans hlast) (Option.some_ne_none v)

theorem optimizeTcpGlobalNetsh_registry (env : Environment) (w : World) :
    (optimizeTcpGlobalNetsh env w).2.registry = w.registry := by
  have hI : Numberless fun w' => w'.registry = w.registry := fun _ _ h => h
  have hrun : ∀ cmd, regAddition (command cmd) = none →
      Keeps env (fun w' => w'.registry = w.registry) (runCommand cmd) := fun cmd hcmd =>
    Ensures.runCommand hI (fun _ h => h) fun w' h => (effect_registry hcmd w').trans h
  have hkeeps : Keeps env (fun w' => w'.registry = w.registry) optimizeTcpGlobalNetsh := by
    unfold optimizeTcpGlobalNetsh
    refine Keeps.bind (Keeps.forEach fun cmd hcmd => ?_) fun log => ?_
    · exact (hrun cmd (netsh_not_reg cmd (List.mem_append_left _ hcmd))).bind
        fun _ => Keeps.pure _
    · refine Keeps.bind (hrun _ (netsh_not_reg _ (by simp))) fun bbrOut => ?_
      refine Ensures.ite (fun _ => ?_) fun _ => Keeps.pure _
      refine Keeps.bind (hrun _ (netsh_not_reg _ (by simp))) fun cubicOut => ?_
      refine Ensures.ite (fun _ => ?_) fun _ => Keeps.pure _
      exact ((hrun _ (netsh_not_reg _ (by simp))).bind fun _ => Keeps.pure _).bind
        fun _ _ => Keeps.pure _
  exact (hkeeps w rfl).2

theorem enumerateSubKeys_registry (env : Environment) (key : String) (w : World) :
    (enumerateSubKeys key env w).2.registry = w.registry := by
  have hI : Numberless fun w' => w'.registry = w.registry := fun _ _ h => h
  exact (Ensures.enumerateSubKeys (P := fun _ => True) hI trivial (fun _ _ _ _ => trivial) w rfl).2

section Administrator

variable (admin : env.admin = true)

include admin

theorem optimizeTcpNoDelayAndAckFrequency_report :
    let enumerated := getInterfaceGuids env w
    let r := optimizeTcpNoDelayAndAckFrequency env w
    (r.1.success = true ↔ ∃ stores ∈ keyAttempts env noDelaySettings enumerated.2.calls
        (enumerated.1.map interfaceKey), ∀ p ∈ stores, p.2 = true) ∧
      Tried env (interfaceWrites enumerated.1) enumerated.2 r.2 := by
  intro enumerated r
  have hr : r = (if enumerated.1 = [] then
      pure { success := false, message := "No network interface GUIDs found in registry." }
      else do
        let stored ← forEach (fun guid => applySettings (interfaceKey guid) noDelaySettings)
          enumerated.1
        let successCount := stored.countP fun bs => bs.all id
        pure { success := decide (successCount > 0)
               message := "Optimized TCPNoDelay & TcpAckFrequency across " ++
                 toString successCount ++ " interfaces." } : Win OperationResult)
      env enumerated.2 := by
    unfold r optimizeTcpNoDelayAndAckFrequency
    rw [asAdmin_run, if_pos admin]
    rfl
  by_cases hnil : enumerated.1 = []
  · rw [hr, if_pos hnil, hnil]
    exact ⟨by simp [keyAttempts], Tried.refl env _⟩
  · obtain ⟨hstored, htried⟩ := forEach_applySettings_tried env noDelaySettings
      (enumerated.1.map interfaceKey) enumerated.2
    rw [forEach_map] at hstored htried
    rw [hr, if_neg hnil]
    refine ⟨?_, htried⟩
    simp only [bind_run, pure_run, hstored, decide_eq_true_eq, gt_iff_lt, List.countP_pos_iff,
      List.mem_map, List.all_eq_true, id_eq]
    constructor
    · rintro ⟨_, ⟨stores, hmem, rfl⟩, hall⟩
      exact ⟨stores, hmem, fun p hp => hall _ (List.mem_map_of_mem hp)⟩
    · rintro ⟨stores, hmem, hall⟩
      refine ⟨_, ⟨stores, hmem, rfl⟩, fun b hb => ?_⟩
      obtain ⟨p, hp, rfl⟩ := List.mem_map.mp hb
      exact hall p hp

theorem optimizeNetworkThrottlingAndResponsiveness_report :
    let r := optimizeNetworkThrottlingAndResponsiveness env w
    (r.1.success = true ↔ ∀ p ∈ (attempts env w.calls profileWrites).take 2, p.2 = true) ∧
      Tried env profileWrites w r.2 := by
  intro r
  obtain ⟨hstored, htried⟩ := applySettings_tried env profileKey throttlingSettings w
  have hsuccess : r.1.success =
      ((applySettings profileKey throttlingSettings env w).1.take 2).all id := by
    unfold r optimizeNetworkThrottlingAndResponsiveness
    rw [asAdmin_run, if_pos admin]
    rfl
  have hworld : r.2 = (applySettings profileKey throttlingSettings env w).2 := by
    unfold r optimizeNetworkThrottlingAndResponsiveness
    rw [asAdmin_run, if_pos admin]
    rfl
  rw [hsuccess, hworld, hstored, ← List.map_take, List.all_map, List.all_eq_true]
  exact ⟨Iff.rfl, htried⟩

theorem optimizeTcpParameters_report :
    (optimizeTcpParameters env w).1.success = true ∧
      Tried env parameterWrites w (optimizeTcpParameters env w).2 := by
  have hrun : optimizeTcpParameters env w =
      ({ success := true
         message := "Configured optimal TCP/IP global parameters (TTL, MaxUserPort, TimedWaitDelay)." },
        (applySettings tcpKey tcpParameterSettings env w).2) := by
    unfold optimizeTcpParameters
    rw [asAdmin_run, if_pos admin]
    rfl
  rw [hrun]
  exact ⟨rfl, (applySettings_tried env tcpKey tcpParameterSettings w).2⟩

theorem applyAllNetworkTweaks_report :
    let enumerated := getInterfaceGuids env w
    let r := applyAllNetworkTweaks env w
    (r.1.success = true ↔ (attempted env enumerated.2.calls enumerated.1).Reported) ∧
      r.2.registry.values = overlay w.registry.values
        (made (attempted env enumerated.2.calls enumerated.1).all) := by
  intro enumerated r
  obtain ⟨hok₁, htried₁⟩ := optimizeTcpNoDelayAndAckFrequency_report (w := w) admin
  obtain ⟨hok₂, htried₂⟩ := optimizeNetworkThrottlingAndResponsiveness_report
    (w := (optimizeTcpNoDelayAndAckFrequency env w).2) admin
  obtain ⟨hok₃, htried₃⟩ := optimizeTcpParameters_report (w :=
    (optimizeNetworkThrottlingAndResponsiveness env
      (optimizeTcpNoDelayAndAckFrequency env w).2).2) admin
  have hsuccess : r.1.success =
      ((optimizeTcpNoDelayAndAckFrequency env w).1.success &&
        (optimizeNetworkThrottlingAndResponsiveness env
          (optimizeTcpNoDelayAndAckFrequency env w).2).1.success &&
        (optimizeTcpParameters env (optimizeNetworkThrottlingAndResponsiveness env
          (optimizeTcpNoDelayAndAckFrequency env w).2).2).1.success) := rfl
  have hregistry : r.2.registry = (optimizeTcpParameters env
      (optimizeNetworkThrottlingAndResponsiveness env
        (optimizeTcpNoDelayAndAckFrequency env w).2).2).2.registry :=
    optimizeTcpGlobalNetsh_registry env _
  constructor
  · rw [hsuccess, hok₃, Bool.and_true, Bool.and_eq_true, hok₁, hok₂, htried₁.calls]
    rfl
  · have hall := (htried₁.trans htried₂).trans htried₃
    rw [hregistry, hall.values, attempted_all]
    congr 1
    exact congrArg Registry.values (enumerateSubKeys_registry env interfacesKey w)

/-- A report that a missing target belies. -/
theorem not_targets_of_missing {x : Registry.Write}
    (hx : x ∈ targets (getInterfaceGuids env w).1)
    (hreported : (attempted env (getInterfaceGuids env w).2.calls
      (getInterfaceGuids env w).1).Reported)
    (hmissing : overlay w.registry.values (made (attempted env (getInterfaceGuids env w).2.calls
      (getInterfaceGuids env w).1).all) x.location ≠ some x.value) :
    ¬ ((applyAllNetworkTweaks env w).1.success = true →
      ∀ x ∈ targets (getInterfaceGuids env w).1,
        (applyAllNetworkTweaks env w).2.registry.values x.location = some x.value) := by
  obtain ⟨hsuccess, hvalues⟩ := applyAllNetworkTweaks_report (w := w) admin
  intro h
  rw [hvalues] at h
  exact hmissing (h (hsuccess.mpr hreported) x hx)

end Administrator

/-- Without the privileges nothing succeeds. -/
theorem applyAllNetworkTweaks_refused (admin : env.admin = false) (w : World) :
    (applyAllNetworkTweaks env w).1.success = false := by
  have hfirst : (optimizeTcpNoDelayAndAckFrequency env w).1.success = false := by
    unfold optimizeTcpNoDelayAndAckFrequency
    rw [asAdmin_run, admin]
    rfl
  have hsuccess : (applyAllNetworkTweaks env w).1.success =
      ((optimizeTcpNoDelayAndAckFrequency env w).1.success && _ && _) := rfl
  rw [hsuccess, hfirst]
  rfl

/-- When a reported success is true: either nothing is reported, as the privileges, an interface
with its three stores or one of the first two profile stores is missing, or each store that failed
did no harm. -/
theorem success_means_targets_iff (env : Environment) (w : World) :
    let enumerated := getInterfaceGuids env w
    let tried := attempted env enumerated.2.calls enumerated.1
    let r := applyAllNetworkTweaks env w
    (r.1.success = true →
        ∀ x ∈ targets enumerated.1, r.2.registry.values x.location = some x.value) ↔
      ¬ (env.admin = true ∧ tried.Reported) ∨ tried.Harmless w.registry := by
  intro enumerated tried r
  cases hadmin : env.admin with
  | false =>
    have hfails : r.1.success = false := applyAllNetworkTweaks_refused hadmin w
    simp [hfails]
  | true =>
    obtain ⟨hsuccess, hvalues⟩ := applyAllNetworkTweaks_report (w := w) hadmin
    have hmem : ∀ p ∈ tried.all, p.1 ∈ targets enumerated.1 := by
      intro p hp
      rw [← map_fst_attempts env enumerated.2.calls (targets enumerated.1), ← attempted_all]
      exact List.mem_map_of_mem hp
    have hholds : (∀ x ∈ targets enumerated.1,
        r.2.registry.values x.location = some x.value) ↔ tried.Harmless w.registry := by
      rw [hvalues, ← map_fst_attempts env enumerated.2.calls (targets enumerated.1),
        ← attempted_all, List.forall_mem_map]
      refine forall₂_congr fun p hp => ?_
      rw [overlay_target hmem (hmem p hp)]
      constructor
      · rintro (hheld | hdone)
        · exact .inr (.inl hheld)
        · exact .inr (.inr hdone)
      · rintro (hdone | hheld | hdone)
        · exact .inr ⟨p, hp, rfl, hdone⟩
        · exact .inl hheld
        · exact .inr hdone
    have hreported : r.1.success = true ↔ tried.Reported := hsuccess
    rw [hreported, hholds, imp_iff_not_or, eq_self_iff_true, true_and]

/-- The environment that fails one call, the opening of the key for MaxUserPort. -/
def maxUserPortFails : Environment where
  admin := true
  succeeds n := decide (n ≠ 17)
  output _ := ""
  buildStamp := ""
  wlanInterfaces := 0

/-- A machine with one interface and no values. -/
def oneInterface : World where
  registry := .create .empty (components (interfaceKey "A"))
  written := []
  netsh _ := none
  commands := []
  files _ := none
  lfsvc := ⟨true, false⟩
  autoconf _ := true
  calls := 0

theorem oneInterface_guids : (getInterfaceGuids maxUserPortFails oneInterface).1 = ["A"] ∧
    (getInterfaceGuids maxUserPortFails oneInterface).2.calls = 3 := by
  decide

theorem oneInterface_values (loc : Location) : oneInterface.registry.values loc = none :=
  congrFun (Registry.values_create .empty _) loc

def maxUserPort : Registry.Write := Setting.write tcpKey ⟨"MaxUserPort", .dword 65534⟩

theorem maxUserPort_mem : maxUserPort ∈ targets ["A"] := by
  simp [maxUserPort, targets, parameterWrites, tcpParameterSettings]

/-- MaxUserPort is missing, which the message names: success is reported all the same. -/
theorem success_without_maxUserPort :
    ¬ ((applyAllNetworkTweaks maxUserPortFails oneInterface).1.success = true →
      ∀ x ∈ targets (getInterfaceGuids maxUserPortFails oneInterface).1,
        (applyAllNetworkTweaks maxUserPortFails oneInterface).2.registry.values x.location =
          some x.value) := by
  -- no store that succeeds has the name, whatever its key
  have hothers : ∀ p ∈ (attempted maxUserPortFails 3 ["A"]).all, p.2 = true →
      p.1.location.2 ≠ maxUserPort.location.2 := by decide
  have hreported : (attempted maxUserPortFails 3 ["A"]).Reported := by
    constructor
    · exact ⟨_, List.mem_cons_self, by decide⟩
    · decide
  have hadmin : maxUserPortFails.admin = true := rfl
  refine not_targets_of_missing hadmin (x := maxUserPort) ?_ ?_ ?_
  · rw [oneInterface_guids.1]
    exact maxUserPort_mem
  · rw [oneInterface_guids.1, oneInterface_guids.2]
    exact hreported
  · rw [oneInterface_guids.1, oneInterface_guids.2, overlay_made_of_ne
      fun p hp hdone hloc => hothers p hp hdone (congrArg Prod.snd hloc), oneInterface_values]
    exact (Option.some_ne_none _).symm

end Disping.Tweaks
