import Disping.Rollback.Restore

/-! # What a rollback leaves of the tweaks

The restore is a list of resets kept apart from the operations it takes back. A value the
operations stored survives it unless it is one of the two profile values, one of the three values
of an interface, or belongs to a policy that the restore deletes.
-/
namespace Disping.Rollback

open Hive Host Tweaks

variable {env : Environment} {r₀ : Registry}

/-- The values of the sequence that the restore resets or deletes. A policy goes when the key,
if it was there before, is spelled with the prefix and has no subkeys. -/
def RolledBack (r₀ : Registry) (loc : Location) : Prop :=
  loc ∈ profileReset.map Prod.fst ∨ interfaceReset r₀ loc = true ∨
    (∃ exe ∈ getDefaultGamingExecutables, loc.1 = path (policyPath exe)) ∧
      (∀ k ∈ r₀.keys, k.path = loc.1 → isGamingPolicy k.name.text = true) ∧ r₀.subKeys loc.1 = []

/-! Where the tables write. -/

theorem system_of_prefix {root key : String} (hroot : (path root)[0]? = some (fold "SYSTEM"))
    (h : path root <+: path key) : (path key)[0]? = some (fold "SYSTEM") :=
  prefix_getElem? h hroot

theorem interfaceKeys_system {key : String} (h : key ∈ interfaceKeys r₀) :
    (path key)[0]? = some (fold "SYSTEM") := by
  rw [interfaceKeys, List.map_map] at h
  obtain ⟨n, -, rfl⟩ := List.mem_map.mp h
  refine system_of_prefix (constantKeys_system interfacesKey (by simp)) ?_
  simp only [Function.comp, interfaceKey, path_child]
  exact List.prefix_append _ _

theorem adapterKeys_system {key : String} (h : key ∈ adapterKeys r₀) :
    (path key)[0]? = some (fold "SYSTEM") :=
  system_of_prefix (constantKeys_system rootClass (by simp)) (hasKey_adapter h).2

/-- Whose table a write of the sequence belongs to. -/
theorem tableWrites_cases {ts : List Tweak} {w : Registry.Write} (h : w ∈ tableWrites r₀ ts) :
    (path w.key)[0]? = some (fold "SYSTEM") ∨
    w ∈ throttlingSettings.map (Setting.write profileKey) ∨
    w ∈ gamesSettings.map (Setting.write taskGamesKey) ∨
    ∃ exe ∈ getDefaultGamingExecutables, w ∈ (policySettings exe).map (Setting.write (policyPath exe)) := by
  obtain ⟨t, -, hw⟩ := List.mem_flatMap.mp h
  have hconstant : ∀ key ∈ [interfacesKey, rootClass, tcpKey, lfsvcKey, mmKey, qosKey],
      ∀ settings : List Setting, w ∈ settings.map (Setting.write key) →
        (path w.key)[0]? = some (fold "SYSTEM") := by
    intro key hkey settings hmem
    obtain ⟨s, -, rfl⟩ := List.mem_map.mp hmem
    exact constantKeys_system key hkey
  have hadapter : ∀ keys settings, (∀ key ∈ keys, key ∈ adapterKeys r₀) → w ∈ writes keys settings →
      (path w.key)[0]? = some (fold "SYSTEM") := by
    intro keys settings hkeys hmem
    obtain ⟨key, hkey, s, -, rfl⟩ := mem_writes.mp hmem
    exact adapterKeys_system (hkeys key hkey)
  have hall : ∀ settings, w ∈ writes (adapterKeys r₀) settings →
      (path w.key)[0]? = some (fold "SYSTEM") := fun settings => hadapter _ settings fun _ hk => hk
  cases t with
  | applyAllNetworkTweaks =>
    simp only [Tweak.writes, List.mem_append] at hw
    rcases hw with hw | hw | hw
    · obtain ⟨key, hkey, s, -, rfl⟩ := mem_writes.mp hw
      exact Or.inl (interfaceKeys_system hkey)
    · exact Or.inr (Or.inl hw)
    · exact Or.inl (hconstant tcpKey (by simp) _ hw)
  | optimizeAllNetworkAdapters =>
    simp only [Tweak.writes, List.mem_append] at hw
    rcases hw with hw | hw | hw | hw | hw | hw
    · exact Or.inl (hall _ hw)
    · exact Or.inl (hall _ hw)
    · exact Or.inl (hall _ hw)
    · exact Or.inl (hall _ hw)
    · exact Or.inl (hall _ hw)
    · exact Or.inl (hadapter _ _ (fun key hkey => (List.mem_filter.mp hkey).1) hw)
  | disableLocationServices => exact Or.inl (hconstant lfsvcKey (by simp) _ hw)
  | optimizeMMCSSGamesProfile => exact Or.inr (Or.inr (Or.inl hw))
  | optimizeMemorySubsystem isHighRam => exact Or.inl (hconstant mmKey (by simp) _ hw)
  | setupGamingQoSPolicies =>
    simp only [Tweak.writes, List.mem_append, List.mem_flatMap] at hw
    rcases hw with (hw | hw) | hw
    · exact Or.inl (hconstant tosKey (by simp [tosKey, tcpKey]) _ hw)
    · exact Or.inl (hconstant qosKey (by simp) _ hw)
    · exact Or.inr (Or.inr (Or.inr hw))

/-- The key of a default policy. -/
theorem policyPath_entry {exe : String} (h : exe ∈ getDefaultGamingExecutables) :
    ∃ n : KeyName, isGamingPolicy n.text = true ∧
      components (policyPath exe) = components qosRoot ++ [n] := by
  have hplain : ∀ exe ∈ getDefaultGamingExecutables, '\\' ∉ (policyPrefix ++ exe).toList := by
    simp (disch := exact rfl) only [getDefaultGamingExecutables, policyPrefix, List.forall_mem_cons,
      String.toList_append, toList_literal]
    decide
  have hne : (policyPrefix ++ exe).toList ≠ [] := by simp [policyPrefix]
  refine ⟨⟨policyPrefix ++ exe, hne, hplain exe h⟩, ?_, ?_⟩
  · simp only [isGamingPolicy, String.toList_append, decide_eq_true_eq]
    exact List.prefix_append _ _
  · exact components_entry qosRoot ⟨policyPrefix ++ exe, hne, hplain exe h⟩

theorem path_policyPath {exe : String} {n : KeyName}
    (h : components (policyPath exe) = components qosRoot ++ [n]) :
    path (policyPath exe) = path qosRoot ++ [n.folded] := by
  rw [path, h, List.map_append]
  rfl

/-- Of the tables only the policies lie below the policy root. -/
theorem policy_of_prefix {ts : List Tweak} {w : Registry.Write} (h : w ∈ tableWrites r₀ ts)
    (hroot : path qosRoot <+: path w.key) :
    ∃ exe ∈ getDefaultGamingExecutables, w.key = policyPath exe := by
  have hsoftware : (path qosRoot)[0]? = some (fold "SOFTWARE") :=
    constantKeys_software qosRoot (by simp)
  have hprofile : ¬ path qosRoot <+: path profileKey := profileKey_beside.2.2
  have hgames : ¬ path qosRoot <+: path taskGamesKey := constantKeys_apart.2.2.2.1
  rcases tableWrites_cases h with hsystem | hw | hw | ⟨exe, hexe, hw⟩
  · rw [prefix_getElem? hroot hsoftware] at hsystem
    exact absurd hsystem system_ne_software
  · obtain ⟨s, -, rfl⟩ := List.mem_map.mp hw
    exact absurd hroot hprofile
  · obtain ⟨s, -, rfl⟩ := List.mem_map.mp hw
    exact absurd hroot hgames
  · obtain ⟨s, -, rfl⟩ := List.mem_map.mp hw
    exact ⟨exe, hexe, rfl⟩

/-- Of the tables only the throttling one stores values of the profile key. -/
theorem throttling_of_path {ts : List Tweak} {w : Registry.Write} (h : w ∈ tableWrites r₀ ts)
    (hkey : path w.key = path profileKey) :
    w ∈ throttlingSettings.map (Setting.write profileKey) := by
  have hgames : path taskGamesKey ≠ path profileKey := constantKeys_apart.2.2.2.2
  rcases tableWrites_cases h with hsystem | hw | hw | ⟨exe, -, hw⟩
  · rw [hkey, constantKeys_software profileKey (by simp)] at hsystem
    exact absurd hsystem system_ne_software
  · exact hw
  · obtain ⟨s, -, rfl⟩ := List.mem_map.mp hw
    exact absurd hkey hgames
  · obtain ⟨s, -, rfl⟩ := List.mem_map.mp hw
    have hroot : path qosRoot <+: path profileKey := by
      rw [← hkey]
      simp only [Setting.write, policyPath, path_child]
      exact List.prefix_append _ _
    exact absurd hroot profileKey_beside.2.2

/-! What the sequence leaves for the restore. -/

/-- The registry that the sequence leaves. -/
structure Applied (r₀ r : Registry) (ts : List Tweak) : Prop where
  registry : r = r₀.applyAll (tableWrites r₀ ts)
  footing : Footing r₀ r

variable {r : Registry} {ts : List Tweak}

theorem Applied.values (h : Applied r₀ r ts) (loc : Location) : r.values loc =
    (lastBinding ((tableWrites r₀ ts).map Registry.Write.binding) loc).or (r₀.values loc) := by
  rw [h.registry, Registry.values_applyAll, overlay_apply]

theorem Applied.interfaceReset (h : Applied r₀ r ts) :
    Rollback.interfaceReset r = Rollback.interfaceReset r₀ :=
  interfaceReset_congr h.footing.interfaces

/-- No table goes on below a policy key. -/
theorem Applied.subKeys_policy (h : Applied r₀ r ts) (n : Name) :
    r.subKeys (path qosRoot ++ [n]) = r₀.subKeys (path qosRoot ++ [n]) := by
  rw [h.registry]
  refine Registry.subKeys_applyAll _ fun w hw m hm => ?_
  rw [List.append_assoc] at hm
  obtain ⟨exe, hexe, hkey⟩ := policy_of_prefix hw ((List.prefix_append _ _).trans hm)
  obtain ⟨k, -, hk⟩ := policyPath_entry hexe
  rw [hkey, path_policyPath hk] at hm
  simpa using hm.length_le

/-- A key right below the policy root that the sequence made is spelled with the prefix. -/
theorem Applied.gaming_of_new (h : Applied r₀ r ts) {k : KeyEntry} (hk : k ∈ r.keys)
    (hold : k ∉ r₀.keys) (hparent : k.parent = path qosRoot) :
    isGamingPolicy k.name.text = true := by
  rw [h.registry] at hk
  rcases Registry.mem_keys_applyAll _ hk with hk | ⟨w, hw, before, after, hcs, hbefore⟩
  · exact absurd hk hold
  · have hroot : path qosRoot = before.map KeyName.folded := by rw [← hparent, hbefore]
    have hprefix : path qosRoot <+: path w.key := by
      rw [hroot, path, hcs, List.map_append]
      exact List.prefix_append _ _
    obtain ⟨exe, hexe, hkey⟩ := policy_of_prefix hw hprefix
    obtain ⟨n, hn, hcomponents⟩ := policyPath_entry hexe
    have hlen : before.length = (components qosRoot).length := by
      simpa [path] using (congrArg List.length hroot).symm
    rw [hkey, hcomponents] at hcs
    obtain ⟨-, hlast⟩ := List.append_inj hcs.symm hlen
    rw [(List.cons.inj hlast).1]
    exact hn

/-- Among the locations the sequence wrote, the deleted policies. -/
theorem Applied.policyRemoved_iff (h : Applied r₀ r ts) {w : Registry.Write}
    (hw : w ∈ tableWrites r₀ ts) : policyRemoved r w.location = true ↔
      (∃ exe ∈ getDefaultGamingExecutables, path w.key = path (policyPath exe)) ∧
        (∀ k ∈ r₀.keys, k.path = path w.key → isGamingPolicy k.name.text = true) ∧
        r₀.subKeys (path w.key) = [] := by
  constructor
  · intro hremoved
    obtain ⟨n, hn, hemptied⟩ := List.any_eq_true.mp hremoved
    obtain ⟨hmem, hgaming⟩ := List.mem_filter.mp hn
    obtain ⟨hloc, hsub⟩ := of_decide_eq_true hemptied
    have hkey : path w.key = path qosRoot ++ [n.folded] := hloc
    obtain ⟨exe, hexe, hexeKey⟩ := policy_of_prefix hw (hkey ▸ List.prefix_append _ _)
    refine ⟨⟨exe, hexe, by rw [hexeKey]⟩, fun k hk hpath => ?_, ?_⟩
    · have hsame : k = ⟨path qosRoot, n⟩ :=
        r.eq_of_path (h.footing.keys hk) (r.mem_subKeys.mp hmem) (hpath.trans hkey)
      rw [hsame]
      exact hgaming
    · rw [hkey, ← h.subKeys_policy, ← hkey]
      exact hsub
  · rintro ⟨⟨exe, hexe, hexeKey⟩, hspelled, hsub⟩
    obtain ⟨m, -, hcomponents⟩ := policyPath_entry hexe
    have hkey : path w.key = path qosRoot ++ [m.folded] := by
      rw [hexeKey, path_policyPath hcomponents]
    obtain ⟨v, hv⟩ := exists_lastBinding (List.mem_map_of_mem (f := Registry.Write.binding) hw)
    have hvalue : r.values w.location ≠ none := by
      have hlast : r.values w.location = (some v).or (r₀.values w.location) := by
        rw [h.values, ← hv]
        rfl
      rw [hlast]
      exact Option.some_ne_none v
    rcases r.owned _ _ hvalue with hnil | hhas
    · exact absurd (hkey.symm.trans hnil) (by simp)
    · obtain ⟨k, hk, hkpath⟩ := List.mem_map.mp hhas
      have hsplit : k.parent ++ [k.name.folded] = path qosRoot ++ [m.folded] := hkpath.trans hkey
      have hparent : k.parent = path qosRoot := (List.append_inj' hsplit rfl).1
      have hgaming : isGamingPolicy k.name.text = true := by
        by_cases hold : k ∈ r₀.keys
        · exact hspelled k hold hkpath
        · exact h.gaming_of_new hk hold hparent
      refine List.any_eq_true.mpr ⟨k.name, List.mem_filter.mpr ⟨?_, hgaming⟩, ?_⟩
      · rw [Registry.mem_subKeys, ← hparent]
        exact hk
      · refine decide_eq_true ⟨?_, ?_⟩
        · rw [← hparent]
          exact hkpath.symm
        · have hsame : r.subKeys (path w.key) = r₀.subKeys (path w.key) := by
            rw [hkey, h.subKeys_policy]
          exact hsame.trans hsub

/-- Where the restore acts on what the sequence wrote. -/
theorem Applied.rolledBack_iff (h : Applied r₀ r ts) {w : Registry.Write}
    (hw : w ∈ tableWrites r₀ ts) : RolledBack r₀ w.location ↔
      w.location ∈ profileReset.map Prod.fst ∨
        (Rollback.interfaceReset r w.location || policyRemoved r w.location) = true := by
  rw [Bool.or_eq_true, h.policyRemoved_iff hw, h.interfaceReset]
  rfl

/-- A value that was not rolled back is the last one written. -/
theorem Applied.restored_of_not (h : Applied r₀ r ts) {w : Registry.Write}
    (hw : w ∈ tableWrites r₀ ts) (hnot : ¬ RolledBack r₀ w.location) :
    restoredValues r w.location =
      lastBinding ((tableWrites r₀ ts).map Registry.Write.binding) w.location := by
  rw [h.rolledBack_iff hw, not_or] at hnot
  obtain ⟨hprofile, hgone⟩ := hnot
  obtain ⟨v, hv⟩ := exists_lastBinding (List.mem_map_of_mem (f := Registry.Write.binding) hw)
  have hbinding : lastBinding ((tableWrites r₀ ts).map Registry.Write.binding) w.location =
      some v := hv
  have hreset : lastBinding profileReset w.location = none := by
    by_contra hsome
    obtain ⟨u, hu⟩ := Option.ne_none_iff_exists'.mp hsome
    exact hprofile (List.mem_map_of_mem (mem_of_lastBinding hu))
  rw [restoredValues, Registry.without, if_neg hgone, overlay_apply, hreset, h.values, hbinding]
  rfl

/-- The restore's own values differ from all that the throttling table stores. -/
theorem profileReset_differs : ∀ b ∈ profileReset,
    ∀ w ∈ throttlingSettings.map (Setting.write profileKey), b.2 ≠ w.value := by
  decide

theorem Applied.restored_of_rolledBack (h : Applied r₀ r ts) {w : Registry.Write}
    (hw : w ∈ tableWrites r₀ ts) (hback : RolledBack r₀ w.location) :
    restoredValues r w.location ≠ some w.value := by
  unfold restoredValues Registry.without
  split
  · exact (Option.some_ne_none w.value).symm
  · rename_i hgone
    rw [h.rolledBack_iff hw] at hback
    have hprofile := hback.resolve_right hgone
    obtain ⟨b, hb, hloc⟩ := List.mem_map.mp hprofile
    obtain ⟨v, hv⟩ := exists_lastBinding hb
    rw [hloc] at hv
    have hkey : path w.key = path profileKey := by
      obtain ⟨x, hx, rfl⟩ := List.mem_map.mp hb
      obtain ⟨s, -, rfl⟩ := List.mem_map.mp hx
      rw [← w.location_fst, ← hloc]
      simp only [Registry.Write.binding, Registry.Write.location, Setting.write]
    rw [overlay_apply, hv, Option.some_or]
    intro heq
    exact profileReset_differs _ (mem_of_lastBinding hv) w (throttling_of_path hw hkey)
      (Option.some.inj heq)

/-! The rollback of a whole sequence. -/

/-- The world after the sequence, with the record of stored values begun afresh. -/
def tweaked (env : Environment) (ts : List Tweak) (w₀ : World) : World :=
  (runTweaks ts env { w₀ with written := [] }).2

/-- After the restore no value that the sequence stored holds what was stored, unless it did
before. -/
def Undone (env : Environment) (ts : List Tweak) (w₀ : World) : Prop :=
  ∀ write ∈ (tweaked env ts w₀).written,
    (restoreFactoryDefaults env (tweaked env ts w₀)).2.registry.find write.key write.name =
      some write.value →
    w₀.registry.find write.key write.name = some write.value

/-- Every value the sequence sets and the restore leaves alone held what it is set to last. -/
def HeldBefore (r₀ : Registry) (ts : List Tweak) : Prop :=
  ∀ loc v, lastBinding ((tableWrites r₀ ts).map Registry.Write.binding) loc = some v →
    ¬ RolledBack r₀ loc → r₀.values loc = some v

theorem tweaked_applied (admin : env.admin = true) (ok : env.AllSucceed) (ts : List Tweak)
    (w₀ : World) : Applied w₀.registry (tweaked env ts w₀).registry ts ∧
      (tweaked env ts w₀).written = tableWrites w₀.registry ts := by
  obtain ⟨hstored, hfooting⟩ :=
    runTweaks_stores admin ok ts { w₀ with written := [] } (Footing.refl w₀.registry)
  exact ⟨⟨hstored.registry, hfooting⟩, hstored.written⟩

theorem heldBefore_of_undone (admin : env.admin = true) (ok : env.AllSucceed) {w₀ : World}
    (h : Undone env ts w₀) : HeldBefore w₀.registry ts := by
  obtain ⟨happlied, hwritten⟩ := tweaked_applied admin ok ts w₀
  intro loc v hv hnot
  obtain ⟨w, hw, hbinding⟩ := List.mem_map.mp (mem_of_lastBinding hv)
  cases hbinding
  refine h w (hwritten ▸ hw) ?_
  unfold Registry.find
  rw [(restoreFactoryDefaults_run admin ok _).1, ← hv]
  exact happlied.restored_of_not hw hnot

theorem undone_of_heldBefore (admin : env.admin = true) (ok : env.AllSucceed) {w₀ : World}
    (h : HeldBefore w₀.registry ts) : Undone env ts w₀ := by
  obtain ⟨happlied, hwritten⟩ := tweaked_applied admin ok ts w₀
  intro w hw hholds
  rw [hwritten] at hw
  unfold Registry.find at hholds
  rw [(restoreFactoryDefaults_run admin ok _).1] at hholds
  by_cases hback : RolledBack w₀.registry w.location
  · exact absurd hholds (happlied.restored_of_rolledBack hw hback)
  · have hlast := (happlied.restored_of_not hw hback).symm.trans hholds
    exact h _ _ hlast hback

/-- When the restore takes back the tweaks. -/
theorem undone_iff (admin : env.admin = true) (ok : env.AllSucceed) (ts : List Tweak)
    (w₀ : World) : Undone env ts w₀ ↔ HeldBefore w₀.registry ts :=
  ⟨heldBefore_of_undone admin ok, undone_of_heldBefore admin ok⟩

/-- An administrator's machine where every call succeeds. -/
def adminEnvironment : Environment where
  admin := true
  succeeds _ := true
  output _ := ""
  buildStamp := "Jan  1 2025 12:00:00"
  wlanInterfaces := 0

def worldWith (registry : Registry) : World where
  registry := registry
  written := []
  netsh _ := none
  commands := []
  files _ := none
  lfsvc := ⟨true, false⟩
  autoconf _ := true
  calls := 0

@[simp] theorem worldWith_registry (registry : Registry) : (worldWith registry).registry = registry :=
  rfl

/-- Where the location service was off before, nothing is left of disabling it. -/
theorem undone_iff_locationOff : Undone adminEnvironment [.disableLocationServices]
    (worldWith (Registry.empty.apply ⟨lfsvcKey, "Start", regDword 4⟩)) := by
  rw [undone_iff rfl fun _ => rfl]
  intro loc v hv _
  have hmem := mem_of_lastBinding hv
  have hbinding : (loc, v) = ((path lfsvcKey, fold "Start"), regDword 4) := by
    simpa [tableWrites, Tweak.writes, locationSettings, Setting.write, Setting.regValue,
      Registry.Write.binding, Registry.Write.location] using hmem
  cases hbinding
  rw [worldWith, Registry.values_apply]
  exact Function.update_self _ _ _

/-- NoLazyMode is stored in the key of the two values that the restore resets, and stays. -/
theorem not_undone_noLazyMode : ¬ ∀ (env : Environment) (ts : List Tweak) (w₀ : World),
    env.admin = true → env.AllSucceed → Undone env ts w₀ := by
  intro hall
  have hheld := heldBefore_of_undone rfl (fun _ => rfl)
    (hall adminEnvironment [.applyAllNetworkTweaks] (worldWith .empty) rfl fun _ => rfl)
  have hmem : Setting.write profileKey ⟨"NoLazyMode", .dword 1⟩ ∈
      tableWrites (worldWith .empty).registry [.applyAllNetworkTweaks] := by
    simp [tableWrites, Tweak.writes, throttlingSettings]
  obtain ⟨v, hv⟩ := exists_lastBinding (List.mem_map_of_mem (f := Registry.Write.binding) hmem)
  have hnot : ¬ RolledBack (worldWith .empty).registry
      (Setting.write profileKey ⟨"NoLazyMode", .dword 1⟩).location := by
    rintro (hprofile | hinterface | ⟨⟨exe, -, hpolicy⟩, -⟩)
    · have hname : fold "NoLazyMode" ∈ [fold "NetworkThrottlingIndex", fold "SystemResponsiveness"] :=
        List.mem_map_of_mem (f := Prod.snd) hprofile
      simp (disch := exact rfl) only [fold_literal] at hname
      exact absurd hname (by decide)
    · exact absurd hinterface (by decide)
    · have hroot : path qosRoot <+: path (policyPath exe) := by
        rw [policyPath, path_child]
        exact List.prefix_append _ _
      rw [← hpolicy] at hroot
      exact profileKey_beside.2.2 hroot
  have hvalue := hheld _ v hv hnot
  exact absurd hvalue (Option.some_ne_none v).symm

end Disping.Rollback
