import Disping.Program.Sessions

/-! # The status line of the menu

The line tells one value only. In a session with administrator rights and every call succeeding it
follows the last choice that tweaks the network or restores the defaults.
-/
namespace Disping.Program

open Hive Host Tweaks Rollback Links

def areTweaksApplied : Win Bool := do
  let throttle ← getDword profileKey "NetworkThrottlingIndex"
  pure (decide (throttle = some 0xFFFFFFFF))

/-- The choices that the status line shows. -/
def Operation.shows : Operation → Option Bool
  | networkTweaks | extremeBoost _ | comparison => some true
  | restore => some false
  | adapterTuning | multimediaProfile | mtu _ | dns | wifiEngine | backup => none

/-- The value that the status line reads. -/
def throttlingIndex : Location := (path profileKey, fold "NetworkThrottlingIndex")

/-- What the status line makes of the value. -/
def tells (v : Option RegValue) : Bool :=
  decide ((v.filter fun x => x.data.length ≤ 4).bind dwordOf = some 0xFFFFFFFF)

variable {env : Environment} {ans : Answers} {r : Registry}

theorem areTweaksApplied_run (ok : env.AllSucceed) (w : World) :
    (areTweaksApplied env w).1 = tells (w.registry.values throttlingIndex) := by
  obtain ⟨hvalue, -⟩ := getDword_run ok profileKey "NetworkThrottlingIndex" w
  simp only [areTweaksApplied, bind_run, pure_run, hvalue]
  rfl

theorem tells_regDword (v : BitVec 32) : tells (some (regDword v)) = decide (v = 0xFFFFFFFF) := by
  have hlength : (some (regDword v)).filter (fun x => decide (x.data.length ≤ 4)) = some (regDword v) := by
    rw [Option.filter_some, regDword_length]
    rfl
  rw [tells, hlength, Option.bind_some, dwordOf_regDword]
  simp

section Effects

/-- Tables in other keys leave the value alone. -/
theorem lastBinding_of_elsewhere {ws : List Registry.Write} (h : ∀ w ∈ ws, path w.key ≠ path profileKey) :
    lastBinding (ws.map Registry.Write.binding) throttlingIndex = none := by
  rw [Option.eq_none_iff_forall_ne_some]
  intro v hv
  obtain ⟨w, hw, hbinding⟩ := List.mem_map.mp (mem_of_lastBinding hv)
  have hkey : path w.key = path profileKey := congrArg (fun b => b.1.1) hbinding
  exact h w hw hkey

theorem ne_profileKey_of_system {key : String} (h : (path key)[0]? = some (fold "SYSTEM")) :
    path key ≠ path profileKey := by
  intro heq
  rw [heq, constantKeys_software profileKey (by simp)] at h
  exact system_ne_software h

/-- Operations with the network tweaks among them set the value. -/
theorem lastBinding_of_tweaks {ts : List Tweak} (h : Tweak.applyAllNetworkTweaks ∈ ts) :
    lastBinding ((tableWrites r ts).map Registry.Write.binding) throttlingIndex =
      some (regDword 0xFFFFFFFF) := by
  have hnames : ∀ s ∈ throttlingSettings, fold s.name = fold "NetworkThrottlingIndex" →
      s.regValue = regDword 0xFFFFFFFF := by
    simp (disch := exact rfl) only [throttlingSettings, List.forall_mem_cons, fold_literal]
    decide
  have hmem : Setting.write profileKey ⟨"NetworkThrottlingIndex", .dword 0xFFFFFFFF⟩ ∈ tableWrites r ts := by
    refine List.mem_flatMap.mpr ⟨_, h, List.mem_append_right _ (List.mem_append_left _ ?_)⟩
    exact List.mem_map_of_mem (by simp [throttlingSettings])
  obtain ⟨v, hv⟩ := exists_lastBinding (List.mem_map_of_mem (f := Registry.Write.binding) hmem)
  have hlast : lastBinding ((tableWrites r ts).map Registry.Write.binding) throttlingIndex = some v := hv
  obtain ⟨w, hw, hbinding⟩ := List.mem_map.mp (mem_of_lastBinding hlast)
  have hkey : path w.key = path profileKey := congrArg (fun b => b.1.1) hbinding
  have hname : fold w.name = fold "NetworkThrottlingIndex" := congrArg (fun b => b.1.2) hbinding
  have hvalue : w.value = v := congrArg Prod.snd hbinding
  obtain ⟨s, hs, rfl⟩ := List.mem_map.mp (throttling_of_path hw hkey)
  rw [hlast, ← hvalue]
  exact congrArg some (hnames s hs hname)

theorem restore_effectAt_throttlingIndex :
    Operation.restore.effectAt r throttlingIndex = some (some (regDword 10)) := by
  have hinterface : interfaceReset r throttlingIndex = false := by
    unfold interfaceReset
    rw [List.any_eq_false]
    intro key hkey hany
    obtain ⟨name, -, hloc⟩ := List.any_eq_true.mp hany
    have hpath : path profileKey = path key := congrArg Prod.fst (of_decide_eq_true hloc)
    exact ne_profileKey_of_system (interfaceKeys_system hkey) hpath.symm
  have hnames : fold "SystemResponsiveness" ≠ fold "NetworkThrottlingIndex" := by
    simp (disch := exact rfl) only [fold_literal]
    decide
  have hlast : lastBinding profileReset throttlingIndex = some (regDword 10) := by
    simp [profileReset, profileDefaults, lastBinding, Setting.write, Registry.Write.binding,
      Registry.Write.location, throttlingIndex, hnames, Setting.regValue]
  simp [Operation.effectAt, hinterface, hlast]

theorem Operation.effectAt_throttlingIndex (op : Operation) :
    op.effectAt r throttlingIndex =
      op.shows.map fun shown => some (regDword (if shown then 0xFFFFFFFF else 10)) := by
  have helsewhere : ∀ op : Operation, op ≠ .restore → (∀ w ∈ op.writes r, path w.key ≠ path profileKey) →
      op.effectAt r throttlingIndex = none := by
    intro op hop hkeys
    have hnone := lastBinding_of_elsewhere hkeys
    cases op with
    | restore => exact absurd rfl hop
    | _ => simp [Operation.effectAt, hnone]
  have hadapter : ∀ keys settings, (∀ key ∈ keys, key ∈ adapterKeys r) → ∀ w ∈ Tweaks.writes keys settings,
      path w.key ≠ path profileKey := by
    intro keys settings hkeys w hw
    obtain ⟨key, hkey, s, -, rfl⟩ := mem_writes.mp hw
    exact ne_profileKey_of_system (adapterKeys_system (hkeys key hkey))
  have hwifi : ∀ key ∈ wifiKeys r, key ∈ adapterKeys r := fun key hkey => (List.mem_filter.mp hkey).1
  cases op with
  | networkTweaks =>
    have hset := lastBinding_of_tweaks (r := r)
      (show Tweak.applyAllNetworkTweaks ∈ [Tweak.applyAllNetworkTweaks] by simp)
    rw [tableWrites, List.flatMap_singleton] at hset
    simp [Operation.effectAt, Operation.writes, Operation.shows, hset]
  | extremeBoost isHighRam =>
    have hset := lastBinding_of_tweaks (r := r)
      (show Tweak.applyAllNetworkTweaks ∈ boostSteps isHighRam by simp [boostSteps])
    simp [Operation.effectAt, Operation.writes, Operation.shows, hset]
  | comparison =>
    have hset := lastBinding_of_tweaks (r := r)
      (show Tweak.applyAllNetworkTweaks ∈ comparisonSteps by simp [comparisonSteps])
    simp [Operation.effectAt, Operation.writes, Operation.shows, hset]
  | restore => exact restore_effectAt_throttlingIndex
  | adapterTuning =>
    refine helsewhere _ (by simp) fun w hw => ?_
    simp only [Operation.writes, Tweak.writes, List.mem_append] at hw
    rcases hw with hw | hw | hw | hw | hw | hw
    · exact hadapter _ _ (fun _ hkey => hkey) w hw
    · exact hadapter _ _ (fun _ hkey => hkey) w hw
    · exact hadapter _ _ (fun _ hkey => hkey) w hw
    · exact hadapter _ _ (fun _ hkey => hkey) w hw
    · exact hadapter _ _ (fun _ hkey => hkey) w hw
    · exact hadapter _ _ hwifi w hw
  | multimediaProfile =>
    refine helsewhere _ (by simp) fun w hw => ?_
    obtain ⟨s, -, rfl⟩ := List.mem_map.mp hw
    exact constantKeys_apart.2.2.2.2
  | wifiEngine =>
    refine helsewhere _ (by simp) fun w hw => ?_
    rcases List.mem_append.mp hw with hw | hw
    · exact hadapter _ _ hwifi w hw
    · obtain ⟨s, -, rfl⟩ := List.mem_map.mp hw
      exact ne_profileKey_of_system (constantKeys_system lfsvcKey (by simp))
  | mtu targetHost => exact helsewhere _ (by simp) (by simp [Operation.writes])
  | dns => exact helsewhere _ (by simp) (by simp [Operation.writes])
  | backup => exact helsewhere _ (by simp) (by simp [Operation.writes])

end Effects

/-- The line shows the tweaks as applied after a network tweak, a boost or a comparison, as not applied
after a restore, and all other choices leave it. -/
theorem areTweaksApplied_session (admin : env.admin = true) (ok : env.AllSucceed) (ans : Answers)
    (ops : List Operation) (w : World) :
    (areTweaksApplied env (runSession ans ops env w).2).1 =
      ((ops.filterMap Operation.shows).getLast?).getD (areTweaksApplied env w).1 := by
  have haway : ¬ path qosRoot <+: throttlingIndex.1 := profileKey_beside.2.2
  have heffect : (ops.filterMap fun op => op.effectAt w.registry throttlingIndex) =
      (ops.filterMap Operation.shows).map fun shown =>
        some (regDword (if shown then 0xFFFFFFFF else 10)) := by
    rw [List.map_filterMap]
    exact List.filterMap_congr fun op _ => op.effectAt_throttlingIndex
  rw [areTweaksApplied_run ok, areTweaksApplied_run ok,
    (SameLists.refl w.registry).runSession admin ok ans haway ops w, heffect, List.getLast?_map]
  cases (ops.filterMap Operation.shows).getLast? with
  | none => rfl
  | some shown =>
    simp only [Option.map_some, Option.getD_some, tells_regDword]
    cases shown <;> decide

/-- A boost, a backup and a restore. -/
theorem areTweaksApplied_session_restored :
    (areTweaksApplied adminEnvironment (runSession noAnswers [.extremeBoost true, .backup, .restore]
      adminEnvironment (worldWith .empty)).2).1 = false := by
  rw [areTweaksApplied_session rfl (fun _ => rfl)]
  rfl

end Disping.Program
