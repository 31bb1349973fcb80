import Disping.Rollback.Leftovers

/-! # What the backup records over several boosts

A boost writes the backup before it tweaks, on a path that does not change. The second boost
therefore records the values the first one set.
-/
namespace Disping.Rollback

open Hive Host Tweaks

variable {env : Environment} {r₀ : Registry}

/-! DWORDs as bytes and as text. -/

theorem toNat_byte {n : ℕ} (h : n < 256) : (Char.ofNat n).toNat = n := by
  have hvalid : n.isValidChar := Or.inl (by omega)
  rw [Char.ofNat, dif_pos hvalid]
  rfl

theorem dwordOf_regDword (v : BitVec 32) : dwordOf (regDword v) = some v := by
  have hlt := v.isLt
  unfold dwordOf regDword dwordOfBytes dwordBytes
  rw [if_pos rfl]
  congr 1
  apply BitVec.eq_of_toNat_eq
  simp only [List.range, List.range.loop, List.map_cons, List.map_nil, List.foldr_cons,
    List.foldr_nil, BitVec.toNat_ofNat]
  rw [toNat_byte (Nat.mod_lt _ (by decide)), toNat_byte (Nat.mod_lt _ (by decide)),
    toNat_byte (Nat.mod_lt _ (by decide)), toNat_byte (Nat.mod_lt _ (by decide))]
  omega

theorem regDword_length (v : BitVec 32) : (regDword v).data.length = 4 := by
  simp [regDword, dwordBytes]

theorem toString_inj {a b : BitVec 32} (h : toString a.toNat = toString b.toNat) : a = b := by
  apply BitVec.eq_of_toNat_eq
  have hdigits := congrArg (fun s => Nat.ofDigitChars 10 s.toList 0) h
  simpa [Nat.ofDigitChars_toDigits] using hdigits

/-- A snapshot says which values it was taken from. -/
theorem snapshot_inj {stamp : String} {a b a' b' : BitVec 32}
    (h : snapshot stamp a b = snapshot stamp a' b') : a = a' ∧ b = b' := by
  simp only [snapshot, List.cons.injEq, String.append_left_inj, String.append_right_inj] at h
  exact ⟨toString_inj h.2.2.2.1, toString_inj h.2.2.2.2.1⟩

/-! One boost. -/

/-- What GetDword reads of a profile value. -/
def profileDword (r : Registry) (name : String) : Option (BitVec 32) :=
  ((r.find profileKey name).filter fun v => v.data.length ≤ 4).bind dwordOf

/-- The values a snapshot records, with the Windows defaults for those that are not there. -/
def throttleIn (r : Registry) : BitVec 32 := (profileDword r "NetworkThrottlingIndex").getD 10

def responsivenessIn (r : Registry) : BitVec 32 := (profileDword r "SystemResponsiveness").getD 20

theorem createBackup_run (ok : env.AllSucceed) (w : World) :
    (createBackup backupPath env w).2.registry = w.registry ∧
      (createBackup backupPath env w).2.files backupPath =
        some (snapshot env.buildStamp (throttleIn w.registry) (responsivenessIn w.registry)) := by
  have hpath : backupPath ≠ scriptPath := by decide
  let w₁ : World := { w with
    files := Function.update w.files backupPath (some [])
    calls := w.calls + 1 }
  obtain ⟨hthrottle, hquiet⟩ := getDword_run ok profileKey "NetworkThrottlingIndex" w₁
  obtain ⟨hresp, hquiet'⟩ := getDword_run ok profileKey "SystemResponsiveness"
    (getDword profileKey "NetworkThrottlingIndex" env w₁).2
  rw [hquiet.registry] at hresp
  have hboth := hquiet.trans hquiet'
  simp only [createBackup, generateRollbackScript, writeFile, bind_run, pure_run, ite_run,
    modify_run, ask_run, call_run ok, if_true]
  constructor
  · exact hboth.registry
  · rw [Function.update_of_ne hpath, Function.update_self]
    simp only [throttleIn, responsivenessIn, profileDword]
    rw [← hthrottle, ← hresp]

/-- The operations the boost goes through. -/
def boostSteps (isHighRam : Bool) : List Tweak :=
  [.applyAllNetworkTweaks, .optimizeAllNetworkAdapters, .disableLocationServices,
   .optimizeMMCSSGamesProfile, .optimizeMemorySubsystem isHighRam, .setupGamingQoSPolicies]

theorem boostTweaks_stores (admin : env.admin = true) (ok : env.AllSucceed) (isHighRam : Bool) :
    Stores env (Footing r₀) (boostTweaks isHighRam) (tableWrites r₀ (boostSteps isHighRam)) := by
  have hstep : ∀ t : Tweak, Stores env (Footing r₀) t.run (t.writes r₀) := Tweak.run_stores admin ok
  refine (hstep .applyAllNetworkTweaks).bind fun _ => ?_
  refine (hstep .optimizeAllNetworkAdapters).bind fun _ => ?_
  refine (hstep .disableLocationServices).bind fun _ => ?_
  refine (hstep .optimizeMMCSSGamesProfile).bind fun _ => ?_
  refine (hstep (.optimizeMemorySubsystem isHighRam)).bind fun _ => ?_
  exact (hstep .setupGamingQoSPolicies).bind fun _ => Stores.pure ()

/-- A throttling value after a sequence that sets it. -/
theorem find_throttling {ts : List Tweak} (h : Tweak.applyAllNetworkTweaks ∈ ts) {s : Setting}
    (hs : s ∈ throttlingSettings) :
    (r₀.applyAll (tableWrites r₀ ts)).find profileKey s.name = some s.regValue := by
  have hnames : ∀ s ∈ throttlingSettings, ∀ t ∈ throttlingSettings, fold t.name = fold s.name →
      t = s := by
    simp (disch := exact rfl) only [throttlingSettings, List.forall_mem_cons, fold_literal]
    decide
  have hmem : s.write profileKey ∈ tableWrites r₀ ts :=
    List.mem_flatMap.mpr ⟨_, h, List.mem_append_right _
      (List.mem_append_left _ (List.mem_map_of_mem hs))⟩
  obtain ⟨v, hv⟩ := exists_lastBinding (List.mem_map_of_mem (f := Registry.Write.binding) hmem)
  obtain ⟨w, hw, hbinding⟩ := List.mem_map.mp (mem_of_lastBinding hv)
  have hlocation : w.location = (path profileKey, fold s.name) := congrArg Prod.fst hbinding
  have hvalue : w.value = v := congrArg Prod.snd hbinding
  have hkey : path w.key = path profileKey := by rw [← w.location_fst, hlocation]
  obtain ⟨t, ht, rfl⟩ := List.mem_map.mp (throttling_of_path hw hkey)
  rw [Setting.location_write] at hlocation
  have hts : t = s := hnames s hs t ht (congrArg Prod.snd hlocation)
  rw [Registry.find, Registry.values_applyAll, overlay_apply]
  rw [← hts] at hv ⊢
  rw [← hvalue] at hv
  have hlast : lastBinding ((tableWrites r₀ ts).map Registry.Write.binding)
      (path profileKey, fold t.name) = some t.regValue := hv
  rw [hlast, Option.some_or]

/-! Boosts without administrator rights. -/

/-- Without administrator rights only four adapter tables are stored. -/
theorem boostTweaks_refused (admin : env.admin = false) (ok : env.AllSucceed) (isHighRam : Bool) :
    ∃ ws, Stores env (Footing r₀) (boostTweaks isHighRam) ws ∧
      ∀ w ∈ ws, (path w.key)[0]? = some (fold "SYSTEM") := by
  have htune : ∀ part, (∀ s ∈ part, s ∈ adapterSettings) →
      Stores env (Footing r₀) (tuneAdapters part) (writes (adapterKeys r₀) part) :=
    fun part hpart => tuneAdapters_stores ok fun s hs => adapterSettings_names s (hpart s hs)
  have hoffload := htune sendOffloadSettings (by simp +contextual [adapterSettings])
  have henergy := htune energySettings (by simp +contextual [adapterSettings])
  have hbuffers := htune bufferSettings (by simp +contextual [adapterSettings])
  have hflow := htune flowControlSettings (by simp +contextual [adapterSettings])
  have hrefused : ∀ {refusal body}, Stores env (Footing r₀) (asAdmin refusal body) [] :=
    (asAdmin_refused admin).stores
  have hnetwork : Stores env (Footing r₀) applyAllNetworkTweaks [] :=
    hrefused.nil_bind fun r1 => hrefused.nil_bind fun r2 => hrefused.nil_bind fun r3 =>
      (optimizeTcpGlobalNetsh_stores ok).bind_pure _
  have hadapters : Stores env (Footing r₀) optimizeAllNetworkAdapters _ :=
    hrefused.nil_bind fun r1 => (hoffload.bind_pure _).bind fun r2 =>
      (henergy.bind_pure _).bind fun r3 => (hbuffers.bind_pure _).bind fun r4 =>
        (hflow.bind_pure _).bind_nil fun r5 => hrefused.nil_bind fun r6 => hrefused.bind_pure _
  have hpolicies : Stores env (Footing r₀) (setupGamingQoSPolicies []) [] :=
    (asAdmin_refused admin).bind_stores (Stores.pure _)
  refine ⟨_, hnetwork.nil_bind fun _ => hadapters.bind_nil fun _ => hrefused.nil_bind fun _ =>
    hrefused.nil_bind fun _ => hrefused.nil_bind fun _ => hpolicies.bind_pure _, ?_⟩
  intro w hw
  simp only [List.mem_append] at hw
  have hsystem : ∀ settings, w ∈ writes (adapterKeys r₀) settings →
      (path w.key)[0]? = some (fold "SYSTEM") := by
    intro settings hmem
    obtain ⟨key, hkey, s, -, rfl⟩ := mem_writes.mp hmem
    exact adapterKeys_system hkey
  rcases hw with hw | hw | hw | hw
  · exact hsystem _ hw
  · exact hsystem _ hw
  · exact hsystem _ hw
  · exact hsystem _ hw

/-- Writes below SYSTEM leave the profile values. -/
theorem profileDword_applyAll {ws : List Registry.Write}
    (h : ∀ w ∈ ws, (path w.key)[0]? = some (fold "SYSTEM")) (name : String) :
    profileDword (r₀.applyAll ws) name = profileDword r₀ name := by
  have hnone : lastBinding (ws.map Registry.Write.binding) (path profileKey, fold name) = none := by
    by_contra hsome
    obtain ⟨v, hv⟩ := Option.ne_none_iff_exists'.mp hsome
    obtain ⟨w, hw, hbinding⟩ := List.mem_map.mp (mem_of_lastBinding hv)
    have hlocation : w.location = (path profileKey, fold name) := congrArg Prod.fst hbinding
    have hsystem := h w hw
    rw [← w.location_fst, hlocation, constantKeys_software profileKey (by simp)] at hsystem
    exact system_ne_software hsystem
  unfold profileDword Registry.find
  rw [Registry.values_applyAll, overlay_apply, hnone, Option.none_or]

/-! Runs of boosts. -/

def runBoosts (ramSizes : List Bool) : Win (List Unit) := forEach executeExtremeBoost ramSizes

/-- The values a boost leaves in the profile. -/
structure Boosted (r : Registry) : Prop where
  throttle : throttleIn r = 0xFFFFFFFF
  responsiveness : responsivenessIn r = 0

/-- The backup holds these two values. -/
def Records (env : Environment) (throttle resp : BitVec 32) (w : World) : Prop :=
  w.files backupPath = some (snapshot env.buildStamp throttle resp)

theorem Records.unique {a b a' b' : BitVec 32} {w : World} (h : Records env a b w)
    (h' : Records env a' b' w) : a = a' ∧ b = b' := by
  unfold Records at h h'
  rw [h] at h'
  exact snapshot_inj (Option.some.inj h')

theorem boost_records (ok : env.AllSucceed) (isHighRam : Bool) (w : World) :
    Records env (throttleIn w.registry) (responsivenessIn w.registry)
      (executeExtremeBoost isHighRam env w).2 := by
  obtain ⟨-, hfile⟩ := createBackup_run ok w
  have hfiles : (executeExtremeBoost isHighRam env w).2.files =
      (createBackup backupPath env w).2.files := by
    cases hadmin : env.admin with
    | true => exact (boostTweaks_stores hadmin ok isHighRam _ (Footing.refl _)).1.files
    | false =>
      obtain ⟨ws, hws, -⟩ := boostTweaks_refused hadmin ok isHighRam
      exact (hws _ (Footing.refl _)).1.files
  rw [Records, hfiles, hfile]

theorem boost_boosted (admin : env.admin = true) (ok : env.AllSucceed) (isHighRam : Bool)
    (w : World) : Boosted (executeExtremeBoost isHighRam env w).2.registry := by
  have hstored := (boostTweaks_stores admin ok isHighRam _
    (Footing.refl (createBackup backupPath env w).2.registry)).1.registry
  have hfind : ∀ s ∈ throttlingSettings,
      (executeExtremeBoost isHighRam env w).2.registry.find profileKey s.name = some s.regValue := by
    intro s hs
    rw [executeExtremeBoost, bind_run, hstored]
    exact find_throttling (by simp [boostSteps]) hs
  have hthrottle := hfind ⟨"NetworkThrottlingIndex", .dword 0xFFFFFFFF⟩ (by simp [throttlingSettings])
  have hresp := hfind ⟨"SystemResponsiveness", .dword 0⟩ (by simp [throttlingSettings])
  constructor
  · simp [throttleIn, profileDword, hthrottle, Setting.regValue, Option.filter, regDword_length,
      dwordOf_regDword]
  · simp [responsivenessIn, profileDword, hresp, Setting.regValue, Option.filter, regDword_length,
      dwordOf_regDword]

theorem boost_refused (admin : env.admin = false) (ok : env.AllSucceed) (isHighRam : Bool)
    (w : World) (name : String) :
    profileDword (executeExtremeBoost isHighRam env w).2.registry name =
      profileDword w.registry name := by
  obtain ⟨hregistry, -⟩ := createBackup_run ok w
  obtain ⟨ws, hws, hsystem⟩ := boostTweaks_refused admin ok isHighRam
  have hstored := (hws (createBackup backupPath env w).2 (Footing.refl _)).1.registry
  rw [executeExtremeBoost, bind_run, hstored, profileDword_applyAll hsystem, hregistry]

/-- From the second boost on the backup holds what the boost itself sets. -/
theorem runBoosts_again (admin : env.admin = true) (ok : env.AllSucceed) (first second : Bool)
    (later : List Bool) (w₀ : World) :
    Records env 0xFFFFFFFF 0 (runBoosts (first :: second :: later) env w₀).2 := by
  have hnext : ∀ b w, Boosted w.registry → Boosted (executeExtremeBoost b env w).2.registry ∧
      Records env 0xFFFFFFFF 0 (executeExtremeBoost b env w).2 := by
    intro b w hw
    have hrecords := boost_records ok b w
    rw [hw.throttle, hw.responsiveness] at hrecords
    exact ⟨boost_boosted admin ok b w, hrecords⟩
  have hfirst := boost_boosted admin ok first w₀
  have hsecond := hnext second (executeExtremeBoost first env w₀).2 hfirst
  have hrun := forEach_invariant env (I := fun w => Boosted w.registry ∧ Records env 0xFFFFFFFF 0 w)
    (fun b w hw => hnext b w hw.1) later _ hsecond
  exact hrun.2

/-- Without administrator rights the profile values stay, so every boost records the same. -/
theorem runBoosts_refused (admin : env.admin = false) (ok : env.AllSucceed) (first : Bool)
    (later : List Bool) (w₀ : World) :
    Records env (throttleIn w₀.registry) (responsivenessIn w₀.registry)
      (runBoosts (first :: later) env w₀).2 := by
  have hstep : ∀ b w, (∀ name, profileDword w.registry name = profileDword w₀.registry name) →
      (∀ name, profileDword (executeExtremeBoost b env w).2.registry name =
        profileDword w₀.registry name) ∧
      Records env (throttleIn w₀.registry) (responsivenessIn w₀.registry)
        (executeExtremeBoost b env w).2 := by
    intro b w hw
    have hrecords := boost_records ok b w
    unfold throttleIn responsivenessIn at hrecords ⊢
    rw [hw, hw] at hrecords
    exact ⟨fun name => (boost_refused admin ok b w name).trans (hw name), hrecords⟩
  have hfirst := hstep first w₀ fun _ => rfl
  have hrun := forEach_invariant env
    (I := fun w => (∀ name, profileDword w.registry name = profileDword w₀.registry name) ∧
      Records env (throttleIn w₀.registry) (responsivenessIn w₀.registry) w)
    (fun b w hw => hstep b w hw.1) later _ hfirst
  exact hrun.2

/-- When the backup at the end of a run holds the values from before its first boost. -/
theorem runBoosts_records_iff (ok : env.AllSucceed) (first : Bool) (later : List Bool)
    (w₀ : World) :
    Records env (throttleIn w₀.registry) (responsivenessIn w₀.registry)
        (runBoosts (first :: later) env w₀).2 ↔
      later = [] ∨ env.admin = false ∨ Boosted w₀.registry := by
  rcases later with _ | ⟨second, later⟩
  · exact iff_of_true (boost_records ok first w₀) (Or.inl rfl)
  · cases hadmin : env.admin with
    | false => exact iff_of_true (runBoosts_refused hadmin ok first _ w₀) (Or.inr (Or.inl rfl))
    | true =>
      have hagain := runBoosts_again hadmin ok first second later w₀
      constructor
      · intro h
        obtain ⟨hthrottle, hresp⟩ := h.unique hagain
        exact Or.inr (Or.inr ⟨hthrottle, hresp⟩)
      · rintro (hnil | hrights | hboosted)
        · exact absurd hnil (List.cons_ne_nil _ _)
        · exact absurd hrights Bool.true_eq_false_eq_False
        · rw [hboosted.throttle, hboosted.responsiveness]
          exact hagain

theorem runBoosts_records_once : Records adminEnvironment 10 20
    (runBoosts [true] adminEnvironment (worldWith .empty)).2 :=
  (runBoosts_records_iff (fun _ => rfl) true [] (worldWith .empty)).mpr (Or.inl rfl)

/-- Two boosts on a machine with the Windows defaults lose them. -/
theorem not_runBoosts_records_twice : ¬ ∀ (env : Environment) (first : Bool) (later : List Bool)
    (w₀ : World), env.AllSucceed →
      Records env (throttleIn w₀.registry) (responsivenessIn w₀.registry)
        (runBoosts (first :: later) env w₀).2 := by
  intro hall
  have hclaimed := hall adminEnvironment true [true] (worldWith .empty) fun _ => rfl
  have hagain : Records adminEnvironment _ _ _ :=
    runBoosts_again rfl (fun _ => rfl) true true [] (worldWith .empty)
  have hten : throttleIn (worldWith .empty).registry = 10 := rfl
  rw [hten] at hclaimed
  exact absurd (hclaimed.unique hagain).1 (by decide)

end Disping.Rollback
