import Disping.Program.Sessions

/-! # The values a session tends to

The tables of the program give each place one value, so in a session without a restore neither the
order of the choices nor their number matters: a place that some choice concerns has the value of
the profile.
-/
namespace Disping.Program

open Hive Host Tweaks Rollback Links

/-- The value that a table has under a name. -/
def lookup (settings : List Setting) (n : Name) : Option RegValue :=
  (settings.find? fun s => fold s.name = n).map Setting.regValue

/-- The tables with a key of their own; two of them share the key of the TCP/IP parameters. -/
def profileTables (isHighRam : Bool) : List (String × List Setting) :=
  [(profileKey, throttlingSettings), (tcpKey, tcpParameterSettings ++ tosSettings),
   (lfsvcKey, locationSettings), (taskGamesKey, gamesSettings), (mmKey, memorySettings isHighRam),
   (qosKey, nlaSettings)]

/-- What the program means a place outside of the policies to hold. -/
def gamingProfile (isHighRam : Bool) (loc : Location) : Option RegValue :=
  if path rootClass <+: loc.1 then lookup adapterSettings loc.2
  else if path interfacesKey <+: loc.1 then lookup noDelaySettings loc.2
  else ((profileTables isHighRam).find? fun t => path t.1 = loc.1).bind fun t => lookup t.2 loc.2

variable {env : Environment} {isHighRam : Bool} {r : Registry} {w : Registry.Write}

/-- Of keys that occur once the first match is the only one. -/
theorem find?_of_nodup {α β : Type} [DecidableEq β] {f : α → β} {l : List α} (h : (l.map f).Nodup)
    {a : α} (ha : a ∈ l) : l.find? (fun b => f b = f a) = some a := by
  cases hfind : l.find? (fun b => f b = f a) with
  | none => exact absurd (decide_eq_true rfl) (List.find?_eq_none.mp hfind a ha)
  | some b =>
    have hkey : f b = f a := of_decide_eq_true (List.find?_some (p := fun b => f b = f a) hfind)
    exact congrArg some (List.inj_on_of_nodup_map h (List.mem_of_find?_eq_some hfind) ha hkey)

theorem lookup_of_mem {settings : List Setting} (h : (settings.map fun s => fold s.name).Nodup)
    {s : Setting} (hs : s ∈ settings) : lookup settings (fold s.name) = some s.regValue := by
  rw [lookup, find?_of_nodup h hs, Option.map_some]

/-! No table names a value twice, and no two tables have a key in common. -/

theorem adapterSettings_nodup : (adapterSettings.map fun s => fold s.name).Nodup := by
  simp (disch := exact rfl) only [adapterSettings, interruptSettings, sendOffloadSettings,
    energySettings, bufferSettings, flowControlSettings, wifiSettings, List.cons_append,
    List.nil_append, List.map_cons, List.map_nil, fold_literal]
  decide

theorem noDelaySettings_nodup : (noDelaySettings.map fun s => fold s.name).Nodup := by
  simp (disch := exact rfl) only [noDelaySettings, List.map_cons, List.map_nil, fold_literal]
  decide

theorem profileTables_nodup : ∀ t ∈ profileTables isHighRam, (t.2.map fun s => fold s.name).Nodup := by
  cases isHighRam <;>
    simp (disch := exact rfl) only [profileTables, throttlingSettings, tcpParameterSettings, tosSettings,
      locationSettings, gamesSettings, memorySettings, nlaSettings, List.forall_mem_cons, if_true,
      Bool.false_eq_true, if_false, List.cons_append, List.nil_append, List.map_cons, List.map_nil,
      fold_literal] <;>
    decide

theorem profileTables_apart : ((profileTables isHighRam).map fun t => path t.1).Nodup := by
  simp (disch := exact rfl) only [profileTables, List.map_cons, List.map_nil, profileKey, tcpKey,
    lfsvcKey, taskGamesKey, mmKey, qosKey, path_literal]
  decide

theorem profileTables_away {t : String × List Setting} (ht : t ∈ profileTables isHighRam) : Away t.1 := by
  simp only [profileTables, List.mem_cons, List.not_mem_nil, or_false] at ht
  rcases ht with rfl | rfl | rfl | rfl | rfl | rfl <;> exact away_constantKeys _ (by simp)

section Writes

theorem gamingProfile_adapter {keys : List String} {settings : List Setting}
    (hkeys : ∀ key ∈ keys, key ∈ adapterKeys r) (hsettings : ∀ s ∈ settings, s ∈ adapterSettings)
    (hw : w ∈ Tweaks.writes keys settings) : gamingProfile isHighRam w.location = some w.value := by
  obtain ⟨key, hkey, s, hs, rfl⟩ := mem_writes.mp hw
  have hclass : path rootClass <+: (s.write key).location.1 := (hasKey_adapter (hkeys key hkey)).2
  rw [gamingProfile, if_pos hclass]
  exact lookup_of_mem adapterSettings_nodup (hsettings s hs)

theorem gamingProfile_interface (hw : w ∈ Tweaks.writes (interfaceKeys r) noDelaySettings) :
    gamingProfile isHighRam w.location = some w.value := by
  obtain ⟨key, hkey, s, hs, rfl⟩ := mem_writes.mp hw
  have hclass : ¬ path rootClass <+: (s.write key).location.1 := (hasKey_interface hkey).2
  have hinterface : path interfacesKey <+: (s.write key).location.1 := by
    rw [interfaceKeys, List.map_map] at hkey
    obtain ⟨n, -, rfl⟩ := List.mem_map.mp hkey
    rw [Registry.Write.location_fst]
    simp only [Setting.write, Function.comp, interfaceKey, path_child]
    exact List.prefix_append _ _
  rw [gamingProfile, if_neg hclass, if_pos hinterface]
  exact lookup_of_mem noDelaySettings_nodup hs

theorem gamingProfile_constant {key : String} {table settings : List Setting}
    (ht : (key, table) ∈ profileTables isHighRam) (hsettings : ∀ s ∈ settings, s ∈ table)
    (hw : w ∈ settings.map (Setting.write key)) : gamingProfile isHighRam w.location = some w.value := by
  obtain ⟨s, hs, rfl⟩ := List.mem_map.mp hw
  obtain ⟨hinterface, hclass⟩ := profileTables_away ht
  have hfind : (profileTables isHighRam).find? (fun t => path t.1 = path key) = some (key, table) := by
    have h := find?_of_nodup (f := fun t : String × List Setting => path t.1) profileTables_apart ht
    convert h using 2
  have hlocation : (s.write key).location = (path key, fold s.name) := Setting.location_write key s
  rw [gamingProfile, hlocation, if_neg hclass, if_neg hinterface, hfind, Option.bind_some]
  exact lookup_of_mem (profileTables_nodup _ ht) (hsettings s hs)

theorem qosRoot_prefix_policyPath (exe : String) : path qosRoot <+: path (policyPath exe) := by
  rw [policyPath, path_child]
  exact List.prefix_append _ _

theorem gamingProfile_tweak {t : Tweak} (ht : ∀ b, t = .optimizeMemorySubsystem b → b = isHighRam)
    (hw : w ∈ t.writes r) (haway : ¬ path qosRoot <+: path w.key) :
    gamingProfile isHighRam w.location = some w.value := by
  have hadapter : ∀ settings, (∀ s ∈ settings, s ∈ adapterSettings) →
      w ∈ Tweaks.writes (adapterKeys r) settings → gamingProfile isHighRam w.location = some w.value :=
    fun settings hs hmem => gamingProfile_adapter (fun _ hkey => hkey) hs hmem
  have htcp : (tcpKey, tcpParameterSettings ++ tosSettings) ∈ profileTables isHighRam := by
    simp [profileTables]
  cases t with
  | applyAllNetworkTweaks =>
    simp only [Tweak.writes, List.mem_append] at hw
    rcases hw with hw | hw | hw
    · exact gamingProfile_interface hw
    · exact gamingProfile_constant (by simp [profileTables]) (fun s hs => hs) hw
    · exact gamingProfile_constant htcp (fun s hs => List.mem_append_left _ hs) hw
  | optimizeAllNetworkAdapters =>
    simp only [Tweak.writes, List.mem_append] at hw
    rcases hw with hw | hw | hw | hw | hw | hw
    · exact hadapter _ (by simp +contextual [adapterSettings]) hw
    · exact hadapter _ (by simp +contextual [adapterSettings]) hw
    · exact hadapter _ (by simp +contextual [adapterSettings]) hw
    · exact hadapter _ (by simp +contextual [adapterSettings]) hw
    · exact hadapter _ (by simp +contextual [adapterSettings]) hw
    · exact gamingProfile_adapter (fun _ hkey => (List.mem_filter.mp hkey).1)
        (by simp +contextual [adapterSettings]) hw
  | disableLocationServices =>
    exact gamingProfile_constant (by simp [profileTables]) (fun s hs => hs) hw
  | optimizeMMCSSGamesProfile =>
    exact gamingProfile_constant (by simp [profileTables]) (fun s hs => hs) hw
  | optimizeMemorySubsystem b =>
    obtain rfl := ht b rfl
    exact gamingProfile_constant (by simp [profileTables]) (fun s hs => hs) hw
  | setupGamingQoSPolicies =>
    simp only [Tweak.writes, List.mem_append] at hw
    rcases hw with (hw | hw) | hw
    · have htos : (tosKey, tcpParameterSettings ++ tosSettings) ∈ profileTables isHighRam := htcp
      exact gamingProfile_constant htos (fun s hs => List.mem_append_right _ hs) hw
    · exact gamingProfile_constant (by simp [profileTables]) (fun s hs => hs) hw
    · obtain ⟨exe, -, hmem⟩ := List.mem_flatMap.mp hw
      obtain ⟨s, -, rfl⟩ := List.mem_map.mp hmem
      exact absurd (qosRoot_prefix_policyPath exe) haway

end Writes

/-- No restore, and the boosts find the same memory. -/
def Operation.Fits (isHighRam : Bool) : Operation → Prop
  | restore => False
  | extremeBoost b => b = isHighRam
  | networkTweaks | adapterTuning | multimediaProfile | mtu _ | dns | wifiEngine | comparison | backup => True

/-- The places that a choice writes. -/
def Operation.concerns (r : Registry) (op : Operation) (loc : Location) : Prop :=
  loc ∈ (op.writes r).map Registry.Write.location

theorem Operation.gamingProfile_writes {op : Operation} (hop : op.Fits isHighRam)
    (hw : w ∈ op.writes r) (haway : ¬ path qosRoot <+: path w.key) :
    gamingProfile isHighRam w.location = some w.value := by
  have htweak : ∀ t : Tweak, w ∈ t.writes r → (∀ b, t ≠ .optimizeMemorySubsystem b) →
      gamingProfile isHighRam w.location = some w.value :=
    fun t hmem hne => gamingProfile_tweak (fun b hb => absurd hb (hne b)) hmem haway
  cases op with
  | networkTweaks => exact htweak .applyAllNetworkTweaks hw (by simp)
  | adapterTuning => exact htweak .optimizeAllNetworkAdapters hw (by simp)
  | multimediaProfile => exact htweak .optimizeMMCSSGamesProfile hw (by simp)
  | wifiEngine =>
    rcases List.mem_append.mp hw with hw | hw
    · exact gamingProfile_adapter (fun _ hkey => (List.mem_filter.mp hkey).1)
        (by simp +contextual [adapterSettings]) hw
    · exact htweak .disableLocationServices hw (by simp)
  | extremeBoost b =>
    obtain ⟨t, ht, hmem⟩ := List.mem_flatMap.mp hw
    refine gamingProfile_tweak (fun b' hb' => ?_) hmem haway
    subst hb'
    have hb : b' = b := by simpa [boostSteps] using ht
    exact hb.trans hop
  | comparison =>
    obtain ⟨t, ht, hmem⟩ := List.mem_flatMap.mp hw
    refine htweak t hmem ?_
    rintro b rfl
    simp [comparisonSteps] at ht
  | mtu targetHost => simp [Operation.writes] at hw
  | dns => simp [Operation.writes] at hw
  | backup => simp [Operation.writes] at hw
  | restore => exact absurd hop not_false

theorem Operation.effectAt_profile {op : Operation} (hop : op.Fits isHighRam) {loc : Location}
    (hloc : ¬ path qosRoot <+: loc.1) :
    (op.concerns r loc ∧ op.effectAt r loc = some (gamingProfile isHighRam loc)) ∨
      (¬ op.concerns r loc ∧ op.effectAt r loc = none) := by
  have heffect : op.effectAt r loc =
      (lastBinding ((op.writes r).map Registry.Write.binding) loc).map some := by
    cases op with
    | restore => exact absurd hop not_false
    | _ => rfl
  rw [heffect]
  by_cases hwrites : op.concerns r loc
  · obtain ⟨w, hw, rfl⟩ := List.mem_map.mp hwrites
    obtain ⟨v, hv⟩ := exists_lastBinding (List.mem_map_of_mem (f := Registry.Write.binding) hw)
    have hlast : lastBinding ((op.writes r).map Registry.Write.binding) w.location = some v := hv
    obtain ⟨x, hx, hbinding⟩ := List.mem_map.mp (mem_of_lastBinding hlast)
    have hplace : x.location = w.location := congrArg Prod.fst hbinding
    have hvalue : x.value = v := congrArg Prod.snd hbinding
    have haway : ¬ path qosRoot <+: path x.key := by
      rw [← x.location_fst, hplace]
      exact hloc
    have hprofile := Operation.gamingProfile_writes hop hx haway
    rw [hplace, hvalue] at hprofile
    exact Or.inl ⟨hwrites, by rw [hlast, hprofile, Option.map_some]⟩
  · refine Or.inr ⟨hwrites, ?_⟩
    rw [Option.map_eq_none_iff, Option.eq_none_iff_forall_ne_some]
    intro v hv
    obtain ⟨x, hx, hbinding⟩ := List.mem_map.mp (mem_of_lastBinding hv)
    exact hwrites (List.mem_map.mpr ⟨x, hx, congrArg Prod.fst hbinding⟩)

/-- A list of equal effects, and whether there is one. -/
theorem filterMap_getLast? {α β : Type} {l : List α} {f : α → Option β} {p : α → Prop} {x : β}
    (h : ∀ a ∈ l, (p a ∧ f a = some x) ∨ (¬ p a ∧ f a = none)) :
    ((l.filterMap f).getLast? = some x ∧ ∃ a ∈ l, p a) ∨
      ((l.filterMap f).getLast? = none ∧ ¬ ∃ a ∈ l, p a) := by
  cases hlast : (l.filterMap f).getLast? with
  | some y =>
    obtain ⟨a, ha, hy⟩ := List.mem_filterMap.mp (List.mem_of_getLast? hlast)
    rcases h a ha with ⟨hp, hx⟩ | ⟨-, hnone⟩
    · exact Or.inl ⟨hy.symm.trans hx, a, ha, hp⟩
    · exact absurd (hnone.symm.trans hy) (by simp)
  | none =>
    refine Or.inr ⟨rfl, ?_⟩
    rintro ⟨a, ha, hp⟩
    have hempty := List.filterMap_eq_nil_iff.mp (List.getLast?_eq_none_iff.mp hlast) a ha
    rcases h a ha with ⟨-, hx⟩ | ⟨hnot, -⟩
    · exact absurd (hempty.symm.trans hx) (by simp)
    · exact hnot hp

/-- Without a restore every session with the same choices ends in the same values: the profile where
a choice writes, and elsewhere what was there. -/
theorem runSession_gamingProfile (admin : env.admin = true) (ok : env.AllSucceed) (ans : Answers)
    (ops : List Operation) (hops : ∀ op ∈ ops, op.Fits isHighRam) (w : World) (loc : Location)
    (hloc : ¬ path qosRoot <+: loc.1) :
    ((∃ op ∈ ops, op.concerns w.registry loc) →
        (runSession ans ops env w).2.registry.values loc = gamingProfile isHighRam loc) ∧
      ((¬ ∃ op ∈ ops, op.concerns w.registry loc) →
        (runSession ans ops env w).2.registry.values loc = w.registry.values loc) := by
  rw [(SameLists.refl w.registry).runSession admin ok ans hloc ops w]
  rcases filterMap_getLast? fun op hop =>
      Operation.effectAt_profile (r := w.registry) (hops op hop) hloc with ⟨hlast, hsome⟩ | ⟨hlast, hnone⟩
  · rw [hlast]
    exact ⟨fun _ => rfl, fun hnot => absurd hsome hnot⟩
  · rw [hlast]
    exact ⟨fun hsome => absurd hsome hnone, fun _ => rfl⟩

/-- Tuned twice, with a backup in between. -/
theorem runSession_gamingProfile_twice :
    (runSession noAnswers [.multimediaProfile, .backup, .multimediaProfile] adminEnvironment
        (worldWith .empty)).2.registry.values (path taskGamesKey, fold "GPU Priority") =
      some (regDword 8) := by
  have haway : ¬ path qosRoot <+: path taskGamesKey := by
    simp (disch := exact rfl) only [qosRoot, taskGamesKey, path_literal]
    decide
  have hops : ∀ op ∈ [Operation.multimediaProfile, .backup, .multimediaProfile], op.Fits true := by
    simp [Operation.Fits]
  have hwritten : Operation.multimediaProfile.concerns Registry.empty
      (path taskGamesKey, fold "GPU Priority") := by
    unfold Operation.concerns
    decide +kernel
  rw [(runSession_gamingProfile rfl (fun _ => rfl) noAnswers _ hops _ _ haway).1
    ⟨.multimediaProfile, by simp, hwritten⟩]
  decide +kernel

end Disping.Program
