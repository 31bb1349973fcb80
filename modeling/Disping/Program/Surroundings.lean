import Disping.Program.Footprint

/-! # What a session touches beside the registry

Commands, netsh settings, files, the location service, the automatic configuration of the WLAN and the MTU
of the interfaces. Whatever calls fail, nothing but what the tables of the program name is changed, and
interfaces are those of unprotected adapters.
-/
namespace Disping.Program

open Hive Host Tweaks Rollback Links Shield

/-- The supplemental templates, each tried when the one before it is refused. -/
def supplementalCommands : List String :=
  ["netsh int tcp set supplemental template=internet congestionprovider=bbr",
   "netsh int tcp set supplemental template=internet congestionprovider=cubic",
   "netsh int tcp set supplemental template=internet congestionprovider=ctcp"]

/-- The command lines that do not depend on the machine. -/
def constantCommands : List String := netshCommands ++ supplementalCommands ++ netshDefaults

/-- The netsh settings that they set. -/
def tunedNetsh : List NetshSetting :=
  constantCommands.filterMap fun cmd => (netshAssignment (command cmd)).map Prod.fst

/-- The interface of an unprotected adapter in an answer of the system. -/
def Reported (ans : Answers) (name : String) : Prop :=
  ∃ n adapters curr, ans.adapters n = some adapters ∧ curr ∈ adapters ∧ Unprotected curr ∧
    curr.friendlyName = name

/-- A machine that a session may have made of another one, the registry aside. -/
structure Around (env : Environment) (ans : Answers) (w₀ w : World) : Prop where
  commands : ∃ added, w.commands = w₀.commands ++ added ∧
    ∀ cmd ∈ added, cmd ∈ constantCommands ∨ Issuable ans cmd
  netsh : ∀ setting, setting ∉ tunedNetsh → w.netsh setting = w₀.netsh setting
  files : ∀ name, name ≠ backupPath → name ≠ scriptPath → w.files name = w₀.files name
  /-- No frame larger than the standard one, and none below the smallest probe with its headers. -/
  mtu : ∀ name, w.mtu name = w₀.mtu name ∨
    Reported ans name ∧ 1228 ≤ (w.mtu name).toNat ∧ (w.mtu name).toNat ≤ 1500
  service : w.lfsvc = w₀.lfsvc ∨ env.admin = true ∧
    (w.lfsvc.running = true → w₀.lfsvc.running = true) ∧ (w₀.lfsvc.disabled = true → w.lfsvc.disabled = true)
  autoconf : ∀ i, w.autoconf i = w₀.autoconf i ∨ env.admin = true ∧ w.autoconf i = false

/-- The invariant looks neither at the registry nor at the number of the next call. -/
def Blind (I : World → Prop) : Prop :=
  ∀ w r ws n, I w → I { w with registry := r, written := ws, calls := n }

variable {env : Environment} {ans : Answers} {w₀ : World} {I : World → Prop}

theorem Around.refl (env : Environment) (ans : Answers) (w : World) : Around env ans w w where
  commands := ⟨[], (List.append_nil _).symm, by simp⟩
  netsh _ _ := rfl
  files _ _ _ := rfl
  mtu _ := .inl rfl
  service := .inl rfl
  autoconf _ := .inl rfl

theorem around_blind : Blind (Around env ans w₀) := fun _ _ _ _ h =>
  ⟨h.commands, h.netsh, h.files, h.mtu, h.service, h.autoconf⟩

theorem around_numberless : Numberless (Around env ans w₀) :=
  fun w n h => around_blind w w.registry w.written n h

/-! Operations on the registry alone. -/

section Blind
variable (hI : Blind I)
include hI

theorem Blind.numberless : Numberless I := fun w n h => hI w w.registry w.written n h

theorem Blind.registry (f : World → Registry) : Keeps env I (modify fun w => { w with registry := f w }) :=
  fun w h => ⟨trivial, hI w (f w) w.written w.calls h⟩

theorem applySettings_blind (key : String) (settings : List Setting) :
    Keeps env I (applySettings key settings) := by
  have hstore : ∀ name value, Keeps env I (storeValue key name value) := fun name value =>
    Ensures.storeValue hI.numberless (fun w h => hI w _ w.written w.calls h) fun w h => hI w _ _ w.calls h
  refine Keeps.forEach fun s _ => ?_
  rcases s with ⟨name, v | t⟩
  · exact hstore name (regDword v)
  · exact hstore name (regString t)

theorem getAdapterClassKeys_blind : Keeps env I getAdapterClassKeys := by
  refine Keeps.bind (enumerateSubKeys_keeps hI.numberless _) fun names => ?_
  refine Keeps.bind (Keeps.forEach fun sk _ => ?_) fun _ => Keeps.pure _
  exact Keeps.bind (getString_keeps hI.numberless _ _) fun _ => Keeps.pure _

theorem tuneAdapters_blind (settings : List Setting) : Keeps env I (tuneAdapters settings) := by
  refine Keeps.bind (getAdapterClassKeys_blind hI) fun keys => ?_
  exact Keeps.bind (Keeps.forEach fun key _ => applySettings_blind hI key settings) fun _ => Keeps.pure _

theorem optimizeWifiAdapters_blind : Keeps env I optimizeWifiAdapters := by
  refine asAdmin_keeps (Keeps.bind (getAdapterClassKeys_blind hI) fun keys => ?_)
  refine Keeps.bind (Keeps.forEach fun key _ => ?_) fun _ => Keeps.pure _
  have hwifi : Keeps env I (isWifiAdapter key) := by
    refine Keeps.bind (getString_keeps hI.numberless _ _) fun desc => ?_
    refine Ensures.ite (fun _ => Keeps.pure _) fun _ => ?_
    refine Keeps.bind (getDword_keeps hI.numberless _ _) fun ifType => ?_
    refine Ensures.ite (fun _ => Keeps.pure _) fun _ => ?_
    exact Keeps.bind (getDword_keeps hI.numberless _ _) fun mediaType => Keeps.pure _
  refine Keeps.bind hwifi fun wifi => Ensures.ite (fun _ => ?_) fun _ => Keeps.pure _
  exact Keeps.bind (applySettings_blind hI _ _) fun _ => Keeps.pure _

theorem deleteValue_blind (key name : String) : Keeps env I (deleteValue key name) := by
  refine (Ensures.regOpenKeyEx hI.numberless key).bind fun opened =>
    Ensures.ite (fun _ => ?_) fun _ => Keeps.pure _
  refine (Ensures.call hI.numberless).bind fun ok => Ensures.ite (fun _ => ?_) fun _ => Keeps.pure _
  refine Keeps.bind (fun w hw => ⟨trivial, hw⟩) fun held => ?_
  exact Ensures.ite (fun _ => Keeps.bind (hI.registry _) fun _ => Keeps.pure _) fun _ => Keeps.pure _

theorem regDeleteKey_blind (key : String) : Keeps env I (regDeleteKey key) := by
  refine (Ensures.call hI.numberless).bind fun ok => Ensures.ite (fun _ => ?_) fun _ => Keeps.pure _
  refine Keeps.bind (fun w hw => ⟨trivial, hw⟩) fun deletable => ?_
  exact Ensures.ite (fun _ => Keeps.bind (hI.registry _) fun _ => Keeps.pure _) fun _ => Keeps.pure _

theorem setupGamingQoSPolicies_blind : Keeps env I (setupGamingQoSPolicies []) := by
  refine Keeps.bind (asAdmin_keeps ?_) fun res => Ensures.ite (fun _ => ?_) fun _ => Keeps.pure _
  · refine Keeps.bind (applySettings_blind hI _ _) fun b1 => ?_
    exact Keeps.bind (applySettings_blind hI _ _) fun b2 => Keeps.pure _
  · exact Keeps.bind (Keeps.forEach fun exe _ => applySettings_blind hI _ _) fun _ => Keeps.pure _

theorem adminTable_blind {refusal : String} {key : String} {settings : List Setting}
    {res : List Bool → OperationResult} :
    Keeps env I (asAdmin refusal do
      let stored ← applySettings key settings
      pure (res stored)) :=
  asAdmin_keeps (Keeps.bind (applySettings_blind hI key settings) fun _ => Keeps.pure _)

end Blind

/-! Commands. -/

section Commands

theorem Around.issue {w : World} (h : Around env ans w₀ w) {cmd : String}
    (hcmd : cmd ∈ constantCommands ∨ Issuable ans cmd) :
    Around env ans w₀ { w with commands := w.commands ++ [cmd] } := by
  obtain ⟨added, hadded, hall⟩ := h.commands
  refine ⟨⟨added ++ [cmd], ?_, fun c hc => ?_⟩, h.netsh, h.files, h.mtu, h.service, h.autoconf⟩
  · rw [hadded, List.append_assoc]
  · rcases List.mem_append.mp hc with hold | hnew
    · exact hall c hold
    · rwa [List.mem_singleton.mp hnew]

theorem runCommand_around {cmd : String} (h : cmd ∈ constantCommands) :
    Keeps env (Around env ans w₀) (runCommand cmd) := by
  refine Ensures.runCommand around_numberless (fun w hw => hw.issue (.inl h)) fun w hw => ?_
  unfold effect
  split
  · rename_i a heq
    refine ⟨hw.commands, fun setting hsetting => ?_, hw.files, hw.mtu, hw.service, hw.autoconf⟩
    have htuned : a.1 ∈ tunedNetsh := List.mem_filterMap.mpr ⟨cmd, h, by rw [heq]; rfl⟩
    have hne : setting ≠ a.1 := fun hsame => hsetting (hsame ▸ htuned)
    exact (Function.update_of_ne hne _ _).trans (hw.netsh setting hsetting)
  · exact around_blind w _ w.written w.calls hw
  · exact hw

theorem system_around {cmd : String} (h : cmd ∈ constantCommands) :
    Keeps env (Around env ans w₀) (system cmd) :=
  (runCommand_around h).bind fun _ => Keeps.pure _

theorem systemReturnsZero_around {cmd : String} (h : Issuable ans cmd) :
    Keeps env (Around env ans w₀) (systemReturnsZero cmd) :=
  Keeps.bind (fun _ hw => ⟨trivial, hw.issue (.inr h)⟩) fun _ => Ensures.call around_numberless

theorem optimizeTcpGlobalNetsh_around : Keeps env (Around env ans w₀) optimizeTcpGlobalNetsh := by
  have hbbr : ∀ cmd ∈ supplementalCommands, cmd ∈ constantCommands :=
    fun cmd h => by simp [constantCommands, h]
  refine Keeps.bind (Keeps.forEach fun cmd hcmd => ?_) fun log => ?_
  · exact (runCommand_around (by simp [constantCommands, hcmd])).bind fun _ => Keeps.pure _
  refine Keeps.bind (runCommand_around (hbbr _ (by simp [supplementalCommands]))) fun bbrOut => ?_
  refine Ensures.ite (fun _ => ?_) fun _ => Keeps.pure _
  refine Keeps.bind (runCommand_around (hbbr _ (by simp [supplementalCommands]))) fun cubicOut => ?_
  refine Ensures.ite (fun _ => ?_) fun _ => Keeps.pure _
  exact Keeps.bind (system_around (hbbr _ (by simp [supplementalCommands]))) fun _ => Keeps.pure _

end Commands

/-! Files, the service and the WLAN. -/

section Machine

theorem writeFile_around {name : String} (h : name = backupPath ∨ name = scriptPath) (lines : TextFile) :
    Keeps env (Around env ans w₀)
      (modify fun w => { w with files := Function.update w.files name (some lines) }) := by
  refine fun w hw =>
    ⟨trivial, hw.commands, hw.netsh, fun other hbackup hscript => ?_, hw.mtu, hw.service, hw.autoconf⟩
  have hne : other ≠ name := by
    rcases h with rfl | rfl
    · exact hbackup
    · exact hscript
  exact (Function.update_of_ne hne _ _).trans (hw.files other hbackup hscript)

theorem createBackup_around : Keeps env (Around env ans w₀) (createBackup backupPath) := by
  refine (Ensures.call around_numberless).bind fun ok => Ensures.ite (fun _ => ?_) fun _ => Keeps.pure _
  refine Keeps.bind (writeFile_around (.inl rfl) _) fun _ => ?_
  refine Keeps.bind (getDword_keeps around_numberless _ _) fun throttle => ?_
  refine Keeps.bind (getDword_keeps around_numberless _ _) fun resp => ?_
  refine Keeps.bind (fun w hw => ⟨trivial, hw⟩) fun text => ?_
  refine Keeps.bind (writeFile_around (.inl rfl) _) fun _ => ?_
  refine Keeps.bind ?_ fun _ => Keeps.pure _
  refine Keeps.bind ?_ fun written => Ensures.ite (fun _ => Keeps.pure _) fun _ => Keeps.pure _
  refine (Ensures.call around_numberless).bind fun opened => Ensures.ite (fun _ => ?_) fun _ => Keeps.pure _
  exact Keeps.bind (writeFile_around (.inr rfl) _) fun _ => Keeps.pure _

/-- What asks for the rights first may count on them. -/
theorem asAdmin_around {refusal : String} {body : Win OperationResult}
    (h : env.admin = true → Keeps env (Around env ans w₀) body) :
    Keeps env (Around env ans w₀) (asAdmin refusal body) := by
  intro w hw
  rw [asAdmin_run]
  split
  · rename_i admin
    exact h admin w hw
  · exact ⟨trivial, hw⟩

theorem setWifiBackgroundScan_around : Keeps env (Around env ans w₀) (setWifiBackgroundScan false) := by
  refine asAdmin_around fun admin => ?_
  refine Keeps.bind (Ensures.call around_numberless) fun opened => ?_
  refine Keeps.bind (Ensures.callIf around_numberless _) fun listed => ?_
  refine Keeps.bind (fun w hw => ⟨trivial, hw⟩) fun interfaces => ?_
  refine Keeps.bind (Keeps.forEach fun i _ => ?_) fun set => Keeps.pure _
  refine (Ensures.call around_numberless).bind fun ok => Ensures.ite (fun _ => ?_) fun _ => Keeps.pure _
  refine Keeps.bind (fun w hw => ⟨trivial, hw.commands, hw.netsh, hw.files, hw.mtu, hw.service, fun j => ?_⟩)
    fun _ => Keeps.pure _
  by_cases hj : j = i
  · exact .inr ⟨admin, by rw [hj]; exact Function.update_self ..⟩
  · exact (hw.autoconf j).imp ((Function.update_of_ne hj _ _).trans ·)
      (And.imp_right ((Function.update_of_ne hj _ _).trans ·))

theorem disableLocationServices_around : Keeps env (Around env ans w₀) disableLocationServices := by
  refine asAdmin_around fun admin => Keeps.bind ?_ fun _ => ?_
  · have hset : ∀ f : Service → Service, (∀ s, ((f s).running = true → s.running = true) ∧
        (s.disabled = true → (f s).disabled = true)) →
        Keeps env (Around env ans w₀) (modify fun w => { w with lfsvc := f w.lfsvc }) := by
      refine fun f hf w hw => ⟨trivial, hw.commands, hw.netsh, hw.files, hw.mtu, .inr ⟨admin, ?_⟩, hw.autoconf⟩
      obtain ⟨hrunning, hdisabled⟩ := hf w.lfsvc
      rcases hw.service with hsame | ⟨-, hr, hd⟩
      · rw [← hsame]
        exact ⟨hrunning, hdisabled⟩
      · exact ⟨fun h => hr (hrunning h), fun h => hdisabled (hd h)⟩
    have hdisable : Keeps env (Around env ans w₀) (call >>= fun ok => if ok then
        modify fun w => { w with lfsvc := { w.lfsvc with disabled := true } } else pure ()) :=
      (Ensures.call around_numberless).bind fun _ =>
        Ensures.ite (fun _ => hset (fun s => { s with disabled := true }) fun _ => ⟨id, fun _ => rfl⟩)
          fun _ => Keeps.pure _
    refine (Ensures.call around_numberless).bind fun hSCM => ?_
    refine (Ensures.callIf around_numberless _).bind fun hService => ?_
    refine Ensures.ite (fun _ => ?_) fun _ => Keeps.pure _
    refine (Ensures.call around_numberless).bind fun stopped => ?_
    refine Ensures.ite (fun _ => Keeps.bind ?_ fun _ => hdisable) fun _ => hdisable
    exact hset (fun s => { s with running := false }) fun _ => ⟨nofun, id⟩
  · exact Keeps.bind (applySettings_blind around_blind _ _) fun _ => Keeps.pure _

end Machine

/-! The link operations. -/

section Links

/-- The search answers its start or a size within its range. -/
theorem searchPayload_range (hI : Numberless I) (targetHost : String) (low high best : ℤ) :
    Ensures env I (searchPayload (probeHost ans targetHost) low high best)
      fun r => r = best ∨ low ≤ r ∧ r ≤ high := by
  induction low, high, best using searchPayload.induct with
  | case1 low high best h mid ihhigh ihlow =>
    rw [searchPayload, dif_pos h]
    have hmid : mid = low + (high - low) / 2 := rfl
    refine Keeps.bind (probeHost_keeps hI targetHost _) fun ok => Ensures.ite (fun _ => ?_) fun _ => ?_
    · exact ihhigh.imp fun r hr => .inr (by omega)
    · exact ihlow.imp fun r hr => hr.imp_right fun hr => by omega
  | case2 low high best h =>
    rw [searchPayload, dif_neg h]
    exact Ensures.pure (.inl rfl)

theorem discoverOptimalMtu_range (hI : Numberless I) (targetHost : String) :
    Ensures env I (discoverOptimalMtu (probeHost ans targetHost))
      fun r => 1228 ≤ r.optimalMtu.toNat ∧ r.optimalMtu.toNat ≤ 1500 := by
  refine Keeps.bind (probeHost_keeps hI targetHost _) fun low => ?_
  refine Ensures.ite (fun _ => Ensures.pure (by decide)) fun _ => ?_
  refine Keeps.bind (probeHost_keeps hI targetHost _) fun high => ?_
  refine Ensures.ite (fun _ => Ensures.pure (by decide)) fun _ => ?_
  refine (searchPayload_range hI targetHost _ _ _).bind fun best hbest => ?_
  refine Ensures.ite (fun hpos => Ensures.pure ?_) fun _ => Ensures.pure (by decide)
  have hrange : 1200 ≤ best ∧ best ≤ 1472 := by omega
  rw [BitVec.toNat_ofInt]
  omega

theorem getActiveAdapters_reported : Ensures env (Around env ans w₀) (getActiveAdapters ans)
    fun nics => ∀ nic ∈ nics, nic.isPhysical = true → Reported ans nic.name ∧
      ∀ cmd, InterfaceCommand nic.name cmd → Issuable ans cmd := by
  refine (query_ensures around_numberless ans.adapters).bind fun addresses haddresses => Ensures.pure ?_
  obtain ⟨n, rfl⟩ := haddresses
  intro nic hnic hphysical
  obtain ⟨curr, hcurr, hinfo⟩ := List.mem_filterMap.mp hnic
  obtain ⟨hunprotected, hname⟩ := unprotected_of_physical hinfo hphysical
  cases hlist : ans.adapters n with
  | none => simp [hlist] at hcurr
  | some adapters =>
    rw [hlist, Option.getD_some] at hcurr
    refine ⟨⟨n, adapters, curr, hlist, hcurr, hunprotected, hname.symm⟩, fun cmd hcmd => ?_⟩
    rw [hname] at hcmd
    exact .inr ⟨n, adapters, curr, hlist, hcurr, hunprotected, hcmd⟩

theorem autoDetectAndApplyMtu_around (targetHost : String) :
    Keeps env (Around env ans w₀) (autoDetectAndApplyMtu ans targetHost) := by
  refine (discoverOptimalMtu_range around_numberless targetHost).bind fun probe hprobe => ?_
  refine getActiveAdapters_reported.bind fun adapters hadapters => ?_
  refine Ensures.ite (fun _ => Keeps.pure _) fun _ => ?_
  refine Keeps.bind (Keeps.forEach fun nic hnic => ?_) fun _ => Keeps.pure _
  obtain ⟨hmem, hphysical⟩ := List.mem_filter.mp hnic
  obtain ⟨hreported, hissuable⟩ := hadapters nic hmem hphysical
  refine Ensures.ite (fun _ => Keeps.pure _) fun _ => ?_
  refine Keeps.bind (systemReturnsZero_around (hissuable _ (.mtu _))) fun ok =>
    Ensures.ite (fun _ => Keeps.bind (fun w hw => ?_) fun _ => Keeps.pure _) fun _ => Keeps.pure _
  refine ⟨trivial, hw.commands, hw.netsh, hw.files, fun name => ?_, hw.service, hw.autoconf⟩
  by_cases hname : name = nic.name
  · subst hname
    have hset : Function.update w.mtu nic.name probe.optimalMtu nic.name = probe.optimalMtu :=
      Function.update_self ..
    exact .inr ⟨hreported, by simpa [hset] using hprobe⟩
  · have hkept : Function.update w.mtu nic.name probe.optimalMtu name = w.mtu name :=
      Function.update_of_ne hname _ _
    simpa [hkept] using hw.mtu name

theorem autoSelectFastestDns_around : Keeps env (Around env ans w₀) (autoSelectFastestDns ans) := by
  refine Keeps.bind (isShielded_keeps around_numberless) fun shielded => ?_
  refine Ensures.ite (fun _ => Keeps.pure _) fun _ => ?_
  refine Keeps.bind (benchmarkDnsProviders_keeps around_numberless 3) fun results => ?_
  cases results with
  | nil => exact Keeps.pure _
  | cons best rest =>
    refine Ensures.ite (fun _ => Keeps.pure _) fun _ => ?_
    refine getActiveAdapters_reported.bind fun adapters hadapters => ?_
    refine Ensures.ite (fun _ => Keeps.pure _) fun _ => ?_
    refine Keeps.bind (Keeps.forEach fun nic hnic => ?_) fun _ => Keeps.pure _
    obtain ⟨hmem, hphysical⟩ := List.mem_filter.mp hnic
    obtain ⟨-, hissuable⟩ := hadapters nic hmem hphysical
    refine Ensures.ite (fun _ => Keeps.pure _) fun _ => ?_
    refine Keeps.bind (systemReturnsZero_around (hissuable _ (.primaryDns _))) fun ret1 => ?_
    refine Keeps.bind (systemReturnsZero_around (hissuable _ (.secondaryDns _))) fun ret2 => ?_
    refine Keeps.bind ((systemReturnsZero_around (.inl rfl)).bind fun _ => Keeps.pure _) fun _ => ?_
    exact Ensures.ite (fun _ => Keeps.pure _) fun _ => Keeps.pure _

end Links

section Operations

theorem applyAllNetworkTweaks_around : Keeps env (Around env ans w₀) applyAllNetworkTweaks := by
  have hinterfaces : Keeps env (Around env ans w₀) optimizeTcpNoDelayAndAckFrequency := by
    refine asAdmin_keeps (Keeps.bind (enumerateSubKeys_keeps around_numberless _) fun guids => ?_)
    refine Ensures.ite (fun _ => Keeps.pure _) fun _ => ?_
    exact Keeps.bind (Keeps.forEach fun guid _ => applySettings_blind around_blind _ _) fun _ => Keeps.pure _
  refine Keeps.bind hinterfaces fun r1 => ?_
  refine Keeps.bind (adminTable_blind around_blind) fun r2 => ?_
  refine Keeps.bind (adminTable_blind around_blind) fun r3 => ?_
  exact Keeps.bind optimizeTcpGlobalNetsh_around fun r4 => Keeps.pure _

theorem optimizeAllNetworkAdapters_around : Keeps env (Around env ans w₀) optimizeAllNetworkAdapters := by
  have htune : ∀ settings, ∀ f : ℕ → OperationResult,
      Keeps env (Around env ans w₀) (tuneAdapters settings >>= fun count => pure (f count)) :=
    fun settings f => Keeps.bind (tuneAdapters_blind around_blind settings) fun _ => Keeps.pure _
  refine Keeps.bind (asAdmin_keeps (htune _ _)) fun r1 => ?_
  refine Keeps.bind (htune _ _) fun r2 => ?_
  refine Keeps.bind (htune _ _) fun r3 => ?_
  refine Keeps.bind (htune _ _) fun r4 => ?_
  refine Keeps.bind (htune _ _) fun r5 => ?_
  refine Keeps.bind (optimizeWifiAdapters_blind around_blind) fun r6 => ?_
  exact Keeps.bind setWifiBackgroundScan_around fun r7 => Keeps.pure _

theorem optimizeMMCSSGamesProfile_around : Keeps env (Around env ans w₀) optimizeMMCSSGamesProfile :=
  adminTable_blind around_blind

theorem restoreFactoryDefaults_around : Keeps env (Around env ans w₀) Rollback.restoreFactoryDefaults := by
  refine asAdmin_keeps (Keeps.bind (applySettings_blind around_blind _ _) fun _ => ?_)
  refine Keeps.bind (enumerateSubKeys_keeps around_numberless _) fun guids => ?_
  refine Keeps.bind (Keeps.forEach fun guid _ => Keeps.forEach fun name _ => deleteValue_blind around_blind _ _)
    fun _ => ?_
  refine Keeps.bind ?_ fun _ => ?_
  · refine Keeps.bind (enumerateSubKeys_keeps around_numberless _) fun subkeys => ?_
    exact Keeps.bind (Keeps.forEach fun sk _ => regDeleteKey_blind around_blind _) fun _ => Keeps.pure _
  refine Keeps.bind (Keeps.forEach fun cmd hcmd => system_around (by simp [constantCommands, hcmd])) fun _ => ?_
  exact Keeps.bind (Keeps.pure _) fun _ => Keeps.pure _

theorem Operation.run_around (op : Operation) : Keeps env (Around env ans w₀) (op.run ans) := by
  cases op with
  | networkTweaks => exact Keeps.bind applyAllNetworkTweaks_around fun _ => Keeps.pure _
  | adapterTuning => exact Keeps.bind optimizeAllNetworkAdapters_around fun _ => Keeps.pure _
  | multimediaProfile => exact Keeps.bind optimizeMMCSSGamesProfile_around fun _ => Keeps.pure _
  | mtu targetHost => exact Keeps.bind (autoDetectAndApplyMtu_around targetHost) fun _ => Keeps.pure _
  | dns => exact Keeps.bind autoSelectFastestDns_around fun _ => Keeps.pure _
  | wifiEngine =>
    refine Keeps.bind (optimizeWifiAdapters_blind around_blind) fun _ => ?_
    refine Keeps.bind setWifiBackgroundScan_around fun _ => ?_
    exact Keeps.bind disableLocationServices_around fun _ => Keeps.pure _
  | extremeBoost isHighRam =>
    refine Keeps.bind createBackup_around fun _ => ?_
    refine Keeps.bind applyAllNetworkTweaks_around fun _ => ?_
    refine Keeps.bind optimizeAllNetworkAdapters_around fun _ => ?_
    refine Keeps.bind disableLocationServices_around fun _ => ?_
    refine Keeps.bind optimizeMMCSSGamesProfile_around fun _ => ?_
    refine Keeps.bind (adminTable_blind around_blind) fun _ => ?_
    exact Keeps.bind (setupGamingQoSPolicies_blind around_blind) fun _ => Keeps.pure _
  | comparison =>
    have htweaks : Keeps env (Around env ans w₀) comparisonTweaks := by
      refine Keeps.bind applyAllNetworkTweaks_around fun _ => ?_
      refine Keeps.bind optimizeAllNetworkAdapters_around fun _ => ?_
      refine Keeps.bind optimizeMMCSSGamesProfile_around fun _ => ?_
      exact Keeps.bind (setupGamingQoSPolicies_blind around_blind) fun _ => Keeps.pure _
    refine Keeps.bind (Keeps.bind (measureMetrics_keeps around_numberless) fun _ => ?_) fun _ => Keeps.pure _
    refine Keeps.bind htweaks fun _ => ?_
    exact Keeps.bind (measureMetrics_keeps around_numberless) fun _ => Keeps.pure _
  | backup => exact Keeps.bind createBackup_around fun _ => Keeps.pure _
  | restore => exact Keeps.bind restoreFactoryDefaults_around fun _ => Keeps.pure _

end Operations

/-- Any sequence of choices, with or without the rights and whatever calls fail. -/
theorem runSession_surroundings (env : Environment) (ans : Answers) (ops : List Operation) (w : World) :
    Around env ans w (runSession ans ops env w).2 := by
  have hkeeps : Keeps env (Around env ans w) (runSession ans ops) := Keeps.forEach fun op _ => op.run_around
  exact (hkeeps w (Around.refl env ans w)).2

end Disping.Program
