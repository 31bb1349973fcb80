import Disping.Host.Ensures
import Disping.Links.DnsOptimizer
import Disping.Links.MtuOptimizer
import Disping.Tweaks.Tables

/-! # What the adapter and link operations leave alone

Whatever calls fail, an operation writes only in adapter class keys that describe an unprotected
adapter, to values other than the description, and starts its commands for unprotected adapters.
So the keys that are protected stay protected, over any number of operations.
-/
namespace Disping.Links

open Hive Host Tweaks Shield

/-- The operations that the guard's protection is about. -/
inductive LinkOperation
  | optimizeAllNetworkAdapters
  | autoDetectAndApplyMtu (targetHost : String)
  | autoSelectFastestDns

def LinkOperation.run (ans : Answers) : LinkOperation → Win OperationResult
  | optimizeAllNetworkAdapters => Tweaks.optimizeAllNetworkAdapters
  | autoDetectAndApplyMtu targetHost => Links.autoDetectAndApplyMtu ans targetHost
  | autoSelectFastestDns => Links.autoSelectFastestDns ans

def runOperations (ans : Answers) (ops : List LinkOperation) : Win (List OperationResult) :=
  forEach (LinkOperation.run ans) ops

/-- The description of a class key, when it can be read. -/
def description (r : Registry) (n : KeyName) : Option String :=
  ((r.find (classKey n.text) "DriverDesc").filter fun v => v.data.length ≤ 1024).bind stringOf

/-- A class key without a readable description, or with a keyword in it. -/
def IsProtected (r : Registry) (n : KeyName) : Prop :=
  ∀ desc, description r n = some desc → HasKeyword desc

/-- The command lines that set the MTU or the DNS servers of an interface. -/
inductive InterfaceCommand (interfaceName : String) : String → Prop
  | mtu (mtu : BitVec 32) : InterfaceCommand interfaceName (setSubinterface interfaceName mtu)
  | primaryDns (primary : String) :
    InterfaceCommand interfaceName (setPrimaryDns interfaceName primary)
  | secondaryDns (secondary : String) :
    InterfaceCommand interfaceName (addSecondaryDns interfaceName secondary)

/-- A command for an unprotected adapter that the system reports, or the flush of the resolver. -/
def Issuable (ans : Answers) (cmd : String) : Prop :=
  cmd = flushDns ∨ ∃ n adapters curr, ans.adapters n = some adapters ∧ curr ∈ adapters ∧
    Unprotected curr ∧ InterfaceCommand curr.friendlyName cmd

/-- The places where the adapter operations write. -/
def Tunable (r : Registry) (loc : Location) : Prop :=
  ∃ key ∈ adapterKeys r, ∃ s ∈ adapterSettings, loc = (path key, fold s.name)

structure Confined (ans : Answers) (w₀ w : World) : Prop where
  keys : w.registry.keys = w₀.registry.keys
  values : ∀ loc, w.registry.values loc = w₀.registry.values loc ∨ Tunable w₀.registry loc
  commands : ∃ added, w.commands = w₀.commands ++ added ∧ ∀ cmd ∈ added, Issuable ans cmd

variable {env : Environment} {ans : Answers} {w₀ w : World}

theorem Confined.refl (ans : Answers) (w₀ : World) : Confined ans w₀ w₀ where
  keys := rfl
  values _ := .inl rfl
  commands := ⟨[], (List.append_nil _).symm, by simp⟩

theorem confined_numberless : Numberless (Confined ans w₀) := fun _ _ h =>
  ⟨h.keys, h.values, h.commands⟩

namespace Confined

theorem driverDesc (h : Confined ans w₀ w) (p : Path) :
    w.registry.values (p, fold "DriverDesc") = w₀.registry.values (p, fold "DriverDesc") := by
  rcases h.values (p, fold "DriverDesc") with hsame | ⟨key, -, s, hs, hloc⟩
  · exact hsame
  · have hname : fold "DriverDesc" = fold s.name := congrArg Prod.snd hloc
    refine absurd ?_ (adapterSettings_names s hs)
    rw [← hname]
    exact List.mem_map_of_mem (by simp [describingValues])

theorem subKeys (h : Confined ans w₀ w) (p : Path) :
    w.registry.subKeys p = w₀.registry.subKeys p := by
  rw [Registry.subKeys, h.keys, Registry.subKeys]

theorem find (h : Confined ans w₀ w) (key : String) :
    w.registry.find key "DriverDesc" = w₀.registry.find key "DriverDesc" := h.driverDesc _

theorem hasKey (h : Confined ans w₀ w) {p : Path} (hp : w₀.registry.HasKey p) :
    w.registry.HasKey p := by
  unfold Registry.HasKey
  rwa [h.keys]

end Confined

/-! The adapter operations. -/

theorem adapterClassKey_ensures (sk : String) : Ensures env (Confined ans w₀) (adapterClassKey sk)
    fun found => ∀ key, found = some key → adapterKeyOf w₀.registry sk = some key := by
  refine Ensures.bind (P := fun desc => ∀ d, desc = some d →
    ((w₀.registry.find (classKey sk) "DriverDesc").filter fun v => v.data.length ≤ 1024).bind
      stringOf = some d) ?_ fun desc hdesc => Ensures.pure fun key hkey => ?_
  · refine Ensures.getString confined_numberless (by simp) fun w hw d hd => ?_
    rwa [hw.find] at hd
  · obtain ⟨d, rfl, hd⟩ := Option.bind_eq_some_iff.mp hkey
    rw [adapterKeyOf, hdesc d rfl, Option.bind_some]
    exact hd

theorem getAdapterClassKeys_ensures : Ensures env (Confined ans w₀) getAdapterClassKeys
    fun keys => ∀ key ∈ keys, key ∈ adapterKeys w₀.registry := by
  refine Ensures.bind (P := fun names => ∀ sk ∈ names,
    sk ∈ (w₀.registry.subKeys (path rootClass)).map KeyName.text) ?_ fun names hnames => ?_
  · refine Ensures.enumerateSubKeys confined_numberless (by simp) fun w hw names hprefix => ?_
    rw [hw.subKeys] at hprefix
    exact fun sk hsk => hprefix.subset hsk
  · refine Ensures.bind (P := fun found => ∀ k ∈ found, ∀ key, k = some key →
      key ∈ adapterKeys w₀.registry) ?_ fun found hfound => Ensures.pure fun key hkey => ?_
    · refine Ensures.forEach fun sk hsk w hw => ?_
      obtain ⟨hkey, hw'⟩ := @adapterClassKey_ensures env ans w₀ sk w hw
      refine ⟨fun key hsome => ?_, hw'⟩
      rw [adapterKeys, List.reduceOption_mem_iff]
      exact List.mem_map.mpr ⟨sk, hnames sk hsk, hkey key hsome⟩
    · exact hfound _ (List.reduceOption_mem_iff.mp hkey) key rfl

theorem applySetting_keeps {key : String} {s : Setting} (hkey : key ∈ adapterKeys w₀.registry)
    (hs : s ∈ adapterSettings) : Keeps env (Confined ans w₀) (applySetting key s) := by
  have hhas := (hasKey_adapter hkey).1
  have hstore : ∀ value, Keeps env (Confined ans w₀) (storeValue key s.name value) := by
    intro value
    refine Ensures.storeValue confined_numberless (fun w hw => ?_) fun w hw => ?_
    · have hcreate : w.registry.create (components key) = w.registry :=
        w.registry.createFrom_of_hasKey (hw.hasKey hhas)
      rw [hcreate]
      exact hw
    · refine ⟨(Registry.keys_setValue _ _ _ _).trans hw.keys, fun loc => ?_, hw.commands⟩
      rw [Registry.values_setValue _ _ _ (hw.hasKey hhas)]
      by_cases hloc : loc = (path key, fold s.name)
      · exact .inr ⟨key, hkey, s, hs, hloc⟩
      · rw [Function.update_of_ne hloc]
        exact hw.values loc
  rcases s with ⟨name, v | t⟩
  · exact hstore (regDword v)
  · exact hstore (regString t)

theorem applySettings_keeps {key : String} {settings : List Setting}
    (hkey : key ∈ adapterKeys w₀.registry) (hs : ∀ s ∈ settings, s ∈ adapterSettings) :
    Keeps env (Confined ans w₀) (applySettings key settings) :=
  Keeps.forEach fun _ hmem => applySetting_keeps hkey (hs _ hmem)

theorem tuneAdapters_keeps {settings : List Setting} (hs : ∀ s ∈ settings, s ∈ adapterSettings) :
    Keeps env (Confined ans w₀) (tuneAdapters settings) := by
  refine getAdapterClassKeys_ensures.bind fun keys hkeys => ?_
  refine Keeps.bind (Keeps.forEach fun key hkey => ?_) fun _ => Keeps.pure _
  exact applySettings_keeps (hkeys key hkey) hs

theorem asAdmin_keeps {I : World → Prop} {refusal : String} {body : Win OperationResult}
    (h : Keeps env I body) : Keeps env I (asAdmin refusal body) := by
  refine Keeps.bind (fun w hw => ⟨trivial, hw⟩) fun admin => ?_
  exact Ensures.ite (fun _ => h) fun _ => Keeps.pure _

theorem optimizeWifiAdapter_keeps {key : String} (hkey : key ∈ adapterKeys w₀.registry) :
    Keeps env (Confined ans w₀) (optimizeWifiAdapter key) := by
  have hquery : ∀ name size, Keeps env (Confined ans w₀) (queryValue key name size) :=
    fun name size => Ensures.queryValue confined_numberless trivial fun _ _ => trivial
  have hdword : ∀ name, Keeps env (Confined ans w₀) (getDword key name) := fun name =>
    Keeps.bind (hquery name 4) fun _ => Keeps.pure _
  have hstring : ∀ name, Keeps env (Confined ans w₀) (getString key name) := fun name =>
    Keeps.bind (hquery name 1024) fun _ => Keeps.pure _
  have hwifi : Keeps env (Confined ans w₀) (isWifiAdapter key) := by
    refine Keeps.bind (hstring _) fun desc => ?_
    refine Ensures.ite (fun _ => Keeps.pure _) fun _ => ?_
    refine Keeps.bind (hdword _) fun ifType => ?_
    refine Ensures.ite (fun _ => Keeps.pure _) fun _ => ?_
    exact Keeps.bind (hdword _) fun mediaType => Keeps.pure _
  refine Keeps.bind hwifi fun wifi => Ensures.ite (fun _ => ?_) fun _ => Keeps.pure _
  exact Keeps.bind (applySettings_keeps hkey (by simp +contextual [adapterSettings])) fun _ => Keeps.pure _

theorem setWifiBackgroundScan_keeps (enabled : Bool) :
    Keeps env (Confined ans w₀) (setWifiBackgroundScan enabled) := by
  refine asAdmin_keeps ?_
  refine Keeps.bind (Ensures.call confined_numberless) fun opened => ?_
  refine Keeps.bind (Ensures.callIf confined_numberless _) fun listed => ?_
  refine Keeps.bind (fun w hw => ⟨trivial, hw⟩) fun interfaces => ?_
  refine Keeps.bind (Keeps.forEach fun i _ => ?_) fun set => Keeps.pure _
  refine Keeps.bind (Ensures.call confined_numberless) fun ok => ?_
  refine Ensures.ite (fun _ => ?_) fun _ => Keeps.pure _
  exact Keeps.bind (fun w hw => ⟨trivial, hw.keys, hw.values, hw.commands⟩) fun _ => Keeps.pure _

theorem optimizeAllNetworkAdapters_keeps :
    Keeps env (Confined ans w₀) optimizeAllNetworkAdapters := by
  have htune : ∀ settings, (∀ s ∈ settings, s ∈ adapterSettings) →
      Keeps env (Confined ans w₀) (tuneAdapters settings) := fun _ => tuneAdapters_keeps
  have hwifi : Keeps env (Confined ans w₀) optimizeWifiAdapters := by
    refine asAdmin_keeps (getAdapterClassKeys_ensures.bind fun keys hkeys => ?_)
    refine Keeps.bind (Keeps.forEach fun key hkey => ?_) fun _ => Keeps.pure _
    exact optimizeWifiAdapter_keeps (hkeys key hkey)
  refine Keeps.bind (asAdmin_keeps ?_) fun r1 => ?_
  · exact (htune interruptSettings (by simp +contextual [adapterSettings])).bind fun _ => Keeps.pure _
  refine Keeps.bind ((htune sendOffloadSettings (by simp +contextual [adapterSettings])).bind
    fun _ => Keeps.pure _) fun r2 => ?_
  refine Keeps.bind ((htune energySettings (by simp +contextual [adapterSettings])).bind
    fun _ => Keeps.pure _) fun r3 => ?_
  refine Keeps.bind ((htune bufferSettings (by simp +contextual [adapterSettings])).bind
    fun _ => Keeps.pure _) fun r4 => ?_
  refine Keeps.bind ((htune flowControlSettings (by simp +contextual [adapterSettings])).bind
    fun _ => Keeps.pure _) fun r5 => ?_
  refine Keeps.bind hwifi fun r6 => ?_
  exact Keeps.bind (setWifiBackgroundScan_keeps false) fun r7 => Keeps.pure _

/-! The link operations. -/

theorem systemReturnsZero_keeps {cmd : String} (h : Issuable ans cmd) :
    Keeps env (Confined ans w₀) (systemReturnsZero cmd) := by
  refine Keeps.bind (fun w hw => ⟨trivial, hw.keys, hw.values, ?_⟩) fun _ =>
    Ensures.call confined_numberless
  obtain ⟨added, hcommands, hissuable⟩ := hw.commands
  refine ⟨added ++ [cmd], ?_, ?_⟩
  · rw [modify_run, hcommands, List.append_assoc]
  · intro c hc
    rcases List.mem_append.mp hc with hc | hc
    · exact hissuable c hc
    · rwa [List.mem_singleton.mp hc]

/-- The commands for a physical entry of the list are issuable. -/
def Listed (ans : Answers) (nic : NetworkAdapterInfo) : Prop :=
  nic.isPhysical = true → ∀ cmd, InterfaceCommand nic.name cmd → Issuable ans cmd

theorem getActiveAdapters_ensures :
    Ensures env (Confined ans w₀) (getActiveAdapters ans) fun nics => ∀ nic ∈ nics, Listed ans nic := by
  refine (query_ensures confined_numberless ans.adapters).bind fun addresses haddresses => Ensures.pure ?_
  obtain ⟨n, rfl⟩ := haddresses
  intro nic hnic hphysical cmd hcmd
  obtain ⟨curr, hcurr, hinfo⟩ := List.mem_filterMap.mp hnic
  obtain ⟨hunprotected, hname⟩ := unprotected_of_physical hinfo hphysical
  cases hlist : ans.adapters n with
  | none => simp [hlist] at hcurr
  | some adapters =>
    rw [hlist, Option.getD_some] at hcurr
    rw [hname] at hcmd
    exact .inr ⟨n, adapters, curr, hlist, hcurr, hunprotected, hcmd⟩

theorem autoDetectAndApplyMtu_keeps (targetHost : String) :
    Keeps env (Confined ans w₀) (autoDetectAndApplyMtu ans targetHost) := by
  refine Keeps.bind (discoverOptimalMtu_ensures confined_numberless targetHost).keeps fun probe => ?_
  refine getActiveAdapters_ensures.bind fun adapters hadapters => ?_
  refine Ensures.ite (fun _ => Keeps.pure _) fun _ => ?_
  refine Keeps.bind (Keeps.forEach fun nic hnic => ?_) fun _ => Keeps.pure _
  obtain ⟨hmem, hphysical⟩ := List.mem_filter.mp hnic
  refine Ensures.ite (fun _ => Keeps.pure _) fun _ => ?_
  refine Keeps.bind (systemReturnsZero_keeps ?_) fun ok =>
    Ensures.ite (fun _ => Keeps.bind ?_ fun _ => Keeps.pure _) fun _ => Keeps.pure _
  · exact hadapters nic hmem hphysical _ (.mtu _)
  · exact fun w hw => ⟨trivial, hw.keys, hw.values, hw.commands⟩

theorem setDnsServers_keeps {nic : NetworkAdapterInfo} (hnic : Listed ans nic)
    (hphysical : nic.isPhysical = true) (primary secondary : String) :
    Keeps env (Confined ans w₀) (setDnsServers nic.name primary secondary) := by
  refine Ensures.ite (fun _ => Keeps.pure _) fun _ => ?_
  refine Keeps.bind (systemReturnsZero_keeps (hnic hphysical _ (.primaryDns _))) fun ret1 => ?_
  refine Keeps.bind (systemReturnsZero_keeps (hnic hphysical _ (.secondaryDns _))) fun ret2 => ?_
  refine Keeps.bind ((systemReturnsZero_keeps (.inl rfl)).bind fun _ => Keeps.pure _) fun _ => ?_
  exact Ensures.ite (fun _ => Keeps.pure _) fun _ => Keeps.pure _

theorem autoSelectFastestDns_keeps : Keeps env (Confined ans w₀) (autoSelectFastestDns ans) := by
  have hquery : ∀ {α : Type} (f : ℕ → α), Keeps env (Confined ans w₀) (query f) := fun f =>
    (query_ensures confined_numberless f).keeps
  have hshield : Keeps env (Confined ans w₀) (isShielded ans) :=
    Keeps.bind (hquery _) fun active => Ensures.ite (fun _ => Keeps.pure _) fun _ => hquery _
  refine Keeps.bind hshield fun shielded => ?_
  refine Ensures.ite (fun _ => Keeps.pure _) fun _ => ?_
  refine Keeps.bind ?_ fun results => ?_
  · refine Keeps.bind (Keeps.forEach fun prov _ => ?_) fun _ => Keeps.pure _
    exact Keeps.bind (Keeps.forEach fun _ _ => hquery _) fun _ => Keeps.pure _
  · cases results with
    | nil => exact Keeps.pure _
    | cons best rest =>
      refine Ensures.ite (fun _ => Keeps.pure _) fun _ => ?_
      refine getActiveAdapters_ensures.bind fun adapters hadapters => ?_
      refine Ensures.ite (fun _ => Keeps.pure _) fun _ => ?_
      refine Keeps.bind (Keeps.forEach fun nic hnic => ?_) fun _ => Keeps.pure _
      obtain ⟨hmem, hphysical⟩ := List.mem_filter.mp hnic
      exact setDnsServers_keeps (hadapters nic hmem) hphysical _ _

theorem runOperations_confined (env : Environment) (ans : Answers) (ops : List LinkOperation)
    (w₀ : World) : Confined ans w₀ (runOperations ans ops env w₀).2 := by
  have hkeeps : Keeps env (Confined ans w₀) (runOperations ans ops) := by
    refine Keeps.forEach fun op _ => ?_
    cases op with
    | optimizeAllNetworkAdapters => exact optimizeAllNetworkAdapters_keeps
    | autoDetectAndApplyMtu targetHost => exact autoDetectAndApplyMtu_keeps targetHost
    | autoSelectFastestDns => exact autoSelectFastestDns_keeps
  exact (hkeeps w₀ (Confined.refl ans w₀)).2

/-- A protected key is none that an operation may write in, nor above one. -/
theorem not_tunable_of_protected {r : Registry} {n : KeyName} (hn : n ∈ r.subKeys (path rootClass))
    (hprotected : IsProtected r n) {loc : Location} (hloc : path (classKey n.text) <+: loc.1) :
    ¬ Tunable r loc := by
  rintro ⟨key, hkey, s, -, rfl⟩
  obtain ⟨m, hm, rfl, desc, hdesc, hplain⟩ := mem_adapterKeys hkey
  have hpath : ∀ k : KeyName, path (classKey k.text) = path rootClass ++ [k.folded] := fun k =>
    path_entry rootClass k
  have hsame : n = m := by
    rw [hpath, hpath] at hloc
    have heq := hloc.eq_of_length (by simp)
    have hentry := r.eq_of_path (r.mem_subKeys.mp hn) (r.mem_subKeys.mp hm) heq
    exact congrArg KeyEntry.name hentry
  subst hsame
  rw [isVirtual_of_keyword (.inr (hprotected desc hdesc))] at hplain
  cases hplain

/-- Over any run of the operations, whatever fails: no value under a protected class key changes,
each command is for an unprotected adapter or flushes the resolver, no description changes, and
the protected keys stay the same. -/
theorem runOperations_protects (env : Environment) (ans : Answers) (ops : List LinkOperation)
    (w₀ : World) :
    let w := (runOperations ans ops env w₀).2
    (∀ n ∈ w₀.registry.subKeys (path rootClass), IsProtected w₀.registry n →
      ∀ loc, path (classKey n.text) <+: loc.1 →
        w.registry.values loc = w₀.registry.values loc) ∧
      (∃ added, w.commands = w₀.commands ++ added ∧ ∀ cmd ∈ added, Issuable ans cmd) ∧
      (∀ p, w.registry.values (p, fold "DriverDesc") = w₀.registry.values (p, fold "DriverDesc")) ∧
      w.registry.subKeys (path rootClass) = w₀.registry.subKeys (path rootClass) ∧
      ∀ n, IsProtected w.registry n ↔ IsProtected w₀.registry n := by
  intro w
  have h : Confined ans w₀ w := runOperations_confined env ans ops w₀
  refine ⟨fun n hn hprotected loc hloc => ?_, h.commands, h.driverDesc, h.subKeys _, fun n => ?_⟩
  · exact (h.values loc).resolve_right (not_tunable_of_protected hn hprotected hloc)
  · unfold IsProtected description
    rw [h.find]

/-! The tools that the command lines start. -/

/-- netsh and ipconfig store what they are told elsewhere than at or under the class key of the adapters. -/
structure LeavesClassKeys (tool : String → Registry → Registry) : Prop where
  values : ∀ cmd r loc, path rootClass <+: loc.1 → (tool cmd r).values loc = r.values loc
  subKeys : ∀ cmd r, (tool cmd r).subKeys (path rootClass) = r.subKeys (path rootClass)

/-- An operation, and what the tools that it has started do to the registry. -/
def LinkOperation.runWith (tool : String → Registry → Registry) (env : Environment) (ans : Answers)
    (w : World) (op : LinkOperation) : World :=
  let w' := (op.run ans env w).2
  { w' with registry := (w'.commands.drop w.commands.length).foldl (fun r cmd => tool cmd r) w'.registry }

/-- The class keys are the same, and what is at or under a protected one. -/
structure SparesProtected (ans : Answers) (w₀ w : World) : Prop where
  subKeys : w.registry.subKeys (path rootClass) = w₀.registry.subKeys (path rootClass)
  protected_iff : ∀ n, IsProtected w.registry n ↔ IsProtected w₀.registry n
  values : ∀ n ∈ w₀.registry.subKeys (path rootClass), IsProtected w₀.registry n →
    ∀ loc, path (classKey n.text) <+: loc.1 → w.registry.values loc = w₀.registry.values loc
  commands : ∃ added, w.commands = w₀.commands ++ added ∧ ∀ cmd ∈ added, Issuable ans cmd

theorem foldl_tool {tool : String → Registry → Registry} (htool : LeavesClassKeys tool) (cmds : List String)
    (r : Registry) :
    (∀ loc, path rootClass <+: loc.1 →
      (cmds.foldl (fun r cmd => tool cmd r) r).values loc = r.values loc) ∧
      (cmds.foldl (fun r cmd => tool cmd r) r).subKeys (path rootClass) = r.subKeys (path rootClass) := by
  induction cmds generalizing r with
  | nil => exact ⟨fun _ _ => rfl, rfl⟩
  | cons cmd cmds ih =>
    obtain ⟨hvalues, hkeys⟩ := ih (tool cmd r)
    exact ⟨fun loc hloc => (hvalues loc hloc).trans (htool.values cmd r loc hloc),
      hkeys.trans (htool.subKeys cmd r)⟩

theorem rootClass_above (n : KeyName) : path rootClass <+: path (classKey n.text) :=
  path_entry rootClass n ▸ List.prefix_append _ _

theorem SparesProtected.runWith {tool : String → Registry → Registry} (htool : LeavesClassKeys tool)
    (h : SparesProtected ans w₀ w) (op : LinkOperation) :
    SparesProtected ans w₀ (op.runWith tool env ans w) := by
  have hop : Confined ans w (op.run ans env w).2 := runOperations_confined env ans [op] w
  obtain ⟨hvalues, hkeys⟩ := foldl_tool htool ((op.run ans env w).2.commands.drop w.commands.length)
    (op.run ans env w).2.registry
  have hsubKeys := hkeys.trans (hop.subKeys _)
  refine ⟨hsubKeys.trans h.subKeys, fun n => ?_, fun n hn hprotected loc hloc => ?_, ?_⟩
  · rw [← h.protected_iff n]
    have hfind : (op.runWith tool env ans w).registry.find (classKey n.text) "DriverDesc" =
        w.registry.find (classKey n.text) "DriverDesc" :=
      (hvalues (path (classKey n.text), fold "DriverDesc") (rootClass_above n)).trans (hop.find _)
    unfold IsProtected description
    rw [hfind]
  · have hsame := hop.values loc
    have hnot := not_tunable_of_protected (h.subKeys ▸ hn) ((h.protected_iff n).mpr hprotected) hloc
    calc (op.runWith tool env ans w).registry.values loc
        = (op.run ans env w).2.registry.values loc := hvalues loc ((rootClass_above n).trans hloc)
      _ = w.registry.values loc := hsame.resolve_right hnot
      _ = w₀.registry.values loc := h.values n hn hprotected loc hloc
  · obtain ⟨added, hadded, hissuable⟩ := h.commands
    obtain ⟨more, hmore, hissuable'⟩ := hop.commands
    refine ⟨added ++ more, ?_, fun cmd hcmd => ?_⟩
    · have hcommands : (op.runWith tool env ans w).commands = w.commands ++ more := hmore
      rw [hcommands, hadded, List.append_assoc]
    · rcases List.mem_append.mp hcmd with hcmd | hcmd
      · exact hissuable cmd hcmd
      · exact hissuable' cmd hcmd

/-- Whatever the tools do elsewhere, the operations spare the protected class keys. -/
theorem runOperations_spares {tool : String → Registry → Registry} (htool : LeavesClassKeys tool)
    (env : Environment) (ans : Answers) (ops : List LinkOperation) (w₀ : World) :
    SparesProtected ans w₀ (ops.foldl (LinkOperation.runWith tool env ans) w₀) := by
  have hstart : SparesProtected ans w₀ w₀ :=
    ⟨rfl, fun _ => Iff.rfl, fun _ _ _ _ _ => rfl, [], (List.append_nil _).symm, by simp⟩
  suffices hrun : ∀ w, SparesProtected ans w₀ w →
      SparesProtected ans w₀ (ops.foldl (LinkOperation.runWith tool env ans) w) from hrun w₀ hstart
  induction ops with
  | nil => exact fun _ h => h
  | cons op ops ih => exact fun w h => ih _ (h.runWith htool op)

end Disping.Links
