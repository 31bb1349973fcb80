import Disping.Links.Protection
import Disping.Rollback.BackupManager
import Disping.Tweaks.NetworkReport

/-! # The choices of the menu

What main runs for a choice that changes the settings of the machine. The timer requests, the
processes and the launchers are not part of the machine here.
-/
namespace Disping.Program

open Hive Host Tweaks Rollback Links

section Comparison

/-- What a measurement reads from the registry and the resolvers; the figures of the timer, the
memory, the pings and the routines are left out. -/
structure BenchmarkMetrics where
  dnsResolutionMs : ℚ := 0
  nagleDisabled : Bool := false
  ackFrequencyOptimized : Bool := false
  networkThrottlingDisabled : Bool := false
  systemResponsivenessZero : Bool := false
  mmcssBoosted : Bool := false

def benchmarkDnsResolution (ans : Answers) : Win ℚ := do
  let results ← benchmarkDnsProviders ans 2
  pure (((results.find? DnsBenchmarkResult.reachable).map DnsBenchmarkResult.avgLatencyMs).getD 999)

/-- The flags of an interface: the value is there and is 1. -/
def measureInterface (g : String) : Win (Bool × Bool) := do
  let nodelay ← getDword (interfaceKey g) "TCPNoDelay"
  let ackfreq ← getDword (interfaceKey g) "TcpAckFrequency"
  pure (decide (nodelay = some 1), decide (ackfreq = some 1))

/-- Step 6 of a measurement. -/
def checkRegistryTweaks (m : BenchmarkMetrics) : Win BenchmarkMetrics := do
  let throttling ← getDword profileKey "NetworkThrottlingIndex"
  let responsiveness ← getDword profileKey "SystemResponsiveness"
  let guids ← enumerateSubKeys interfacesKey
  let flags ← forEach measureInterface guids
  let mmcssAffinity ← getDword taskGamesKey "GPU Priority"
  pure { m with
    nagleDisabled := flags.any Prod.fst
    ackFrequencyOptimized := flags.any Prod.snd
    networkThrottlingDisabled := decide (throttling = some 0xFFFFFFFF)
    systemResponsivenessZero := decide (responsiveness = some 0)
    mmcssBoosted := decide (mmcssAffinity = some 8) }

def measureMetrics (ans : Answers) : Win BenchmarkMetrics := do
  let dns ← benchmarkDnsResolution ans
  checkRegistryTweaks { dnsResolutionMs := dns }

/-- The optimizations between the two measurements, without the timer and the memory cleaner. -/
def comparisonTweaks : Win Unit := do
  let _ ← applyAllNetworkTweaks
  let _ ← optimizeAllNetworkAdapters
  let _ ← optimizeMMCSSGamesProfile
  let _ ← setupGamingQoSPolicies []
  pure ()

def runComparisonBenchmark (ans : Answers) : Win (BenchmarkMetrics × BenchmarkMetrics) := do
  let before ← measureMetrics ans
  let _ ← comparisonTweaks
  let after ← measureMetrics ans
  pure (before, after)

end Comparison

/-- A choice of the menu, or the argument of the command line that does the same. -/
inductive Operation
  /-- 1 and `--network` -/
  | networkTweaks
  /-- 2 and `--adapter` -/
  | adapterTuning
  /-- 3, without the timer itself -/
  | multimediaProfile
  /-- 5 and `--mtu` -/
  | mtu (targetHost : String)
  /-- 6 and `--dns` -/
  | dns
  /-- w and `--wifi` -/
  | wifiEngine
  /-- ! and `--all` -/
  | extremeBoost (isHighRam : Bool)
  /-- c and `--compare` -/
  | comparison
  /-- b -/
  | backup
  /-- r and `--restore` -/
  | restore
deriving DecidableEq

def Operation.run (ans : Answers) : Operation → Win Unit
  | networkTweaks => do
    let _ ← applyAllNetworkTweaks
    pure ()
  | adapterTuning => do
    let _ ← optimizeAllNetworkAdapters
    pure ()
  | multimediaProfile => do
    let _ ← optimizeMMCSSGamesProfile
    pure ()
  | mtu targetHost => do
    let _ ← autoDetectAndApplyMtu ans targetHost
    pure ()
  | dns => do
    let _ ← autoSelectFastestDns ans
    pure ()
  | wifiEngine => do
    let _ ← optimizeWifiAdapters
    let _ ← setWifiBackgroundScan false
    let _ ← disableLocationServices
    pure ()
  | extremeBoost isHighRam => executeExtremeBoost isHighRam
  | comparison => do
    let _ ← runComparisonBenchmark ans
    pure ()
  | backup => do
    let _ ← createBackup backupPath
    pure ()
  | restore => do
    let _ ← restoreFactoryDefaults
    pure ()

def runSession (ans : Answers) (ops : List Operation) : Win (List Unit) :=
  forEach (Operation.run ans) ops

/-- No adapter, no process and no server answers. -/
def noAnswers : Answers where
  adapters _ := none
  view _ := ⟨none, none⟩
  echo _ _ _ := ⟨false, none, none, 0, 0⟩
  latency _ _ := 9999

/-- A property of the registry as an invariant of the machine. -/
def Over (P : Registry → Prop) (w : World) : Prop := P w.registry

variable {env : Environment} {ans : Answers} {P : Registry → Prop}

theorem over_numberless : Numberless (Over P) := fun _ _ h => h

section Reading
variable {I : World → Prop} (hI : Numberless I)
include hI

theorem queryValue_keeps (key name : String) (size : ℕ) : Keeps env I (queryValue key name size) :=
  Ensures.queryValue hI trivial fun _ _ => trivial

theorem getDword_keeps (key name : String) : Keeps env I (getDword key name) :=
  Keeps.bind (queryValue_keeps hI key name 4) fun _ => Keeps.pure _

theorem getString_keeps (key name : String) : Keeps env I (getString key name) :=
  Keeps.bind (queryValue_keeps hI key name 1024) fun _ => Keeps.pure _

theorem enumerateSubKeys_keeps (key : String) : Keeps env I (enumerateSubKeys key) :=
  (Ensures.enumerateSubKeys (P := fun _ => True) hI trivial fun _ _ _ _ => trivial).keeps

theorem query_keeps {α : Type} (f : ℕ → α) : Keeps env I (query f) := (query_ensures hI f).keeps

theorem getActiveAdapters_keeps : Keeps env I (getActiveAdapters ans) :=
  Keeps.bind (query_keeps hI _) fun _ => Keeps.pure _

theorem benchmarkDnsProviders_keeps (iterations : ℕ) :
    Keeps env I (benchmarkDnsProviders ans iterations) := by
  refine Keeps.bind (Keeps.forEach fun prov _ => ?_) fun _ => Keeps.pure _
  exact Keeps.bind (Keeps.forEach fun _ _ => query_keeps hI _) fun _ => Keeps.pure _

theorem isShielded_keeps : Keeps env I (isShielded ans) :=
  Keeps.bind (query_keeps hI _) fun _ => Ensures.ite (fun _ => Keeps.pure _) fun _ => query_keeps hI _

theorem measureMetrics_keeps : Keeps env I (measureMetrics ans) := by
  have hinterface : ∀ g, Keeps env I (measureInterface g) := fun g =>
    Keeps.bind (getDword_keeps hI _ _) fun _ => Keeps.bind (getDword_keeps hI _ _) fun _ => Keeps.pure _
  have hdns : Keeps env I (benchmarkDnsResolution ans) :=
    Keeps.bind (benchmarkDnsProviders_keeps hI 2) fun _ => Keeps.pure _
  refine Keeps.bind hdns fun dns => ?_
  refine Keeps.bind (getDword_keeps hI _ _) fun throttling => ?_
  refine Keeps.bind (getDword_keeps hI _ _) fun responsiveness => ?_
  refine Keeps.bind (enumerateSubKeys_keeps hI _) fun guids => ?_
  refine Keeps.bind (Keeps.forEach fun g _ => hinterface g) fun flags => ?_
  exact Keeps.bind (getDword_keeps hI _ _) fun mmcssAffinity => Keeps.pure _

end Reading

section Quiet

theorem modify_over {f : World → World} (h : ∀ w, (f w).registry = w.registry) :
    Keeps env (Over P) (modify f) := by
  intro w hw
  refine ⟨trivial, ?_⟩
  unfold Over
  rwa [modify_run, h]

theorem optimizeTcpGlobalNetsh_over : Keeps env (Over P) optimizeTcpGlobalNetsh := by
  intro w hw
  refine ⟨trivial, ?_⟩
  unfold Over
  rwa [optimizeTcpGlobalNetsh_registry]

theorem setWifiBackgroundScan_over (enabled : Bool) :
    Keeps env (Over P) (setWifiBackgroundScan enabled) := by
  refine asAdmin_keeps ?_
  refine Keeps.bind (Ensures.call over_numberless) fun opened => ?_
  refine Keeps.bind (Ensures.callIf over_numberless _) fun listed => ?_
  refine Keeps.bind (fun w hw => ⟨trivial, hw⟩) fun interfaces => ?_
  refine Keeps.bind (Keeps.forEach fun i _ => ?_) fun set => Keeps.pure _
  refine Keeps.bind (Ensures.call over_numberless) fun ok => ?_
  refine Ensures.ite (fun _ => ?_) fun _ => Keeps.pure _
  exact Keeps.bind (fun w hw => ⟨trivial, hw⟩) fun _ => Keeps.pure _

theorem createBackup_over (backup : String) : Keeps env (Over P) (createBackup backup) := by
  have hwrite : ∀ name lines, Keeps env (Over P) (writeFile name lines) := fun name lines =>
    (Ensures.call over_numberless).bind fun _ =>
      Ensures.ite (fun _ => Keeps.bind (modify_over fun _ => rfl) fun _ => Keeps.pure _) fun _ => Keeps.pure _
  refine (Ensures.call over_numberless).bind fun _ => Ensures.ite (fun _ => ?_) fun _ => Keeps.pure _
  refine Keeps.bind (modify_over fun _ => rfl) fun _ => ?_
  refine Keeps.bind (getDword_keeps over_numberless _ _) fun throttle => ?_
  refine Keeps.bind (getDword_keeps over_numberless _ _) fun resp => ?_
  refine Keeps.bind (fun w hw => ⟨trivial, hw⟩) fun text => ?_
  refine Keeps.bind (modify_over fun _ => rfl) fun _ => ?_
  refine Keeps.bind ?_ fun _ => Keeps.pure _
  exact Keeps.bind (hwrite _ _) fun written => Ensures.ite (fun _ => Keeps.pure _) fun _ => Keeps.pure _

/-! The link operations start commands, and change the MTU of interfaces. -/

theorem systemReturnsZero_over (cmd : String) : Keeps env (Over P) (systemReturnsZero cmd) :=
  Keeps.bind (modify_over fun _ => rfl) fun _ => Ensures.call over_numberless

theorem autoDetectAndApplyMtu_over (targetHost : String) :
    Keeps env (Over P) (autoDetectAndApplyMtu ans targetHost) := by
  refine Keeps.bind (discoverOptimalMtu_ensures over_numberless targetHost).keeps fun probe => ?_
  refine Keeps.bind (getActiveAdapters_keeps over_numberless) fun adapters => ?_
  refine Ensures.ite (fun _ => Keeps.pure _) fun _ => ?_
  refine Keeps.bind (Keeps.forEach fun nic _ => ?_) fun _ => Keeps.pure _
  refine Ensures.ite (fun _ => Keeps.pure _) fun _ => ?_
  refine Keeps.bind (systemReturnsZero_over _) fun ok => Ensures.ite (fun _ => ?_) fun _ => Keeps.pure _
  exact Keeps.bind (modify_over fun _ => rfl) fun _ => Keeps.pure _

theorem autoSelectFastestDns_over : Keeps env (Over P) (autoSelectFastestDns ans) := by
  have hset : ∀ name primary secondary, Keeps env (Over P) (setDnsServers name primary secondary) := by
    intro name primary secondary
    refine Ensures.ite (fun _ => Keeps.pure _) fun _ => ?_
    refine Keeps.bind (systemReturnsZero_over _) fun ret1 => ?_
    refine Keeps.bind (systemReturnsZero_over _) fun ret2 => ?_
    refine Keeps.bind ((systemReturnsZero_over _).bind fun _ => Keeps.pure _) fun _ => ?_
    exact Ensures.ite (fun _ => Keeps.pure _) fun _ => Keeps.pure _
  refine Keeps.bind (isShielded_keeps over_numberless) fun shielded => ?_
  refine Ensures.ite (fun _ => Keeps.pure _) fun _ => ?_
  refine Keeps.bind (benchmarkDnsProviders_keeps over_numberless 3) fun results => ?_
  cases results with
  | nil => exact Keeps.pure _
  | cons best rest =>
    refine Ensures.ite (fun _ => Keeps.pure _) fun _ => ?_
    refine Keeps.bind (getActiveAdapters_keeps over_numberless) fun adapters => ?_
    refine Ensures.ite (fun _ => Keeps.pure _) fun _ => ?_
    exact Keeps.bind (Keeps.forEach fun nic _ => hset _ _ _) fun _ => Keeps.pure _

end Quiet

end Disping.Program
