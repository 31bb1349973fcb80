import Disping.Program.Menu

/-! # Starts of the program

An argument makes main carry out one command and return; without one, or with one that it does not
know, main runs the menu. A machine sees many starts, and every start finds what the ones before it
left.
-/
namespace Disping.Program

open Hive Host Tweaks Rollback Links Shield Transition

/-- The branches of main for its first argument. -/
inductive Command
  | all
  | network
  | adapter
  | wifi
  | heal
  | timer
  | ping
  | mtu (host : String)
  | dns
  | games
  | cleanMem
  | restore
  | compare
  | vpnCheck
  | status
  | hardware
  | version

/-- The arguments after the name of the program; none where the menu runs. -/
def parseArguments : List String → Option Command
  | [] => none
  | arg :: rest =>
    if arg = "--all" ∨ arg = "-a" then some .all
    else if arg = "--network" ∨ arg = "-n" then some .network
    else if arg = "--adapter" then some .adapter
    else if arg = "--wifi" ∨ arg = "-w" then some .wifi
    else if arg = "--heal" ∨ arg = "--fix-steam" ∨ arg = "-f" then some .heal
    else if arg = "--timer" then some .timer
    else if arg = "--ping" then some .ping
    else if arg = "--mtu" then some (.mtu (rest.head?.getD "1.1.1.1"))
    else if arg = "--dns" then some .dns
    else if arg = "--games" then some .games
    else if arg = "--clean-mem" then some .cleanMem
    else if arg = "--restore" ∨ arg = "-r" then some .restore
    else if arg = "--compare" ∨ arg = "--benchmark" ∨ arg = "-c" then some .compare
    else if arg = "--vpn-check" ∨ arg = "--check-vpn" ∨ arg = "--vpn" then some .vpnCheck
    else if arg = "--status" ∨ arg = "-s" then some .status
    else if arg = "--hardware" ∨ arg = "-hw" then some .hardware
    else if arg = "--version" ∨ arg = "-v" then some .version
    else none

/-- A command and its exit code. The launchers, the timer, the pings, the games, the memory and the
reports are not part of the machine here. -/
def Command.run (ans : Answers) (isHighRam : Bool) : Command → Win ℕ
  | all => do
    executeExtremeBoost isHighRam
    pure 0
  | network => do
    let r ← applyAllNetworkTweaks
    pure (if r.success then 0 else 1)
  | adapter => do
    let r ← optimizeAllNetworkAdapters
    pure (if r.success then 0 else 1)
  | wifi => do
    let _ ← optimizeWifiAdapters
    let _ ← setWifiBackgroundScan false
    let _ ← disableLocationServices
    pure 0
  | mtu host => do
    let _ ← autoDetectAndApplyMtu ans host
    pure 0
  | dns => do
    let _ ← benchmarkDnsProviders ans 3
    let _ ← autoSelectFastestDns ans
    pure 0
  | restore => do
    let _ ← restoreFactoryDefaults
    pure 0
  | compare => do
    let _ ← runComparisonBenchmark ans
    pure 0
  | status => do
    displayMenu ans
    pure 0
  | heal | timer | ping | games | cleanMem | vpnCheck | hardware | version => pure 0

/-- The operation behind a command. -/
def Command.operation (isHighRam : Bool) : Command → Option Operation
  | all => some (.extremeBoost isHighRam)
  | network => some .networkTweaks
  | adapter => some .adapterTuning
  | wifi => some .wifiEngine
  | mtu host => some (.mtu host)
  | dns => some .dns
  | restore => some .restore
  | compare => some .comparison
  | heal | timer | ping | games | cleanMem | vpnCheck | status | hardware | version => none

/-- The inputs at the menu that do the same, a yes to the question and the key that leaves included. -/
def Command.inputs : Command → List Input
  | all => [.key '!', .key ' ', .key 'q']
  | network => [.key '1', .key ' ', .key 'q']
  | adapter => [.key '2', .key ' ', .key 'q']
  | wifi => [.key 'w', .key ' ', .key 'q']
  | mtu _ => [.key '5', .key 'y', .key ' ', .key 'q']
  | dns => [.key '6', .key 'y', .key ' ', .key 'q']
  | restore => [.key 'r', .key 'y', .key ' ', .key 'q']
  | compare => [.key 'c', .key ' ', .key 'q']
  | heal => [.key 'f', .key ' ', .key 'q']
  | ping => [.key '7', .key ' ', .key 'q']
  | games => [.key '4', .key ' ', .key 'q']
  | cleanMem => [.key '8', .key ' ', .key 'q']
  | vpnCheck => [.key 'v', .key ' ', .key 'q']
  | status => [.key 's', .key ' ', .key 'q']
  | hardware => [.key 'h', .key ' ', .key 'q']
  | timer | version => [.key 'q']

/-- A start: the system that it meets, its arguments and what is typed if the menu runs. -/
structure Start where
  env : Environment
  ans : Answers
  isHighRam : Bool
  args : List String
  inputs : List Input

/-- The machine after the menu; none where the inputs do not fit the screens. -/
def runMenu (env : Environment) (ans : Answers) (isHighRam : Bool) (w : World) (inputs : List Input) :
    Option Main :=
  Transition.run (Main.step env ans isHighRam) ⟨.menu, (displayMenu ans env w).2⟩ inputs

def Start.run (w : World) (s : Start) : Option World :=
  match parseArguments s.args with
  | some command => some (command.run s.ans s.isHighRam s.env w).2
  | none => (runMenu s.env s.ans s.isHighRam w s.inputs).map Main.world

/-- What the user chose in a start. -/
def Start.operations (s : Start) : List Operation :=
  match parseArguments s.args with
  | some command => (command.operation s.isHighRam).toList
  | none => Screen.menu.session s.isHighRam s.inputs

/-- The start has the rights, and its calls succeed. -/
def Start.Granted (s : Start) : Prop := s.env.admin = true ∧ s.env.AllSucceed

variable {env : Environment} {ans : Answers} {isHighRam : Bool} {loc : Location}

/-! Commands and the menu. -/

theorem displayMenu_registry (ans : Answers) (w : World) : (displayMenu ans env w).2.registry = w.registry :=
  registry_of_over (fun _ => displayMenu_keeps over_numberless) w

/-- What a command reads first does not matter for the registry. -/
theorem Command.run_registry (command : Command) (w : World) :
    ∃ v : World, v.registry = w.registry ∧ (command.run ans isHighRam env w).2.registry =
      (carryOut ans (command.operation isHighRam) env v).2.registry := by
  cases command with
  | dns =>
    exact ⟨(benchmarkDnsProviders ans 3 env w).2,
      registry_of_over (fun _ => benchmarkDnsProviders_keeps over_numberless 3) w, rfl⟩
  | status => exact ⟨w, rfl, displayMenu_registry ans w⟩
  | _ => exact ⟨w, rfl, rfl⟩

/-- An operation that may be missing. -/
theorem carryOut_effect (admin : env.admin = true) (ok : env.AllSucceed) (ans : Answers)
    (op : Option Operation) (w : World) : SameLists w.registry (carryOut ans op env w).2.registry ∧
      ∀ loc : Location, ¬ path qosRoot <+: loc.1 → (carryOut ans op env w).2.registry.values loc =
        (op.bind fun op => op.effectAt w.registry loc).getD (w.registry.values loc) := by
  cases op with
  | none => exact ⟨SameLists.refl _, fun _ _ => rfl⟩
  | some op => exact op.run_effect admin ok ans w

theorem Command.run_effect (admin : env.admin = true) (ok : env.AllSucceed) (ans : Answers)
    (command : Command) (w : World) :
    SameLists w.registry (command.run ans isHighRam env w).2.registry ∧
      ∀ loc : Location, ¬ path qosRoot <+: loc.1 → (command.run ans isHighRam env w).2.registry.values loc =
        ((command.operation isHighRam).bind fun op => op.effectAt w.registry loc).getD
          (w.registry.values loc) := by
  obtain ⟨v, hv, hrun⟩ := @Command.run_registry env ans isHighRam command w
  rw [hrun, ← hv]
  exact carryOut_effect admin ok ans _ v

theorem runMenu_effect (admin : env.admin = true) (ok : env.AllSucceed) {w : World} {is : List Input} {m : Main}
    (h : runMenu env ans isHighRam w is = some m) : SameLists w.registry m.world.registry ∧
      ∀ r₀, SameLists r₀ w.registry → ∀ loc : Location, ¬ path qosRoot <+: loc.1 →
        m.world.registry.values loc =
          (((Screen.menu.session isHighRam is).filterMap fun op => op.effectAt r₀ loc).getLast?).getD
            (w.registry.values loc) := by
  have hshown := @displayMenu_registry env ans w
  have hlists : SameLists w.registry (displayMenu ans env w).2.registry := by
    rw [hshown]
    exact SameLists.refl _
  refine ⟨?_, fun r₀ hr₀ loc hloc => ?_⟩
  · refine run_invariant (I := fun u : Main => SameLists w.registry u.world.registry)
      (fun u i u' hu _ hstep => ?_) along_true hlists h
    obtain ⟨s, -, rfl⟩ := Option.map_eq_some_iff.mp hstep
    exact hu.trans (respond_effect admin ok ans isHighRam u.screen i u.world).1
  · rw [← hshown]
    exact SameLists.typed admin ok hloc (hr₀.trans hlists) h

/-- The last of the operations that concern a place, and what it makes of it. -/
def lastEffect (r : Registry) (loc : Location) (ops : List Operation) : Option (Option RegValue) :=
  (ops.filterMap fun op => op.effectAt r loc).getLast?

theorem lastEffect_toList (r : Registry) (loc : Location) (op : Option Operation) :
    lastEffect r loc op.toList = op.bind fun op => op.effectAt r loc := by
  cases op with
  | none => rfl
  | some op =>
    rw [lastEffect, Option.toList_some, List.filterMap_cons, List.filterMap_nil, Option.bind_some]
    cases op.effectAt r loc <;> rfl

theorem lastEffect_append (r : Registry) (loc : Location) (ops ops' : List Operation) :
    lastEffect r loc (ops ++ ops') = (lastEffect r loc ops').or (lastEffect r loc ops) := by
  rw [lastEffect, List.filterMap_append, List.getLast?_append]
  rfl

theorem Start.run_effect {s : Start} (granted : s.Granted) {r₀ : Registry} {w w' : World}
    (hlists : SameLists r₀ w.registry) (h : s.run w = some w') : SameLists r₀ w'.registry ∧
      ∀ loc : Location, ¬ path qosRoot <+: loc.1 →
        w'.registry.values loc = (lastEffect r₀ loc s.operations).getD (w.registry.values loc) := by
  unfold Start.run at h
  unfold Start.operations
  cases hargs : parseArguments s.args with
  | some command =>
    rw [hargs] at h
    cases h
    obtain ⟨hkept, hvalue⟩ := @Command.run_effect _ s.isHighRam granted.1 granted.2 s.ans command w
    refine ⟨hlists.trans hkept, fun loc hloc => ?_⟩
    rw [hvalue loc hloc, lastEffect_toList]
    simp only [hlists.effectAt]
  | none =>
    rw [hargs] at h
    obtain ⟨m, hm, rfl⟩ := Option.map_eq_some_iff.mp h
    obtain ⟨hkept, hvalue⟩ := runMenu_effect granted.1 granted.2 hm
    exact ⟨hlists.trans hkept, hvalue r₀ hlists⟩

theorem starts_effect {starts : List Start} (granted : ∀ s ∈ starts, s.Granted) {r₀ : Registry} {w w' : World}
    (hlists : SameLists r₀ w.registry) (h : Transition.run (fun w s => Start.run w s) w starts = some w')
    (hloc : ¬ path qosRoot <+: loc.1) : w'.registry.values loc =
      (lastEffect r₀ loc (starts.flatMap Start.operations)).getD (w.registry.values loc) := by
  induction starts generalizing w with
  | nil =>
    cases h
    rfl
  | cons s starts ih =>
    obtain ⟨u, hu, hrun⟩ := run_cons h
    obtain ⟨hkept, hvalue⟩ := Start.run_effect (granted s (by simp)) hlists hu
    rw [ih (fun s' hs' => granted s' (by simp [hs'])) hkept hrun, hvalue loc hloc, List.flatMap_cons,
      lastEffect_append]
    cases lastEffect r₀ loc (starts.flatMap Start.operations) <;> rfl

/-- Over all starts of the program, by command or from the menu: at every place outside of the policies the
last chosen operation that concerns it decides. -/
theorem starts_values {starts : List Start} (granted : ∀ s ∈ starts, s.Granted) {w w' : World}
    (h : Transition.run Start.run w starts = some w') (loc : Location) (hloc : ¬ path qosRoot <+: loc.1) :
    w'.registry.values loc =
      (lastEffect w.registry loc (starts.flatMap Start.operations)).getD (w.registry.values loc) :=
  starts_effect granted (SameLists.refl w.registry) h hloc

/-- A start of the user of an elevated console. -/
def startWith (args : List String) (inputs : List Input) : Start where
  env := adminEnvironment
  ans := noAnswers
  isHighRam := true
  args := args
  inputs := inputs

/-- The tweaks by command, and the defaults from the menu after an argument that main does not know. -/
theorem starts_values_tweakThenRestore : ∃ w,
    Transition.run Start.run (worldWith .empty)
        [startWith ["-n"] [], startWith ["--undo"] [.key 'r', .key 'y', .key ' ', .key 'q']] = some w ∧
      w.registry.values (path profileKey, fold "NoLazyMode") = some (regDword 1) := by
  obtain ⟨w, hw⟩ : ∃ w, Transition.run Start.run (worldWith .empty)
      [startWith ["-n"] [], startWith ["--undo"] [.key 'r', .key 'y', .key ' ', .key 'q']] = some w := ⟨_, rfl⟩
  refine ⟨w, hw, ?_⟩
  have hgranted : ∀ s ∈ [startWith ["-n"] [], startWith ["--undo"] [.key 'r', .key 'y', .key ' ', .key 'q']],
      s.Granted := by
    intro s hs
    simp only [List.mem_cons, List.not_mem_nil, or_false] at hs
    rcases hs with rfl | rfl <;> exact ⟨rfl, fun _ => rfl⟩
  rw [starts_values hgranted hw _ profileKey_beside.2.2]
  decide +kernel

/-- A command leaves what its inputs at the menu leave, and the menu comes to its end. -/
theorem command_inputs (admin : env.admin = true) (ok : env.AllSucceed) (ans : Answers) (isHighRam : Bool)
    (command : Command) (w : World) : ∃ m, runMenu env ans isHighRam w command.inputs = some m ∧
      m.screen = .left ∧ ∀ loc : Location, ¬ path qosRoot <+: loc.1 →
        m.world.registry.values loc = (command.run ans isHighRam env w).2.registry.values loc := by
  have hends : ∃ m, runMenu env ans isHighRam w command.inputs = some m ∧ m.screen = .left := by
    cases command <;> exact ⟨_, rfl, rfl⟩
  obtain ⟨m, hm, hleft⟩ := hends
  refine ⟨m, hm, hleft, fun loc hloc => ?_⟩
  have hoperation : lastEffect w.registry loc (Screen.menu.session isHighRam command.inputs) =
      lastEffect w.registry loc (command.operation isHighRam).toList := by
    cases command <;> rfl
  have htyped := (runMenu_effect admin ok hm).2 w.registry (SameLists.refl _) loc hloc
  rw [(Command.run_effect admin ok ans command w).2 loc hloc, ← lastEffect_toList, ← hoperation]
  exact htyped

theorem command_inputs_restore : ∃ m,
    runMenu adminEnvironment noAnswers true (worldWith .empty) (Command.inputs .restore) = some m ∧
      m.screen = .left ∧ ∀ loc : Location, ¬ path qosRoot <+: loc.1 →
        m.world.registry.values loc =
          (Command.restore.run noAnswers true adminEnvironment (worldWith .empty)).2.registry.values loc :=
  command_inputs rfl (fun _ => rfl) noAnswers true .restore (worldWith .empty)

end Disping.Program
